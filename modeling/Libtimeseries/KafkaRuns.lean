import Libtimeseries.Base.Runs
import Libtimeseries.KafkaFlush

/-!
# Runs of a Kafka producer

Any sequence of flushes and single writes through one connected backend, with any
results of `rd_kafka_produce`. Whatever reached Kafka is a list of batches.
-/

namespace Libtimeseries

open ByteLib RunLib

namespace Kafka

/-- A call that produces messages. -/
inductive ProducerCall where
  | kpFlush (kp : Kp) (time : UInt32)
  | setSingle (key : CString) (value : UInt64) (time : UInt32)

namespace ProducerCall

/-- The time of a call. -/
def time : ProducerCall → UInt32
  | kpFlush _ time => time
  | setSingle _ _ time => time

/-- Every key of a call is a C string shorter than `n`. -/
def KeysShorter (n : Nat) : ProducerCall → Prop
  | kpFlush kp _ => ∀ ki ∈ kp.keyInfos, (0 : UInt8) ∉ ki.key ∧ ki.key.length < n
  | setSingle key _ _ => key.strlen < n

/-- Make a call. -/
def step (st : State) : ProducerCall → State
  | kpFlush kp time => (Kafka.kpFlush kp time st).2.2
  | setSingle key value time => (Kafka.setSingle st key value time).2

end ProducerCall

/-- A batch one of the calls can have sent. -/
structure Batch.Producible (b : Batch) (conf : Conf) (n : Nat) : Prop where
  sentAt : b.SentAt b.time conf
  time : b.time ≠ 0
  keys : ∀ r ∈ b.records, (0 : UInt8) ∉ r.1 ∧ r.1.length < n

/-- An idle backend whose messages are these batches. -/
structure Produced (st : State) (conf : Conf) (n : Nat) (sent : List Batch) : Prop where
  sameConf : st.conf = conf
  empty : st.bufferWritten = 0
  messages : st.messages = sent.map (Batch.message conf.channelName.bytes)
  batches : ∀ b ∈ sent, b.Producible conf n

theorem produced_init (conf : Conf) (n : Nat) (results : List ProduceResult) :
    Produced (State.init conf results) conf n [] :=
  ⟨rfl, rfl, rfl, List.forall_mem_nil _⟩

theorem enabledPairs_keys {kp : Kp} {n : Nat}
    (h : ∀ ki ∈ kp.keyInfos, (0 : UInt8) ∉ ki.key ∧ ki.key.length < n) :
    ∀ r ∈ kp.enabledPairs, (0 : UInt8) ∉ r.1 ∧ r.1.length < n := by
  intro r hr
  obtain ⟨ki, hki, rfl⟩ := List.mem_map.mp hr
  obtain ⟨hnul, hlen⟩ := h ki (List.mem_of_mem_filter hki)
  rw [show ki.name = ki.key from cstr_of_nulFree hnul]
  exact ⟨hnul, hlen⟩

/-- What a call sends joins the batches. -/
theorem Produced.extend {st st' : State} {conf : Conf} {n : Nat} {sent new : List Batch}
    (h : Produced st conf n sent) {time : UInt32} (htime : time ≠ 0)
    (hsends : Sends st st' time new)
    (hkeys : ∀ r ∈ recordsOf new, (0 : UInt8) ∉ r.1 ∧ r.1.length < n) :
    Produced st' conf n (sent ++ new) := by
  have hconf := h.sameConf
  subst hconf
  constructor
  · exact hsends.conf
  · exact hsends.empty
  · rw [hsends.messages, h.messages, List.map_append]
  · intro b hb
    rcases List.mem_append.mp hb with hb | hb
    · exact h.batches b hb
    · have hsent := hsends.sentOk b hb
      rw [← hsent.time] at htime hsent
      refine ⟨hsent, htime, ?_⟩
      intro r hr
      exact hkeys r (List.mem_flatMap_of_mem hb hr)

/-- One call, whatever the results of producing are. -/
theorem Produced.step {st : State} {conf : Conf} {n : Nat} {sent : List Batch}
    (h : Produced st conf n sent) (hfmt : conf.format ≠ .ascii) (hn : n ≤ 65535)
    {c : ProducerCall} (htime : c.time ≠ 0) (hkeys : c.KeysShorter n) :
    ∃ sent', Produced (c.step st) conf n sent' := by
  have hfmt' : st.conf.format ≠ .ascii := h.sameConf ▸ hfmt
  cases c with
  | kpFlush kp time =>
    obtain ⟨new, hsends, hres⟩ := kpFlush_spec hfmt' h.empty
      (fun ki hki => ⟨(hkeys ki hki).1, Nat.lt_of_lt_of_le (hkeys ki hki).2 hn⟩) time
    refine ⟨sent ++ new, h.extend htime hsends ?_⟩
    intro r hr
    refine enabledPairs_keys hkeys r ?_
    rcases hres with ⟨-, hrecords⟩ | ⟨-, -, hpre⟩
    · exact hrecords ▸ hr
    · exact hpre.subset hr
  | setSingle key value time =>
    obtain ⟨new, hsends, hres⟩ := setSingle_spec hfmt' h.empty
      (Nat.lt_of_lt_of_le hkeys hn) value time
    refine ⟨sent ++ new, h.extend htime hsends ?_⟩
    intro r hr
    rcases hres with ⟨-, hrecords⟩ | ⟨-, -, hnil⟩
    · rw [hrecords] at hr
      rw [List.mem_singleton.mp hr]
      exact ⟨key.nulFree, hkeys⟩
    · rw [hnil] at hr
      exact absurd hr List.not_mem_nil

/-- **What reaches Kafka**: after any run of calls, a list of batches. -/
theorem produced_run (conf : Conf) (hfmt : conf.format ≠ .ascii) (results : List ProduceResult)
    {n : Nat} (hn : n ≤ 65535) (calls : List ProducerCall)
    (hcalls : ∀ c ∈ calls, c.time ≠ 0 ∧ c.KeysShorter n) :
    ∃ sent, Produced (run ProducerCall.step (State.init conf results) calls) conf n sent := by
  have hrun : ∀ (st : State) (sent : List Batch), Produced st conf n sent →
      ∃ sent', Produced (run ProducerCall.step st calls) conf n sent' := by
    induction calls with
    | nil => exact fun st sent h => ⟨sent, h⟩
    | cons c calls ih =>
      intro st sent h
      obtain ⟨⟨htime, hkeys⟩, hcalls'⟩ := List.forall_mem_cons.mp hcalls
      obtain ⟨sent', h'⟩ := h.step hfmt hn htime hkeys
      exact ih hcalls' _ sent' h'
  exact hrun _ _ (produced_init conf n results)

end Kafka

end Libtimeseries
