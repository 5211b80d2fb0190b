import Libtimeseries.KafkaRuns
import Libtimeseries.TskMessage

/-!
# From the Kafka backend to the proxy

A flush of the Kafka backend is a sequence of batches (`kpFlush_spec`), and each
batch is a well-formed message for a proxy of the same channel. Read in the order
of their production, they write the enabled keys of the flushed package.
-/

namespace Libtimeseries

open ByteLib RunLib

namespace TskProxy

variable {W : Type}

/-! ## Batches as messages -/

/-- The message a batch was sent as. -/
def messageOf {cfg : Config} {conf : Kafka.Conf} (hchannel : cfg.kafkaChannel = conf.channelName)
    {b : Kafka.Batch} {time : UInt32} (hsent : b.SentAt time conf)
    (hkeys : ∀ r ∈ b.records, (0 : UInt8) ∉ r.1 ∧ r.1.length < keyBufLen) : Message cfg where
  magic := Tsk.batchMagic
  time := b.time
  channel := conf.channelName.bytes
  records := b.records
  magic_length := batchMagic_length
  channel_lt := Nat.lt_trans conf.channel_lt (by decide)
  accepted := by rw [hchannel]
  keys := hkeys
  size_lt := Nat.lt_of_le_of_lt hsent.fits (by decide)

/-- The payload of a batch. -/
def payloadOf (conf : Kafka.Conf) (b : Kafka.Batch) : Bytes :=
  (b.message conf.channelName.bytes).1

/-- A group that is open for the time of a message goes on. -/
theorem maybeFlush_again (p : Proxy W) {time : Int32} {s : State W} (h : s.currentTime = time) :
    (p.maybeFlush time s).1 = .ok := by
  by_cases hzero : s.currentTime = 0
  · rw [maybeFlush_idle p time hzero]
  · rw [maybeFlush_same p time hzero h.symm]

/-- What the proxy does for a batch. -/
def batchEvents (b : Kafka.Batch) : List Event :=
  .maybeFlush b.time.toInt32 :: b.records.map fun r => .apply (CString.ofBytes r.1) r.2

section Feed

variable {p : Proxy W} {conf : Kafka.Conf} {time : UInt32}

/-- One batch. -/
theorem handleMessage_batch (hfilters : p.cfg.filters = [])
    (hchannel : p.cfg.kafkaChannel = conf.channelName) {b : Kafka.Batch}
    (hsent : b.SentAt time conf)
    (hkeys : ∀ r ∈ b.records, (0 : UInt8) ∉ r.1 ∧ r.1.length < keyBufLen) {s : State W}
    (hwf : s.WellFormed) (hok : (p.maybeFlush time.toInt32 s).1 = .ok) :
    let r := p.handleMessage (payloadOf conf b) s
    r.1 = .ok ∧ r.2.WellFormed ∧ r.2.currentTime = time.toInt32 ∧
      r.2.trace = s.trace ++ batchEvents b := by
  have hpassing : ∀ rs, p.cfg.passing rs = rs := by
    intro rs
    rw [Config.passing, List.filter_eq_self]
    intro r _
    simp [Config.passes, hfilters]
  obtain ⟨hret, new, s₁, hext, hres⟩ := handleMessage_spec p (messageOf hchannel hsent hkeys) hwf
  rw [show (messageOf hchannel hsent hkeys).time = time from hsent.time] at hret hext hres
  rw [show (messageOf hchannel hsent hkeys).records = b.records from rfl, hpassing] at hres
  rw [show (messageOf hchannel hsent hkeys).payload = payloadOf conf b from rfl] at hret hres
  rw [hok] at hret
  rcases hres with ⟨-, hflush, happ⟩ | ⟨hne, -, -⟩
  · have htime : s₁.currentTime = time.toInt32 := by
      cases hflush with
      | stays _ htime => exact htime
      | ends _ _ htime => exact htime
      | fails hret => exact absurd rfl hret
    refine ⟨hret, happ.wf, happ.time.trans htime, ?_⟩
    rw [happ.trace, hext.trace, List.append_assoc, batchEvents, hsent.time]
    rfl
  · exact absurd hret hne

/-- All batches of a flush. -/
theorem feed_batches (hfilters : p.cfg.filters = [])
    (hchannel : p.cfg.kafkaChannel = conf.channelName) {sent : List Kafka.Batch}
    (hsent : ∀ b ∈ sent, b.SentAt time conf)
    (hkeys : ∀ r ∈ Kafka.recordsOf sent, (0 : UInt8) ∉ r.1 ∧ r.1.length < keyBufLen)
    {s : State W} (hwf : s.WellFormed) (hok : (p.maybeFlush time.toInt32 s).1 = .ok) :
    let is := (sent.map (payloadOf conf)).map Input.message
    (run p.step s is).trace = s.trace ++ sent.flatMap batchEvents ∧
      Along p.step (fun s i => (p.act s i).1 = .ok) s is := by
  induction sent generalizing s with
  | nil => exact ⟨(List.append_nil _).symm, along_nil s⟩
  | cons b sent ih =>
    obtain ⟨hsent_b, hsent'⟩ := List.forall_mem_cons.mp hsent
    obtain ⟨hkeys_b, hkeys'⟩ := List.forall_mem_append.mp hkeys
    obtain ⟨hret, hwf', htime, htrace⟩ :=
      handleMessage_batch hfilters hchannel hsent_b hkeys_b hwf hok
    obtain ⟨htrace', halong⟩ := ih hsent' hkeys' hwf' (maybeFlush_again p htime)
    refine ⟨?_, hret, halong⟩
    show (run p.step (p.handleMessage (payloadOf conf b) s).2 _).trace = _
    rw [htrace', htrace, List.append_assoc, List.flatMap_cons]

end Feed

/-! ## The round trip -/

/-- The pair an event writes. -/
def Event.pair? : Event → Option (Bytes × UInt64)
  | apply key value => some (key.bytes, value)
  | _ => none

/-- The argument of a call of `maybe_flush`. -/
def Event.flushTime? : Event → Option Int32
  | maybeFlush flushTime => some flushTime
  | _ => none

/-- Is a message or a part of it rejected? -/
def Event.isError : Event → Bool
  | error => true
  | _ => false

/-- Fed with these payloads, the proxy in state `s` writes exactly these pairs, in
order, calls `maybe_flush` with this time for each payload, and rejects
nothing. -/
structure Receives (p : Proxy W) (s : State W) (payloads : List Bytes) (time : UInt32)
    (pairs : List (Bytes × UInt64)) (events : List Event) : Prop where
  trace : (run p.step s (payloads.map Input.message)).trace = s.trace ++ events
  written : events.filterMap Event.pair? = pairs
  flushTimes : events.filterMap Event.flushTime? = List.replicate payloads.length time.toInt32
  accepted : ∀ e ∈ events, e.isError = false
  returns : Along p.step (fun s i => (p.act s i).1 = .ok) s (payloads.map Input.message)

theorem batchEvents_pairs {b : Kafka.Batch} (hkeys : ∀ r ∈ b.records, (0 : UInt8) ∉ r.1) :
    (batchEvents b).filterMap Event.pair? = b.records := by
  have hpair : ∀ r ∈ b.records, Event.pair? (.apply (CString.ofBytes r.1) r.2) = some r := by
    intro r hr
    show some ((CString.ofBytes r.1).bytes, r.2) = some r
    rw [show (CString.ofBytes r.1).bytes = r.1 from cstr_of_nulFree (hkeys r hr)]
  show (b.records.map fun r => Event.apply (CString.ofBytes r.1) r.2).filterMap Event.pair? = _
  rw [List.filterMap_map]
  exact (List.filterMap_congr hpair).trans List.filterMap_some

theorem batchEvents_flushTimes (b : Kafka.Batch) :
    (batchEvents b).filterMap Event.flushTime? = [b.time.toInt32] := by
  show b.time.toInt32 :: (b.records.map _).filterMap Event.flushTime? = _
  rw [List.filterMap_map]
  simp [Function.comp_def, Event.flushTime?]

theorem batchEvents_accepted (b : Kafka.Batch) : ∀ e ∈ batchEvents b, e.isError = false := by
  intro e he
  rcases List.mem_cons.mp he with rfl | he
  · rfl
  · obtain ⟨r, -, rfl⟩ := List.mem_map.mp he
    rfl

/-- The batches of a flush are received as their records. -/
theorem receives_batches {p : Proxy W} {conf : Kafka.Conf} {time : UInt32}
    (hfilters : p.cfg.filters = []) (hchannel : p.cfg.kafkaChannel = conf.channelName)
    {sent : List Kafka.Batch} (hsent : ∀ b ∈ sent, b.SentAt time conf)
    (hkeys : ∀ r ∈ Kafka.recordsOf sent, (0 : UInt8) ∉ r.1 ∧ r.1.length < keyBufLen)
    {s : State W} (hwf : s.WellFormed) (hok : (p.maybeFlush time.toInt32 s).1 = .ok) :
    Receives p s (sent.map (payloadOf conf)) time (Kafka.recordsOf sent)
      (sent.flatMap batchEvents) := by
  obtain ⟨htrace, halong⟩ := feed_batches hfilters hchannel hsent hkeys hwf hok
  refine ⟨htrace, ?_, ?_, ?_, halong⟩
  · rw [List.filterMap_flatMap]
    refine List.flatMap_congr fun b hb => batchEvents_pairs ?_
    intro r hr
    exact (hkeys r (List.mem_flatMap_of_mem hb hr)).1
  · rw [List.filterMap_flatMap, List.length_map]
    clear hkeys htrace halong
    induction sent with
    | nil => rfl
    | cons b sent ih =>
      obtain ⟨hb, hsent'⟩ := List.forall_mem_cons.mp hsent
      rw [List.flatMap_cons, ih hsent', batchEvents_flushTimes, hb.time, List.length_cons,
        List.replicate_succ, List.singleton_append]
  · intro e he
    obtain ⟨b, -, he⟩ := List.mem_flatMap.mp he
    exact batchEvents_accepted b e he

/-- **The round trip**: a flush of the Kafka backend in a TSK format that meets no
fatal error succeeds, and feeding its payloads to a proxy of the same channel
without filters, in any state from which the group before can be flushed, writes
exactly the enabled keys of the package in index order. -/
theorem kafka_proxy_roundTrip (p : Proxy W) (w : W) (is : List Input) (st : Kafka.State) (kp : Kp)
    (time : UInt32) (hfmt : st.conf.format ≠ .ascii) (hempty : st.bufferWritten = 0)
    (hproduce : .fatal ∉ st.produceResults)
    (hkeys : ∀ ki ∈ kp.keyInfos, (0 : UInt8) ∉ ki.key ∧ ki.key.length < keyBufLen)
    (hfilters : p.cfg.filters = []) (hchannel : p.cfg.kafkaChannel = st.conf.channelName)
    (hflush : (p.maybeFlush time.toInt32 (run p.step (State.init w) is)).1 = .ok) :
    let r := Kafka.kpFlush kp time st
    let payloads := (r.2.2.messages.drop st.messages.length).map Prod.fst
    r.1 = .ok ∧
      ∃ events, Receives p (run p.step (State.init w) is) payloads time kp.enabledPairs events := by
  -- what fits the proxy's key buffer fits a record
  have hkeys' : ∀ ki ∈ kp.keyInfos, (0 : UInt8) ∉ ki.key ∧ ki.key.length < 65535 := by
    intro ki hki
    obtain ⟨hnul, hlen⟩ := hkeys ki hki
    exact ⟨hnul, Nat.lt_trans hlen (by decide)⟩
  obtain ⟨sent, hsends, hres⟩ := Kafka.kpFlush_spec hfmt hempty hkeys' time
  obtain ⟨hok, hrecords⟩ := hres.resolve_right fun ⟨_, hfatal, _⟩ => hproduce hfatal
  have hpayloads : ((Kafka.kpFlush kp time st).2.2.messages.drop st.messages.length).map Prod.fst
      = sent.map (payloadOf st.conf) := by
    rw [hsends.messages, List.drop_left, List.map_map]
    rfl
  have hrecordKeys : ∀ r ∈ Kafka.recordsOf sent, (0 : UInt8) ∉ r.1 ∧ r.1.length < keyBufLen :=
    hrecords ▸ Kafka.enabledPairs_keys hkeys
  refine ⟨hok, sent.flatMap batchEvents, ?_⟩
  rw [hpayloads, ← hrecords]
  exact receives_batches hfilters hchannel hsends.sentOk hrecordKeys (wellFormed_run p w is) hflush

/-- A connected backend. -/
def connectedState : Kafka.State :=
  .init ⟨CString.ofAscii "c", CString.ofAscii "t", .tsk, by decide⟩ [.queueFull]

/-- Two keys, the first of them disabled. -/
def twoKeys : Kp :=
  ((((Kp.init 0).addKey .success (CString.ofAscii "a")).2.addKey .success
    (CString.ofAscii "b")).2.set 1 7).2.disableKey 0

theorem kafka_proxy_roundTrip_twoKeys :
    let r := Kafka.kpFlush twoKeys 60 connectedState
    let payloads := (r.2.2.messages.drop connectedState.messages.length).map Prod.fst
    r.1 = .ok ∧
      ∃ events, Receives idleProxy (run idleProxy.step (State.init ()) []) payloads 60
        twoKeys.enabledPairs events :=
  kafka_proxy_roundTrip idleProxy () [] connectedState twoKeys 60 (by decide) rfl (by decide)
    (by decide) rfl rfl rfl

end TskProxy

end Libtimeseries
