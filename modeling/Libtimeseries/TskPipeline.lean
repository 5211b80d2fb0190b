import Libtimeseries.Base.Replay
import Libtimeseries.KafkaCalls
import Libtimeseries.TskDbats
import Libtimeseries.TskPartitions
import Libtimeseries.TskStops

/-!
# From a producer to the database

The two ends of the program together. A program writes through the Kafka backend
in a TSK format, Kafka keeps the order within each partition, and `tsk-proxy`
consumes the topic into DBATS.

- `Wrote`: what the calls of the producer have written, by what they returned;
- `wrote_run`: the batches that reach Kafka hold exactly that;
- `pipeline`: so does the database once the proxy has consumed the topic and has
  returned 0, whatever the order in which the partitions were read;
- `isolation`: so it does if producers of other channels use the topic too, and the
  proxy returns, which it cannot behind a message of theirs if it logs errors.
-/

namespace Libtimeseries

open ByteLib GroupLib LastWrite RunLib

namespace Kafka

/-- The records of a batch, with its time. -/
def Batch.tagged (b : Batch) : List (UInt32 × Bytes × UInt64) := b.records.map fun r => (b.time, r)

/-- The records a call is to write, with its time. -/
def ProducerCall.tagged (c : ProducerCall) : List (UInt32 × Bytes × UInt64) :=
  c.records.map fun r => (c.time, r)

/-- The records some calls have written: all of a call that returned 0, an initial
segment of one that did not. -/
inductive Wrote : State → List ProducerCall → List (UInt32 × Bytes × UInt64) → Prop
  | nil {st : State} : Wrote st [] []
  | ok {st : State} {c : ProducerCall} {cs : List ProducerCall}
      {ws : List (UInt32 × Bytes × UInt64)} (ret : c.ret st = .ok) (rest : Wrote (c.step st) cs ws) :
      Wrote st (c :: cs) (c.tagged ++ ws)
  | fail {st : State} {c : ProducerCall} {cs : List ProducerCall}
      {w ws : List (UInt32 × Bytes × UInt64)} (ret : c.ret st = .fail) (pre : w <+: c.tagged)
      (rest : Wrote (c.step st) cs ws) : Wrote st (c :: cs) (w ++ ws)

/-- Batches of one time hold their records under it. -/
theorem flatMap_tagged {st st' : State} {time : UInt32} {new : List Batch}
    (h : Sends st st' time new) :
    new.flatMap Batch.tagged = (recordsOf new).map fun r => (time, r) := by
  rw [recordsOf, List.map_flatMap]
  refine List.flatMap_congr fun b hb => ?_
  rw [Batch.tagged, (h.sentOk b hb).time]

section Run

variable {st : State} {conf : Conf} {n : Nat} {sent : List Batch}

/-- One call, with what it wrote. -/
theorem Produced.step_wrote (h : Produced st conf n sent) (hfmt : conf.format ≠ .ascii)
    (hn : n ≤ 65535) {c : ProducerCall} (htime : c.time ≠ 0) (hkeys : c.KeysShorter n) :
    ∃ new, Produced (c.step st) conf n (sent ++ new) ∧
      ((c.ret st = .ok ∧ new.flatMap Batch.tagged = c.tagged) ∨
        (c.ret st = .fail ∧ new.flatMap Batch.tagged <+: c.tagged)) := by
  have hfmt' : st.conf.format ≠ .ascii := h.sameConf ▸ hfmt
  cases c with
  | kpFlush kp time =>
    obtain ⟨new, hsends, hres⟩ := kpFlush_spec hfmt' h.empty
      (fun ki hki => ⟨(hkeys ki hki).1, Nat.lt_of_lt_of_le (hkeys ki hki).2 hn⟩) time
    have hpre : recordsOf new <+: kp.enabledPairs := by
      rcases hres with ⟨-, hrecords⟩ | ⟨-, -, hpre⟩
      · exact hrecords ▸ List.prefix_rfl
      · exact hpre
    refine ⟨new, h.extend htime hsends fun r hr => ?_, ?_⟩
    · exact enabledPairs_keys hkeys r (hpre.subset hr)
    · rw [flatMap_tagged hsends]
      rcases hres with ⟨hok, hrecords⟩ | ⟨hfail, -, hpre⟩
      · exact .inl ⟨hok, by rw [hrecords]; rfl⟩
      · exact .inr ⟨hfail, hpre.map _⟩
  | setSingle key value time =>
    obtain ⟨new, hsends, hres⟩ := setSingle_spec hfmt' h.empty
      (Nat.lt_of_lt_of_le hkeys hn) value time
    refine ⟨new, h.extend htime hsends fun r hr => ?_, ?_⟩
    · rcases hres with ⟨-, hrecords⟩ | ⟨-, -, hnil⟩
      · rw [hrecords] at hr
        rw [List.mem_singleton.mp hr]
        exact ⟨key.nulFree, hkeys⟩
      · rw [hnil] at hr
        exact absurd hr List.not_mem_nil
    · rw [flatMap_tagged hsends]
      rcases hres with ⟨hok, hrecords⟩ | ⟨hfail, -, hnil⟩
      · exact .inl ⟨hok, by rw [hrecords]; rfl⟩
      · rw [hnil]
        exact .inr ⟨hfail, List.nil_prefix⟩

/-- All calls of a run. -/
theorem wrote_run (hfmt : conf.format ≠ .ascii) (hn : n ≤ 65535) (calls : List ProducerCall)
    (hcalls : ∀ c ∈ calls, c.time ≠ 0 ∧ c.KeysShorter n) (h : Produced st conf n sent) :
    ∃ new, Produced (run ProducerCall.step st calls) conf n (sent ++ new) ∧
      Wrote st calls (new.flatMap Batch.tagged) := by
  induction calls generalizing st sent with
  | nil => exact ⟨[], by rw [List.append_nil]; exact h, .nil⟩
  | cons c calls ih =>
    obtain ⟨⟨htime, hkeys⟩, hcalls'⟩ := List.forall_mem_cons.mp hcalls
    obtain ⟨new, hproduced, hres⟩ := h.step_wrote hfmt hn htime hkeys
    obtain ⟨new', hproduced', hwrote⟩ := ih hcalls' hproduced
    refine ⟨new ++ new', by rw [← List.append_assoc]; exact hproduced', ?_⟩
    rw [List.flatMap_append]
    rcases hres with ⟨hok, htagged⟩ | ⟨hfail, hpre⟩
    · rw [htagged]
      exact .ok hok hwrote
    · exact .fail hfail hpre hwrote

/-- All calls of a producer that has just connected. -/
theorem wrote_start (hfmt : conf.format ≠ .ascii) (hn : n ≤ 65535)
    (results : List ProduceResult) (calls : List ProducerCall)
    (hcalls : ∀ c ∈ calls, c.time ≠ 0 ∧ c.KeysShorter n) :
    ∃ sent, Produced (run ProducerCall.step (State.init conf results) calls) conf n sent ∧
      Wrote (State.init conf results) calls (sent.flatMap Batch.tagged) := by
  obtain ⟨sent, hproduced, hwrote⟩ :=
    wrote_run hfmt hn calls hcalls (produced_init conf n results)
  rw [List.nil_append] at hproduced
  exact ⟨sent, hproduced, hwrote⟩

end Run

/-- Batches with the same message bytes hold the same. -/
theorem Batch.Producible.message_inj {conf : Conf} {n : Nat} {b b' : Batch} {channel : Bytes}
    (h : b.Producible conf n) (h' : b'.Producible conf n) (hn : n ≤ 65535)
    (heq : b.message channel = b'.message channel) : b.tagged = b'.tagged := by
  have hlen : ∀ {b : Batch}, b.Producible conf n → ∀ r ∈ b.records, r.1.length < 65536 := by
    intro b hb r hr
    have := (hb.keys r hr).2
    omega
  obtain ⟨htime, hrecords⟩ := Tsk.message_inj (hlen h) (hlen h') (congrArg Prod.fst heq)
  rw [Batch.tagged, Batch.tagged, htime, hrecords]

end Kafka

namespace TskProxy

open Kafka (Wrote ProducerCall)

variable {V : Type}

/-- A record with its time, as a write. -/
def asWrite (r : UInt32 × Bytes × UInt64) : StoreWrite := ((r.2.1, r.1), r.2.2)

/-- The filters look at the keys of the writes. -/
theorem storeWrites_eq_filter (cfg : Config) (rs : List (UInt32 × Bytes × UInt64)) :
    storeWrites cfg rs = (rs.map asWrite).filter fun w => cfg.passes w.1.1 := by
  rw [List.filter_map]
  rfl

/-- Well-formed messages are read as what they write. -/
theorem carries_of_wellFormed {cfg : Config} {delivered : List (Bytes × Bytes)}
    {wss : List (List StoreWrite)} (h : List.Forall₂ (WellFormedWrites cfg) delivered wss) :
    ∃ ms, Carries cfg (delivered.map Prod.fst) ms ∧
      storeWrites cfg (ms.flatMap Message.tagged) = wss.flatten := by
  induction h with
  | nil => exact ⟨[], ⟨[], .nil, rfl⟩, rfl⟩
  | @cons m ws delivered wss hm _ ih =>
    obtain ⟨msg, hpayload, htime, hmsg⟩ := hm
    obtain ⟨ms, ⟨xs, hxs, hms⟩, hwrites⟩ := ih
    refine ⟨msg :: ms, ⟨some msg :: xs, .cons ⟨hpayload.symm, htime⟩ hxs, ?_⟩, ?_⟩
    · exact congrArg (msg :: ·) hms
    · rw [List.flatMap_cons, storeWrites_append, hwrites, List.flatten_cons]
      exact congrArg (· ++ _) hmsg

section Batches

variable {cfg : Config} {conf : Kafka.Conf} {sent : List Kafka.Batch}
  {batchOf : Bytes × Bytes → Kafka.Batch}

/-- Every message that was produced is one of the batches. -/
theorem exists_batchOf (conf : Kafka.Conf) (sent : List Kafka.Batch) :
    ∃ batchOf : Bytes × Bytes → Kafka.Batch,
      ∀ m ∈ sent.map (Kafka.Batch.message conf.channelName.bytes), batchOf m ∈ sent ∧
        (batchOf m).message conf.channelName.bytes = m := by
  have hexists : ∀ m, ∃ b : Kafka.Batch, m ∈ sent.map (Kafka.Batch.message conf.channelName.bytes) →
      b ∈ sent ∧ b.message conf.channelName.bytes = m := by
    intro m
    by_cases hm : m ∈ sent.map (Kafka.Batch.message conf.channelName.bytes)
    · obtain ⟨b, hb, heq⟩ := List.mem_map.mp hm
      exact ⟨b, fun _ => ⟨hb, heq⟩⟩
    · exact ⟨⟨0, 0, []⟩, fun h => absurd h hm⟩
  exact Classical.skolem.mp hexists

variable (hsent : ∀ b ∈ sent, b.Producible conf keyBufLen)
  (hbatch : ∀ m ∈ sent.map (Kafka.Batch.message conf.channelName.bytes), batchOf m ∈ sent ∧
    (batchOf m).message conf.channelName.bytes = m)

include hsent hbatch

/-- The messages write what the batches hold. -/
theorem flatMap_batchOf :
    (sent.map (Kafka.Batch.message conf.channelName.bytes)).flatMap
      (fun m => batchWrites cfg (batchOf m)) = storeWrites cfg (sent.flatMap Kafka.Batch.tagged) := by
  have hflat : storeWrites cfg (sent.flatMap Kafka.Batch.tagged)
      = sent.flatMap fun b => storeWrites cfg b.tagged := by
    rw [storeWrites, List.filter_flatMap, List.map_flatMap]
    rfl
  rw [hflat, List.flatMap_map]
  refine List.flatMap_congr fun b hb => ?_
  obtain ⟨hmem, heq⟩ := hbatch _ (List.mem_map_of_mem hb)
  exact congrArg (storeWrites cfg)
    ((hsent _ hmem).message_inj (hsent b hb) (by decide) heq)

/-- The writers of one key and time share a message key, hence a partition. -/
theorem shared_batchOf (partitionCnt : Nat) :
    Shared (partitionOf partitionCnt) (fun m => batchWrites cfg (batchOf m))
      (sent.map (Kafka.Batch.message conf.channelName.bytes)) := by
  intro kt m hm m' hm' hkt hkt'
  obtain ⟨hmem, heq⟩ := hbatch m hm
  obtain ⟨hmem', heq'⟩ := hbatch m' hm'
  have hkey := key_of_writes (hsent _ hmem) (hsent _ hmem') hkt hkt'
  rw [partitionOf, partitionOf, ← heq, ← heq']
  exact congrArg (fun key : UInt32 => Kafka.timePartitioner (beBytes 4 key.toNat) partitionCnt) hkey

/-- What the proxy reads of them. -/
theorem carries_delivered (hchannel : cfg.kafkaChannel = conf.channelName)
    {delivered : List (Bytes × Bytes)}
    (hsub : ∀ m ∈ delivered, m ∈ sent.map (Kafka.Batch.message conf.channelName.bytes)) :
    ∃ ms, Carries cfg (delivered.map Prod.fst) ms ∧
      storeWrites cfg (ms.flatMap Message.tagged)
        = delivered.flatMap fun m => batchWrites cfg (batchOf m) := by
  rw [List.flatMap_def]
  refine carries_of_wellFormed (List.forall₂_map_right_iff.mpr (List.forall₂_same.mpr fun m hm => ?_))
  obtain ⟨hmem, heq⟩ := hbatch m (hsub m hm)
  have hb := hsent _ hmem
  have hwrites := wellFormedWrites_batch hchannel hb.sentAt hb.time hb.keys
  rwa [heq] at hwrites

end Batches

/-- What the proxy reads from the topic writes the same last values as the batches,
whatever the order of delivery. -/
theorem exists_carried {cfg : Config} {conf : Kafka.Conf} {st : Kafka.State}
    {sent : List Kafka.Batch} (hchannel : cfg.kafkaChannel = conf.channelName)
    (hproduced : Kafka.Produced st conf keyBufLen sent) {partitionCnt : Nat}
    {delivered : List (Bytes × Bytes)}
    (hqueues : SameQueues (partitionOf partitionCnt) st.messages delivered) :
    ∃ ms, Carries cfg (delivered.map Prod.fst) ms ∧
      ∀ kt, lastValue kt (storeWrites cfg (ms.flatMap Message.tagged))
        = lastValue kt (storeWrites cfg (sent.flatMap Kafka.Batch.tagged)) := by
  rw [hproduced.messages] at hqueues
  obtain ⟨batchOf, hbatch⟩ := exists_batchOf conf sent
  obtain ⟨ms, hcarries, hwrites⟩ := carries_delivered hproduced.batches hbatch hchannel
    fun m hm => (hqueues.mem_iff m).mpr hm
  refine ⟨ms, hcarries, fun kt => ?_⟩
  rw [hwrites, ← flatMap_batchOf hproduced.batches hbatch]
  exact (lastValue_sameQueues _ hqueues kt
    (shared_batchOf hproduced.batches hbatch partitionCnt kt)).symm

/-- **From a producer to the database**: whatever calls a program makes on the Kafka
backend, with whatever results, and in whatever order the partitions are read; once
`tsk-proxy` has handled every message and has returned 0, DBATS holds exactly what
the calls have written, on top of what was there, as if they had written to it
themselves. -/
theorem pipeline (conf : Kafka.Conf) (hfmt : conf.format ≠ .ascii)
    (results : List Kafka.ProduceResult) (calls : List ProducerCall)
    (hcalls : ∀ c ∈ calls, c.time ≠ 0 ∧ c.KeysShorter keyBufLen) (partitionCnt : Nat)
    (cfg : Config) (hchannel : cfg.kafkaChannel = conf.channelName) (statsKeyPrefix : CString)
    (stats : Stats V) (db : Dbats.Db) (v : V) (statsTime : Int32) (ticks : List Tick)
    (delivered : List (Bytes × Bytes))
    (hqueues : SameQueues (partitionOf partitionCnt)
      (run ProducerCall.step (Kafka.State.init conf results) calls).messages delivered) :
    let s := dbatsRun cfg statsKeyPrefix stats db v statsTime ticks
    s.handled = delivered.map Prod.fst → s.place = .returned 0 →
      ∃ ws, Wrote (Kafka.State.init conf results) calls ws ∧
        s.proxy.env.world.db.data = applyWrites db.data (storeWrites cfg ws) := by
  intro s hhandled hplace
  obtain ⟨sent, hproduced, hwrote⟩ := Kafka.wrote_start hfmt (by decide) results calls hcalls
  obtain ⟨ms, hcarries, hlast⟩ := exists_carried hchannel hproduced hqueues
  rw [← hhandled] at hcarries
  refine ⟨_, hwrote, ?_⟩
  rw [dbats_returned cfg statsKeyPrefix stats db v statsTime ticks hcarries hplace]
  exact applyWrites_congr hlast _

/-- Two single writes to different partitions, of which the second is read first. -/
def crossedTicks : List Tick :=
  [.go 0 none, .go 0 (some (.data (batchA 120 2).1)), .go 0 none,
    .go 0 (some (.data (batchA 60 1).1)), .go 0 none, .sigint, .go 0 none, .go 0 none, .go 0 none]

theorem pipeline_twoPartitions :
    let calls : List ProducerCall :=
      [.setSingle (CString.ofAscii "a") 1 60, .setSingle (CString.ofAscii "a") 2 120]
    let s := dbatsRun idleProxy.cfg idleProxy.statsKeyPrefix (idleStats 60) Dbats.Db.empty () 0
      crossedTicks
    ∃ ws, Wrote (Kafka.State.init connectedState.conf [.queueFull]) calls ws ∧
      s.proxy.env.world.db.data = applyWrites Dbats.Db.empty.data (storeWrites idleProxy.cfg ws) := by
  intro calls
  have hmessages : (run ProducerCall.step (Kafka.State.init connectedState.conf [.queueFull])
      calls).messages = [batchA 60 1, batchA 120 2] := by
    decide +kernel
  refine pipeline connectedState.conf (by decide) [.queueFull] calls ?_ 2 idleProxy.cfg rfl
    idleProxy.statsKeyPrefix (idleStats 60) Dbats.Db.empty () 0 crossedTicks
    [batchA 120 2, batchA 60 1] ?_ (by decide +kernel) (by decide +kernel)
  · have hlen : (CString.ofAscii "a").strlen < keyBufLen := by decide
    intro c hc
    rcases List.mem_pair.mp hc with rfl | rfl
    · exact ⟨by decide, hlen⟩
    · exact ⟨by decide, hlen⟩
  · rw [hmessages]
    exact sameQueues_swap (by decide +kernel)

/-! ## Several producers on one topic -/

/-- The channel of a message is where the header says it is. -/
theorem wireChannel_message (time : UInt32) {channel : Bytes} (hlen : channel.length < 65536)
    (rs : List (Bytes × UInt64)) :
    HeaderComplete (Tsk.message Tsk.batchMagic time channel rs) ∧
      wireChannel (Tsk.message Tsk.batchMagic time channel rs) = channel := by
  have hchanlen : chanlen (Tsk.message Tsk.batchMagic time channel rs) = channel.length := by
    have hsplit : Tsk.message Tsk.batchMagic time channel rs
        = (Tsk.batchMagic ++ [0] ++ beBytes 4 time.toNat) ++
          (beBytes 2 channel.length ++ (channel ++ Tsk.body rs)) := by
      simp only [Tsk.message, Tsk.header, List.append_assoc]
    rw [chanlen, hsplit, List.drop_left' (by simp [Tsk.batchMagic, headerMagicLen]),
      List.take_left' (beBytes_length _ _), beNat_beBytes hlen]
  have hsplit : Tsk.message Tsk.batchMagic time channel rs
      = (Tsk.batchMagic ++ [0] ++ beBytes 4 time.toNat ++ beBytes 2 channel.length) ++
        (channel ++ Tsk.body rs) := by
    simp only [Tsk.message, Tsk.header, List.append_assoc]
  refine ⟨⟨?_, rfl⟩, ?_⟩
  · rw [hchanlen, hsplit]
    simp [Tsk.batchMagic, headerLen, headerMagicLen]
    omega
  · rw [wireChannel, hchanlen, hsplit, List.drop_left' (by simp [Tsk.batchMagic, headerLen,
      headerMagicLen]), List.take_left]

/-- Neither name is an initial part of the other. -/
def Apart (channel channel' : CString) : Prop :=
  ¬ channel.bytes <+: channel'.bytes ∧ ¬ channel'.bytes <+: channel.bytes

/-- A proxy accepts a message of a producer for its own channel, and a channel apart is
unknown to it. -/
theorem accepts_produced (cfg : Config) {conf : Kafka.Conf} {st : Kafka.State}
    {sent : List Kafka.Batch} {n : Nat} (h : Kafka.Produced st conf n sent) :
    (cfg.kafkaChannel = conf.channelName → ∀ m ∈ st.messages, Accepts cfg m.1) ∧
      (Apart conf.channelName cfg.kafkaChannel → ∀ m ∈ st.messages, UnknownChannel cfg m.1) := by
  have hlen : conf.channelName.bytes.length < 65536 := conf.channel_lt.trans (by decide)
  rw [h.messages]
  constructor
  · intro hchannel
    refine List.forall_mem_map.mpr fun b _ => ?_
    obtain ⟨hcomplete, hwire⟩ := wireChannel_message b.time hlen b.records
    exact (accepts_iff cfg _).mpr (.inl ⟨hcomplete, hwire.trans (hchannel ▸ rfl)⟩)
  · rintro ⟨hnot, hnot'⟩
    refine List.forall_mem_map.mpr fun b _ => ?_
    obtain ⟨hcomplete, hwire⟩ := wireChannel_message b.time hlen b.records
    refine ⟨hcomplete, fun haccepts => ?_⟩
    have hagrees := (channelAgrees_iff cfg hcomplete).mp haccepts.2
    rw [hwire] at hagrees
    exact hagrees.elim hnot hnot'

/-- Rejected messages carry nothing. -/
theorem carries_of_filter {cfg : Config} {payloads : List Bytes} {ms : List (Message cfg)}
    (h : Carries cfg (payloads.filter fun payload => Accepts cfg payload) ms) :
    Carries cfg payloads ms := by
  obtain ⟨xs, hxs, hms⟩ := h
  induction payloads generalizing xs ms with
  | nil => exact ⟨xs, hxs, hms⟩
  | cons payload payloads ih =>
    by_cases haccepts : Accepts cfg payload
    · rw [List.filter_cons_of_pos (by simpa using haccepts)] at hxs
      cases hxs with
      | @cons _ x _ xs hx hxs =>
        obtain ⟨xs', hxs', hms'⟩ := ih xs hxs rfl
        refine ⟨x :: xs', .cons hx hxs', ?_⟩
        rw [← hms]
        cases x with
        | none => exact hms'
        | some m => exact congrArg (m :: ·) hms'
    · rw [List.filter_cons_of_neg (by simpa using haccepts)] at hxs
      obtain ⟨xs', hxs', hms'⟩ := ih xs hxs hms
      exact ⟨none :: xs', .cons haccepts hxs', hms'⟩

/-- The messages of one producer in the log of a topic. -/
def messagesOf {ι : Type} [DecidableEq ι] (i : ι) (log : List (ι × Bytes × Bytes)) :
    List (Bytes × Bytes) :=
  log.filterMap fun e => if e.1 = i then some e.2 else none

/-- The accepted messages are those of the own producer. -/
theorem filter_accepts {ι : Type} [DecidableEq ι] {cfg : Config} {own : ι}
    {log : List (ι × Bytes × Bytes)}
    (h : ∀ e ∈ log, Accepts cfg e.2.1 ↔ e.1 = own) :
    (log.map Prod.snd).filter (fun m => Accepts cfg m.1) = messagesOf own log := by
  unfold messagesOf
  induction log with
  | nil => rfl
  | cons e log ih =>
    obtain ⟨he, hlog⟩ := List.forall_mem_cons.mp h
    rw [List.map_cons, List.filter_cons, ih hlog, List.filterMap_cons]
    by_cases hown : e.1 = own
    · simp only [if_pos hown, decide_eq_true (he.mpr hown), if_true]
    · simp only [if_neg hown, decide_eq_false fun ha => hown (he.mp ha), Bool.false_eq_true,
        if_false]

/-- **Channels do not mix**: any number of producers share a topic, each with a channel
of its own that is apart from the proxy's, except for one whose channel it is.
However their messages are mixed in the topic, and in whatever order its partitions
are read: if run returns 0, DBATS ends up with what that one has written. With a log level
of 0 or more it does not return once a message of another producer is handled. -/
theorem isolation {ι : Type} [DecidableEq ι] (confs : ι → Kafka.Conf)
    (hfmt : ∀ i, (confs i).format ≠ .ascii) (results : ι → List Kafka.ProduceResult)
    (calls : ι → List ProducerCall)
    (hcalls : ∀ i, ∀ c ∈ calls i, c.time ≠ 0 ∧ c.KeysShorter keyBufLen) (own : ι) (cfg : Config)
    (hown : cfg.kafkaChannel = (confs own).channelName)
    (hothers : ∀ i, i ≠ own → Apart (confs i).channelName cfg.kafkaChannel)
    (log : List (ι × Bytes × Bytes))
    (hlog : ∀ i, messagesOf i log
      = (run ProducerCall.step (Kafka.State.init (confs i) (results i)) (calls i)).messages)
    (partitionCnt : Nat) (delivered : List (Bytes × Bytes))
    (hqueues : SameQueues (partitionOf partitionCnt) (log.map Prod.snd) delivered)
    (statsKeyPrefix : CString) (stats : Stats V) (db : Dbats.Db) (v : V) (statsTime : Int32)
    (ticks : List Tick) :
    let s := dbatsRun cfg statsKeyPrefix stats db v statsTime ticks
    (s.handled = delivered.map Prod.fst → s.place = .returned 0 →
      ∃ ws, Wrote (Kafka.State.init (confs own) (results own)) (calls own) ws ∧
        s.proxy.env.world.db.data = applyWrites db.data (storeWrites cfg ws)) ∧
      (logLevelError ≤ cfg.logLevel → ∀ e ∈ log, e.1 ≠ own → e.2.1 ∈ s.handled →
        s.place = .stopped .badPointer) := by
  intro s
  have hproduced : ∀ i, ∃ sent, Kafka.Produced
      (run ProducerCall.step (Kafka.State.init (confs i) (results i)) (calls i)) (confs i) keyBufLen
        sent ∧ Wrote (Kafka.State.init (confs i) (results i)) (calls i)
          (sent.flatMap Kafka.Batch.tagged) := fun i =>
    Kafka.wrote_start (hfmt i) (by decide) (results i) (calls i) (hcalls i)
  -- the proxy accepts what its own producer has sent, and knows nothing else
  have hread : ∀ e ∈ log, (e.1 = own → Accepts cfg e.2.1) ∧
      (e.1 ≠ own → UnknownChannel cfg e.2.1) := by
    intro e he
    have hmem : e.2 ∈ messagesOf e.1 log := List.mem_filterMap.mpr ⟨e, he, if_pos rfl⟩
    obtain ⟨sent, hsent, -⟩ := hproduced e.1
    obtain ⟨haccepts, hunknown⟩ := accepts_produced cfg hsent
    rw [hlog] at hmem
    exact ⟨fun heq => haccepts (heq ▸ hown) _ hmem, fun hne => hunknown (hothers e.1 hne) _ hmem⟩
  have haccepts : ∀ e ∈ log, Accepts cfg e.2.1 ↔ e.1 = own := by
    intro e he
    constructor
    · intro ha
      by_contra hne
      exact ((hread e he).2 hne).2 ha
    · exact (hread e he).1
  constructor
  · intro hhandled hplace
    have hfiltered := SameQueues.filter hqueues fun m => Accepts cfg m.1
    rw [filter_accepts haccepts, hlog] at hfiltered
    obtain ⟨sent, hsent, hwrote⟩ := hproduced own
    obtain ⟨ms, hcarries, hlast⟩ := exists_carried hown hsent hfiltered
    have hcarries' : Carries cfg s.handled ms := by
      rw [hhandled]
      refine carries_of_filter ?_
      rw [List.filter_map]
      exact hcarries
    refine ⟨_, hwrote, ?_⟩
    rw [dbats_returned cfg statsKeyPrefix stats db v statsTime ticks hcarries' hplace]
    exact applyWrites_congr hlast _
  · intro hlevel e he hne hmem
    exact unknown_run ⟨dbatsProxy cfg statsKeyPrefix, stats⟩ hlevel (.init db) v statsTime ticks
      e.2.1 hmem ((hread e he).2 hne)

/-- Two producers on one topic, `t.b.c`. -/
def twoChannels (own : Bool) : Kafka.Conf :=
  if own then ⟨CString.ofAscii "c", CString.ofAscii "t.b", .tsk, by decide⟩
  else ⟨CString.ofAscii "b.c", CString.ofAscii "t", .tskKeypart, by decide⟩

/-- A proxy that logs nothing. -/
def quietCfg : Config := { idleProxy.cfg with logLevel := -1 }

/-- Both write the same key at the same time. -/
def oneWrite (own : Bool) : List ProducerCall :=
  [.setSingle (CString.ofAscii "a") (if own then 1 else 9) 60]

/-- The message of the other channel. -/
def batchBC : Bytes × Bytes := Kafka.Batch.message [98, 46, 99] ⟨177670, 60, [([97], 9)]⟩

def mixedTicks : List Tick :=
  [.go 0 none, .go 0 (some (.data batchBC.1)), .go 0 none, .go 0 (some (.data (batchA 60 1).1)),
    .go 0 none, .sigint, .go 0 none, .go 0 none, .go 0 none]

theorem isolation_twoChannels :
    let s := dbatsRun quietCfg idleProxy.statsKeyPrefix (idleStats 60) Dbats.Db.empty () 0 mixedTicks
    ∃ ws, Wrote (Kafka.State.init (twoChannels true) []) (oneWrite true) ws ∧
      s.proxy.env.world.db.data = applyWrites Dbats.Db.empty.data (storeWrites quietCfg ws) := by
  have hlen : (CString.ofAscii "a").strlen < keyBufLen := by decide
  refine (isolation twoChannels ?_ (fun _ => []) oneWrite ?_ true quietCfg rfl ?_
    [(false, batchBC), (true, batchA 60 1)] ?_ 2 [batchBC, batchA 60 1] (fun _ => rfl)
    idleProxy.statsKeyPrefix (idleStats 60) Dbats.Db.empty () 0 mixedTicks).1 (by decide +kernel)
    (by decide +kernel)
  · rintro (_ | _) <;> decide
  · rintro (_ | _) c hc
    · rw [List.mem_singleton.mp hc]
      exact ⟨by decide, hlen⟩
    · rw [List.mem_singleton.mp hc]
      exact ⟨by decide, hlen⟩
  · rintro (_ | _) hne
    · exact ⟨by decide, by decide⟩
    · exact absurd rfl hne
  · rintro (_ | _) <;> decide +kernel

/-- What the other producer has written is not there. A proxy that logs errors stops at it. -/
example :
    (dbatsRun quietCfg idleProxy.statsKeyPrefix (idleStats 60) Dbats.Db.empty () 0
        mixedTicks).proxy.env.world.db.data ([97], 60) = some 1 ∧
      (dbatsRun idleProxy.cfg idleProxy.statsKeyPrefix (idleStats 60) Dbats.Db.empty () 0
        mixedTicks).place = .stopped .badPointer := by
  decide +kernel

end TskProxy

end Libtimeseries
