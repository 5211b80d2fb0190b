import Libtimeseries.Base.LastWrite
import Libtimeseries.TskGroups
import Libtimeseries.TskRoundTrip

/-!
# Order independence across partitions

Kafka keeps the order of messages within a partition only. The store the proxy
leaves is still determined: it is what the records of the messages write in the
order of their delivery (`lastValue_flushes`), and messages that write the same
key at the same time have the same message key, hence the same partition.
-/

namespace Libtimeseries

open ByteLib GroupLib LastWrite RunLib

namespace TskProxy

variable {W : Type}

/-! ## The store -/

/-- A write to the store: of a value to a key at a time. -/
abbrev StoreWrite := (Bytes × UInt32) × UInt64

/-- What some records, each with its time, write if they pass the filters. -/
def storeWrites (cfg : Config) (rs : List (UInt32 × Bytes × UInt64)) : List StoreWrite :=
  (rs.filter fun r => cfg.passes r.2.1).map fun r => ((r.2.1, r.1), r.2.2)

/-- What a flush writes. -/
def flushWrites (f : UInt32 × List (Bytes × UInt64)) : List StoreWrite :=
  f.2.map fun r => ((r.1, f.1), r.2)

/-- The store the backend is left with: the last write of each key and time
wins. -/
def State.store (s : State W) : Store (Bytes × UInt32) UInt64 :=
  applyWrites (fun _ => none) (s.env.flushes.flatMap flushWrites)

/-- The last write of a key at a time, among pairs of one time. -/
theorem lastValue_sameTime (time t : UInt32) (k : Bytes) (rs : List (Bytes × UInt64)) :
    lastValue (k, t) (rs.map fun r => ((r.1, time), r.2))
      = if time = t then lastValue k rs else none :=
  lastValue_tag time t k rs

theorem storeWrites_tagged (cfg : Config) (g : Group UInt32 (Bytes × UInt64)) :
    storeWrites cfg g.tagged = (cfg.passing g.items).map fun r => ((r.1, g.tag), r.2) := by
  rw [storeWrites, Group.tagged, List.filter_map, List.map_map]
  rfl

theorem storeWrites_append (cfg : Config) (rs rs' : List (UInt32 × Bytes × UInt64)) :
    storeWrites cfg (rs ++ rs') = storeWrites cfg rs ++ storeWrites cfg rs' := by
  simp [storeWrites]

/-- Flushes of groups write what the records of the groups write. -/
theorem lastValue_flushes {cfg : Config} {gs : List (Group UInt32 (Bytes × UInt64))}
    {fs : List (UInt32 × List (Bytes × UInt64))}
    (h : List.Forall₂ (Flushes cfg) (gs.filter fun g => cfg.passing g.items ≠ []) fs)
    (kt : Bytes × UInt32) :
    lastValue kt (fs.flatMap flushWrites)
      = lastValue kt (storeWrites cfg (gs.flatMap Group.tagged)) := by
  induction gs generalizing fs with
  | nil =>
    cases h
    rfl
  | cons g gs ih =>
    rw [List.flatMap_cons, storeWrites_append, lastValue_append, storeWrites_tagged,
      lastValue_sameTime]
    by_cases hnil : cfg.passing g.items = []
    · rw [List.filter_cons_of_neg (by simpa using hnil)] at h
      rw [ih h, hnil]
      simp
    · rw [List.filter_cons_of_pos (by simpa using hnil)] at h
      cases h with
      | cons hflush hrest =>
        rw [List.flatMap_cons, lastValue_append, ih hrest, flushWrites, lastValue_sameTime,
          hflush.time, hflush.last]

/-- The records of an item, with their time. -/
def Item.records {cfg : Config} : Item cfg → List (UInt32 × Bytes × UInt64)
  | message m => m.records.map fun r => (m.time, r)
  | forceFlush => []

/-- Grouping neither loses nor reorders records. -/
theorem tagged_groupsOf {cfg : Config} (items : List (Item cfg)) :
    (groupsOf items).all.flatMap Group.tagged = items.flatMap Item.records := by
  induction items using List.reverseRecOn with
  | nil => rfl
  | append_singleton items item ih =>
    rw [groupsOf_concat, List.flatMap_append, ← ih, List.flatMap_singleton]
    cases item with
    | message m => exact Groups.flatMap_tagged_add _ _
    | forceFlush => exact (congrArg _ (Groups.all_close _)).trans (List.append_nil _).symm

/-- **The store of a run** that ends with a forced flush: what the records write in
the order of their delivery. -/
theorem store_run (p : Proxy W) (w : W) (items : List (Item p.cfg))
    (htimes : ∀ m, .message m ∈ items → m.time ≠ 0)
    (hok : ∀ c ∈ (run p.step (State.init w) (inputs (items ++ [.forceFlush]))).env.calls,
      c.ret = .ok) :
    (run p.step (State.init w) (inputs (items ++ [.forceFlush]))).store
      = applyWrites (fun _ => none) (storeWrites p.cfg (items.flatMap Item.records)) := by
  have htimes' : ∀ m, .message m ∈ items ++ [Item.forceFlush] → m.time ≠ 0 := by
    intro m hm
    rcases List.mem_append.mp hm with hm | hm
    · exact htimes m hm
    · cases List.mem_singleton.mp hm
  obtain ⟨hfollows, -⟩ := follows_run p w _ htimes' hok
  refine applyWrites_congr ?_ _
  intro kt
  have hclosed : (groupsOf (items ++ [Item.forceFlush])).closed = (groupsOf items).all :=
    congrArg Groups.closed (groupsOf_concat items .forceFlush)
  rw [lastValue_flushes hfollows.flushes, hclosed, tagged_groupsOf]

/-! ## Deliveries -/

/-- What the main loop gets: a message of Kafka (payload and key), or the occasion
to force a flush. -/
inductive Delivery where
  | message (m : Bytes × Bytes)
  | forceFlush

namespace Delivery

/-- As the program sees it: the message key is not looked at. -/
def input : Delivery → Input
  | message m => .message m.1
  | forceFlush => .forceFlush

def message? : Delivery → Option (Bytes × Bytes)
  | message m => some m
  | forceFlush => none

end Delivery

/-- The partition a message is routed to. -/
def partitionOf (partitionCnt : Nat) (m : Bytes × Bytes) : Nat :=
  Kafka.timePartitioner m.2 partitionCnt

/-- Every partition delivers its messages in the order of their production; forced
flushes happen at any time. -/
def Interleaves (partitionCnt : Nat) (ms : List (Bytes × Bytes)) (ds : List Delivery) : Prop :=
  SameQueues (partitionOf partitionCnt) ms (ds.filterMap Delivery.message?)

/-- The proxy after some deliveries and a last forced flush. -/
def Proxy.deliver (p : Proxy W) (w : W) (ds : List Delivery) : State W :=
  run p.step (State.init w) ((ds ++ [Delivery.forceFlush]).map Delivery.input)

/-- What a batch writes. -/
def batchWrites (cfg : Config) (b : Kafka.Batch) : List StoreWrite :=
  storeWrites cfg (b.records.map fun r => (b.time, r))

/-- Two batches that write the same key at the same time have the same message
key: their time, or the hash of the record key. -/
theorem key_of_writes {cfg : Config} {conf : Kafka.Conf} {b b' : Kafka.Batch} {n : Nat}
    (hb : b.Producible conf n) (hb' : b'.Producible conf n) {kt : Bytes × UInt32}
    (hkt : kt ∈ (batchWrites cfg b).map Prod.fst) (hkt' : kt ∈ (batchWrites cfg b').map Prod.fst) :
    b.key = b'.key := by
  have hmem : ∀ {b : Kafka.Batch}, kt ∈ (batchWrites cfg b).map Prod.fst →
      b.time = kt.2 ∧ ∃ v, (kt.1, v) ∈ b.records := by
    intro b h
    obtain ⟨w, hw, rfl⟩ := List.mem_map.mp h
    obtain ⟨r, hr, rfl⟩ := List.mem_map.mp hw
    obtain ⟨r', hr', rfl⟩ := List.mem_map.mp (List.mem_of_mem_filter hr)
    exact ⟨rfl, r'.2, hr'⟩
  obtain ⟨htime, v, hv⟩ := hmem hkt
  obtain ⟨htime', v', hv'⟩ := hmem hkt'
  have hkeyed := hb.sentAt.keyed
  have hkeyed' := hb'.sentAt.keyed
  cases hf : conf.format with
  | ascii =>
    rw [hf] at hkeyed
    exact hkeyed.elim
  | tsk =>
    rw [hf] at hkeyed hkeyed'
    exact hkeyed.trans (htime.trans (htime'.symm.trans hkeyed'.symm))
  | tskKeypart =>
    rw [hf] at hkeyed hkeyed'
    exact (hkeyed (kt.1, v) hv).symm.trans (hkeyed' (kt.1, v') hv')

/-- A message of Kafka is well-formed for a proxy, which writes `ws` for it. -/
def WellFormedWrites (cfg : Config) (m : Bytes × Bytes) (ws : List StoreWrite) : Prop :=
  ∃ msg : Message cfg, msg.payload = m.1 ∧ msg.time ≠ 0 ∧
    storeWrites cfg (Item.message msg).records = ws

/-- Deliveries of well-formed messages are items. -/
theorem exists_items {cfg : Config} {wss : List (List StoreWrite)} {ds : List Delivery}
    (h : List.Forall₂ (WellFormedWrites cfg) (ds.filterMap Delivery.message?) wss) :
    ∃ items : List (Item cfg), inputs items = ds.map Delivery.input ∧
      (∀ m, .message m ∈ items → m.time ≠ 0) ∧
      storeWrites cfg (items.flatMap Item.records) = wss.flatten := by
  induction ds generalizing wss with
  | nil =>
    cases h
    exact ⟨[], rfl, by rintro _ ⟨⟩, rfl⟩
  | cons d ds ih =>
    cases d with
    | forceFlush =>
      obtain ⟨items, hinputs, htimes, hwrites⟩ := ih h
      refine ⟨.forceFlush :: items, congrArg (Input.forceFlush :: ·) hinputs, ?_, hwrites⟩
      intro m hm
      exact htimes m ((List.mem_cons.mp hm).resolve_left (by rintro ⟨⟩))
    | message m =>
      rw [show (Delivery.message m :: ds).filterMap Delivery.message?
        = m :: ds.filterMap Delivery.message? from rfl] at h
      cases h with
      | cons hm hds =>
        obtain ⟨msg, hpayload, htime, hmsg⟩ := hm
        obtain ⟨items, hinputs, htimes, hwrites⟩ := ih hds
        refine ⟨.message msg :: items, ?_, ?_, ?_⟩
        · show Input.message msg.payload :: inputs items
            = Input.message m.1 :: ds.map Delivery.input
          rw [hpayload, hinputs]
        · intro m' hm'
          rcases List.mem_cons.mp hm' with hm' | hm'
          · cases hm'
            exact htime
          · exact htimes m' hm'
        · rw [List.flatMap_cons, storeWrites_append, hmsg, hwrites, List.flatten_cons]

/-- A batch is a well-formed message for a proxy of its channel. -/
theorem wellFormedWrites_batch {cfg : Config} {conf : Kafka.Conf}
    (hchannel : cfg.kafkaChannel = conf.channelName) {b : Kafka.Batch} {time : UInt32}
    (hsent : b.SentAt time conf) (htime : time ≠ 0)
    (hkeys : ∀ r ∈ b.records, (0 : UInt8) ∉ r.1 ∧ r.1.length < keyBufLen) :
    WellFormedWrites cfg (b.message conf.channelName.bytes) (batchWrites cfg b) :=
  ⟨messageOf hchannel hsent hkeys, rfl, hsent.time ▸ htime, rfl⟩

/-- The store after deliveries that end with a forced flush. -/
theorem store_deliver (p : Proxy W) {ds : List Delivery} {wss : List (List StoreWrite)}
    (h : List.Forall₂ (WellFormedWrites p.cfg) (ds.filterMap Delivery.message?) wss) (w : W)
    (hok : ∀ c ∈ (p.deliver w ds).env.calls, c.ret = .ok) :
    (p.deliver w ds).store = applyWrites (fun _ => none) wss.flatten := by
  obtain ⟨items, hinputs, htimes, hwrites⟩ := exists_items h
  have hinputs' : (ds ++ [Delivery.forceFlush]).map Delivery.input
      = inputs (items ++ [Item.forceFlush]) := by
    rw [inputs_concat, List.map_append, hinputs]
    rfl
  rw [Proxy.deliver, hinputs'] at hok ⊢
  rw [store_run p w items htimes hok, hwrites]

/-- The store after any deliveries of some batches. -/
theorem store_deliveries (p : Proxy W) {conf : Kafka.Conf}
    (hchannel : p.cfg.kafkaChannel = conf.channelName) {sent : List Kafka.Batch}
    (hsent : ∀ b ∈ sent, b.Producible conf keyBufLen) {batchOf : Bytes × Bytes → Kafka.Batch}
    (hbatch : ∀ m ∈ sent.map (Kafka.Batch.message conf.channelName.bytes), batchOf m ∈ sent ∧
      (batchOf m).message conf.channelName.bytes = m) (partitionCnt : Nat) {ds : List Delivery}
    (hds : Interleaves partitionCnt (sent.map (Kafka.Batch.message conf.channelName.bytes)) ds)
    (w : W)
    (hok : ∀ c ∈ (p.deliver w ds).env.calls, c.ret = .ok) (kt : Bytes × UInt32) :
    (p.deliver w ds).store kt
      = lastValue kt ((sent.map (Kafka.Batch.message conf.channelName.bytes)).flatMap
          fun m => batchWrites p.cfg (batchOf m)) := by
  have hmessages : List.Forall₂ (WellFormedWrites p.cfg) (ds.filterMap Delivery.message?)
      ((ds.filterMap Delivery.message?).map fun m => batchWrites p.cfg (batchOf m)) := by
    refine List.forall₂_map_right_iff.mpr (List.forall₂_same.mpr fun m hm => ?_)
    obtain ⟨hmem, heq⟩ := hbatch m ((hds.mem_iff m).mpr hm)
    have hb := hsent _ hmem
    have hwrites := wellFormedWrites_batch hchannel hb.sentAt hb.time hb.keys
    rwa [heq] at hwrites
  rw [store_deliver p hmessages w hok, applyWrites_apply, Option.or_none, ← List.flatMap_def]
  -- the writers of one key and time share a message key, hence a partition
  refine (lastValue_sameQueues _ hds kt ?_).symm
  intro m hm m' hm' hkt hkt'
  obtain ⟨hmem, heq⟩ := hbatch m hm
  obtain ⟨hmem', heq'⟩ := hbatch m' hm'
  have hkey := key_of_writes (hsent _ hmem) (hsent _ hmem') hkt hkt'
  rw [partitionOf, partitionOf, ← heq, ← heq']
  show Kafka.timePartitioner (beBytes 4 (batchOf m).key.toNat) partitionCnt
    = Kafka.timePartitioner (beBytes 4 (batchOf m').key.toNat) partitionCnt
  rw [hkey]

/-- **Order independence across partitions**: for every run of a Kafka producer in
a TSK format, any two ways to deliver its messages that keep the order within
every partition, with forced flushes anywhere and one at the end, leave the proxy
with the same store. -/
theorem store_order_independent (conf : Kafka.Conf) (hfmt : conf.format ≠ .ascii)
    (results : List Kafka.ProduceResult) (calls : List Kafka.ProducerCall)
    (hcalls : ∀ c ∈ calls, c.time ≠ 0 ∧ c.KeysShorter keyBufLen) (partitionCnt : Nat)
    (p : Proxy W) (hchannel : p.cfg.kafkaChannel = conf.channelName) (w w' : W)
    (ds ds' : List Delivery)
    (hds : Interleaves partitionCnt
      (run Kafka.ProducerCall.step (Kafka.State.init conf results) calls).messages ds)
    (hds' : Interleaves partitionCnt
      (run Kafka.ProducerCall.step (Kafka.State.init conf results) calls).messages ds')
    (hok : ∀ c ∈ (p.deliver w ds).env.calls, c.ret = .ok)
    (hok' : ∀ c ∈ (p.deliver w' ds').env.calls, c.ret = .ok) :
    (p.deliver w ds).store = (p.deliver w' ds').store := by
  obtain ⟨sent, hproduced⟩ := Kafka.produced_run conf hfmt results (by decide) calls hcalls
  rw [hproduced.messages] at hds hds'
  have hexists : ∀ m, ∃ b : Kafka.Batch, m ∈ sent.map (Kafka.Batch.message conf.channelName.bytes) →
      b ∈ sent ∧ b.message conf.channelName.bytes = m := by
    intro m
    by_cases hm : m ∈ sent.map (Kafka.Batch.message conf.channelName.bytes)
    · obtain ⟨b, hb, heq⟩ := List.mem_map.mp hm
      exact ⟨b, fun _ => ⟨hb, heq⟩⟩
    · exact ⟨⟨0, 0, []⟩, fun h => absurd h hm⟩
  obtain ⟨batchOf, hbatch⟩ := Classical.skolem.mp hexists
  funext kt
  rw [store_deliveries p hchannel hproduced.batches hbatch partitionCnt hds w hok,
    store_deliveries p hchannel hproduced.batches hbatch partitionCnt hds' w' hok']

/-- The message of one record for the key `a`, keyed by its time. -/
def batchA (time : UInt32) (value : UInt64) : Bytes × Bytes :=
  Kafka.Batch.message [99] ⟨time, time, [([97], value)]⟩

/-- Two single writes to different partitions, delivered in either order. -/
theorem store_order_independent_twoPartitions :
    (idleProxy.deliver () [.message (batchA 60 1), .message (batchA 120 2)]).store
      = (idleProxy.deliver ()
          [.message (batchA 120 2), .forceFlush, .message (batchA 60 1)]).store := by
  let calls : List Kafka.ProducerCall :=
    [.setSingle (CString.ofAscii "a") 1 60, .setSingle (CString.ofAscii "a") 2 120]
  have hmessages : (run Kafka.ProducerCall.step (Kafka.State.init connectedState.conf [.queueFull])
      calls).messages = [batchA 60 1, batchA 120 2] := by
    decide +kernel
  refine store_order_independent connectedState.conf (by decide) [.queueFull] calls ?_ 2 idleProxy
    rfl () () _ _ ?_ ?_ (by decide +kernel) (by decide +kernel)
  · have hlen : (CString.ofAscii "a").strlen < keyBufLen := by decide
    intro c hc
    rcases List.mem_pair.mp hc with rfl | rfl
    · exact ⟨by decide, hlen⟩
    · exact ⟨by decide, hlen⟩
  · rw [hmessages]
    exact fun _ => rfl
  · rw [hmessages]
    exact sameQueues_swap (by decide +kernel)

end TskProxy

end Libtimeseries
