import Libtimeseries.TskPipeline

/-!
# Restarts of the proxy

The proxy reads a topic in several runs. Wherever a run ends, Kafka still has the
messages and DBATS what was committed, and the next run may start at earlier offsets.

- `Restarted`: the offsets and the committed data after some runs. Only a run that has
  returned 0 moves the offsets on;
- `recovers`: whatever the runs before it did, once the proxy has come to the end of the
  topic in this way, DBATS holds what the producer has written and nothing else; and
  long before that all data of a time none of whose messages is left to be read.

When offsets are committed is decided in librdkafka; the case that they are ahead of what
has been flushed is not covered.
-/

namespace Libtimeseries

open ByteLib LastWrite RunLib

namespace TskProxy

open Kafka (Wrote ProducerCall)

/-- The offsets in each partition and the committed data, after some runs of the proxy
over the messages of a topic. -/
inductive Restarted (cfg : Config) (partitionCnt : Nat) (messages : List (Bytes × Bytes))
    (data₀ : Store (Bytes × UInt32) UInt64) :
    (Nat → Nat) → Store (Bytes × UInt32) UInt64 → Prop
  | start : Restarted cfg partitionCnt messages data₀ (fun _ => 0) data₀
  | back {offsets offsets' : Nat → Nat} {data : Store (Bytes × UInt32) UInt64}
      (h : Restarted cfg partitionCnt messages data₀ offsets data)
      (le : ∀ p, offsets' p ≤ offsets p) :
      Restarted cfg partitionCnt messages data₀ offsets' data
  /-- a run, wherever it is and however it ended -/
  | crashed {offsets : Nat → Nat} {V : Type} {statsKeyPrefix : CString} {stats : Stats V}
      {db : Dbats.Db} {v : V} {statsTime : Int32} {ticks : List Tick}
      {delivered : List (Bytes × Bytes)}
      (h : Restarted cfg partitionCnt messages data₀ offsets db.data)
      (reads : ReadsOn (partitionOf partitionCnt) messages offsets delivered)
      (handled : (dbatsRun cfg statsKeyPrefix stats db v statsTime ticks).handled
        = delivered.map Prod.fst) :
      Restarted cfg partitionCnt messages data₀ offsets
        (dbatsRun cfg statsKeyPrefix stats db v statsTime ticks).proxy.env.world.db.data
  /-- a run that has returned 0 -/
  | returned {offsets : Nat → Nat} {V : Type} {statsKeyPrefix : CString} {stats : Stats V}
      {db : Dbats.Db} {v : V} {statsTime : Int32} {ticks : List Tick}
      {delivered : List (Bytes × Bytes)}
      (h : Restarted cfg partitionCnt messages data₀ offsets db.data)
      (reads : ReadsOn (partitionOf partitionCnt) messages offsets delivered)
      (handled : (dbatsRun cfg statsKeyPrefix stats db v statsTime ticks).handled
        = delivered.map Prod.fst)
      (place : (dbatsRun cfg statsKeyPrefix stats db v statsTime ticks).place = .returned 0) :
      Restarted cfg partitionCnt messages data₀
        (advance (partitionOf partitionCnt) offsets delivered)
        (dbatsRun cfg statsKeyPrefix stats db v statsTime ticks).proxy.env.world.db.data

/-- The runs replay the partitions. -/
theorem Restarted.replays {cfg : Config} {conf : Kafka.Conf} {sent : List Kafka.Batch}
    (hchannel : cfg.kafkaChannel = conf.channelName)
    (hsent : ∀ b ∈ sent, b.Producible conf keyBufLen) {batchOf : Bytes × Bytes → Kafka.Batch}
    (hbatch : ∀ m ∈ sent.map (Kafka.Batch.message conf.channelName.bytes), batchOf m ∈ sent ∧
      (batchOf m).message conf.channelName.bytes = m) {partitionCnt : Nat}
    {data₀ data : Store (Bytes × UInt32) UInt64} {offsets : Nat → Nat}
    (h : Restarted cfg partitionCnt (sent.map (Kafka.Batch.message conf.channelName.bytes)) data₀
      offsets data) :
    Replays (partitionOf partitionCnt) (fun m => batchWrites cfg (batchOf m))
      (sent.map (Kafka.Batch.message conf.channelName.bytes)) data₀ offsets data := by
  induction h with
  | start => exact .start
  | back h le ih => exact .back ih le
  | @crashed offsets V statsKeyPrefix stats db v statsTime ticks delivered h reads handled ih =>
    obtain ⟨ms, hcarries, hwrites⟩ := carries_delivered hsent hbatch hchannel
      fun m hm => (reads.unread hm).mem
    rw [← handled] at hcarries
    obtain ⟨rs, rest, hms, hdata⟩ :=
      dbats_segment cfg statsKeyPrefix stats db v statsTime ticks hcarries
    rw [hdata]
    refine .part ih reads fun k hk => ?_
    -- the records of an initial segment are among those that were read
    rw [← hwrites, hms, storeWrites_append, List.map_append]
    exact List.mem_append_left _ hk
  | @returned offsets V statsKeyPrefix stats db v statsTime ticks delivered h reads handled place
      ih =>
    obtain ⟨ms, hcarries, hwrites⟩ := carries_delivered hsent hbatch hchannel
      fun m hm => (reads.unread hm).mem
    rw [← handled] at hcarries
    rw [dbats_returned cfg statsKeyPrefix stats db v statsTime ticks hcarries place]
    refine .whole ih reads fun k => ?_
    rw [hwrites]

/-- The time of a message is where the header says it is. -/
theorem headerTime_message (time : UInt32) (channel : Bytes) (rs : List (Bytes × UInt64)) :
    headerTime (Tsk.message Tsk.batchMagic time channel rs) = time := by
  have hsplit : Tsk.message Tsk.batchMagic time channel rs
      = (Tsk.batchMagic ++ [0]) ++
        (beBytes 4 time.toNat ++ (beBytes 2 channel.length ++ (channel ++ Tsk.body rs))) := by
    simp only [Tsk.message, Tsk.header, List.append_assoc]
  rw [headerTime, hsplit, List.drop_left' (by simp [Tsk.batchMagic, headerMagicLen]),
    List.take_left' (beBytes_length _ _), beNat_beBytes time.toNat_lt, UInt32.ofNat_toNat]

/-- A batch writes under its own time. -/
theorem time_of_batchWrites {cfg : Config} {b : Kafka.Batch} {kt : Bytes × UInt32}
    (h : kt ∈ (batchWrites cfg b).map Prod.fst) : b.time = kt.2 := by
  obtain ⟨w, hw, rfl⟩ := List.mem_map.mp h
  obtain ⟨r, hr, rfl⟩ := List.mem_map.mp hw
  obtain ⟨r', -, rfl⟩ := List.mem_map.mp (List.mem_of_mem_filter hr)
  rfl

/-- **Recovery**: however many runs of the proxy have failed, crashed or been stopped, and
however far back the next one starts each time. Wherever the runs are, DBATS holds for
every time none of whose messages is left to be read exactly what the producer has
written, and at the end of the topic it does for all times. -/
theorem recovers (conf : Kafka.Conf) (hfmt : conf.format ≠ .ascii)
    (results : List Kafka.ProduceResult) (calls : List ProducerCall)
    (hcalls : ∀ c ∈ calls, c.time ≠ 0 ∧ c.KeysShorter keyBufLen) (partitionCnt : Nat)
    (cfg : Config) (hchannel : cfg.kafkaChannel = conf.channelName)
    (data₀ data : Store (Bytes × UInt32) UInt64) (offsets : Nat → Nat) :
    let messages := (run ProducerCall.step (Kafka.State.init conf results) calls).messages
    Restarted cfg partitionCnt messages data₀ offsets data →
      ∃ ws, Wrote (Kafka.State.init conf results) calls ws ∧
        (∀ key time, (∀ m, Unread (partitionOf partitionCnt) messages offsets m →
          headerTime m.1 ≠ time) →
            data (key, time) = applyWrites data₀ (storeWrites cfg ws) (key, time)) ∧
        ((∀ p, (queueOf (partitionOf partitionCnt) messages p).length ≤ offsets p) →
          data = applyWrites data₀ (storeWrites cfg ws)) := by
  intro messages h
  obtain ⟨sent, hproduced, hwrote⟩ := Kafka.wrote_start hfmt (by decide) results calls hcalls
  have hmessages : messages = sent.map (Kafka.Batch.message conf.channelName.bytes) :=
    hproduced.messages
  rw [hmessages] at h ⊢
  obtain ⟨batchOf, hbatch⟩ := exists_batchOf conf sent
  have hreplays := h.replays hchannel hproduced.batches hbatch
  have hshared : Shared (partitionOf partitionCnt) (fun m => batchWrites cfg (batchOf m))
      (sent.map (Kafka.Batch.message conf.channelName.bytes)) :=
    shared_batchOf hproduced.batches hbatch partitionCnt
  refine ⟨_, hwrote, fun key time htime => ?_, fun hend => ?_⟩
  · rw [← flatMap_batchOf hproduced.batches hbatch]
    refine hreplays.settled hshared (key, time) fun m hm hwrites => htime m hm ?_
    -- an unread message that writes the key has its time
    obtain ⟨hmem, heq⟩ := hbatch m hm.mem
    rw [← heq]
    exact (headerTime_message _ _ _).trans (time_of_batchWrites hwrites)
  · rw [← flatMap_batchOf hproduced.batches hbatch]
    exact hreplays.complete hshared hend

/-- Both messages of a topic, of which the first cannot be flushed in time. -/
def crashingTicks : List Tick :=
  [.go 0 none, .go 0 (some (.data (batchA 60 1).1)), .go 0 none,
    .go 0 (some (.data (batchA 120 2).1)), .go 0 none]

/-- The database as the run over `failingCommit` has left it. -/
def afterCrash : Dbats.Db :=
  { Dbats.Db.empty with
    data := (dbatsRun idleProxy.cfg idleProxy.statsKeyPrefix (idleStats 60) failingCommit () 0
      crashingTicks).proxy.env.world.db.data }

theorem recovers_afterCrash :
    let calls : List ProducerCall :=
      [.setSingle (CString.ofAscii "a") 1 60, .setSingle (CString.ofAscii "a") 2 120]
    let s := dbatsRun idleProxy.cfg idleProxy.statsKeyPrefix (idleStats 60) afterCrash () 0
      crossedTicks
    ∃ ws, Wrote (Kafka.State.init connectedState.conf [.queueFull]) calls ws ∧
      s.proxy.env.world.db.data
        = applyWrites Dbats.Db.empty.data (storeWrites idleProxy.cfg ws) := by
  intro calls s
  have hmessages : (run ProducerCall.step (Kafka.State.init connectedState.conf [.queueFull])
      calls).messages = [batchA 60 1, batchA 120 2] := by
    decide +kernel
  have hreads : ∀ delivered : List (Bytes × Bytes),
      SameQueues (partitionOf 2) [batchA 60 1, batchA 120 2] delivered →
        ReadsOn (partitionOf 2) [batchA 60 1, batchA 120 2] (fun _ => 0) delivered := by
    intro delivered hsame p
    exact ⟨[], (List.append_nil _).trans (hsame p).symm⟩
  have hcrossed : SameQueues (partitionOf 2) [batchA 60 1, batchA 120 2]
      [batchA 120 2, batchA 60 1] := sameQueues_swap (by decide +kernel)
  have hrestarted : Restarted idleProxy.cfg 2 [batchA 60 1, batchA 120 2] Dbats.Db.empty.data
      (advance (partitionOf 2) (fun _ => 0) [batchA 120 2, batchA 60 1])
      s.proxy.env.world.db.data := by
    -- the crash leaves the offsets where they were
    have hcrashed : Restarted idleProxy.cfg 2 [batchA 60 1, batchA 120 2] Dbats.Db.empty.data
        (fun _ => 0) (dbatsRun idleProxy.cfg idleProxy.statsKeyPrefix (idleStats 60) failingCommit ()
          0 crashingTicks).proxy.env.world.db.data :=
      .crashed .start (hreads [batchA 60 1, batchA 120 2] fun _ => rfl) (by decide +kernel)
    exact .returned hcrashed (hreads _ hcrossed) (by decide +kernel) (by decide +kernel)
  have hlen : (CString.ofAscii "a").strlen < keyBufLen := by decide
  obtain ⟨ws, hwrote, -, hdata⟩ := recovers connectedState.conf (by decide) [.queueFull] calls
    (by
      intro c hc
      rcases List.mem_pair.mp hc with rfl | rfl
      · exact ⟨by decide, hlen⟩
      · exact ⟨by decide, hlen⟩) 2 idleProxy.cfg rfl Dbats.Db.empty.data _ _
    (by
      rw [hmessages]
      exact hrestarted)
  refine ⟨ws, hwrote, hdata fun p => ?_⟩
  rw [hmessages, advance, Nat.zero_add]
  exact (congrArg List.length (hcrossed p)).le

/-- The crash has lost the second message, and the next run makes up for it. -/
example :
    let s := dbatsRun idleProxy.cfg idleProxy.statsKeyPrefix (idleStats 60) afterCrash () 0
      crossedTicks
    afterCrash.data ([97], 60) = some 1 ∧ afterCrash.data ([97], 120) = none ∧
      s.proxy.env.world.db.data ([97], 120) = some 2 := by
  decide +kernel

end TskProxy

end Libtimeseries
