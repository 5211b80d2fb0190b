import Libtimeseries.TskGroups

/-!
# Times of flushed pairs

A flushed pair should carry the time of the message it came with. The proxy
keeps to that as long as no message of time 0 writes to its package: such a
message leaves `current_time` at the sentinel, and the next message hands its
own time to the pairs that are already enabled.

The backend may fail at any point here. A message that is turned away because
the flush before it failed has not been taken in.
-/

namespace Libtimeseries

open ByteLib LastWrite RunLib

namespace TskProxy

variable {W : Type}

/-- The records taken in during a run, each with the time of the message that
carried it. -/
def carried (p : Proxy W) : State W → List (Item p.cfg) → List (Bytes × UInt32 × UInt64)
  | _, [] => []
  | s, item :: items =>
    (if (p.act s item.input).1 = .ok then item.writes.map fun r => (r.1, item.flushTime, r.2)
      else []) ++ carried p (p.step s item.input) items

theorem carried_concat (p : Proxy W) (s : State W) (items : List (Item p.cfg)) (item : Item p.cfg) :
    carried p s (items ++ [item]) = carried p s items ++
      if (p.act (run p.step s (inputs items)) item.input).1 = .ok then
        item.writes.map fun r => (r.1, item.flushTime, r.2) else [] := by
  induction items generalizing s with
  | nil => exact List.append_nil _
  | cons i items ih =>
    rw [List.cons_append, carried, ih, carried, List.append_assoc]
    rfl

/-- Every pair the action flushes is flushed under the time of the message that
carried it, the last one taken in with a record for its key. -/
def FlushesOwnTimes (p : Proxy W) (w : W) (items : List (Item p.cfg)) (item : Item p.cfg) : Prop :=
  let s := run p.step (State.init w) (inputs items)
  ∀ f ∈ (p.step s item.input).env.flushes.drop s.env.flushes.length, ∀ r ∈ f.2,
    lastValue r.1 (carried p (State.init w) items) = some (f.1, r.2)

/-- Every action of the run flushes pairs under their own times. -/
def TimelyRun (p : Proxy W) (w : W) (items : List (Item p.cfg)) : Prop :=
  ∀ before item after, items = before ++ item :: after → FlushesOwnTimes p w before item

/-- A message of time 0 carries no record that passes the filters. -/
def Item.Timed {cfg : Config} (item : Item cfg) : Prop :=
  item.flushTime = 0 → item.writes = []

/-- What the proxy collects was carried by messages of its current time. -/
structure Timely (s : State W) (records : List (Bytes × UInt32 × UInt64)) (time : UInt32)
    (writes : List (Bytes × UInt64)) : Prop where
  collects : Collects s time writes
  own : ∀ k v, lastValue k writes = some v → lastValue k records = some (time, v)

/-- The last values stay right when a batch comes in. -/
theorem Timely.extend {s s' : State W} {records : List (Bytes × UInt32 × UInt64)}
    {time time' : UInt32} {writes writes' : List (Bytes × UInt64)}
    (h : Timely s records time writes)
    (hcollects : Collects s' time' ((if time = time' then writes else []) ++ writes')) :
    Timely s' (records ++ writes'.map fun r => (r.1, time', r.2)) time'
      ((if time = time' then writes else []) ++ writes') := by
  refine ⟨hcollects, ?_⟩
  intro k v hlast
  have hmap : lastValue k (writes'.map fun r => (r.1, time', r.2))
      = (lastValue k writes').map fun v => (time', v) :=
    lastValue_map Function.injective_id (fun v => (time', v)) k writes'
  rw [lastValue_append] at hlast ⊢
  rw [hmap]
  cases hnew : lastValue k writes' with
  -- the batch writes the key: its record is the last one on both sides
  | some v' =>
    rw [hnew, Option.some_or] at hlast
    rw [Option.map_some, Option.some_or, Option.some.inj hlast]
  | none =>
    rw [hnew, Option.none_or] at hlast
    rw [Option.map_none, Option.none_or]
    split at hlast
    · next hsame => exact hsame ▸ h.own k v hlast
    · cases hlast

/-- One action flushes pairs under their own times. -/
theorem Timely.step (p : Proxy W) {s : State W} {records : List (Bytes × UInt32 × UInt64)}
    {time : UInt32} {writes : List (Bytes × UInt64)} (h : Timely s records time writes)
    {item : Item p.cfg} (htimed : item.Timed) :
    (∃ time' writes', Timely (p.step s item.input)
        (records ++ if (p.act s item.input).1 = .ok then
          item.writes.map fun r => (r.1, item.flushTime, r.2) else []) time' writes') ∧
      ∀ f ∈ (p.step s item.input).env.flushes.drop s.env.flushes.length, ∀ r ∈ f.2,
        lastValue r.1 records = some (f.1, r.2) := by
  obtain ⟨new, hcalls, hacts⟩ := h.collects.act p item htimed
  have hflushes : (p.step s item.input).env.flushes.drop s.env.flushes.length
      = new.filterMap Call.flush? := by
    rw [Proxy.step, Env.flushes_of_calls hcalls, List.drop_left]
  have hown : ∀ f : UInt32 × List (Bytes × UInt64), f = (time, s.kp.enabledPairs) → ∀ r ∈ f.2,
      lastValue r.1 records = some (f.1, r.2) := by
    rintro _ rfl r hr
    exact h.own r.1 r.2 (h.collects.holds.mem hr)
  rw [hflushes]
  show (∃ time' writes', Timely (p.act s item.input).2 _ time' writes') ∧ _
  generalize p.act s item.input = r at hacts ⊢
  obtain ⟨r, s'⟩ := r
  cases hacts with
  | done hcollects hnew =>
    rw [if_pos rfl]
    refine ⟨⟨_, _, h.extend hcollects⟩, ?_⟩
    intro f hf
    refine hown f ?_
    rw [hnew] at hf
    split at hf
    · exact List.mem_singleton.mp hf
    · exact absurd hf List.not_mem_nil
  | failed hret _ hcollects hnew =>
    rw [if_neg hret, List.append_nil]
    refine ⟨⟨_, _, hcollects, h.own⟩, ?_⟩
    intro f hf
    exact hown f (hnew f hf)

theorem timely_run (p : Proxy W) (w : W) {items : List (Item p.cfg)}
    (htimed : ∀ item ∈ items, item.Timed) :
    ∃ time writes, Timely (run p.step (State.init w) (inputs items))
      (carried p (State.init w) items) time writes := by
  induction items using List.reverseRecOn with
  | nil => exact ⟨0, [], collects_init w, by rintro _ _ ⟨⟩⟩
  | append_singleton items item ih =>
    obtain ⟨time, writes, htimely⟩ := ih fun i hi => htimed i (List.mem_append_left _ hi)
    rw [inputs_concat, run_append, carried_concat]
    exact (htimely.step p (htimed item (List.mem_append_right _ List.mem_cons_self))).1

/-- **No mis-timestamped data**: whatever the backend does, in every run in which
no message of time 0 carries a record that passes the filters, every pair is
flushed under the time of the message that carried it. -/
theorem timelyRun_of_timed (p : Proxy W) (w : W) (items : List (Item p.cfg))
    (htimed : ∀ item ∈ items, item.Timed) : TimelyRun p w items := by
  rintro before item after rfl
  obtain ⟨time, writes, htimely⟩ :=
    timely_run p w fun i hi => htimed i (List.mem_append_left _ hi)
  exact (htimely.step p (htimed item (by simp))).2

/-- A message without records. -/
def emptyMessage (time : UInt32) : Message idleProxy.cfg :=
  { messageA time 0 with
    records := []
    keys := List.forall_mem_nil _
    size_lt := by simp [messageA, Tsk.message, Tsk.batchMagic] }

/-- Messages of two times, and one of time 0 without records. -/
theorem timelyRun_of_timed_twoTimes :
    TimelyRun idleProxy ()
      [.message (messageA 60 1), .message (emptyMessage 0), .message (messageA 120 2),
        .forceFlush] :=
  timelyRun_of_timed idleProxy () _ (by
    simp [Item.Timed, Item.flushTime, Item.writes, Config.passing, messageA, emptyMessage])

/-- The record of a message of time 0 is flushed under the time of the next
message. -/
theorem zeroTime_not_timelyRun :
    ¬ TimelyRun idleProxy ()
      [.message (messageA 0 1), .message (emptyMessage 60), .forceFlush] := by
  intro h
  have hflush := h [.message (messageA 0 1), .message (emptyMessage 60)] .forceFlush [] rfl
    (60, [([97], 1)]) (by decide +kernel) ([97], 1) (by decide)
  exact absurd hflush (by decide +kernel)

end TskProxy

end Libtimeseries
