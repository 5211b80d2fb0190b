import Libtimeseries.DbatsBulk
import Libtimeseries.DbatsPaths

/-!
# The retry loop of the DBATS flush

`timeseries_backend_dbats_kp_flush` goes back to its start whenever a set or the
commit deadlocks, from anywhere in its loop over the keys and as often as DBATS
likes. Each round works on a snapshot of its own, and leaves it in one of two
ways: a failed set aborts it, a refused commit consumes it.

- `GivenUp`: the calls of a round that did not commit;
- `Rounds`: the calls of a whole flush, round after round;
- `inSnapshot_rounds`: the loop makes the calls `Rounds` describes, and what the
  last round committed is one write for each enabled key;
- `kpFlush_allOrNothing`: so a flush is all or nothing.
-/

namespace Libtimeseries

open ByteLib LastWrite

namespace Dbats

/-- DBATS has handed out the id of every enabled key. -/
def HasIds (kis : List Ki) (t : KeyTable) : Prop :=
  ∀ ki ∈ kis, ki.disabled = false →
    ∃ id key, ki.backendState .dbats = some id ∧ t.key? id = some key

/-- The write of a key: its value, under its id. -/
def Stores (t : KeyTable) (ki : Ki) (w : Bytes × UInt64) : Prop :=
  ∃ id, ki.backendState .dbats = some id ∧ t.key? id = some w.1 ∧ w.2 = ki.value

/-- One write for each of the keys, in their order. -/
def StoresAll (t : KeyTable) (kis : List Ki) (ws : List (Bytes × UInt64)) : Prop :=
  List.Forall₂ (Stores t) kis ws

/-! ## The calls on snapshots -/

/-- The snapshots a log commits. -/
def committedSnaps (log : List SnapEvent) : List Nat :=
  (log.filter fun e => e.op = .commit ∧ e.result = .ok).map SnapEvent.snap

/-- A snapshot is aborted or has its commit refused, once, and is not used
afterwards. -/
def GivenUpOnce (log : List SnapEvent) (snap : Nat) : Prop :=
  ∃ before last after, log = before ++ last :: after ∧ last.snap = snap ∧
    (last.op = .abort ∨ last.op = .commit ∧ last.result ≠ .ok) ∧
    (∀ e ∈ before, e.snap = snap → ¬ e.ends) ∧ ∀ e ∈ after, e.snap ≠ snap

/-- A value that was set. -/
def setEvent (snap : Nat) (ki : Ki) : SnapEvent := ⟨snap, .set ki.value, .ok⟩

/-- The calls of a round that is given up, on the snapshot `snap`: some set
fails, or all succeed and the commit fails. -/
inductive GivenUp (time : UInt32) (kis : List Ki) (snap : Nat) : List SnapEvent → Prop
  | set {done rest : List Ki} {ki : Ki} {rc : DbResult} (split : kis = done ++ ki :: rest)
      (failed : rc ≠ .ok) :
      GivenUp time kis snap (⟨snap, .select time, .ok⟩ ::
        (done.map (setEvent snap) ++ [⟨snap, .set ki.value, rc⟩, ⟨snap, .abort, .ok⟩]))
  | commit {rc : DbResult} (refused : rc ≠ .ok) :
      GivenUp time kis snap (⟨snap, .select time, .ok⟩ ::
        (kis.map (setEvent snap) ++ [⟨snap, .commit, rc⟩]))

/-- The calls of a flush of `kis` whose first snapshot is `snap`, what it
returns, and the snapshot it commits. -/
inductive Rounds (time : UInt32) (kis : List Ki) :
    Nat → List SnapEvent → Ret → Option Nat → Prop
  | noSelect {snap : Nat} : Rounds time kis snap [] .fail none
  | error {snap : Nat} {round : List SnapEvent} (h : GivenUp time kis snap round) :
      Rounds time kis snap round .fail none
  | retry {snap : Nat} {round events : List SnapEvent} {r : Ret} {committed : Option Nat}
      (h : GivenUp time kis snap round)
      (rest : Rounds time kis (snap + 1) events r committed) :
      Rounds time kis snap (round ++ events) r committed
  | done {snap : Nat} :
      Rounds time kis snap (⟨snap, .select time, .ok⟩ ::
        (kis.map (setEvent snap) ++ [⟨snap, .commit, .ok⟩])) .ok (some snap)

section Trace

variable {time : UInt32} {kis : List Ki} {snap : Nat} {events : List SnapEvent}

theorem committedSnaps_append (log log' : List SnapEvent) :
    committedSnaps (log ++ log') = committedSnaps log ++ committedSnaps log' := by
  rw [committedSnaps, List.filter_append, List.map_append]
  rfl

theorem mem_setEvents {snap : Nat} {kis : List Ki} {e : SnapEvent}
    (h : e ∈ kis.map (setEvent snap)) : e.snap = snap ∧ ∃ value, e.op = .set value := by
  obtain ⟨ki, -, rfl⟩ := List.mem_map.mp h
  exact ⟨rfl, ki.value, rfl⟩

theorem SnapEvent.not_ends_of_set {e : SnapEvent} (h : ∃ value, e.op = .set value) : ¬ e.ends := by
  obtain ⟨value, hop⟩ := h
  rw [SnapEvent.ends, hop]
  rintro (h | h) <;> cases h

@[simp] theorem committedSnaps_setEvents (snap : Nat) (kis : List Ki) :
    committedSnaps (kis.map (setEvent snap)) = [] := by
  rw [committedSnaps, List.map_eq_nil_iff, List.filter_eq_nil_iff]
  intro e he
  obtain ⟨-, value, hop⟩ := mem_setEvents he
  simp [hop]

/-- A round that is given up is about its snapshot alone, and ends it with its
last call. -/
theorem GivenUp.spec (h : GivenUp time kis snap events) :
    (∀ e ∈ events, e.snap = snap) ∧ committedSnaps events = [] ∧
      ∃ before last, events = before ++ [last] ∧
        (last.op = .abort ∨ last.op = .commit ∧ last.result ≠ .ok) ∧
        ∀ e ∈ before, ¬ e.ends := by
  cases h with
  | @set done rest ki rc hsplit hfailed =>
    refine ⟨?_, ?_, ⟨snap, .select time, .ok⟩ :: (done.map (setEvent snap) ++
      [⟨snap, .set ki.value, rc⟩]), ⟨snap, .abort, .ok⟩, by simp, .inl rfl, ?_⟩
    · intro e he
      simp only [List.mem_cons, List.mem_append, List.not_mem_nil, or_false] at he
      rcases he with rfl | he | rfl | rfl
      · rfl
      · exact (mem_setEvents he).1
      · rfl
      · rfl
    · rw [← List.singleton_append, committedSnaps_append, committedSnaps_append,
        committedSnaps_setEvents]
      rfl
    · intro e he
      simp only [List.mem_cons, List.mem_append, List.not_mem_nil, or_false] at he
      rcases he with rfl | he | rfl
      · rintro (h | h) <;> cases h
      · exact SnapEvent.not_ends_of_set (mem_setEvents he).2
      · exact SnapEvent.not_ends_of_set ⟨ki.value, rfl⟩
  | @commit rc hrefused =>
    refine ⟨?_, ?_, ⟨snap, .select time, .ok⟩ :: kis.map (setEvent snap),
      ⟨snap, .commit, rc⟩, by simp, .inr ⟨rfl, hrefused⟩, ?_⟩
    · intro e he
      simp only [List.mem_cons, List.mem_append, List.not_mem_nil, or_false] at he
      rcases he with rfl | he | rfl
      · rfl
      · exact (mem_setEvents he).1
      · rfl
    · rw [← List.singleton_append, committedSnaps_append, committedSnaps_append,
        committedSnaps_setEvents]
      simp [committedSnaps, hrefused]
    · intro e he
      rcases List.mem_cons.mp he with rfl | he
      · rintro (h | h) <;> cases h
      · exact SnapEvent.not_ends_of_set (mem_setEvents he).2

/-- Calls on other snapshots do not matter. -/
theorem GivenUpOnce.of_append_left {log log' : List SnapEvent} (h : GivenUpOnce log snap)
    (hother : ∀ e ∈ log', e.snap ≠ snap) : GivenUpOnce (log ++ log') snap := by
  obtain ⟨before, last, after, rfl, hsnap, hlast, hbefore, hafter⟩ := h
  refine ⟨before, last, after ++ log', by simp, hsnap, hlast, hbefore, ?_⟩
  intro e he
  rcases List.mem_append.mp he with he | he
  · exact hafter e he
  · exact hother e he

theorem GivenUpOnce.of_append_right {log log' : List SnapEvent} (h : GivenUpOnce log' snap)
    (hother : ∀ e ∈ log, e.snap ≠ snap) : GivenUpOnce (log ++ log') snap := by
  obtain ⟨before, last, after, rfl, hsnap, hlast, hbefore, hafter⟩ := h
  refine ⟨log ++ before, last, after, by simp, hsnap, hlast, ?_, hafter⟩
  intro e he heq
  rcases List.mem_append.mp he with he | he
  · exact absurd heq (hother e he)
  · exact hbefore e he heq

theorem GivenUp.once (h : GivenUp time kis snap events) : GivenUpOnce events snap := by
  obtain ⟨hsnap, -, before, last, rfl, hlast, hbefore⟩ := h.spec
  refine ⟨before, last, [], rfl, ?_, hlast, fun e he _ => hbefore e he, by simp⟩
  exact hsnap last (by simp)

/-- The rounds commit one snapshot or none, and give all others up. By induction
on the rounds; a later round works on a later snapshot, so it leaves the ones
before it alone. -/
theorem Rounds.spec {r : Ret} {committed : Option Nat}
    (h : Rounds time kis snap events r committed) :
    (∀ e ∈ events, snap ≤ e.snap) ∧ committedSnaps events = committed.toList ∧
      ∀ e ∈ events, committed ≠ some e.snap → GivenUpOnce events e.snap := by
  induction h with
  | noSelect => exact ⟨by simp, rfl, by simp⟩
  | @error snap round hround =>
    obtain ⟨hsnap, hnone, -⟩ := hround.spec
    refine ⟨fun e he => (hsnap e he).ge, hnone, ?_⟩
    intro e he _
    rw [hsnap e he]
    exact hround.once
  | @retry snap round events r committed hround hrest ih =>
    obtain ⟨hsnap, hnone, -⟩ := hround.spec
    obtain ⟨hlater, hcommitted, hgiven⟩ := ih
    refine ⟨?_, ?_, ?_⟩
    · intro e he
      rcases List.mem_append.mp he with he | he
      · exact (hsnap e he).ge
      · have := hlater e he
        omega
    · rw [committedSnaps_append, hnone, hcommitted, List.nil_append]
    · intro e he hne
      rcases List.mem_append.mp he with he | he
      · rw [hsnap e he]
        refine hround.once.of_append_left ?_
        intro e' he'
        have := hlater e' he'
        omega
      · refine (hgiven e he hne).of_append_right ?_
        intro e' he'
        have := hlater e he
        have := hsnap e' he'
        omega
  | @done snap =>
    have hsnap : ∀ e ∈ (⟨snap, .select time, .ok⟩ :: (kis.map (setEvent snap) ++
        [⟨snap, .commit, .ok⟩]) : List SnapEvent), e.snap = snap := by
      intro e he
      simp only [List.mem_cons, List.mem_append, List.not_mem_nil, or_false] at he
      rcases he with rfl | he | rfl
      · rfl
      · exact (mem_setEvents he).1
      · rfl
    refine ⟨fun e he => (hsnap e he).ge, ?_, ?_⟩
    · rw [← List.singleton_append, committedSnaps_append, committedSnaps_append,
        committedSnaps_setEvents]
      rfl
    · intro e he hne
      exact absurd (congrArg some (hsnap e he).symm) hne

end Trace

/-! ## The calls the loop makes -/

/-- What a call takes from the outcomes to come. -/
theorem Db.nextResult_spec (db : Db) :
    ∃ results, db.nextResult.2 = { db with results := results } ∧
      results.length ≤ db.results.length ∧
      (db.nextResult.1 = .deadlock → results.length < db.results.length) := by
  refine ⟨db.results.tail, rfl, by simp, ?_⟩
  intro h
  cases hres : db.results with
  | nil =>
    rw [Db.nextResult, hres] at h
    cases h
  | cons rc rcs => simp

/-- The values of the keys `kis` were set in the snapshot `snap`, which is for
`time` and held `ws`, until a call returned `rc`. -/
structure Sets (time : UInt32) (snap : Nat) (kis : List Ki) (ws : List (Bytes × UInt64))
    (db : Db) (rc : DbResult) (db' : Db) : Prop where
  table : db'.table = db.table
  data : db'.data = db.data
  size : db'.snaps.length = db.snaps.length
  /-- each deadlock is one of the outcomes to come -/
  results : db'.results.length ≤ db.results.length ∧
    (rc = .deadlock → db'.results.length < db.results.length)
  calls : (rc = .ok ∧ db'.log = db.log ++ kis.map (setEvent snap) ∧
      ∃ ws', db'.snaps[snap]? = some ⟨time, ws ++ ws'⟩ ∧ StoresAll db.table kis ws') ∨
    (rc ≠ .ok ∧ ∃ done ki rest, kis = done ++ ki :: rest ∧
      db'.log = db.log ++ (done.map (setEvent snap) ++ [⟨snap, .set ki.value, rc⟩]))

section Loop

variable {time : UInt32} {snap : Nat} {ws : List (Bytes × UInt64)} {db : Db}

/-- `dbats_set` of one key. -/
theorem Db.set_sets {ki : Ki} {id : UInt32} {key : Bytes} (hid : ki.backendState .dbats = some id)
    (hkey : db.table.key? id = some key) (hsnap : db.snaps[snap]? = some ⟨time, ws⟩) :
    Sets time snap [ki] ws db (db.set snap id ki.value).1 (db.set snap id ki.value).2 := by
  obtain ⟨results, hnext, hle, hlt⟩ := db.nextResult_spec
  unfold Db.set
  generalize db.nextResult = r at hnext hlt ⊢
  obtain ⟨rc, db₁⟩ := r
  obtain rfl : db₁ = { db with results := results } := hnext
  cases rc with
  | ok =>
    dsimp only
    rw [Db.write, hkey]
    refine ⟨rfl, rfl, List.length_modify _ _ _, ⟨hle, by rintro ⟨⟩⟩, .inl ⟨rfl, rfl, ?_⟩⟩
    refine ⟨[(key, ki.value)], ?_, .cons ⟨id, hid, hkey, rfl⟩ .nil⟩
    show (db.snaps.modify snap _)[snap]? = _
    rw [List.getElem?_modify_eq, hsnap]
    rfl
  | deadlock =>
    exact ⟨rfl, rfl, rfl, ⟨hle, hlt⟩, .inr ⟨by rintro ⟨⟩, [], ki, [], rfl, rfl⟩⟩
  | error =>
    exact ⟨rfl, rfl, rfl, ⟨hle, by rintro ⟨⟩⟩, .inr ⟨by rintro ⟨⟩, [], ki, [], rfl, rfl⟩⟩

/-- No key is set. -/
theorem Sets.nil (hsnap : db.snaps[snap]? = some ⟨time, ws⟩) : Sets time snap [] ws db .ok db :=
  ⟨rfl, rfl, rfl, ⟨Nat.le_refl _, by rintro ⟨⟩⟩,
    .inl ⟨rfl, (List.append_nil _).symm, [], by rw [List.append_nil, hsnap], .nil⟩⟩

/-- The loop stops at the first key that fails. -/
theorem Sets.stop {ki : Ki} {rc : DbResult} {db' : Db} (h : Sets time snap [ki] ws db rc db')
    (hrc : rc ≠ .ok) (kis : List Ki) : Sets time snap (ki :: kis) ws db rc db' := by
  refine ⟨h.table, h.data, h.size, h.results, .inr ⟨hrc, ?_⟩⟩
  rcases h.calls with ⟨hok, -⟩ | ⟨-, done, ki', rest, hsplit, hlog⟩
  · exact absurd hok hrc
  · refine ⟨done, ki', rest ++ kis, ?_, hlog⟩
    rw [← List.singleton_append, hsplit, List.append_assoc]
    rfl

/-- After a key that was set the loop goes on. -/
theorem Sets.cons {ki : Ki} {kis : List Ki} {rc : DbResult} {db₁ db' : Db}
    (h : Sets time snap [ki] ws db .ok db₁)
    (hrest : ∀ ws', db₁.snaps[snap]? = some ⟨time, ws'⟩ → Sets time snap kis ws' db₁ rc db') :
    Sets time snap (ki :: kis) ws db rc db' := by
  rcases h.calls with ⟨-, hlog, ws₁, hsnap, hstores⟩ | ⟨hne, -⟩
  · have h' := hrest _ hsnap
    refine ⟨h'.table.trans h.table, h'.data.trans h.data, h'.size.trans h.size,
      ⟨h'.results.1.trans h.results.1, fun hrc => (h'.results.2 hrc).trans_le h.results.1⟩, ?_⟩
    rcases h'.calls with ⟨hrc, hlog', ws', hsnap', hstores'⟩ | ⟨hrc, done, ki', rest, hkis, hlog'⟩
    · refine .inl ⟨hrc, ?_, ws₁ ++ ws', ?_, ?_⟩
      · rw [hlog', hlog, List.append_assoc]
        rfl
      · rw [hsnap', List.append_assoc]
      · rw [h.table] at hstores'
        exact List.rel_append hstores hstores'
    · refine .inr ⟨hrc, ki :: done, ki', rest, by rw [hkis]; rfl, ?_⟩
      rw [hlog', hlog, List.append_assoc]
      rfl
  · exact absurd rfl hne

/-- The loop over the keys sets the enabled ones, in their order. -/
theorem setKis_sets {kis : List Ki} (hids : HasIds kis db.table)
    (hsnap : db.snaps[snap]? = some ⟨time, ws⟩) :
    ∃ rc db', setKis kis snap db = (.ok rc, db') ∧
      Sets time snap (kis.filter fun ki => !ki.disabled) ws db rc db' := by
  induction kis generalizing db ws with
  | nil => exact ⟨.ok, db, rfl, .nil hsnap⟩
  | cons ki kis ih =>
    obtain ⟨hki, hkis⟩ := List.forall_mem_cons.mp hids
    rw [setKis]
    cases hen : ki.disabled with
    | true =>
      rw [if_pos rfl, List.filter_cons_of_neg (by simp [hen])]
      exact ih hkis hsnap
    | false =>
      obtain ⟨id, key, hid, hkey⟩ := hki hen
      have hset := Db.set_sets hid hkey hsnap
      rw [if_neg Bool.false_ne_true, hid, List.filter_cons_of_pos (by simp [hen])]
      dsimp only
      generalize db.set snap id ki.value = r at hset ⊢
      obtain ⟨rc, db₁⟩ := r
      cases rc with
      | deadlock => exact ⟨.deadlock, db₁, rfl, hset.stop (by rintro ⟨⟩) _⟩
      | error => exact ⟨.error, db₁, rfl, hset.stop (by rintro ⟨⟩) _⟩
      | ok =>
        have hkis' : HasIds kis db₁.table := by
          rw [hset.table]
          exact hkis
        rcases hset.calls with ⟨-, -, ws₁, hsnap₁, -⟩ | ⟨hne, -⟩
        · obtain ⟨rc, db', hloop, hrest⟩ := ih hkis' hsnap₁
          refine ⟨rc, db', hloop, hset.cons ?_⟩
          intro ws' hws'
          obtain rfl : ws ++ ws₁ = ws' := by
            have := hsnap₁.symm.trans hws'
            simpa using this
          exact hrest
        · exact absurd rfl hne

/-- `dbats_select_snap` fails, or opens the next snapshot. -/
theorem Db.selectSnap_spec (db : Db) (time : UInt32) :
    (∃ db', db.selectSnap time = (none, db') ∧ db'.log = db.log ∧ db'.data = db.data) ∨
    (∃ db', db.selectSnap time = (some db.snaps.length, db') ∧
      db'.log = db.log ++ [⟨db.snaps.length, .select time, .ok⟩] ∧
      db'.snaps = db.snaps ++ [⟨time, []⟩] ∧ db'.table = db.table ∧ db'.data = db.data ∧
      db'.results.length ≤ db.results.length) := by
  obtain ⟨results, hnext, hle, -⟩ := db.nextResult_spec
  unfold Db.selectSnap
  generalize db.nextResult = r at hnext ⊢
  obtain ⟨rc, db₁⟩ := r
  obtain rfl : db₁ = { db with results := results } := hnext
  cases rc with
  | ok => exact .inr ⟨_, rfl, rfl, rfl, rfl, rfl, hle⟩
  | deadlock => exact .inl ⟨_, rfl, rfl, rfl⟩
  | error => exact .inl ⟨_, rfl, rfl, rfl⟩

/-- `dbats_commit_snap` puts the writes of the snapshot on top of the data, or
changes nothing but the log. -/
theorem Db.commitSnap_spec (hsnap : db.snaps[snap]? = some ⟨time, ws⟩) :
    ∃ rc db', db.commitSnap snap = (rc, db') ∧ db'.log = db.log ++ [⟨snap, .commit, rc⟩] ∧
      db'.snaps = db.snaps ∧ db'.table = db.table ∧
      db'.results.length ≤ db.results.length ∧
      (rc = .deadlock → db'.results.length < db.results.length) ∧
      (rc = .ok → Committed db db' time ws) ∧ (rc ≠ .ok → db'.data = db.data) := by
  obtain ⟨results, hnext, hle, hlt⟩ := db.nextResult_spec
  unfold Db.commitSnap
  generalize db.nextResult = r at hnext hlt ⊢
  obtain ⟨rc, db₁⟩ := r
  obtain rfl : db₁ = { db with results := results } := hnext
  cases rc with
  | deadlock =>
    exact ⟨.deadlock, _, rfl, rfl, rfl, rfl, hle, hlt, by rintro ⟨⟩, fun _ => rfl⟩
  | error =>
    exact ⟨.error, _, rfl, rfl, rfl, rfl, hle, by rintro ⟨⟩, by rintro ⟨⟩, fun _ => rfl⟩
  | ok =>
    dsimp only
    rw [Db.apply, hsnap]
    exact ⟨.ok, _, rfl, rfl, rfl, rfl, hle, by rintro ⟨⟩, fun _ => rfl,
      fun hne => absurd rfl hne⟩

end Loop

/-- A flush of the keys `kis` made the calls `events` and returned `r`. -/
structure Flushed (time : UInt32) (kis : List Ki) (db : Db) (events : List SnapEvent) (r : Ret)
    (committed : Option Nat) (db' : Db) : Prop where
  log : db'.log = db.log ++ events
  rounds : Rounds time kis db.snaps.length events r committed
  outcome : (r = .ok ∧ ∃ snap ws, committed = some snap ∧
      ⟨snap, .select time, .ok⟩ ∈ events ∧ db'.snaps[snap]? = some ⟨time, ws⟩ ∧
      StoresAll db.table kis ws ∧ Committed db db' time ws) ∨
    (r = .fail ∧ committed = none ∧ db'.data = db.data)

/-- A round that a deadlock ended: the loop starts again, with one result fewer to
come. -/
structure StartsAgain (time : UInt32) (kis : List Ki) (db : Db) (round : List SnapEvent)
    (db₁ : Db) : Prop where
  log : db₁.log = db.log ++ round
  givenUp : GivenUp time kis db.snaps.length round
  size : db₁.snaps.length = db.snaps.length + 1
  table : db₁.table = db.table
  data : db₁.data = db.data
  results : db₁.results.length < db.results.length

/-- One round more, in front. -/
theorem Flushed.retry {time : UInt32} {kis : List Ki} {db db₁ db' : Db}
    {round events : List SnapEvent} {r : Ret} {committed : Option Nat}
    (h : Flushed time kis db₁ events r committed db') (hround : StartsAgain time kis db round db₁) :
    Flushed time kis db (round ++ events) r committed db' := by
  refine ⟨?_, .retry hround.givenUp (hround.size ▸ h.rounds), ?_⟩
  · rw [h.log, hround.log, List.append_assoc]
  · rcases h.outcome with ⟨hr, snap, ws, hsnap, hselect, hws, hstores, hcommitted⟩ |
      ⟨hr, hnone, hdata⟩
    · refine .inl ⟨hr, snap, ws, hsnap, List.mem_append_right _ hselect, hws,
        hround.table ▸ hstores, ?_⟩
      rw [Committed, ← hround.data]
      exact hcommitted
    · exact .inr ⟨hr, hnone, hdata.trans hround.data⟩

/-- **One round** of the retry loop is its last, or starts it again. -/
theorem inSnapshot_round (time : UInt32) {kis : List Ki} {db : Db} (hids : HasIds kis db.table) :
    (∃ events r committed db', (∀ fuel, inSnapshot time (setKis kis) (fuel + 1) db = (r, db')) ∧
      Flushed time (kis.filter fun ki => !ki.disabled) db events r committed db') ∨
    (∃ round db₁, (∀ fuel, inSnapshot time (setKis kis) (fuel + 1) db
        = inSnapshot time (setKis kis) fuel db₁) ∧
      StartsAgain time (kis.filter fun ki => !ki.disabled) db round db₁) := by
  simp only [inSnapshot]
  rcases db.selectSnap_spec time with ⟨db₁, hselect, hlog, hdata⟩ |
    ⟨db₁, hselect, hlog₁, hsnaps₁, htable₁, hdata₁, hresults₁⟩
  · rw [hselect]
    exact .inl ⟨[], .fail, none, db₁, fun _ => rfl, by rw [hlog, List.append_nil], .noSelect,
      .inr ⟨rfl, rfl, hdata⟩⟩
  rw [hselect]
  have hsnap₁ : db₁.snaps[db.snaps.length]? = some ⟨time, []⟩ := by
    rw [hsnaps₁, List.getElem?_concat_length]
  have hsize₁ : db₁.snaps.length = db.snaps.length + 1 := by
    rw [hsnaps₁, List.length_append, List.length_singleton]
  obtain ⟨rc, db₂, hloop, hsets⟩ := setKis_sets (htable₁ ▸ hids) hsnap₁
  have hsize₂ := hsets.size.trans hsize₁
  have htable₂ := hsets.table.trans htable₁
  have hdata₂ := hsets.data.trans hdata₁
  obtain ⟨hle₂, hlt₂⟩ := hsets.results
  simp only [hloop]
  rcases hsets.calls with ⟨rfl, hlog₂, ws, hsnap₂, hstores⟩ |
    ⟨hrc, done, ki, rest, hsplit, hlog₂⟩
  · -- every key is set: it is up to the commit
    rw [htable₁] at hstores
    obtain ⟨rc, db₃, hcommit, hlog₃, hsnaps₃, htable₃, hle₃, hlt₃, hok, hdata₃⟩ :=
      Db.commitSnap_spec hsnap₂
    rw [hlog₂, hlog₁, List.append_assoc, List.append_assoc] at hlog₃
    have hsize₃ : db₃.snaps.length = db.snaps.length + 1 := (congrArg _ hsnaps₃).trans hsize₂
    simp only [hcommit]
    cases rc with
    | ok =>
      refine .inl ⟨_, .ok, some db.snaps.length, db₃, fun _ => rfl, hlog₃, .done,
        .inl ⟨rfl, _, ws, rfl, List.mem_cons_self, ?_, hstores, ?_⟩⟩
      · rw [hsnaps₃, hsnap₂]
        rfl
      · rw [Committed, ← hdata₂]
        exact hok rfl
    | deadlock =>
      have hlt := hlt₃ rfl
      exact .inr ⟨_, db₃, fun _ => rfl, hlog₃, .commit (by rintro ⟨⟩), hsize₃,
        htable₃.trans htable₂, (hdata₃ (by rintro ⟨⟩)).trans hdata₂, by omega⟩
    | error =>
      exact .inl ⟨_, .fail, none, db₃, fun _ => rfl, hlog₃, .error (.commit (by rintro ⟨⟩)),
        .inr ⟨rfl, rfl, (hdata₃ (by rintro ⟨⟩)).trans hdata₂⟩⟩
  · -- a set fails: the snapshot is aborted
    have hlog₃ : (db₂.abortSnap db.snaps.length).log = db.log ++
        (⟨db.snaps.length, .select time, .ok⟩ :: (done.map (setEvent db.snaps.length) ++
          [⟨db.snaps.length, .set ki.value, rc⟩, ⟨db.snaps.length, .abort, .ok⟩])) := by
      show db₂.log ++ _ = _
      rw [hlog₂, hlog₁]
      simp
    cases rc with
    | ok => exact absurd rfl hrc
    | deadlock =>
      have hlt : db₂.results.length < db.results.length := (hlt₂ rfl).trans_le hresults₁
      exact .inr ⟨_, db₂.abortSnap db.snaps.length, fun _ => rfl, hlog₃, .set hsplit hrc, hsize₂,
        htable₂, hdata₂, hlt⟩
    | error =>
      exact .inl ⟨_, .fail, none, _, fun _ => rfl, hlog₃, .error (.set hsplit hrc),
        .inr ⟨rfl, rfl, hdata₂⟩⟩

/-- The retry loop, with more rounds than deadlocks to come. By induction on the
rounds: each that goes back to the start has used a deadlock up. -/
theorem inSnapshot_rounds (time : UInt32) {kis : List Ki} {fuel : Nat} {db : Db}
    (hids : HasIds kis db.table) (hfuel : db.results.length < fuel) :
    ∃ events r committed db', inSnapshot time (setKis kis) fuel db = (r, db') ∧
      Flushed time (kis.filter fun ki => !ki.disabled) db events r committed db' := by
  induction fuel generalizing db with
  | zero => exact absurd hfuel (Nat.not_lt_zero _)
  | succ fuel ih =>
    rcases inSnapshot_round time hids with ⟨events, r, committed, db', hrun, hflushed⟩ |
      ⟨round, db₁, hrun, hagain⟩
    · exact ⟨events, r, committed, db', hrun fuel, hflushed⟩
    · have hids₁ : HasIds kis db₁.table := by
        rw [hagain.table]
        exact hids
      have hfuel₁ : db₁.results.length < fuel :=
        hagain.results.trans_le (Nat.le_of_lt_succ hfuel)
      obtain ⟨events, r, committed, db', hrest, hflushed⟩ := ih hids₁ hfuel₁
      exact ⟨round ++ events, r, committed, db', (hrun fuel).trans hrest, hflushed.retry hagain⟩

/-! ## All or nothing -/

/-- A flush with the calls `events` that returned `r` did everything or nothing:
one snapshot is committed, with one write for each enabled key, or none; every
other snapshot it used is given up. -/
structure AllOrNothing (kp : Kp) (time : UInt32) (s : State) (events : List SnapEvent) (r : Ret)
    (s' : State) : Prop where
  returns : r = .ok ∨ r = .fail
  all : r = .ok → ∃ snap ws, committedSnaps events = [snap] ∧
    ⟨snap, .select time, .ok⟩ ∈ events ∧ s'.db.snaps[snap]? = some ⟨time, ws⟩ ∧
    StoresAll s.db.table kp.enabledKis ws ∧ Committed s.db s'.db time ws
  nothing : r = .fail → committedSnaps events = [] ∧ s'.db.data = s.db.data
  others : ∀ e ∈ events, e.snap ∉ committedSnaps events → GivenUpOnce events e.snap

/-- **A DBATS flush is all or nothing**, whatever DBATS answers: the outcomes of
its calls are any finite list. -/
theorem kpFlush_allOrNothing (kp : Kp) (time : UInt32) (s : State)
    (hids : HasIds kp.keyInfos s.db.table) :
    ∃ events, (kpFlush kp time s).2.2.db.log = s.db.log ++ events ∧
      AllOrNothing kp time s events (kpFlush kp time s).1 (kpFlush kp time s).2.2 := by
  obtain ⟨events, r, committed, db', hrun, hflushed⟩ :=
    inSnapshot_rounds time hids (Nat.lt_succ_self s.db.results.length)
  have hflush : kpFlush kp time s = (r, kp, { s with db := db' }) := by
    rw [kpFlush, enoughFuel, hrun]
  obtain ⟨-, hsnaps, hgiven⟩ := hflushed.rounds.spec
  rw [hflush]
  refine ⟨events, hflushed.log, ?_⟩
  rcases hflushed.outcome with ⟨rfl, snap, ws, rfl, hselect, hws, hstores, hcommitted⟩ |
    ⟨rfl, rfl, hdata⟩
  · refine ⟨.inl rfl, fun _ => ⟨snap, ws, hsnaps, hselect, hws, hstores, hcommitted⟩,
      by rintro ⟨⟩, ?_⟩
    intro e he hne
    refine hgiven e he ?_
    intro heq
    rw [hsnaps, Option.some.inj heq] at hne
    exact hne List.mem_cons_self
  · refine ⟨.inr rfl, by rintro ⟨⟩, fun _ => ⟨hsnaps, hdata⟩, ?_⟩
    intro e he _
    exact hgiven e he (by rintro ⟨⟩)

/-- A database with the keys `a` and `b`. The second set deadlocks, then the
commit. -/
def deadlocking : Db where
  table := ⟨[[97], [98]], by decide, by decide⟩
  data := fun _ => none
  snaps := []
  results := [.ok, .ok, .deadlock, .ok, .ok, .ok, .deadlock]
  log := []

/-- A package with the keys `a` and `b`, resolved while all calls succeed. -/
def resolvedPair : Kp :=
  let kp := ((((Kp.init 0).addKey .success (.ofAscii "a")).2.addKey .success
    (.ofAscii "b")).2.set 0 7).2.set 1 8 |>.2
  (kpKiUpdate kp (State.init { deadlocking with results := [] })).2.1

theorem kpFlush_allOrNothing_deadlocking :
    ∃ events, (kpFlush resolvedPair 60 (State.init deadlocking)).2.2.db.log = [] ++ events ∧
      AllOrNothing resolvedPair 60 (State.init deadlocking) events
        (kpFlush resolvedPair 60 (State.init deadlocking)).1
        (kpFlush resolvedPair 60 (State.init deadlocking)).2.2 := by
  refine kpFlush_allOrNothing resolvedPair 60 (State.init deadlocking) ?_
  intro ki hki _
  rcases List.mem_cons.mp hki with rfl | hki
  · exact ⟨0, [97], rfl, rfl⟩
  · obtain rfl := List.mem_singleton.mp hki
    exact ⟨1, [98], rfl, rfl⟩

/-- Three snapshots: the first is aborted, the second refused, the third
committed. -/
example : (kpFlush resolvedPair 60 (State.init deadlocking)).1 = .ok ∧
    committedSnaps (kpFlush resolvedPair 60 (State.init deadlocking)).2.2.db.log = [2] := by
  decide

end Dbats

end Libtimeseries
