import Libtimeseries.Base.Runs
import Libtimeseries.Dbats
import Mathlib.Data.List.Pairwise

/-!
# The DBATS bulk protocol

A caller opens a bulk set with `set_bulk_init`, sends its values with
`set_bulk_by_id` and may start over once the set is complete or one of its calls
failed. Four fields of the backend have to be idle again at that point, and the
snapshot must not be touched after it was committed or aborted.

Calls carry the outcomes of the DBATS calls they make, so a list of them is a
run with arbitrary outcomes. `recovers_iff` says which runs are survived: those
in which a set or commit never fails, and a select fails exactly for the empty
sets (whose snapshot nothing would close), the last call apart.
-/

namespace Libtimeseries

open RunLib

namespace Dbats

/-! ## Use of snapshots -/

/-- Is this call one that needs a live snapshot? -/
def SnapEvent.uses (e : SnapEvent) : Prop := ∀ time, e.op ≠ .select time

/-- Does this call end the life of its snapshot? -/
def SnapEvent.ends (e : SnapEvent) : Prop := e.op = .commit ∨ e.op = .abort

/-- No snapshot is set into, committed or aborted after it was committed or
aborted. -/
def NoUseAfterEnd (log : List SnapEvent) : Prop :=
  log.Pairwise fun e e' => e.ends → e'.uses → e'.snap ≠ e.snap

/-- The discipline is kept so far, and only selected snapshots occur. -/
structure Db.LogOk (db : Db) : Prop where
  noUse : NoUseAfterEnd db.log
  selected : ∀ e ∈ db.log, e.snap < db.snaps.length

/-- A snapshot that is selected and not ended. -/
structure Db.Live (db : Db) (snap : Nat) : Prop where
  selected : snap < db.snaps.length
  notEnded : ∀ e ∈ db.log, e.ends → e.snap ≠ snap

/-- A snapshot that was committed or aborted. -/
def Db.Ended (db : Db) (snap : Nat) : Prop := ∃ e ∈ db.log, e.ends ∧ e.snap = snap

section Log

variable {db : Db} {snap : Nat}

theorem noUseAfterEnd_concat {log : List SnapEvent} {e : SnapEvent} :
    NoUseAfterEnd (log ++ [e]) ↔
      NoUseAfterEnd log ∧ ∀ e' ∈ log, e'.ends → e.uses → e.snap ≠ e'.snap := by
  unfold NoUseAfterEnd
  rw [List.pairwise_append]
  simp

theorem Db.LogOk.use (h : db.LogOk) (hlive : db.Live snap) (op : SnapOp) (result : DbResult) :
    (db.record snap op result).LogOk where
  noUse := by
    refine noUseAfterEnd_concat.mpr ⟨h.noUse, ?_⟩
    intro e he hends _ heq
    exact hlive.notEnded e he hends heq.symm
  selected e he := by
    rcases List.mem_append.mp he with he | he
    · exact h.selected e he
    · rw [List.mem_singleton.mp he]
      exact hlive.selected

theorem Db.Live.set (h : db.Live snap) (value : UInt64) (result : DbResult) :
    (db.record snap (.set value) result).Live snap where
  selected := h.selected
  notEnded e he hends := by
    rcases List.mem_append.mp he with he | he
    · exact h.notEnded e he hends
    · rw [List.mem_singleton.mp he] at hends
      rcases hends with h | h <;> cases h

theorem Db.ended_record (db : Db) (snap : Nat) {op : SnapOp} (hop : op = .commit ∨ op = .abort)
    (result : DbResult) : (db.record snap op result).Ended snap :=
  ⟨⟨snap, op, result⟩, List.mem_append_right _ (List.mem_singleton_self _), hop, rfl⟩

/-- Touching an ended snapshot breaks the discipline. -/
theorem Db.Ended.not_abort (h : db.Ended snap) : ¬ NoUseAfterEnd (db.abortSnap snap).log := by
  obtain ⟨e, he, hends, rfl⟩ := h
  intro hno
  exact (noUseAfterEnd_concat.mp hno).2 e he hends (by rintro _ ⟨⟩) rfl

/-- Writing data leaves the log alone. -/
theorem Db.write_log (db : Db) (snap snap' : Nat) (id : UInt32) (value : UInt64) :
    ((db.write snap id value).LogOk ↔ db.LogOk) ∧
      ((db.write snap id value).Live snap' ↔ db.Live snap') := by
  have hlog : (db.write snap id value).log = db.log ∧
      (db.write snap id value).snaps.length = db.snaps.length := by
    unfold Db.write
    split <;> simp
  obtain ⟨hlog, hsnaps⟩ := hlog
  constructor
  · constructor
    · intro h
      exact ⟨hlog ▸ h.noUse, by rw [← hlog, ← hsnaps]; exact h.selected⟩
    · intro h
      exact ⟨hlog ▸ h.noUse, by rw [hlog, hsnaps]; exact h.selected⟩
  · constructor
    · intro h
      exact ⟨hsnaps ▸ h.selected, by rw [← hlog]; exact h.notEnded⟩
    · intro h
      exact ⟨hsnaps ▸ h.selected, by rw [hlog]; exact h.notEnded⟩

/-- Committing changes the data; the log records it. -/
theorem Db.commitSnap_log {rc : DbResult} {rcs : List DbResult} (snap : Nat)
    (h : db.results = rc :: rcs) :
    (db.commitSnap snap).1 = rc ∧
      (db.commitSnap snap).2.log = (db.record snap .commit rc).log ∧
      (db.commitSnap snap).2.snaps = db.snaps := by
  unfold Db.commitSnap Db.nextResult
  rw [h]
  cases rc with
  | deadlock => exact ⟨rfl, rfl, rfl⟩
  | error => exact ⟨rfl, rfl, rfl⟩
  | ok =>
    simp only [List.headD_cons, Db.apply]
    split <;> exact ⟨trivial, rfl, rfl⟩

end Log

/-! ## Runs of bulk calls -/

namespace Bulk

/-- A bulk call with the outcomes of the DBATS calls it makes. -/
inductive Op where
  | init (keyCnt time : UInt32) (select : DbResult)
  | setById (id : UInt32) (value : UInt64) (set commit : DbResult)

/-- The backend, the values its caller still has to send, and whether an
assertion has failed (after which nothing happens any more). -/
structure Run where
  state : State
  remaining : Nat
  stopped : Bool

/-- Fix the outcomes of the next calls. -/
def script (s : State) (results : List DbResult) : State :=
  { s with db := { s.db with results := results } }

/-- One call. A set that failed, or has all its values, leaves nothing to send. -/
def step (r : Run) (op : Op) : Run :=
  if r.stopped then r
  else
    match op with
    | .init keyCnt time select =>
      match setBulkInit (script r.state [select]) keyCnt time with
      | (.ok, s) => ⟨s, keyCnt.toNat, false⟩
      | (.fail, s) => ⟨s, 0, false⟩
      | (.stop _, s) => ⟨s, r.remaining, true⟩
    | .setById id value set commit =>
      match setBulkById (script r.state [set, commit]) (idBytes id) value with
      | (.ok, s) => ⟨s, r.remaining - 1, false⟩
      | (.fail, s) => ⟨s, 0, false⟩
      | (.stop _, s) => ⟨s, r.remaining, true⟩

/-- What the caller may do: start a set when nothing is left to send, send a
value when something is. -/
def Permitted (r : Run) : Op → Prop
  | .init _ _ _ => r.remaining = 0
  | .setById _ _ _ _ => 0 < r.remaining

/-- A fresh backend over a database. -/
def start (table : KeyTable) (data : LastWrite.Store (ByteLib.Bytes × UInt32) UInt64) : Run :=
  ⟨State.init ⟨table, data, [], [], []⟩, 0, false⟩

/-- No assertion fails, and after `free` no snapshot was used after its end. -/
def Recovers (r : Run) (ops : List Op) : Prop :=
  (run step r ops).stopped = false ∧ NoUseAfterEnd (free (run step r ops).state).log

/-- The outcomes a run survives, given the values still to be sent. -/
def OutcomesOk : Nat → List Op → Prop
  | _, [] => True
  | _, .init keyCnt _ select :: ops =>
    (ops = [] ∨ (select = .ok ↔ keyCnt ≠ 0)) ∧
      OutcomesOk (if select = .ok then keyCnt.toNat else 0) ops
  | n, .setById _ _ set commit :: ops =>
    set = .ok ∧ (n = 1 → commit = .ok) ∧ OutcomesOk (n - 1) ops

/-! ## The states between calls -/

/-- The four fields of an idle backend. -/
structure Idle (s : State) : Prop where
  expect : s.bulkExpect = 0
  cnt : s.bulkCnt = 0
  ptr : s.bulkSnap = none

/-- A bulk set with `n` values to come. -/
structure InSet (s : State) (n : Nat) (snap : Nat) : Prop where
  pos : 0 < n
  count : s.bulkCnt.toNat + n = s.bulkExpect.toNat
  ptr : s.bulkSnap = some snap
  live : s.db.Live snap

/-- A backend that is ready for its caller. -/
def Ready (s : State) (n : Nat) : Prop :=
  s.db.LogOk ∧ ((n = 0 ∧ Idle s) ∨ ∃ snap, InSet s n snap)

/-- Once an assertion has failed nothing helps. -/
theorem stopped_run (s : State) (n : Nat) (ops : List Op) :
    run step ⟨s, n, true⟩ ops = ⟨s, n, true⟩ := by
  induction ops with
  | nil => rfl
  | cons op ops ih =>
    rw [run_cons, show step ⟨s, n, true⟩ op = ⟨s, n, true⟩ from rfl, ih]

/-- With nothing to send and a backend not idle, any further call fails the
assertion. -/
theorem not_recovers_of_busy {s : State} (hbusy : ¬ Idle s) {op : Op} {ops : List Op}
    (hconf : Along step Permitted ⟨s, 0, false⟩ (op :: ops)) :
    ¬ Recovers ⟨s, 0, false⟩ (op :: ops) := by
  cases op with
  | setById id value set commit => exact absurd hconf.1 (Nat.lt_irrefl 0)
  | init keyCnt time select =>
    have hinit : setBulkInit (script s [select]) keyCnt time
        = (.stop .assertFailed, script s [select]) := by
      rw [setBulkInit, if_neg]
      rintro ⟨hexpect, hcnt, hptr⟩
      exact hbusy ⟨hexpect, hcnt, hptr⟩
    rintro ⟨hstop, -⟩
    rw [run_cons, step, if_neg (by simp), hinit, stopped_run] at hstop
    cases hstop

/-- So such a backend survives just the end of the run, if `free` is harmless. -/
theorem recovers_iff_nil_of_busy {s : State} (hbusy : ¬ Idle s)
    (hfree : NoUseAfterEnd (free s).log) {ops : List Op}
    (hconf : Along step Permitted ⟨s, 0, false⟩ ops) : Recovers ⟨s, 0, false⟩ ops ↔ ops = [] := by
  constructor
  · intro h
    cases ops with
    | nil => rfl
    | cons op ops => exact absurd h (not_recovers_of_busy hbusy hconf)
  · rintro rfl
    exact ⟨rfl, hfree⟩

/-- A snapshot that has ended but is still pointed to is never survived: the
next call fails the assertion, and `free` aborts it once more. -/
theorem not_recovers_of_dangling {s : State} {snap : Nat} (hsnap : s.bulkSnap = some snap)
    (hended : s.db.Ended snap) {ops : List Op}
    (hconf : Along step Permitted ⟨s, 0, false⟩ ops) : ¬ Recovers ⟨s, 0, false⟩ ops := by
  cases ops with
  | nil =>
    rintro ⟨-, hno⟩
    rw [run_nil, free, hsnap] at hno
    exact hended.not_abort hno
  | cons op ops =>
    refine not_recovers_of_busy ?_ hconf
    intro hidle
    rw [hidle.ptr] at hsnap
    cases hsnap

theorem recovers_cons {s : State} {n : Nat} {op : Op} {ops : List Op} :
    Recovers ⟨s, n, false⟩ (op :: ops) ↔ Recovers (step ⟨s, n, false⟩ op) ops := Iff.rfl

theorem recovers_nil_ready {s : State} {n : Nat} (h : Ready s n) :
    Recovers ⟨s, n, false⟩ [] := by
  obtain ⟨hlog, ⟨-, hidle⟩ | ⟨snap, hin⟩⟩ := h
  · refine ⟨rfl, ?_⟩
    rw [run_nil, free, hidle.ptr]
    exact hlog.noUse
  · refine ⟨rfl, ?_⟩
    rw [run_nil, free, hin.ptr]
    exact (hlog.use hin.live .abort .ok).noUse

/-! ## One call -/

section Steps

variable {s : State}

/-- What a call returns decides what its caller still has to send. -/
theorem step_init_of_ok {n : Nat} {s' : State} {keyCnt time : UInt32} {select : DbResult}
    (h : setBulkInit (script s [select]) keyCnt time = (.ok, s')) :
    step ⟨s, n, false⟩ (.init keyCnt time select) = ⟨s', keyCnt.toNat, false⟩ := by
  rw [step, if_neg (by simp)]
  simp only [h]

theorem step_init_of_fail {n : Nat} {s' : State} {keyCnt time : UInt32} {select : DbResult}
    (h : setBulkInit (script s [select]) keyCnt time = (.fail, s')) :
    step ⟨s, n, false⟩ (.init keyCnt time select) = ⟨s', 0, false⟩ := by
  rw [step, if_neg (by simp)]
  simp only [h]

theorem step_setById_of_ok {n : Nat} {s' : State} {id : UInt32} {value : UInt64}
    {set commit : DbResult}
    (h : setBulkById (script s [set, commit]) (idBytes id) value = (.ok, s')) :
    step ⟨s, n, false⟩ (.setById id value set commit) = ⟨s', n - 1, false⟩ := by
  rw [step, if_neg (by simp)]
  simp only [h]

theorem step_setById_of_fail {n : Nat} {s' : State} {id : UInt32} {value : UInt64}
    {set commit : DbResult}
    (h : setBulkById (script s [set, commit]) (idBytes id) value = (.fail, s')) :
    step ⟨s, n, false⟩ (.setById id value set commit) = ⟨s', 0, false⟩ := by
  rw [step, if_neg (by simp)]
  simp only [h]

/-- A select that succeeds opens a live snapshot. -/
theorem step_init_ok (hlog : s.db.LogOk) (hidle : Idle s) (keyCnt time : UInt32) :
    ∃ s' snap, step ⟨s, 0, false⟩ (.init keyCnt time .ok) = ⟨s', keyCnt.toNat, false⟩ ∧
      s'.db.LogOk ∧ s'.bulkExpect = keyCnt ∧ s'.bulkCnt = 0 ∧ s'.bulkSnap = some snap ∧
      s'.db.Live snap := by
  have hstep : setBulkInit (script s [.ok]) keyCnt time
      = (.ok, { s with
        bulkExpect := keyCnt, bulkTime := time, bulkSnap := some s.db.snaps.length,
        db := { s.db with
          results := []
          snaps := s.db.snaps ++ [⟨time, []⟩]
          log := s.db.log ++ [⟨s.db.snaps.length, .select time, .ok⟩] } }) := by
    rw [setBulkInit, if_pos ⟨hidle.expect, hidle.cnt, hidle.ptr⟩]
    rfl
  refine ⟨_, s.db.snaps.length, step_init_of_ok hstep, ⟨?_, ?_⟩, rfl, hidle.cnt, rfl, ?_, ?_⟩
  · exact noUseAfterEnd_concat.mpr
      ⟨hlog.noUse, fun e he _ huses => absurd rfl (huses time)⟩
  · intro e he
    rw [List.length_append, List.length_singleton]
    rcases List.mem_append.mp he with he | he
    · exact Nat.lt_succ_of_lt (hlog.selected e he)
    · rw [List.mem_singleton.mp he]
      exact Nat.lt_succ_self _
  · rw [List.length_append, List.length_singleton]
    exact Nat.lt_succ_self _
  · intro e he hends heq
    rcases List.mem_append.mp he with he | he
    · exact absurd (hlog.selected e he) (by rw [heq]; exact Nat.lt_irrefl _)
    · rw [List.mem_singleton.mp he] at hends
      rcases hends with h | h <;> cases h

/-- A select that fails leaves the count set and the pointer NULL. -/
theorem step_init_fail (hlog : s.db.LogOk) (hidle : Idle s) (keyCnt time : UInt32)
    {select : DbResult} (hsel : select ≠ .ok) :
    ∃ s', step ⟨s, 0, false⟩ (.init keyCnt time select) = ⟨s', 0, false⟩ ∧
      s'.db.LogOk ∧ s'.bulkExpect = keyCnt ∧ s'.bulkCnt = 0 ∧ s'.bulkSnap = none := by
  have hstep : setBulkInit (script s [select]) keyCnt time
      = (.fail, { s with
        bulkExpect := keyCnt, bulkTime := time, db := { s.db with results := [] } }) := by
    rw [setBulkInit, if_pos ⟨hidle.expect, hidle.cnt, hidle.ptr⟩]
    cases select with
    | ok => exact absurd rfl hsel
    | deadlock => rfl
    | error => rfl
  exact ⟨_, step_init_of_fail hstep, ⟨hlog.noUse, hlog.selected⟩, rfl, hidle.cnt, hidle.ptr⟩

variable {n snap : Nat}

theorem InSet.expect_pos (h : InSet s n snap) : 0 < s.bulkExpect := by
  rw [UInt32.lt_iff_toNat_lt]
  have := h.count
  have := h.pos
  simp only [UInt32.toNat_zero]
  omega

theorem InSet.cnt_succ (h : InSet s n snap) :
    (s.bulkCnt + 1).toNat = s.bulkCnt.toNat + 1 := by
  have hle : s.bulkCnt.toNat + 1 ≤ s.bulkExpect.toNat := by
    rw [← h.count]
    exact Nat.add_le_add_left h.pos _
  rw [UInt32.toNat_add]
  exact Nat.mod_eq_of_lt (Nat.lt_of_le_of_lt hle s.bulkExpect.toNat_lt)

/-- The count reaches the expected number at the last value, not before. -/
theorem InSet.last_iff (h : InSet s n snap) : s.bulkCnt + 1 = s.bulkExpect ↔ n = 1 := by
  rw [← UInt32.toNat_inj, h.cnt_succ, ← h.count]
  omega

/-- A set that fails aborts the snapshot and keeps the pointer. -/
theorem step_set_fail (h : InSet s n snap) (id : UInt32) (value : UInt64)
    {set : DbResult} (hset : set ≠ .ok) (commit : DbResult) :
    ∃ s', step ⟨s, n, false⟩ (.setById id value set commit) = ⟨s', 0, false⟩ ∧
      s'.bulkSnap = some snap ∧ s'.db.Ended snap := by
  have hstep : setBulkById (script s [set, commit]) (idBytes id) value
      = (.fail, { s with
        db := (({ s.db with results := [commit] } : Db).record snap (.set value) set).abortSnap
          snap }) := by
    rw [setBulkById, if_pos ⟨h.expect_pos, idBytes_length id⟩]
    simp only [script, h.ptr]
    cases set with
    | ok => exact absurd rfl hset
    | deadlock => rfl
    | error => rfl
  exact ⟨_, step_setById_of_fail hstep, h.ptr, Db.ended_record _ snap (.inr rfl) .ok⟩

/-- A value that is not the last: the set goes on. -/
theorem step_set_more (hlog : s.db.LogOk) (h : InSet s n snap) (hn : n ≠ 1)
    (id : UInt32) (value : UInt64) (commit : DbResult) :
    ∃ s', step ⟨s, n, false⟩ (.setById id value .ok commit) = ⟨s', n - 1, false⟩ ∧
      Ready s' (n - 1) := by
  let db : Db := ({ s.db with results := [commit] } : Db).write snap id value
  have hstep : setBulkById (script s [.ok, commit]) (idBytes id) value
      = (.ok, { s with
        db := db.record snap (.set value) .ok, bulkCnt := s.bulkCnt + 1 }) := by
    rw [setBulkById, if_pos ⟨h.expect_pos, idBytes_length id⟩]
    simp only [script, h.ptr, idOfBytes_idBytes]
    show (if s.bulkCnt + 1 = s.bulkExpect then _ else _) = _
    rw [if_neg fun hlast => hn (h.last_iff.mp hlast)]
    rfl
  have hdb := Db.write_log { s.db with results := [commit] } snap snap id value
  have hlog' : db.LogOk := hdb.1.mpr ⟨hlog.noUse, hlog.selected⟩
  have hlive : db.Live snap := hdb.2.mpr ⟨h.live.selected, h.live.notEnded⟩
  have hpos := h.pos
  refine ⟨_, step_setById_of_ok hstep, hlog'.use hlive _ _, .inr ⟨snap, ?_⟩⟩
  refine ⟨by omega, ?_, h.ptr, hlive.set value .ok⟩
  show (s.bulkCnt + 1).toNat + (n - 1) = s.bulkExpect.toNat
  rw [h.cnt_succ, ← h.count]
  omega

/-- The last value and its commit: idle again if the commit succeeds; if not, the
pointer stays. -/
theorem step_set_last (hlog : s.db.LogOk) (h : InSet s 1 snap) (id : UInt32) (value : UInt64)
    (commit : DbResult) :
    ∃ s', step ⟨s, 1, false⟩ (.setById id value .ok commit) = ⟨s', 0, false⟩ ∧
      (commit = .ok → Ready s' 0) ∧
      (commit ≠ .ok → s'.bulkSnap = some snap ∧ s'.db.Ended snap) := by
  let db : Db := (({ s.db with results := [commit] } : Db).write snap id value).record snap
    (.set value) .ok
  have hdb := Db.write_log { s.db with results := [commit] } snap snap id value
  have hlog' := hdb.1.mpr ⟨hlog.noUse, hlog.selected⟩
  have hlive := hdb.2.mpr ⟨h.live.selected, h.live.notEnded⟩
  have hresults : db.results = [commit] := by
    simp only [db, Db.record, Db.write]
    split <;> rfl
  have hlog'' : db.LogOk := hlog'.use hlive _ _
  have hlive' : db.Live snap := hlive.set value .ok
  obtain ⟨hrc, hlogc, hsnaps⟩ := Db.commitSnap_log snap hresults
  rcases hcommit : db.commitSnap snap with ⟨rc, db'⟩
  rw [hcommit] at hrc hlogc hsnaps
  -- the branch of the source that the commit's result selects
  have hbyId : setBulkById (script s [.ok, commit]) (idBytes id) value
      = if rc = .ok then (.ok, ⟨db', 0, 0, 0, none⟩)
        else (.fail, { s with db := db', bulkCnt := s.bulkCnt + 1 }) := by
    rw [setBulkById, if_pos ⟨h.expect_pos, idBytes_length id⟩]
    simp only [script, h.ptr, idOfBytes_idBytes]
    show (if s.bulkCnt + 1 = s.bulkExpect then _ else _) = _
    rw [if_pos (h.last_iff.mpr rfl)]
    generalize hdb' : Db.commitSnap _ snap = r
    obtain rfl : r = (rc, db') := hdb'.symm.trans hcommit
    cases rc <;> rfl
  obtain rfl : rc = commit := hrc
  have hended : rc ≠ .ok → db'.Ended snap := by
    intro _
    obtain ⟨e, he, hends, hsnap⟩ := Db.ended_record db snap (.inl rfl) rc
    exact ⟨e, hlogc ▸ he, hends, hsnap⟩
  by_cases hrc : rc = .ok
  · subst hrc
    refine ⟨_, step_setById_of_ok hbyId, ?_, fun hne => absurd rfl hne⟩
    intro _
    have hcommitted := hlog''.use hlive' .commit .ok
    refine ⟨⟨hlogc ▸ hcommitted.noUse, ?_⟩, .inl ⟨rfl, rfl, rfl, rfl⟩⟩
    rw [hlogc, hsnaps]
    exact hcommitted.selected
  · rw [if_neg hrc] at hbyId
    refine ⟨_, step_setById_of_fail hbyId, fun heq => absurd heq hrc, ?_⟩
    intro hne
    exact ⟨h.ptr, hended hne⟩

end Steps

/-! ## Runs -/

section Calls

variable {s : State} {ops : List Op}

/-- What is to be shown of a ready backend and the calls it still gets. -/
def SurvivedIff (ops : List Op) : Prop :=
  ∀ (s : State) (n : Nat), Ready s n → Along step Permitted ⟨s, n, false⟩ ops →
    (Recovers ⟨s, n, false⟩ ops ↔ OutcomesOk n ops)

/-- The call that opens a set. -/
theorem SurvivedIff.init (ih : SurvivedIff ops) {keyCnt time : UInt32} {select : DbResult}
    (hlog : s.db.LogOk) (hidle : Idle s)
    (hconf : Along step Permitted (step ⟨s, 0, false⟩ (.init keyCnt time select)) ops) :
    Recovers ⟨s, 0, false⟩ (.init keyCnt time select :: ops) ↔
      OutcomesOk 0 (.init keyCnt time select :: ops) := by
  rw [recovers_cons]
  by_cases hsel : select = .ok
  · subst hsel
    obtain ⟨s', snap, hstep, hlog', hexp, hcnt, hptr, hlive⟩ :=
      step_init_ok hlog hidle keyCnt time
    rw [hstep] at hconf ⊢
    by_cases hkey : keyCnt = 0
    · -- a snapshot for no values: open, and nothing will close it
      subst hkey
      have hbusy : ¬ Idle s' := by
        intro h
        rw [h.ptr] at hptr
        cases hptr
      have hfree : NoUseAfterEnd (free s').log := by
        rw [free, hptr]
        exact (hlog'.use hlive .abort .ok).noUse
      rw [show (0 : UInt32).toNat = 0 from rfl] at hconf ⊢
      rw [recovers_iff_nil_of_busy hbusy hfree hconf]
      constructor
      · rintro rfl
        exact ⟨.inl rfl, trivial⟩
      · intro h
        simpa using h.1
    · have hpos : 0 < keyCnt.toNat := by
        rw [Nat.pos_iff_ne_zero, ne_eq, ← UInt32.toNat_zero, UInt32.toNat_inj]
        exact hkey
      have hin : InSet s' keyCnt.toNat snap :=
        ⟨hpos, by rw [hexp, hcnt, UInt32.toNat_zero, Nat.zero_add], hptr, hlive⟩
      rw [ih s' _ ⟨hlog', .inr ⟨snap, hin⟩⟩ hconf]
      simp [OutcomesOk, hkey]
  · obtain ⟨s', hstep, hlog', hexp, hcnt, hptr⟩ := step_init_fail hlog hidle keyCnt time hsel
    rw [hstep] at hconf ⊢
    by_cases hkey : keyCnt = 0
    · rw [ih s' 0 ⟨hlog', .inl ⟨rfl, hexp.trans hkey, hcnt, hptr⟩⟩ hconf]
      simp [OutcomesOk, hkey, hsel]
    · -- the expected number stays behind
      have hbusy : ¬ Idle s' := fun h => hkey (hexp.symm.trans h.expect)
      have hfree : NoUseAfterEnd (free s').log := by
        rw [free, hptr]
        exact hlog'.noUse
      rw [recovers_iff_nil_of_busy hbusy hfree hconf]
      constructor
      · rintro rfl
        exact ⟨.inl rfl, trivial⟩
      · intro h
        simpa [hsel, hkey] using h.1

/-- The call that sends a value. -/
theorem SurvivedIff.setById (ih : SurvivedIff ops) {n snap : Nat} {id : UInt32} {value : UInt64}
    {set commit : DbResult} (hlog : s.db.LogOk) (hin : InSet s n snap)
    (hconf : Along step Permitted (step ⟨s, n, false⟩ (.setById id value set commit)) ops) :
    Recovers ⟨s, n, false⟩ (.setById id value set commit :: ops) ↔
      OutcomesOk n (.setById id value set commit :: ops) := by
  rw [recovers_cons]
  by_cases hset : set = .ok
  · subst hset
    by_cases hn : n = 1
    · subst hn
      obtain ⟨s', hstep, hok, hfail⟩ := step_set_last hlog hin id value commit
      rw [hstep] at hconf ⊢
      by_cases hcommit : commit = .ok
      · rw [ih s' 0 (hok hcommit) hconf]
        simp [OutcomesOk, hcommit]
      · obtain ⟨hptr, hended⟩ := hfail hcommit
        constructor
        · intro h
          exact absurd h (not_recovers_of_dangling hptr hended hconf)
        · rintro ⟨-, hlast, -⟩
          exact absurd (hlast rfl) hcommit
    · obtain ⟨s', hstep, hready⟩ := step_set_more hlog hin hn id value commit
      rw [hstep] at hconf ⊢
      rw [ih s' _ hready hconf]
      simp [OutcomesOk, hn]
  · obtain ⟨s', hstep, hptr, hended⟩ := step_set_fail hin id value hset commit
    rw [hstep] at hconf ⊢
    constructor
    · intro h
      exact absurd h (not_recovers_of_dangling hptr hended hconf)
    · rintro ⟨hok, -⟩
      exact absurd hok hset

/-- From a ready backend, exactly the runs with these outcomes are survived. By
induction on the calls; a call that leaves the backend neither ready nor at the
end of the run is where the run is lost. -/
theorem survivedIff (ops : List Op) : SurvivedIff ops := by
  induction ops with
  | nil =>
    intro s n hready _
    constructor
    · intro _
      trivial
    · intro _
      exact recovers_nil_ready hready
  | cons op ops ih =>
    rintro s n ⟨hlog, hstate⟩ ⟨hpermitted, hconf⟩
    cases op with
    | init keyCnt time select =>
      obtain rfl : n = 0 := hpermitted
      rcases hstate with ⟨-, hidle⟩ | ⟨snap, hin⟩
      · exact ih.init hlog hidle hconf
      · exact absurd hin.pos (Nat.lt_irrefl 0)
    | setById id value set commit =>
      rcases hstate with ⟨rfl, -⟩ | ⟨snap, hin⟩
      · exact absurd hpermitted (Nat.lt_irrefl 0)
      · exact ih.setById hlog hin hconf

end Calls

/-- **The bulk protocol under failures**: a run of a well-behaved caller, ended
by `free`, fails no assertion and touches no ended snapshot if and only if every
set and every commit succeeds, and every init but a last one selects its
snapshot just when there are values to come. -/
theorem recovers_iff (table : KeyTable)
    (data : LastWrite.Store (ByteLib.Bytes × UInt32) UInt64) (ops : List Op)
    (hconf : Along step Permitted (start table data) ops) :
    Recovers (start table data) ops ↔ OutcomesOk 0 ops :=
  survivedIff ops _ 0
    ⟨⟨List.Pairwise.nil, by simp [State.init]⟩, .inl ⟨rfl, rfl, rfl, rfl⟩⟩ hconf

/-- A complete set, then one cut short by `free`. -/
theorem recovers_iff_twoSets :
    Recovers (start .empty fun _ => none)
        [.init 1 60 .ok, .setById 0 7 .ok .ok, .init 2 120 .ok, .setById 0 7 .ok .ok] ↔
      OutcomesOk 0 [.init 1 60 .ok, .setById 0 7 .ok .ok, .init 2 120 .ok, .setById 0 7 .ok .ok] :=
  recovers_iff .empty (fun _ => none) _
    ⟨rfl, Nat.zero_lt_one, rfl, Nat.zero_lt_two, trivial⟩

/-- After a failed select the next bulk set fails the entry assertion. -/
theorem failedSelect_not_recovers :
    ¬ ∀ (table : KeyTable) (data : LastWrite.Store (ByteLib.Bytes × UInt32) UInt64)
      (ops : List Op), Along step Permitted (start table data) ops →
        Recovers (start table data) ops := by
  intro h
  have hstop := (h .empty (fun _ => none) [.init 1 60 .error, .init 1 60 .ok]
    ⟨rfl, rfl, trivial⟩).1
  exact absurd hstop (by decide)

end Bulk

end Dbats

end Libtimeseries
