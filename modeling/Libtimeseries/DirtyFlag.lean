import Libtimeseries.Backend
import Libtimeseries.Base.Runs

/-!
# The dirty flag protocol

`dirty` is one bit for all backends. It should make sure that a backend is only
flushed once it has resolved the keys added last: `FlushesUpdated`.

Callbacks succeed or fail as the caller of the run chooses (`Outcomes`), so a
run is a list of calls with the outcomes of the callbacks they make. The bit is
cleared up front by both `timeseries_kp_resolve` and `timeseries_kp_flush`, and
only one of their failure exits sets it again. `StepOk` says which failures
leave it wrong; runs without them keep the protocol (`flushesUpdated_run`).
-/

namespace Libtimeseries

open ByteLib RunLib

namespace DirtyFlag

/-- How the callbacks behave during one call into the library. -/
structure Outcomes where
  kpKiUpdate : BackendId → Bool
  kpFlush : BackendId → Bool

/-- A backend that does as it is told. -/
def scripted (id : BackendId) : Backend Outcomes where
  kpKiUpdate := fun kp o => (if o.kpKiUpdate id then .ok else .fail, kp, o)
  kpFlush := fun kp _ o => (if o.kpFlush id then .ok else .fail, kp, o)
  kpKiUpdate_erase := fun _ _ => rfl
  kpFlush_erase := fun _ _ _ => rfl

/-- A timeseries object over scripted backends. -/
def scriptedTs (enabled : BackendId → Bool) : Timeseries Outcomes := ⟨scripted, enabled⟩

/-- A call of the application. -/
inductive Op where
  | addKey (al : AllocResult) (key : CString)
  | resolve (o : Outcomes)
  | flush (time : UInt32) (o : Outcomes)

/-- What is observed: successful additions and callbacks. -/
inductive Event where
  | added
  | call (c : Call Outcomes)

/-- A package and the history of its use. -/
structure State where
  kp : Kp
  trace : List Event

def State.init (flags : Nat) : State := ⟨Kp.init flags, []⟩

/-- One call of the application. -/
def step (enabled : BackendId → Bool) (s : State) : Op → State
  | .addKey al key =>
    let r := s.kp.addKey al key
    ⟨r.2, if r.1 = -1 then s.trace else s.trace ++ [.added]⟩
  | .resolve o =>
    let r := s.kp.resolve (scriptedTs enabled) ⟨o, []⟩
    ⟨r.2.1, s.trace ++ r.2.2.calls.map .call⟩
  | .flush time o =>
    let r := s.kp.flush (scriptedTs enabled) time ⟨o, []⟩
    ⟨r.2.1, s.trace ++ r.2.2.calls.map .call⟩

/-! ## The protocol -/

/-- The backend's `kp_ki_update` has succeeded since the last successful
`timeseries_kp_add_key` of the history (if there was one). -/
def UpdatedSinceAdd (id : BackendId) (trace : List Event) : Prop :=
  ∀ before after, trace = before ++ .added :: after → .added ∉ after →
    ∃ c, .call c ∈ after ∧ c.backend = id ∧ c.callback = .kpKiUpdate ∧ c.ret = .ok

/-- **The protocol**: whenever a `kp_flush` callback is invoked, that backend has
been updated since the last addition. -/
def FlushesUpdated (trace : List Event) : Prop :=
  ∀ before c after time, trace = before ++ .call c :: after → c.callback = .kpFlush time →
    UpdatedSinceAdd c.backend before

/-- Callbacks do not undo an update. -/
theorem UpdatedSinceAdd.concat_call {id : BackendId} {trace : List Event}
    (h : UpdatedSinceAdd id trace) (c : Call Outcomes) :
    UpdatedSinceAdd id (trace ++ [.call c]) := by
  intro before after heq hnot
  rcases List.eq_nil_or_concat after with rfl | ⟨after', last, rfl⟩
  · have := (List.append_inj' heq rfl).2
    cases this
  · rw [List.concat_eq_append] at heq hnot ⊢
    rw [← List.cons_append, ← List.append_assoc] at heq
    obtain ⟨htrace, hlast⟩ := List.append_inj' heq rfl
    obtain ⟨c', hc', hcall⟩ := h before after' htrace fun hmem =>
      hnot (List.mem_append_left _ hmem)
    exact ⟨c', List.mem_append_left _ hc', hcall⟩

/-- A successful `kp_ki_update` updates its backend. -/
theorem updatedSinceAdd_concat (trace : List Event) {c : Call Outcomes}
    (hcb : c.callback = .kpKiUpdate) (hret : c.ret = .ok) :
    UpdatedSinceAdd c.backend (trace ++ [.call c]) := by
  intro before after heq _
  rcases List.eq_nil_or_concat after with rfl | ⟨after', last, rfl⟩
  · have := (List.append_inj' heq rfl).2
    cases this
  · rw [List.concat_eq_append] at heq ⊢
    rw [← List.cons_append, ← List.append_assoc] at heq
    have hlast := (List.append_inj' heq rfl).2
    rw [List.singleton_inj] at hlast
    exact ⟨c, by rw [hlast]; simp, rfl, hcb, hret⟩

theorem flushesUpdated_concat {trace : List Event} {e : Event} (h : FlushesUpdated trace)
    (he : ∀ c time, e = .call c → c.callback = .kpFlush time → UpdatedSinceAdd c.backend trace) :
    FlushesUpdated (trace ++ [e]) := by
  intro before c after time heq hcb
  rcases List.eq_nil_or_concat after with rfl | ⟨after', last, rfl⟩
  · obtain ⟨htrace, hlast⟩ := List.append_inj' heq rfl
    rw [List.singleton_inj] at hlast
    rw [← htrace]
    exact he c time hlast hcb
  · rw [List.concat_eq_append, ← List.cons_append, ← List.append_assoc] at heq
    exact h before c after' time (List.append_inj' heq rfl).1 hcb

/-! ## What the loops do to the history

`History h e` is the history seen from inside a call: what was there before,
then the callbacks made so far. -/

/-- The history while a call is in progress. -/
def History (h : List Event) (e : Env Outcomes) : List Event := h ++ e.calls.map .call

theorem history_kpKiUpdate (h : List Event) (enabled : BackendId → Bool) (id : BackendId)
    (kp : Kp) (o : Outcomes) (calls : List (Call Outcomes)) :
    ∃ c : Call Outcomes, (scriptedTs enabled).callKpKiUpdate id kp ⟨o, calls⟩
        = (c.ret, kp, ⟨o, calls ++ [c]⟩) ∧
      History h ⟨o, calls ++ [c]⟩ = History h ⟨o, calls⟩ ++ [.call c] ∧
      c.backend = id ∧ c.callback = .kpKiUpdate ∧
      c.ret = if o.kpKiUpdate id then .ok else .fail :=
  ⟨⟨id, .kpKiUpdate, kp, o, if o.kpKiUpdate id then .ok else .fail⟩, rfl,
    by simp [History], rfl, rfl, rfl⟩

theorem history_kpFlush (h : List Event) (enabled : BackendId → Bool) (id : BackendId)
    (kp : Kp) (time : UInt32) (o : Outcomes) (calls : List (Call Outcomes)) :
    ∃ c : Call Outcomes, (scriptedTs enabled).callKpFlush id kp time ⟨o, calls⟩
        = (c.ret, kp, ⟨o, calls ++ [c]⟩) ∧
      History h ⟨o, calls ++ [c]⟩ = History h ⟨o, calls⟩ ++ [.call c] ∧
      c.backend = id ∧ c.callback = .kpFlush time ∧
      c.ret = if o.kpFlush id then .ok else .fail :=
  ⟨⟨id, .kpFlush time, kp, o, if o.kpFlush id then .ok else .fail⟩, rfl,
    by simp [History], rfl, rfl, rfl⟩

/-- How a loop may extend the history: the protocol is kept and no update is
lost. -/
structure Extends (t t' : List Event) : Prop where
  flushes : FlushesUpdated t → FlushesUpdated t'
  updated : ∀ id, UpdatedSinceAdd id t → UpdatedSinceAdd id t'

theorem Extends.refl (t : List Event) : Extends t t := ⟨fun h => h, fun _ h => h⟩

theorem Extends.trans {a b c : List Event} (h : Extends a b) (h' : Extends b c) :
    Extends a c where
  flushes hf := h'.flushes (h.flushes hf)
  updated id hu := h'.updated id (h.updated id hu)

theorem extends_kpKiUpdate (t : List Event) {c : Call Outcomes} (hcb : c.callback = .kpKiUpdate) :
    Extends t (t ++ [.call c]) where
  flushes hf := flushesUpdated_concat hf fun c' time heq hcb' => by
    obtain rfl : c = c' := by simpa using heq
    rw [hcb] at hcb'
    cases hcb'
  updated _ hu := hu.concat_call c

theorem extends_kpFlush {t : List Event} {c : Call Outcomes}
    (hup : UpdatedSinceAdd c.backend t) : Extends t (t ++ [.call c]) where
  flushes hf := flushesUpdated_concat hf fun c' time heq _ => by
    obtain rfl : c = c' := by simpa using heq
    exact hup
  updated _ hu := hu.concat_call c

/-- `timeseries_kp_resolve`: nothing is flushed, and if no update fails every
backend is up to date. -/
theorem resolveLoop_history (h : List Event) (enabled : BackendId → Bool)
    (ids : List BackendId) (kp : Kp) (o : Outcomes) (calls : List (Call Outcomes)) :
    let r := kp.resolveLoop (scriptedTs enabled) ids ⟨o, calls⟩
    Extends (History h ⟨o, calls⟩) (History h r.2.2) ∧ r.2.1 = kp ∧
      ((∀ id ∈ ids, o.kpKiUpdate id = true) →
        ∀ id ∈ ids, UpdatedSinceAdd id (History h r.2.2)) := by
  induction ids generalizing calls with
  | nil => exact ⟨.refl _, rfl, by simp⟩
  | cons id ids ih =>
    obtain ⟨c, hcall, hhist, rfl, hcb, hret⟩ := history_kpKiUpdate h enabled id kp o calls
    have hext := extends_kpKiUpdate (History h ⟨o, calls⟩) hcb
    rw [← hhist] at hext
    cases hup : o.kpKiUpdate c.backend with
    -- a failed update ends the loop, with `dirty` still cleared
    | false =>
      rw [hup] at hret
      have hr : kp.resolveLoop (scriptedTs enabled) (c.backend :: ids) ⟨o, calls⟩
          = (.fail, kp, ⟨o, calls ++ [c]⟩) := by
        rw [Kp.resolveLoop, hcall, hret]
        rfl
      rw [hr]
      refine ⟨hext, rfl, ?_⟩
      intro hall
      rw [hall c.backend List.mem_cons_self] at hup
      cases hup
    | true =>
      rw [hup] at hret
      have hr : kp.resolveLoop (scriptedTs enabled) (c.backend :: ids) ⟨o, calls⟩
          = kp.resolveLoop (scriptedTs enabled) ids ⟨o, calls ++ [c]⟩ := by
        rw [Kp.resolveLoop, hcall, hret]
        rfl
      rw [hr]
      obtain ⟨hrest, hkp, hupd⟩ := ih (calls ++ [c])
      refine ⟨hext.trans hrest, hkp, ?_⟩
      intro hall id hid
      rcases List.mem_cons.mp hid with rfl | hid
      · refine hrest.updated _ ?_
        rw [hhist]
        exact updatedSinceAdd_concat _ hcb hret
      · exact hupd (fun id hid => hall id (List.mem_cons_of_mem _ hid)) id hid

/-- `timeseries_kp_flush` of a clean package: the protocol is kept if all the
backends are up to date. -/
theorem flushLoop_clean_history (h : List Event) (enabled : BackendId → Bool)
    (time : UInt32) (ids : List BackendId) (kp : Kp) (o : Outcomes)
    (calls : List (Call Outcomes))
    (hup : ∀ id ∈ ids, UpdatedSinceAdd id (History h ⟨o, calls⟩)) :
    let r := kp.flushLoop (scriptedTs enabled) time false ids ⟨o, calls⟩
    Extends (History h ⟨o, calls⟩) (History h r.2.2) ∧ r.2.1 = kp := by
  induction ids generalizing calls with
  | nil => exact ⟨.refl _, rfl⟩
  | cons id ids ih =>
    obtain ⟨c, hcall, hhist, rfl, hcb, hret⟩ := history_kpFlush h enabled id kp time o calls
    have hext := extends_kpFlush (hup c.backend List.mem_cons_self)
    rw [← hhist] at hext
    cases hfl : o.kpFlush c.backend with
    | false =>
      rw [hfl] at hret
      have hr : kp.flushLoop (scriptedTs enabled) time false (c.backend :: ids) ⟨o, calls⟩
          = (.fail, kp, ⟨o, calls ++ [c]⟩) := by
        rw [Kp.flushLoop]
        simp only [Bool.false_eq_true, if_false, hcall, hret]
      rw [hr]
      exact ⟨hext, rfl⟩
    | true =>
      rw [hfl] at hret
      have hr : kp.flushLoop (scriptedTs enabled) time false (c.backend :: ids) ⟨o, calls⟩
          = kp.flushLoop (scriptedTs enabled) time false ids ⟨o, calls ++ [c]⟩ := by
        rw [Kp.flushLoop]
        simp only [Bool.false_eq_true, if_false, hcall, hret, if_true]
      rw [hr]
      obtain ⟨hrest, hkp⟩ := ih (calls ++ [c]) fun id hid =>
        hext.updated id (hup id (List.mem_cons_of_mem _ hid))
      exact ⟨hext.trans hrest, hkp⟩

/-- No `kp_flush` that is reached fails at a backend with others behind it. -/
def NoEarlyFlushFailure (o : Outcomes) : List BackendId → Prop
  | [] => True
  | [_] => True
  | id :: id' :: ids => o.kpKiUpdate id = true →
      o.kpFlush id = true ∧ NoEarlyFlushFailure o (id' :: ids)

theorem NoEarlyFlushFailure.tail {o : Outcomes} {id : BackendId} {ids : List BackendId}
    (h : NoEarlyFlushFailure o (id :: ids)) (hup : o.kpKiUpdate id = true) :
    NoEarlyFlushFailure o ids := by
  cases ids with
  | nil => trivial
  | cons id' ids => exact (h hup).2

/-- `timeseries_kp_flush` of a dirty package: each backend is updated before it
is flushed, and without an early flush failure the package is dirty again or
every backend is up to date. -/
theorem flushLoop_dirty_history (h : List Event) (enabled : BackendId → Bool)
    (time : UInt32) (ids : List BackendId) (kp : Kp) (o : Outcomes)
    (calls : List (Call Outcomes)) (hno : NoEarlyFlushFailure o ids) :
    let r := kp.flushLoop (scriptedTs enabled) time true ids ⟨o, calls⟩
    Extends (History h ⟨o, calls⟩) (History h r.2.2) ∧
      (r.2.1.dirty = true ∨ ∀ id ∈ ids, UpdatedSinceAdd id (History h r.2.2)) := by
  induction ids generalizing calls with
  | nil => exact ⟨.refl _, .inr (by simp)⟩
  | cons id ids ih =>
    obtain ⟨c, hcall, hhist, rfl, hcb, hret⟩ := history_kpKiUpdate h enabled id kp o calls
    have hext := extends_kpKiUpdate (History h ⟨o, calls⟩) hcb
    rw [← hhist] at hext
    cases hu : o.kpKiUpdate c.backend with
    -- the exit that sets `dirty` again
    | false =>
      rw [hu] at hret
      have hr : kp.flushLoop (scriptedTs enabled) time true (c.backend :: ids) ⟨o, calls⟩
          = (.fail, { kp with dirty := true }, ⟨o, calls ++ [c]⟩) := by
        rw [Kp.flushLoop]
        simp only [if_true, hcall, hret, Bool.false_eq_true, if_false]
      rw [hr]
      exact ⟨hext, .inl rfl⟩
    | true =>
      rw [hu] at hret
      have hupc : UpdatedSinceAdd c.backend (History h ⟨o, calls ++ [c]⟩) := by
        rw [hhist]
        exact updatedSinceAdd_concat _ hcb hret
      obtain ⟨c', hcall', hhist', hback', hcb', hret'⟩ :=
        history_kpFlush h enabled c.backend kp time o (calls ++ [c])
      have hext' := extends_kpFlush (c := c') (hback' ▸ hupc)
      rw [← hhist'] at hext'
      cases hfl : o.kpFlush c.backend with
      | false =>
        rw [hfl] at hret'
        have hr : kp.flushLoop (scriptedTs enabled) time true (c.backend :: ids) ⟨o, calls⟩
            = (.fail, kp, ⟨o, calls ++ [c] ++ [c']⟩) := by
          rw [Kp.flushLoop]
          simp only [if_true, hcall, hret, hcall', hret', Bool.false_eq_true, if_false]
        rw [hr]
        -- only the last backend may fail here, and it has just been updated
        have hlast : ids = [] := by
          cases ids with
          | nil => rfl
          | cons id' ids =>
            rw [(hno hu).1] at hfl
            cases hfl
        refine ⟨hext.trans hext', .inr ?_⟩
        intro id hid
        rw [hlast, List.mem_singleton] at hid
        rw [hid]
        exact hext'.updated _ hupc
      | true =>
        rw [hfl] at hret'
        have hr : kp.flushLoop (scriptedTs enabled) time true (c.backend :: ids) ⟨o, calls⟩
            = kp.flushLoop (scriptedTs enabled) time true ids ⟨o, calls ++ [c] ++ [c']⟩ := by
          rw [Kp.flushLoop]
          simp only [if_true, hcall, hret, hcall', hret']
        rw [hr]
        obtain ⟨hrest, hdirty⟩ := ih (calls ++ [c] ++ [c']) (hno.tail hu)
        refine ⟨(hext.trans hext').trans hrest, hdirty.imp_right fun hall id hid => ?_⟩
        rcases List.mem_cons.mp hid with rfl | hid
        · exact (hext'.trans hrest).updated _ hupc
        · exact hall id hid

/-! ## Runs -/

/-- The failures that leave the bit right: on a dirty package no `kp_ki_update`
of a resolve fails, and no `kp_flush` callback of a flush fails before the last
backend. -/
def StepOk (enabled : BackendId → Bool) (s : State) : Op → Prop
  | .addKey _ _ => True
  | .resolve o => s.kp.dirty = true →
      ∀ id ∈ (scriptedTs enabled).enabledIds, o.kpKiUpdate id = true
  | .flush _ o => s.kp.dirty = true →
      NoEarlyFlushFailure o (scriptedTs enabled).enabledIds

/-- The protocol, and what the bit stands for. -/
structure Inv (enabled : BackendId → Bool) (s : State) : Prop where
  flushes : FlushesUpdated s.trace
  clean : s.kp.dirty = false →
    ∀ id ∈ (scriptedTs enabled).enabledIds, UpdatedSinceAdd id s.trace

theorem inv_init (enabled : BackendId → Bool) (flags : Nat) :
    Inv enabled (State.init flags) where
  flushes := by
    intro before c after time heq
    exact absurd (congrArg List.length heq) (by simp [State.init])
  clean := by
    intro _ id _ before after heq
    exact absurd (congrArg List.length heq) (by simp [State.init])

theorem addKey_cases (al : AllocResult) (kp : Kp) (key : CString) :
    ((kp.addKey al key).1 = -1 ∧ (kp.addKey al key).2.dirty = kp.dirty) ∨
      ((kp.addKey al key).1 ≠ -1 ∧ (kp.addKey al key).2.dirty = true) := by
  obtain ⟨r, s, k⟩ := al
  cases r
  · exact .inl ⟨rfl, rfl⟩
  cases s
  · exact .inl ⟨rfl, rfl⟩
  cases k
  · exact .inl ⟨rfl, rfl⟩
  · refine .inr ⟨?_, rfl⟩
    show (kp.keyInfosCnt : Int) ≠ -1
    omega

theorem resetDisable_dirty (kp : Kp) : kp.resetDisable.dirty = kp.dirty :=
  (Kp.resetDisable_frame kp).dirty

/-- A flush ends with the flag its loop ends with. -/
theorem flush_dirty (ts : Timeseries Outcomes) (kp : Kp) (time : UInt32) (e : Env Outcomes) :
    let r := Kp.flushLoop ts time kp.dirty ts.enabledIds { kp with dirty := false } e
    (kp.flush ts time e).2.1.dirty = r.2.1.dirty ∧ (kp.flush ts time e).2.2 = r.2.2 := by
  dsimp only
  unfold Kp.flush
  generalize Kp.flushLoop ts time kp.dirty ts.enabledIds { kp with dirty := false } e = r
  obtain ⟨r, kp₁, e₁⟩ := r
  cases r with
  | ok => exact ⟨resetDisable_dirty kp₁, rfl⟩
  | fail => exact ⟨rfl, rfl⟩
  | stop why => exact ⟨rfl, rfl⟩

/-- One step keeps the invariant. -/
theorem inv_step {enabled : BackendId → Bool} {s : State} {op : Op} (h : Inv enabled s)
    (hok : StepOk enabled s op) : Inv enabled (step enabled s op) := by
  have hstart : ∀ o, History s.trace ⟨o, []⟩ = s.trace := fun o => by simp [History]
  cases op with
  | addKey al key =>
    rcases addKey_cases al s.kp key with ⟨hrc, hdirty⟩ | ⟨hrc, hdirty⟩
    · have hs : step enabled s (.addKey al key) = ⟨(s.kp.addKey al key).2, s.trace⟩ := by
        simp [step, hrc]
      rw [hs]
      exact ⟨h.flushes, fun hd => h.clean (hdirty ▸ hd)⟩
    · have hs : step enabled s (.addKey al key)
          = ⟨(s.kp.addKey al key).2, s.trace ++ [.added]⟩ := by
        simp [step, hrc]
      rw [hs]
      constructor
      · refine flushesUpdated_concat h.flushes ?_
        rintro c time ⟨⟩
      · intro hd
        rw [hdirty] at hd
        cases hd
  | resolve o =>
    obtain ⟨hext, hkp, hupd⟩ := resolveLoop_history s.trace enabled
      (scriptedTs enabled).enabledIds { s.kp with dirty := false } o []
    rw [hstart] at hext
    constructor
    · exact hext.flushes h.flushes
    · intro _ id hid
      cases hd : s.kp.dirty with
      | false => exact hext.updated id (h.clean hd id hid)
      | true => exact hupd (hok hd) id hid
  | flush time o =>
    obtain ⟨hflag, henv⟩ := flush_dirty (scriptedTs enabled) s.kp time ⟨o, []⟩
    have hs : (step enabled s (.flush time o)).trace
        = History s.trace (s.kp.flush (scriptedTs enabled) time ⟨o, []⟩).2.2 := rfl
    have hkp : (step enabled s (.flush time o)).kp.dirty
        = (s.kp.flush (scriptedTs enabled) time ⟨o, []⟩).2.1.dirty := rfl
    cases hd : s.kp.dirty with
    | false =>
      have hup : ∀ id ∈ (scriptedTs enabled).enabledIds,
          UpdatedSinceAdd id (History s.trace ⟨o, []⟩) := by
        rw [hstart]
        exact h.clean hd
      obtain ⟨hext, -⟩ := flushLoop_clean_history s.trace enabled time
        (scriptedTs enabled).enabledIds { s.kp with dirty := false } o [] hup
      rw [hd] at henv
      rw [← henv, ← hs, hstart] at hext
      constructor
      · exact hext.flushes h.flushes
      · intro _ id hid
        exact hext.updated id (h.clean hd id hid)
    | true =>
      obtain ⟨hext, hdirty⟩ := flushLoop_dirty_history s.trace enabled time
        (scriptedTs enabled).enabledIds { s.kp with dirty := false } o [] (hok hd)
      rw [hd] at henv hflag
      rw [← henv, ← hs] at hext hdirty
      rw [hstart] at hext
      rw [← hflag, ← hkp] at hdirty
      constructor
      · exact hext.flushes h.flushes
      · intro hclean
        rcases hdirty with hdirty | hall
        · rw [hclean] at hdirty
          cases hdirty
        · exact hall

/-- **The dirty flag protocol**: in every run in which no resolve of a dirty
package has a failing `kp_ki_update` and no flush of a dirty package fails in a
`kp_flush` callback before the last backend, each backend is flushed only when
it has been updated since the last addition. -/
theorem flushesUpdated_run (enabled : BackendId → Bool) (flags : Nat) (ops : List Op)
    (hok : Along (step enabled) (StepOk enabled) (State.init flags) ops) :
    FlushesUpdated (run (step enabled) (State.init flags) ops).trace :=
  (run_invariant (fun _ _ => inv_step) (inv_init enabled flags) hok).flushes

/-- The flush itself retries failed updates. -/
def failedUpdateInFlush : List Op :=
  [.addKey .success (.ofAscii "k"),
    .flush 60 { kpKiUpdate := fun id => id != .dbats, kpFlush := fun _ => true },
    .flush 60 { kpKiUpdate := fun _ => true, kpFlush := fun _ => true }]

theorem flushesUpdated_run_failedUpdateInFlush :
    FlushesUpdated (run (step fun _ => true) (State.init 0) failedUpdateInFlush).trace := by
  refine flushesUpdated_run (fun _ => true) 0 failedUpdateInFlush ⟨trivial, ?_, ?_, trivial⟩
  · exact fun _ _ => ⟨rfl, fun hdbats => absurd hdbats (by decide)⟩
  · exact fun _ _ => ⟨rfl, fun _ => ⟨rfl, trivial⟩⟩

/-- A resolve that fails between an addition and a flush, in the one backend whose
`kp_ki_update` can fail. -/
def failedResolve : List Op :=
  [.addKey .success (.ofAscii "k"),
    .resolve { kpKiUpdate := fun id => id != .dbats, kpFlush := fun _ => true },
    .flush 60 { kpKiUpdate := fun _ => true, kpFlush := fun _ => true }]

/-- The failed resolve has cleared the bit: the flush reaches the backend
without an update. -/
theorem failedResolve_not_flushesUpdated :
    ¬ ∀ (enabled : BackendId → Bool) (flags : Nat) (ops : List Op),
      FlushesUpdated (run (step enabled) (State.init flags) ops).trace := by
  intro h
  -- the addition, the failed update and the flush are all there is
  obtain ⟨c, hc, -, -, hret⟩ := h (fun id => decide (id = .dbats)) 0 failedResolve
    [.added, .call _] _ [] 60 rfl rfl [] [.call _] rfl (by simp)
  rw [List.mem_singleton, Event.call.injEq] at hc
  rw [hc] at hret
  cases hret

end DirtyFlag

end Libtimeseries
