import Libtimeseries.Base.Rounds
import Libtimeseries.KpFlush

/-!
# Retrying a flush to several backends

A caller whose `timeseries_kp_flush` failed calls it again. The backends in front
of the one that failed then get their data a second time, which is why the
library promises no more than "at least once".

- `flush_takes`: one attempt gets through to an initial segment of the enabled
  backends, and to all of them if and only if it returns 0;
- `Retried`: attempts that fail, and one that does not;
- `flush_retried`: what each backend has got in the end. The last one of them gets
  its data exactly once, and for a store in which the last write wins the others
  might as well have.
-/

namespace Libtimeseries

open ByteLib LastWrite RoundLib

variable {W : Type}

/-- The flush a callback carried out, and for which backend. -/
def Call.flushed? (c : Call W) : Option (BackendId × UInt32 × List (Bytes × UInt64)) :=
  if c.ret = .ok then c.flush?.map fun f => (c.backend, f) else none

/-- The flushes of one backend among some callbacks. -/
def flushedBy (id : BackendId) (calls : List (Call W)) : List (UInt32 × List (Bytes × UInt64)) :=
  (calls.filterMap Call.flushed?).filterMap fun f => if f.1 = id then some f.2 else none

/-- The flushes that were carried out. -/
def Env.flushed (e : Env W) : List (UInt32 × List (Bytes × UInt64)) :=
  e.calls.filterMap fun c => c.flushed?.map Prod.snd

theorem Env.flushed_of_calls {e e' : Env W} {new : List (Call W)}
    (h : e'.calls = e.calls ++ new) :
    e'.flushed = e.flushed ++ new.filterMap fun c => c.flushed?.map Prod.snd := by
  rw [flushed, h, List.filterMap_append]
  rfl

/-- Callbacks that succeed carry out what they are asked for. -/
theorem flushed_of_ok {calls : List (Call W)} (h : ∀ c ∈ calls, c.ret = .ok) :
    (calls.filterMap fun c => c.flushed?.map Prod.snd) = calls.filterMap Call.flush? := by
  refine List.filterMap_congr fun c hc => ?_
  rw [Call.flushed?, if_pos (h c hc), Option.map_map]
  cases c.flush? <;> rfl

namespace Kp

/-- How the callbacks of an attempt end: either all succeed, or the last one does not
and gives the attempt its result. -/
inductive Attempt : List (Call W) → Ret → Prop
  | ok {calls : List (Call W)} (all : ∀ c ∈ calls, c.ret = .ok) : Attempt calls .ok
  | failed {calls : List (Call W)} {c : Call W} (all : ∀ c' ∈ calls, c'.ret = .ok)
      (last : c.ret ≠ .ok) : Attempt (calls ++ [c]) c.ret

theorem Attempt.all_ok {calls : List (Call W)} (h : Attempt calls .ok) : ∀ c ∈ calls, c.ret = .ok := by
  generalize hr : Ret.ok = r at h
  cases h with
  | ok all => exact all
  | failed _ last => exact absurd hr.symm last

theorem Attempt.single (c : Call W) : Attempt [c] c.ret := by
  by_cases hok : c.ret = .ok
  · rw [hok]
    exact .ok fun c' hc' => (List.mem_singleton.mp hc').symm ▸ hok
  · rw [← List.nil_append [c]]
    exact .failed (fun c' hc' => absurd hc' List.not_mem_nil) hok

/-- Callbacks that succeeded before an attempt are part of it. -/
theorem Attempt.append {calls calls' : List (Call W)} {r : Ret} (h : ∀ c ∈ calls, c.ret = .ok)
    (h' : Attempt calls' r) : Attempt (calls ++ calls') r := by
  cases h' with
  | ok all => exact .ok (List.forall_mem_append.mpr ⟨h, all⟩)
  | failed all last =>
    rw [← List.append_assoc]
    exact .failed (List.forall_mem_append.mpr ⟨h, all⟩) last

/-- What an attempt got through to: the first `n` of the backends. -/
structure Takes (time : UInt32) (kp : Kp) (ids : List BackendId) (n : Nat) (new : List (Call W))
    (r : Ret) : Prop where
  attempt : Attempt new r
  le : n ≤ ids.length
  all_iff : n = ids.length ↔ r = .ok
  flushed : new.filterMap Call.flushed? = (ids.take n).map fun id => (id, time, kp.enabledPairs)

/-- The `dirty` flag an attempt starts with does not show. -/
theorem Takes.of_dirty {time : UInt32} {kp : Kp} {d : Bool} {ids : List BackendId} {n : Nat}
    {new : List (Call W)} {r : Ret} (h : Takes time { kp with dirty := d } ids n new r) :
    Takes time kp ids n new r :=
  ⟨h.attempt, h.le, h.all_iff, h.flushed⟩

theorem flushed?_kiUpdate {c : Call W} (h : c.callback = .kpKiUpdate) : c.flushed? = none := by
  rw [Call.flushed?, Call.flush?, h]
  exact ite_self none

theorem flushed?_failed {c : Call W} (h : c.ret ≠ .ok) : c.flushed? = none := if_neg h

theorem flushed?_ok {c : Call W} {time : UInt32} (h : c.ret = .ok)
    (hc : c.callback = .kpFlush time) :
    c.flushed? = some (c.backend, time, c.kp.enabledPairs) := by
  rw [Call.flushed?, if_pos h, Call.flush?, hc]
  rfl

/-- The loop of `timeseries_kp_flush`. -/
theorem flushLoop_takes (ts : Timeseries W) (time : UInt32) (d : Bool) (ids : List BackendId)
    (kp : Kp) (e : Env W) :
    let r := flushLoop ts time d ids kp e
    ∃ new n, r.2.2.calls = e.calls ++ new ∧ Takes time kp ids n new r.1 := by
  induction ids generalizing kp e with
  | nil =>
    exact ⟨[], 0, (List.append_nil _).symm, .ok (by simp), Nat.le_refl _, by simp [flushLoop], rfl⟩
  | cons id ids ih =>
    -- the update that comes first, if any, is no flush
    have hup : ∃ new, (if d then ts.callKpKiUpdate id kp e else (.ok, kp, e)).2.2.calls
          = e.calls ++ new ∧ Attempt new (if d then ts.callKpKiUpdate id kp e else (.ok, kp, e)).1 ∧
        new.filterMap Call.flushed? = [] ∧
        (if d then ts.callKpKiUpdate id kp e else (.ok, kp, e)).2.1.core = kp.core := by
      cases d with
      | false => exact ⟨[], (List.append_nil _).symm, .ok (by simp), rfl, rfl⟩
      | true =>
        have hcore := (callKpKiUpdate_spec ts time id kp e).core
        have hnone : ∀ c : Call W, c.callback = .kpKiUpdate → [c].filterMap Call.flushed? = [] := by
          intro c hc
          rw [List.filterMap_cons_none (flushed?_kiUpdate hc)]
          rfl
        exact ⟨[_], rfl, .single _, hnone _ rfl, hcore⟩
    rw [flushLoop]
    generalize (if d then ts.callKpKiUpdate id kp e else (.ok, kp, e)) = r at hup ⊢
    obtain ⟨r, kp₁, e₁⟩ := r
    obtain ⟨new₁, hcalls₁, hattempt₁, hnone, hcore₁⟩ := hup
    have hzero : ∀ r : Ret, r ≠ .ok → Attempt new₁ r → Takes time kp (id :: ids) 0 new₁ r :=
      fun r hr hattempt => ⟨hattempt, Nat.zero_le _, iff_of_false (by simp) hr, hnone⟩
    cases r with
    | fail => exact ⟨new₁, 0, hcalls₁, hzero _ (by rintro ⟨⟩) hattempt₁⟩
    | stop why => exact ⟨new₁, 0, hcalls₁, hzero _ (by rintro ⟨⟩) hattempt₁⟩
    | ok =>
      have hall₁ := hattempt₁.all_ok
      have hfl : ∃ c, (ts.callKpFlush id kp₁ time e₁).2.2.calls = e₁.calls ++ [c] ∧
          c.backend = id ∧ c.ret = (ts.callKpFlush id kp₁ time e₁).1 ∧
          c.flush? = some (time, kp₁.enabledPairs) := ⟨_, rfl, rfl, rfl, rfl⟩
      have hcore₂ := (callKpFlush_spec ts time id kp₁ e₁).core
      dsimp only
      generalize ts.callKpFlush id kp₁ time e₁ = r at hfl hcore₂ ⊢
      obtain ⟨r, kp₂, e₂⟩ := r
      obtain ⟨c, hcalls₂, hid, hret, hflush⟩ := hfl
      have hcalls : e₂.calls = e.calls ++ (new₁ ++ [c]) := by
        rw [show e₂.calls = e₁.calls ++ [c] from hcalls₂,
          show e₁.calls = e.calls ++ new₁ from hcalls₁, List.append_assoc]
      have hnot : r ≠ .ok → Takes time kp (id :: ids) 0 (new₁ ++ [c]) r := by
        intro hne
        obtain rfl : c.ret = r := hret
        refine ⟨.failed hall₁ hne, Nat.zero_le _, iff_of_false (by simp) hne, ?_⟩
        rw [List.filterMap_append, hnone, List.filterMap_cons_none (flushed?_failed hne)]
        rfl
      cases r with
      | fail => exact ⟨new₁ ++ [c], 0, hcalls, hnot (by rintro ⟨⟩)⟩
      | stop why => exact ⟨new₁ ++ [c], 0, hcalls, hnot (by rintro ⟨⟩)⟩
      | ok =>
        obtain ⟨new₂, n, hcalls₃, htakes⟩ := ih kp₂ e₂
        have hflushed : c.flushed? = some (id, time, kp.enabledPairs) := by
          rw [Call.flushed?, if_pos hret, hflush, hid, enabledPairs_of_core hcore₁]
          rfl
        refine ⟨new₁ ++ [c] ++ new₂, n + 1, ?_, ?_, Nat.succ_le_succ htakes.le, ?_, ?_⟩
        · show (flushLoop ts time d ids kp₂ e₂).2.2.calls = _
          rw [hcalls₃, hcalls, List.append_assoc]
        · refine Attempt.append ?_ htakes.attempt
          refine List.forall_mem_append.mpr ⟨hall₁, fun c' hc' => ?_⟩
          rw [List.mem_singleton.mp hc']
          exact hret
        · rw [List.length_cons, Nat.add_right_cancel_iff]
          exact htakes.all_iff
        · rw [List.filterMap_append, List.filterMap_append, hnone, htakes.flushed,
            List.filterMap_cons_some hflushed, enabledPairs_of_core (hcore₂.trans hcore₁)]
          rfl

/-- **One attempt** gets through to the first of the enabled backends, and to all of
them if and only if it returns 0. -/
theorem flush_takes (ts : Timeseries W) (kp : Kp) (time : UInt32) (e : Env W) :
    let r := kp.flush ts time e
    ∃ new n, r.2.2.calls = e.calls ++ new ∧ Takes time kp ts.enabledIds n new r.1 := by
  obtain ⟨new, n, hcalls, htakes⟩ :=
    flushLoop_takes ts time kp.dirty ts.enabledIds { kp with dirty := false } e
  unfold flush
  generalize flushLoop ts time kp.dirty ts.enabledIds { kp with dirty := false } e = r
    at hcalls htakes ⊢
  obtain ⟨r, kp₁, e₁⟩ := r
  cases r with
  | ok => exact ⟨new, n, hcalls, htakes.of_dirty⟩
  | fail => exact ⟨new, n, hcalls, htakes.of_dirty⟩
  | stop why => exact ⟨new, n, hcalls, htakes.of_dirty⟩

/-- `timeseries_kp_flush` is called until it succeeds, and nothing else is done in
between. -/
inductive Retried (ts : Timeseries W) (time : UInt32) : Nat → Kp → Env W → Kp → Env W → Prop
  | succeeds {kp : Kp} {e : Env W} (ok : (kp.flush ts time e).1 = .ok) :
      Retried ts time 1 kp e (kp.flush ts time e).2.1 (kp.flush ts time e).2.2
  | fails {attempts : Nat} {kp kp' : Kp} {e e' : Env W} (fail : (kp.flush ts time e).1 = .fail)
      (rest : Retried ts time attempts (kp.flush ts time e).2.1 (kp.flush ts time e).2.2 kp' e') :
      Retried ts time (attempts + 1) kp e kp' e'

/-- What the attempts got through to, and what they leave of the package. -/
theorem Retried.takes {ts : Timeseries W} {time : UInt32} {attempts : Nat} {kp kp' : Kp}
    {e e' : Env W} (h : Retried ts time attempts kp e kp' e') :
    ∃ new ns, e'.calls = e.calls ++ new ∧ ns.length + 1 = attempts ∧
      (∀ n ∈ ns, n < ts.enabledIds.length) ∧
      new.filterMap Call.flushed? = (rounds ts.enabledIds (ns ++ [ts.enabledIds.length])).map
        (fun id => (id, time, kp.enabledPairs)) ∧
      ∃ kp₁ : Kp, kp₁.core = kp.core ∧ kp' = kp₁.resetDisable := by
  induction h with
  | @succeeds kp e ok =>
    obtain ⟨new, n, hcalls, htakes⟩ := flush_takes ts kp time e
    obtain ⟨kp₁, hspec, hkp⟩ := flush_spec ts kp time e
    rw [if_pos ok] at hkp
    refine ⟨new, [], hcalls, rfl, by simp, ?_, kp₁, hspec.core, hkp⟩
    rw [htakes.flushed, htakes.all_iff.mpr ok]
    simp [rounds]
  | @fails attempts kp kp' e e' fail _ ih =>
    obtain ⟨new, n, hcalls, htakes⟩ := flush_takes ts kp time e
    obtain ⟨kp₁, hspec, hkp⟩ := flush_spec ts kp time e
    rw [if_neg (by rw [fail]; rintro ⟨⟩)] at hkp
    have hcore : (kp.flush ts time e).2.1.core = kp.core := hkp ▸ hspec.core
    obtain ⟨new', ns, hcalls', hlen, hlt, hflushed, kp₂, hcore₂, hkp₂⟩ := ih
    have hn : n ≠ ts.enabledIds.length := by
      intro heq
      have := htakes.all_iff.mp heq
      rw [fail] at this
      cases this
    refine ⟨new ++ new', n :: ns, ?_, ?_, ?_, ?_, kp₂, hcore₂.trans hcore, hkp₂⟩
    · rw [hcalls', hcalls, List.append_assoc]
    · rw [List.length_cons, hlen]
    · exact List.forall_mem_cons.mpr ⟨Nat.lt_of_le_of_ne htakes.le hn, hlt⟩
    · rw [List.filterMap_append, htakes.flushed, hflushed, enabledPairs_of_core hcore,
        List.cons_append, rounds, rounds, List.flatMap_cons, List.map_append]

/-- How often a backend was flushed. -/
def flushCount (id : BackendId) (calls : List (Call W)) : Nat := (flushedBy id calls).length

/-- What the attempts leave a backend with. -/
structure Served (ts : Timeseries W) (time : UInt32) (attempts : Nat) (kp : Kp)
    (new : List (Call W)) : Prop where
  /-- nothing but the package as it was, under its time -/
  same : ∀ id, flushedBy id new = List.replicate (flushCount id new) (time, kp.enabledPairs)
  atLeastOnce : ∀ id, ts.enabled id = true → 1 ≤ flushCount id new
  atMost : ∀ id, flushCount id new ≤ attempts
  others : ∀ id, ts.enabled id = false → flushCount id new = 0
  /-- who comes first gets it more often -/
  order : ts.enabledIds.Pairwise fun id id' => flushCount id' new ≤ flushCount id new
  last : ∀ id, ts.enabledIds.getLast? = some id → flushCount id new = 1

theorem flushedBy_rounds {ts : Timeseries W} {time : UInt32} {kp : Kp} {new : List (Call W)}
    {ns : List Nat}
    (h : new.filterMap Call.flushed? = (rounds ts.enabledIds ns).map
      fun id => (id, time, kp.enabledPairs)) (id : BackendId) :
    flushedBy id new = List.replicate (visits ts.enabledIds ns id) (time, kp.enabledPairs) := by
  have hfilter := filter_rounds ts.enabledIds_nodup ns id
  rw [flushedBy, h, List.filterMap_map]
  calc (rounds ts.enabledIds ns).filterMap
        ((fun f => if f.1 = id then some f.2 else none) ∘ fun id => (id, time, kp.enabledPairs))
      = ((rounds ts.enabledIds ns).filter fun id' => id' = id).map
          fun _ => (time, kp.enabledPairs) := by
        rw [← List.filterMap_eq_map, List.filterMap_filter]
        refine List.filterMap_congr fun id' _ => ?_
        by_cases heq : id' = id
        · simp [heq]
        · simp [heq]
    _ = _ := by rw [hfilter, List.map_replicate]

/-- **Retried flushes**: however many attempts fail, and wherever, each enabled
backend gets the package at least once, never anything else, the earlier ones at
least as often as the later ones and the last exactly once; and the package is
what a single successful flush would have left. -/
theorem flush_retried (ts : Timeseries W) {time : UInt32} {attempts : Nat} {kp kp' : Kp}
    {e e' : Env W} (hwf : kp.WellFormed) (h : Retried ts time attempts kp e kp' e') :
    (∃ new, e'.calls = e.calls ++ new ∧ Served ts time attempts kp new) ∧
      (∀ id, kp'.getKeyName id = kp.getKeyName id) ∧ (∀ key, kp'.getKey key = kp.getKey key) ∧
      (∀ id, kp'.get id = if kp.reset then 0 else kp.get id) ∧
      ∀ id, kp'.isEnabled id = if kp.disable then false else kp.isEnabled id := by
  obtain ⟨new, ns, hcalls, hlen, hlt, hflushed, kp₁, hcore, rfl⟩ := h.takes
  have hby := flushedBy_rounds hflushed
  have hcount : ∀ id, flushCount id new
      = visits ts.enabledIds (ns ++ [ts.enabledIds.length]) id := by
    intro id
    rw [flushCount, hby, List.length_replicate]
  have hnd := ts.enabledIds_nodup
  have hwf₁ := hwf.of_core hcore
  have hreset : kp₁.reset = kp.reset := by
    show kp₁.core.reset = kp.core.reset
    rw [hcore]
  refine ⟨⟨new, hcalls, ?_, ?_, ?_, ?_, ?_, ?_⟩, ?_, ?_, ?_, ?_⟩
  · intro id
    rw [hcount, hby]
  · intro id hid
    rw [hcount]
    exact visits_pos (Timeseries.mem_enabledIds.mpr hid)
      (List.mem_append_right _ (List.mem_singleton_self _))
  · intro id
    rw [hcount, ← hlen]
    refine (visits_le _ _ _).trans (Nat.le_of_eq ?_)
    rw [List.length_append, List.length_singleton]
  · intro id hid
    rw [hcount]
    refine visits_eq_zero _ fun hmem => ?_
    rw [Timeseries.mem_enabledIds, hid] at hmem
    cases hmem
  · simp only [hcount]
    exact visits_antitone hnd _
  · intro id hid
    rw [hcount]
    exact visits_getLast hnd hid hlt
  · intro id
    rw [hwf₁.resetDisable_getKeyName, getKeyName_of_core hcore]
  · intro key
    rw [hwf₁.resetDisable_getKey, getKey_of_core hcore]
  · intro id
    rw [hwf₁.resetDisable_get, hreset, get, get, getElem?_of_core hcore Ki.value fun _ => rfl]
  · intro id
    rw [hwf₁.resetDisable_isEnabled, disable_of_core hcore, isEnabled_of_core hcore]

/-- Two backends of which the one that is flushed as the second fails, once. -/
def flakyTs : Timeseries Nat where
  backend := fun _ =>
    { kpKiUpdate := fun kp n => (.ok, kp, n)
      kpFlush := fun kp _ n => (if n = 1 then .fail else .ok, kp, n + 1)
      kpKiUpdate_erase := fun _ _ => rfl
      kpFlush_erase := fun _ _ _ => rfl }
  enabled := fun id => decide (id ≠ .dbats)

/-- A package with a new key. -/
def newKey : Kp := ((Kp.init 1).addKey .success (CString.ofAscii "a")).2

def firstAttempt : Ret × Kp × Env Nat := newKey.flush flakyTs 60 ⟨0, []⟩

def lastAttempt : Ret × Kp × Env Nat := firstAttempt.2.1.flush flakyTs 60 firstAttempt.2.2

theorem flush_retried_flaky :
    (∃ new, lastAttempt.2.2.calls = [] ++ new ∧ Served flakyTs 60 2 newKey new) ∧
      (∀ id, lastAttempt.2.1.getKeyName id = newKey.getKeyName id) ∧
      (∀ key, lastAttempt.2.1.getKey key = newKey.getKey key) ∧
      (∀ id, lastAttempt.2.1.get id = if newKey.reset then 0 else newKey.get id) ∧
      ∀ id, lastAttempt.2.1.isEnabled id
        = if newKey.disable then false else newKey.isEnabled id :=
  flush_retried flakyTs ((wellFormed_init 1).addKey (CString.ofAscii "a"))
    (.fails (e := ⟨0, []⟩) (by decide +kernel) (.succeeds (by decide +kernel)))

end Kp

end Libtimeseries
