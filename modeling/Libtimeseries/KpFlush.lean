import Libtimeseries.Ascii
import Libtimeseries.KpStore

/-!
# A flush is atomic on the package

`timeseries_kp_flush` goes through the enabled backends and stops at the first
callback that fails. Whatever was flushed by then, the package is as before
(`SameContents`): the reset loop only runs once every backend has succeeded
(`Flushed`). The retry of a failed flush rests on the first half, and the
proxy's assertion that nothing is enabled after a flush on the second.
-/

namespace Libtimeseries

open ByteLib

variable {W : Type}

namespace Kp

/-- The user of a package sees no difference: values, flags, sizes, names and
lookups are the same. -/
structure SameContents (kp kp' : Kp) : Prop where
  value : ∀ id, kp'.get id = kp.get id
  enabled : ∀ id, kp'.isEnabled id = kp.isEnabled id
  size : kp'.size = kp.size
  enabledSize : kp'.enabledSize = kp.enabledSize
  name : ∀ id, kp'.getKeyName id = kp.getKeyName id
  lookup : ∀ key, kp'.getKey key = kp.getKey key

/-- What a flush that returned 0 did, with the callbacks `calls`. -/
structure Flushed (ts : Timeseries W) (time : UInt32) (calls : List (Call W)) (kp kp' : Kp) :
    Prop where
  /-- every enabled backend was flushed once, successfully, with the package as it
  was -/
  once : ∀ id, ts.enabled id = true →
    ∃ c, (calls.filter fun c => c.flush?.isSome && c.backend = id) = [c] ∧
      c.callback = .kpFlush time ∧ c.ret = .ok ∧ kp.SameContents c.kp
  size : kp'.size = kp.size
  name : ∀ id, kp'.getKeyName id = kp.getKeyName id
  lookup : ∀ key, kp'.getKey key = kp.getKey key
  value : ∀ id, kp'.get id = if kp.reset then 0 else kp.get id
  enabled : ∀ id, kp'.isEnabled id = if kp.disable then false else kp.isEnabled id
  enabledSize : kp'.enabledSize = if kp.disable then 0 else kp.enabledSize

/-! ## Failure -/

section Core

variable {kp kp' : Kp} (h : kp'.core = kp.core)

include h

/-- A view of one key info that does not look at backend states. -/
theorem getElem?_of_core {β : Type} (f : Ki → β) (hf : ∀ ki, f ki.erase = f ki) (id : Nat) :
    kp'.keyInfos[id]?.map f = kp.keyInfos[id]?.map f := by
  rw [← List.getElem?_map, ← List.getElem?_map, map_of_core h f hf]

theorem getKeyName_of_core (id : Nat) : kp'.getKeyName id = kp.getKeyName id := by
  rw [getKeyName, getKeyName, cnt_of_core h, getElem?_of_core h Ki.name fun _ => rfl]

theorem getKey_of_core (key : CString) : kp'.getKey key = kp.getKey key := by
  rw [getKey, getKey, names_of_core h, keyIdHash_of_core h]

theorem isEnabled_of_core (id : Nat) : kp'.isEnabled id = kp.isEnabled id := by
  have hflag := getElem?_of_core h Ki.disabled (fun _ => rfl) id
  unfold isEnabled
  cases hki : kp.keyInfos[id]? with
  | none =>
    rw [hki, Option.map_none, Option.map_eq_none_iff] at hflag
    rw [hflag]
  | some ki =>
    rw [hki, Option.map_some, Option.map_eq_some_iff] at hflag
    obtain ⟨ki', hki', hd⟩ := hflag
    rw [hki', Option.any_some, Option.any_some, hd]

/-- Backend states and `dirty` are invisible. -/
theorem SameContents.of_core : kp.SameContents kp' where
  value id := by rw [get, get, getElem?_of_core h Ki.value fun _ => rfl]
  enabled := isEnabled_of_core h
  size := cnt_of_core h
  enabledSize := enabledCnt_of_core h
  name := getKeyName_of_core h
  lookup := getKey_of_core h

end Core

/-! ## Success -/

/-- The flush callback of a backend, with a package that is still as it was. -/
def FlushCall (time : UInt32) (kp : Kp) (id : BackendId) (c : Call W) : Prop :=
  c.backend = id ∧ c.callback = .kpFlush time ∧ c.ret = .ok ∧ c.kp.core = kp.core

/-- A loop that ends well has flushed every backend it went through. -/
theorem flushLoop_flushes (ts : Timeseries W) (time : UInt32) (d : Bool) (ids : List BackendId)
    (kp : Kp) (e : Env W) (hok : (flushLoop ts time d ids kp e).1 = .ok) :
    ∃ new, (flushLoop ts time d ids kp e).2.2.calls = e.calls ++ new ∧
      List.Forall₂ (FlushCall time kp) ids (new.filter fun c => c.flush?.isSome) := by
  induction ids generalizing kp e with
  | nil => exact ⟨[], (List.append_nil _).symm, .nil⟩
  | cons id ids ih =>
    -- the update that comes first, if any, is no flush
    have hup : ∃ new, (if d then ts.callKpKiUpdate id kp e else (.ok, kp, e)).2.2.calls
          = e.calls ++ new ∧ (new.filter fun c => c.flush?.isSome) = [] ∧
        (if d then ts.callKpKiUpdate id kp e else (.ok, kp, e)).2.1.core = kp.core := by
      cases d with
      | false => exact ⟨[], (List.append_nil _).symm, rfl, rfl⟩
      | true => exact ⟨[_], rfl, rfl, (callKpKiUpdate_spec ts time id kp e).core⟩
    unfold flushLoop at hok ⊢
    generalize (if d then ts.callKpKiUpdate id kp e else (.ok, kp, e)) = r at hup hok ⊢
    obtain ⟨r, kp₁, e₁⟩ := r
    obtain ⟨new₁, hcalls₁, hnone, hcore₁⟩ := hup
    cases r with
    | fail => cases hok
    | stop why => cases hok
    | ok =>
      have hfl : ∃ c, (ts.callKpFlush id kp₁ time e₁).2.2.calls = e₁.calls ++ [c] ∧
          c.backend = id ∧ c.callback = .kpFlush time ∧
          c.ret = (ts.callKpFlush id kp₁ time e₁).1 ∧ c.kp = kp₁ := ⟨_, rfl, rfl, rfl, rfl, rfl⟩
      have hcore₂ := (callKpFlush_spec ts time id kp₁ e₁).core
      dsimp only at hok ⊢
      generalize ts.callKpFlush id kp₁ time e₁ = r at hfl hcore₂ hok ⊢
      obtain ⟨r, kp₂, e₂⟩ := r
      obtain ⟨c, hcalls₂, hid, hcallback, hret, hkp⟩ := hfl
      cases r with
      | fail => cases hok
      | stop why => cases hok
      | ok =>
        obtain ⟨new₂, hcalls₃, hflushes⟩ := ih kp₂ e₂ hok
        have hcalls₁' : e₁.calls = e.calls ++ new₁ := hcalls₁
        have hcalls₂' : e₂.calls = e₁.calls ++ [c] := hcalls₂
        refine ⟨new₁ ++ [c] ++ new₂, ?_, ?_⟩
        · show (flushLoop ts time d ids kp₂ e₂).2.2.calls = _
          rw [hcalls₃, hcalls₂', hcalls₁']
          simp only [List.append_assoc]
        · have hc : ([c].filter fun c => c.flush?.isSome) = [c] := by
            simp [Call.flush?, hcallback]
          rw [List.filter_append, List.filter_append, hnone, hc, List.nil_append]
          refine .cons ⟨hid, hcallback, hret, ?_⟩ (hflushes.imp ?_)
          · rw [hkp]
            exact hcore₁
          · rintro id' c' ⟨hid', hcallback', hret', hcore'⟩
            exact ⟨hid', hcallback', hret', (hcore'.trans hcore₂).trans hcore₁⟩

/-- A loop that does not end well has seen a callback that did not. -/
theorem flushLoop_failed (ts : Timeseries W) (time : UInt32) (d : Bool) (ids : List BackendId)
    (kp : Kp) (e : Env W) (hne : (flushLoop ts time d ids kp e).1 ≠ .ok) :
    ∃ new, (flushLoop ts time d ids kp e).2.2.calls = e.calls ++ new ∧ ∃ c ∈ new, c.ret ≠ .ok := by
  induction ids generalizing kp e with
  | nil => exact absurd rfl hne
  | cons id ids ih =>
    have hup : ∃ new, (if d then ts.callKpKiUpdate id kp e else (.ok, kp, e)).2.2.calls
          = e.calls ++ new ∧
        ((if d then ts.callKpKiUpdate id kp e else (.ok, kp, e)).1 ≠ .ok →
          ∃ c ∈ new, c.ret ≠ .ok) := by
      cases d with
      | false => exact ⟨[], (List.append_nil _).symm, fun h => absurd rfl h⟩
      | true => exact ⟨[_], rfl, fun h => ⟨_, List.mem_singleton_self _, h⟩⟩
    rw [flushLoop] at hne ⊢
    generalize (if d then ts.callKpKiUpdate id kp e else (.ok, kp, e)) = r at hup hne ⊢
    obtain ⟨r, kp₁, e₁⟩ := r
    obtain ⟨new₁, hcalls₁, hbad₁⟩ := hup
    cases r with
    | fail => exact ⟨new₁, hcalls₁, hbad₁ (by rintro ⟨⟩)⟩
    | stop why => exact ⟨new₁, hcalls₁, hbad₁ (by rintro ⟨⟩)⟩
    | ok =>
      have hcalls₁' : e₁.calls = e.calls ++ new₁ := hcalls₁
      have hfl : ∃ c, (ts.callKpFlush id kp₁ time e₁).2.2.calls = e₁.calls ++ [c] ∧
          c.ret = (ts.callKpFlush id kp₁ time e₁).1 := ⟨_, rfl, rfl⟩
      dsimp only at hne ⊢
      generalize ts.callKpFlush id kp₁ time e₁ = r at hfl hne ⊢
      obtain ⟨r, kp₂, e₂⟩ := r
      obtain ⟨c, hcalls₂, hret⟩ := hfl
      rw [hcalls₁', List.append_assoc] at hcalls₂
      have hmem : c ∈ new₁ ++ [c] := List.mem_append_right _ (List.mem_singleton_self c)
      cases r with
      | fail => exact ⟨_, hcalls₂, c, hmem, by rw [hret]; rintro ⟨⟩⟩
      | stop why => exact ⟨_, hcalls₂, c, hmem, by rw [hret]; rintro ⟨⟩⟩
      | ok =>
        obtain ⟨new₂, hcalls₃, c', hc', hbad⟩ := ih kp₂ e₂ hne
        have hcalls₂' : e₂.calls = e.calls ++ (new₁ ++ [c]) := hcalls₂
        refine ⟨new₁ ++ [c] ++ new₂, ?_, c', List.mem_append_right _ hc', hbad⟩
        show (flushLoop ts time d ids kp₂ e₂).2.2.calls = _
        rw [hcalls₃, hcalls₂', List.append_assoc]

end Kp

/-- No backend is visited twice. -/
theorem Timeseries.enabledIds_nodup (ts : Timeseries W) : ts.enabledIds.Nodup :=
  List.Pairwise.filter _ (by decide)

namespace Kp

/-- Among calls that belong to the backends of a list without repetition there is
one for each. -/
theorem FlushCall.of_forall₂ {time : UInt32} {kp : Kp} {ids : List BackendId}
    (hnd : ids.Nodup) {calls : List (Call W)} (h : List.Forall₂ (FlushCall time kp) ids calls)
    {id : BackendId} (hid : id ∈ ids) :
    ∃ c, (calls.filter fun c => c.backend = id) = [c] ∧ FlushCall time kp id c := by
  induction h with
  | nil => cases hid
  | cons hc hrest ih =>
    rename_i id' c ids' calls'
    obtain ⟨hnot, hnd'⟩ := List.nodup_cons.mp hnd
    by_cases heq : id' = id
    · -- the others belong to other backends
      have hnone : (calls'.filter fun c => c.backend = id) = [] := by
        rw [List.filter_eq_nil_iff]
        intro c' hc' hbackend
        obtain ⟨i, hi, hget⟩ := List.mem_iff_getElem.mp hc'
        have hi' : i < ids'.length := hrest.length_eq ▸ hi
        have hbelongs := hrest.get hi' hi
        rw [List.get_eq_getElem, List.get_eq_getElem, hget] at hbelongs
        refine hnot ?_
        rw [heq, ← of_decide_eq_true hbackend, hbelongs.1]
        exact List.getElem_mem hi'
      refine ⟨c, ?_, heq ▸ hc⟩
      rw [List.filter_cons_of_pos (by simpa [hc.1] using heq), hnone]
    · obtain ⟨c', hfilter, hc'⟩ := ih hnd' ((List.mem_cons.mp hid).resolve_left (Ne.symm heq))
      refine ⟨c', ?_, hc'⟩
      rw [List.filter_cons_of_neg (by simpa [hc.1] using heq), hfilter]

/-- The flush as the callbacks see it: each enabled backend is flushed once, or some
callback does not succeed. -/
theorem flush_calls (ts : Timeseries W) (kp : Kp) (time : UInt32) (e : Env W) :
    let r := kp.flush ts time e
    ∃ new, r.2.2.calls = e.calls ++ new ∧ (r.1 ≠ .ok → ∃ c ∈ new, c.ret ≠ .ok) ∧
      (r.1 = .ok → ∀ id, ts.enabled id = true →
        (new.filter fun c => c.backend = id).filterMap Call.flush? = [(time, kp.enabledPairs)]) := by
  have hfailed := flushLoop_failed ts time kp.dirty ts.enabledIds { kp with dirty := false } e
  have hflushes := flushLoop_flushes ts time kp.dirty ts.enabledIds { kp with dirty := false } e
  unfold flush
  generalize flushLoop ts time kp.dirty ts.enabledIds { kp with dirty := false } e = r
    at hfailed hflushes ⊢
  obtain ⟨r, kp₁, e₁⟩ := r
  cases r with
  | fail =>
    obtain ⟨new, hcalls, hbad⟩ := hfailed (by rintro ⟨⟩)
    exact ⟨new, hcalls, fun _ => hbad, by rintro ⟨⟩⟩
  | stop why =>
    obtain ⟨new, hcalls, hbad⟩ := hfailed (by rintro ⟨⟩)
    exact ⟨new, hcalls, fun _ => hbad, by rintro ⟨⟩⟩
  | ok =>
    obtain ⟨new, hcalls, hall⟩ := hflushes rfl
    refine ⟨new, hcalls, fun h => absurd rfl h, fun _ id hid => ?_⟩
    obtain ⟨c, hfilter, -, hcallback, -, hcore⟩ :=
      FlushCall.of_forall₂ ts.enabledIds_nodup hall (Timeseries.mem_enabledIds.mpr hid)
    -- calls that are no flushes do not count
    have hdrop : ∀ cs : List (Call W),
        cs.filterMap Call.flush? = (cs.filter fun c => c.flush?.isSome).filterMap Call.flush? := by
      intro cs
      rw [List.filterMap_filter]
      refine List.filterMap_congr fun c _ => ?_
      cases c.flush? <;> rfl
    have hsome : c.flush? = some (time, kp.enabledPairs) := by
      rw [Call.flush?, hcallback]
      exact congrArg (fun rs => some (time, rs)) (enabledPairs_of_core hcore)
    have hone : ((new.filter fun c => c.backend = id).filter fun c => c.flush?.isSome) = [c] := by
      rw [← hfilter, List.filter_filter, List.filter_filter]
      simp only [Bool.and_comm]
    rw [hdrop, hone, List.filterMap_cons_some hsome]
    rfl

/-- What the reset loop leaves of each key. -/
theorem WellFormed.resetDisable_ki {kp : Kp} (h : kp.WellFormed) (id : Nat) :
    kp.resetDisable.keyInfos[id]? = kp.keyInfos[id]?.map (Ki.afterFlush kp.reset kp.disable) := by
  rw [h.resetDisable_keyInfos, List.getElem?_map]

theorem WellFormed.resetDisable_get {kp : Kp} (h : kp.WellFormed) (id : Nat) :
    kp.resetDisable.get id = if kp.reset then 0 else kp.get id := by
  unfold Kp.get
  rw [h.resetDisable_ki]
  cases kp.keyInfos[id]? with
  | none => simp
  | some ki => rfl

theorem WellFormed.resetDisable_isEnabled {kp : Kp} (h : kp.WellFormed) (id : Nat) :
    kp.resetDisable.isEnabled id = if kp.disable then false else kp.isEnabled id := by
  unfold isEnabled
  rw [h.resetDisable_ki]
  cases kp.keyInfos[id]? with
  | none => simp
  | some ki => cases hd : kp.disable <;> simp [Ki.afterFlush]

theorem WellFormed.resetDisable_enabledSize {kp : Kp} (h : kp.WellFormed) :
    kp.resetDisable.enabledSize = if kp.disable then 0 else kp.enabledSize := by
  rw [enabledSize, h.resetDisable.enabled, h.resetDisable_keyInfos, List.countP_map]
  split
  · next hd =>
    rw [List.countP_eq_zero]
    intro ki _
    simp [Ki.afterFlush, hd]
  · next hd =>
    rw [enabledSize, h.enabled]
    refine List.countP_congr fun ki _ => ?_
    simp [Ki.afterFlush, hd]

theorem WellFormed.resetDisable_getKeyName {kp : Kp} (h : kp.WellFormed) (id : Nat) :
    kp.resetDisable.getKeyName id = kp.getKeyName id := by
  rw [getKeyName, getKeyName, (resetDisable_frame kp).cnt, h.resetDisable_ki, Option.map_map]
  rfl

theorem WellFormed.resetDisable_getKey {kp : Kp} (h : kp.WellFormed) (key : CString) :
    kp.resetDisable.getKey key = kp.getKey key := by
  rw [getKey, getKey, h.resetDisable_names, (resetDisable_frame kp).hash]

/-- **A flush is atomic**: for every package, every set of enabled backends and all
outcomes of their callbacks, a flush that returns -1 changes nothing one can see
in the package; and one that returns 0 has flushed every enabled backend once
with the unmodified package, and then resets and disables as the flags say. -/
theorem flush_atomic (ts : Timeseries W) {kp : Kp} (hwf : kp.WellFormed) (time : UInt32)
    (e : Env W) :
    let r := kp.flush ts time e
    (r.1 = .fail → kp.SameContents r.2.1) ∧
      (r.1 = .ok → ∃ new, r.2.2.calls = e.calls ++ new ∧ Flushed ts time new kp r.2.1) := by
  have hspec := (flushLoop_spec ts time kp.dirty ts.enabledIds { kp with dirty := false } e).of_dirty
  have hflushes := flushLoop_flushes ts time kp.dirty ts.enabledIds { kp with dirty := false } e
  unfold flush
  generalize flushLoop ts time kp.dirty ts.enabledIds { kp with dirty := false } e = r
    at hspec hflushes ⊢
  obtain ⟨r, kp₁, e₁⟩ := r
  have hcore : kp₁.core = kp.core := hspec.core
  have hwf₁ := hwf.of_core hcore
  have hreset : kp₁.reset = kp.reset := by
    show kp₁.core.reset = kp.core.reset
    rw [hcore]
  have hdisable : kp₁.disable = kp.disable := disable_of_core hcore
  cases r with
  | stop why => exact ⟨by rintro ⟨⟩, by rintro ⟨⟩⟩
  | fail => exact ⟨fun _ => .of_core hcore, by rintro ⟨⟩⟩
  | ok =>
    refine ⟨by rintro ⟨⟩, fun _ => ?_⟩
    obtain ⟨new, hcalls, hall⟩ := hflushes rfl
    refine ⟨new, hcalls, ?_⟩
    constructor
    · intro id hid
      obtain ⟨c, hfilter, -, hcallback, hret, hkp⟩ :=
        FlushCall.of_forall₂ ts.enabledIds_nodup hall (Timeseries.mem_enabledIds.mpr hid)
      refine ⟨c, ?_, hcallback, hret, .of_core hkp⟩
      rw [← hfilter, List.filter_filter]
      simp only [Bool.and_comm]
    · exact (resetDisable_frame kp₁).cnt.trans (cnt_of_core hcore)
    · exact fun id => (hwf₁.resetDisable_getKeyName id).trans (getKeyName_of_core hcore id)
    · exact fun key => (hwf₁.resetDisable_getKey key).trans (getKey_of_core hcore key)
    · intro id
      rw [hwf₁.resetDisable_get, hreset, (SameContents.of_core hcore).value]
    · intro id
      rw [hwf₁.resetDisable_isEnabled, hdisable, isEnabled_of_core hcore]
    · rw [hwf₁.resetDisable_enabledSize, hdisable, (SameContents.of_core hcore).enabledSize]

/-- A package that resets, with one key of value 7. -/
def resetKey : Kp := (((Kp.init 1).addKey .success (CString.ofAscii "a")).2.set 0 7).2

theorem flush_atomic_resetKey :
    let ts := Timeseries.single .ascii Ascii.backend
    let r := resetKey.flush ts 60 ⟨⟨[]⟩, []⟩
    (r.1 = .fail → resetKey.SameContents r.2.1) ∧
      (r.1 = .ok → ∃ new, r.2.2.calls = [] ++ new ∧ Flushed ts 60 new resetKey r.2.1) :=
  flush_atomic (.single .ascii Ascii.backend)
    (((wellFormed_init 1).addKey (CString.ofAscii "a")).set 0 7) 60 ⟨⟨[]⟩, []⟩

end Kp

end Libtimeseries
