import Libtimeseries.KpInvariant

/-!
# Backends and the key package calls that reach them

A backend is the part of its function table that the key package code calls:
`kp_ki_update` and `kp_flush`. Both get the package by reference, so they
return it; `W` is everything else a backend may look at or change (its state,
the database, the message broker).

A `Backend` carries the one promise the library relies on without checking it:
after a callback the package is what it was, except for the backend's own
`backend_state` slots. The Kafka backend cuts key strings in place while it
flushes, so this is a fact to prove about each backend, and the instances do.

`Kp.resolve` and `Kp.flush` are the two loops over the enabled backends. They
record each callback with the package and the world it was called on
(`Env.calls`), which is what the protocol properties speak about.
-/

namespace Libtimeseries

open ByteLib

variable {W : Type}

/-- The function table of a backend, as far as key packages use it. -/
structure Backend (W : Type) where
  kpKiUpdate : Kp → W → Ret × Kp × W
  kpFlush : Kp → UInt32 → W → Ret × Kp × W
  /-- `kp_ki_update` only changes backend states -/
  kpKiUpdate_erase : ∀ kp w, (kpKiUpdate kp w).2.1.erase = kp.erase
  /-- `kp_flush` only changes backend states -/
  kpFlush_erase : ∀ kp time w, (kpFlush kp time w).2.1.erase = kp.erase

/-- `struct timeseries`: the backends and which of them are enabled. -/
structure Timeseries (W : Type) where
  backend : BackendId → Backend W
  enabled : BackendId → Bool

namespace Timeseries

/-- A timeseries object with one enabled backend. -/
def single (id : BackendId) (b : Backend W) : Timeseries W where
  backend := fun _ => b
  enabled := fun id' => decide (id' = id)

/-- `TIMESERIES_FOREACH_ENABLED_BACKEND` -/
def enabledIds (ts : Timeseries W) : List BackendId := BackendId.all.filter ts.enabled

theorem mem_enabledIds {ts : Timeseries W} {id : BackendId} :
    id ∈ ts.enabledIds ↔ ts.enabled id = true := by
  simp [enabledIds, BackendId.mem_all]

@[simp] theorem single_enabledIds (id : BackendId) (b : Backend W) :
    (single id b).enabledIds = [id] := by
  cases id <;> rfl

end Timeseries

/-- The callbacks of a backend. -/
inductive Callback where
  | kpKiUpdate
  | kpFlush (time : UInt32)
deriving DecidableEq, Repr

/-- One invocation of a callback: its arguments and its outcome. -/
structure Call (W : Type) where
  backend : BackendId
  callback : Callback
  kp : Kp
  world : W
  ret : Ret

/-- The world the backends act on, and the callbacks invoked so far. -/
structure Env (W : Type) where
  world : W
  calls : List (Call W)

/-- `backend->kp_ki_update(backend, kp)` -/
def Timeseries.callKpKiUpdate (ts : Timeseries W) (id : BackendId) (kp : Kp) (e : Env W) :
    Ret × Kp × Env W :=
  let r := (ts.backend id).kpKiUpdate kp e.world
  (r.1, r.2.1,
    { world := r.2.2, calls := e.calls ++ [⟨id, .kpKiUpdate, kp, e.world, r.1⟩] })

/-- `backend->kp_flush(backend, kp, time)` -/
def Timeseries.callKpFlush (ts : Timeseries W) (id : BackendId) (kp : Kp) (time : UInt32)
    (e : Env W) : Ret × Kp × Env W :=
  let r := (ts.backend id).kpFlush kp time e.world
  (r.1, r.2.1,
    { world := r.2.2, calls := e.calls ++ [⟨id, .kpFlush time, kp, e.world, r.1⟩] })

namespace Kp

/-- The loop of `timeseries_kp_resolve`. -/
def resolveLoop (ts : Timeseries W) : List BackendId → Kp → Env W → Ret × Kp × Env W
  | [], kp, e => (.ok, kp, e)
  | id :: ids, kp, e =>
    match ts.callKpKiUpdate id kp e with
    | (.ok, kp, e) => resolveLoop ts ids kp e
    | (r, kp, e) => (r, kp, e)

/-- `timeseries_kp_resolve` -/
def resolve (ts : Timeseries W) (kp : Kp) (e : Env W) : Ret × Kp × Env W :=
  resolveLoop ts ts.enabledIds { kp with dirty := false } e

/-- The loop of `timeseries_kp_flush`; `dirty` is the flag saved at its start. -/
def flushLoop (ts : Timeseries W) (time : UInt32) (dirty : Bool) :
    List BackendId → Kp → Env W → Ret × Kp × Env W
  | [], kp, e => (.ok, kp, e)
  | id :: ids, kp, e =>
    match if dirty then ts.callKpKiUpdate id kp e else (.ok, kp, e) with
    | (.ok, kp, e) =>
      match ts.callKpFlush id kp time e with
      | (.ok, kp, e) => flushLoop ts time dirty ids kp e
      | (r, kp, e) => (r, kp, e)
    -- otherwise the next call won't resolve keys
    | (.fail, kp, e) => (.fail, { kp with dirty := true }, e)
    | (.stop why, kp, e) => (.stop why, kp, e)

/-- `timeseries_kp_flush` -/
def flush (ts : Timeseries W) (kp : Kp) (time : UInt32) (e : Env W) : Ret × Kp × Env W :=
  match flushLoop ts time kp.dirty ts.enabledIds { kp with dirty := false } e with
  | (.ok, kp, e) => (.ok, kp.resetDisable, e)
  | (r, kp, e) => (r, kp, e)

/-! ## What callbacks cannot change -/

/-- The package without backend states and `dirty`: what no call that reaches
backends changes before the final reset. -/
def core (kp : Kp) : Kp := { kp.erase with dirty := false }

@[simp] theorem core_dirty (kp : Kp) (d : Bool) : ({ kp with dirty := d } : Kp).core = kp.core :=
  rfl

theorem core_of_erase {kp kp' : Kp} (h : kp'.erase = kp.erase) : kp'.core = kp.core := by
  unfold core
  rw [h]

section Core

variable {kp kp' : Kp} (h : kp'.core = kp.core)

include h

theorem keyIdHash_of_core : kp'.keyIdHash = kp.keyIdHash := by
  show kp'.core.keyIdHash = kp.core.keyIdHash
  rw [h]

theorem cnt_of_core : kp'.keyInfosCnt = kp.keyInfosCnt := by
  show kp'.core.keyInfosCnt = kp.core.keyInfosCnt
  rw [h]

theorem enabledCnt_of_core : kp'.keyInfosEnabledCnt = kp.keyInfosEnabledCnt := by
  show kp'.core.keyInfosEnabledCnt = kp.core.keyInfosEnabledCnt
  rw [h]

theorem disable_of_core : kp'.disable = kp.disable := by
  show kp'.core.disable = kp.core.disable
  rw [h]

/-- A view of the key infos that does not look at backend states is the same. -/
theorem map_of_core {β : Type} (f : Ki → β) (hf : ∀ ki, f ki.erase = f ki) :
    kp'.keyInfos.map f = kp.keyInfos.map f := by
  have hkis : kp'.keyInfos.map Ki.erase = kp.keyInfos.map Ki.erase := by
    show kp'.core.keyInfos = kp.core.keyInfos
    rw [h]
  have := congrArg (List.map f) hkis
  rw [List.map_map, List.map_map] at this
  rwa [show f ∘ Ki.erase = f from funext hf] at this

theorem names_of_core : kp'.names = kp.names :=
  map_of_core h Ki.name fun _ => rfl

theorem enabledPairs_of_core : kp'.enabledPairs = kp.enabledPairs := by
  have hview : ∀ l : List Ki, ((l.filter fun ki => !ki.disabled).map fun ki => (ki.name, ki.value))
      = ((l.map fun ki => (ki.disabled, ki.name, ki.value)).filter fun x => !x.1).map
          fun x => x.2 := by
    intro l
    rw [List.filter_map, List.map_map]
    rfl
  unfold enabledPairs enabledKis
  rw [hview, hview, map_of_core h (fun ki => (ki.disabled, ki.name, ki.value)) fun _ => rfl]

theorem WellFormed.of_core (hwf : kp.WellFormed) : kp'.WellFormed := by
  refine hwf.update (map_of_core h Ki.key fun _ => rfl) (keyIdHash_of_core h) (cnt_of_core h) ?_
  have hcount : ∀ l : List Ki, (l.countP fun ki => !ki.disabled)
      = (l.map Ki.disabled).countP fun d => !d := by
    intro l
    rw [List.countP_map]
    rfl
  rw [enabledCnt_of_core h, hwf.enabled, hcount, hcount, map_of_core h Ki.disabled fun _ => rfl]

end Core

/-- What holds of the key strings of a package. -/
def AllKeys (P : Bytes → Prop) (kp : Kp) : Prop := ∀ key ∈ kp.keyInfos.map Ki.key, P key

namespace AllKeys

variable {P : Bytes → Prop} {kp kp' : Kp}

theorem of_core (h : kp.AllKeys P) (hcore : kp'.core = kp.core) : kp'.AllKeys P := by
  rw [AllKeys, map_of_core hcore Ki.key fun _ => rfl]
  exact h

theorem addKey (h : kp.AllKeys P) {key : CString} (hkey : P key.bytes) :
    (kp.addKey .success key).2.AllKeys P := by
  show ∀ k ∈ (kp.keyInfos ++ [Ki.init key]).map Ki.key, P k
  rw [List.map_append]
  exact List.forall_mem_append.mpr ⟨h, List.forall_mem_singleton.mpr hkey⟩

/-- Key strings are never changed. -/
theorem modify (h : kp.AllKeys P) {i : Nat} {f : Ki → Ki} (hkey : ∀ ki, (f ki).key = ki.key)
    (hkis : kp'.keyInfos = kp.keyInfos.modify i f) : kp'.AllKeys P := by
  have hmap : (kp.keyInfos.modify i f).map Ki.key = kp.keyInfos.map Ki.key := by
    refine List.ext_getElem? fun j => ?_
    rw [List.getElem?_map, List.getElem?_map, List.getElem?_modify]
    cases kp.keyInfos[j]? with
    | none => rfl
    | some ki =>
      show some (if i = j then f ki else ki).key = some ki.key
      split
      · rw [hkey]
      · rfl
  rw [AllKeys, hkis, hmap]
  exact h

theorem set (h : kp.AllKeys P) (id : Nat) (value : UInt64) : (kp.set id value).2.AllKeys P := by
  unfold Kp.set
  split
  · exact h.modify (f := fun ki => ki.set value) (fun _ => rfl) rfl
  · exact h

theorem disableKey (h : kp.AllKeys P) (id : Nat) : (kp.disableKey id).AllKeys P :=
  h.modify (f := fun ki => ki.setDisabled true) (fun _ => rfl) (kp.disableKey_keyInfos id)

theorem enableKey (h : kp.AllKeys P) (id : Nat) : (kp.enableKey id).AllKeys P :=
  h.modify (f := fun ki => ki.setDisabled false) (fun _ => rfl) (kp.enableKey_keyInfos id)

theorem resetDisable (h : kp.AllKeys P) (hwf : kp.WellFormed) : kp.resetDisable.AllKeys P := by
  rw [AllKeys, hwf.resetDisable_keyInfos, List.map_map]
  exact h

end AllKeys

/-! ## What the loops can do -/

/-- The effect of a sequence of callbacks on the package and on the log: the
package keeps its core, the log grows by calls on packages of that core, and
`kp_flush` is only called with the given time. -/
structure CallsOn (time : UInt32) (kp : Kp) (e : Env W) (kp' : Kp) (e' : Env W) : Prop where
  core : kp'.core = kp.core
  calls : ∃ new, e'.calls = e.calls ++ new ∧ ∀ c ∈ new, c.kp.core = kp.core ∧
    (c.callback = .kpKiUpdate ∨ c.callback = .kpFlush time)

theorem CallsOn.refl (time : UInt32) (kp : Kp) (e : Env W) : CallsOn time kp e kp e :=
  ⟨rfl, [], by simp, by simp⟩

theorem CallsOn.trans {time : UInt32} {kp kp' kp'' : Kp} {e e' e'' : Env W}
    (h : CallsOn time kp e kp' e') (h' : CallsOn time kp' e' kp'' e'') :
    CallsOn time kp e kp'' e'' := by
  obtain ⟨new, hnew, hcalls⟩ := h.calls
  obtain ⟨new', hnew', hcalls'⟩ := h'.calls
  refine ⟨h'.core.trans h.core, new ++ new', by rw [hnew', hnew, List.append_assoc], ?_⟩
  intro c hc
  rcases List.mem_append.mp hc with hc | hc
  · exact hcalls c hc
  · exact ⟨(hcalls' c hc).1.trans h.core, (hcalls' c hc).2⟩

/-- The `dirty` flag a loop starts with is not part of the core. -/
theorem CallsOn.of_dirty {time : UInt32} {kp kp' : Kp} {d : Bool} {e e' : Env W}
    (h : CallsOn time { kp with dirty := d } e kp' e') : CallsOn time kp e kp' e' :=
  ⟨h.core, h.calls⟩

theorem callKpKiUpdate_spec (ts : Timeseries W) (time : UInt32) (id : BackendId) (kp : Kp)
    (e : Env W) :
    CallsOn time kp e (ts.callKpKiUpdate id kp e).2.1 (ts.callKpKiUpdate id kp e).2.2 :=
  ⟨core_of_erase ((ts.backend id).kpKiUpdate_erase kp e.world), _, rfl, by
    intro c hc
    rw [List.mem_singleton.mp hc]
    exact ⟨rfl, .inl rfl⟩⟩

theorem callKpFlush_spec (ts : Timeseries W) (time : UInt32) (id : BackendId) (kp : Kp)
    (e : Env W) :
    CallsOn time kp e (ts.callKpFlush id kp time e).2.1 (ts.callKpFlush id kp time e).2.2 :=
  ⟨core_of_erase ((ts.backend id).kpFlush_erase kp time e.world), _, rfl, by
    intro c hc
    rw [List.mem_singleton.mp hc]
    exact ⟨rfl, .inr rfl⟩⟩

section Loops

variable (ts : Timeseries W) {R : Kp → Env W → Kp → Env W → Prop}
  (hrefl : ∀ kp e, R kp e kp e)
  (htrans : ∀ {kp e kp' e' kp'' e''}, R kp e kp' e' → R kp' e' kp'' e'' → R kp e kp'' e'')

include hrefl htrans

/-- What the callbacks of the backends respect, the loop of `timeseries_kp_resolve`
respects. -/
theorem resolveLoop_rel {ids : List BackendId}
    (hup : ∀ id ∈ ids, ∀ kp e,
      R kp e (ts.callKpKiUpdate id kp e).2.1 (ts.callKpKiUpdate id kp e).2.2)
    (kp : Kp) (e : Env W) : R kp e (resolveLoop ts ids kp e).2.1 (resolveLoop ts ids kp e).2.2 := by
  induction ids generalizing kp e with
  | nil => exact hrefl kp e
  | cons id ids ih =>
    have hcall := hup id List.mem_cons_self kp e
    have hrest := ih fun id' hid' => hup id' (List.mem_cons_of_mem _ hid')
    rw [resolveLoop]
    generalize ts.callKpKiUpdate id kp e = r at hcall ⊢
    obtain ⟨r, kp₁, e₁⟩ := r
    cases r with
    | ok => exact htrans hcall (hrest kp₁ e₁)
    | fail => exact hcall
    | stop why => exact hcall

/-- What the callbacks and setting `dirty` respect, the loop of `timeseries_kp_flush`
respects. -/
theorem flushLoop_rel (time : UInt32) (d : Bool) {ids : List BackendId}
    (hup : ∀ id ∈ ids, ∀ kp e,
      R kp e (ts.callKpKiUpdate id kp e).2.1 (ts.callKpKiUpdate id kp e).2.2)
    (hflush : ∀ id ∈ ids, ∀ kp e,
      R kp e (ts.callKpFlush id kp time e).2.1 (ts.callKpFlush id kp time e).2.2)
    (hdirty : ∀ kp e, R kp e { kp with dirty := true } e) (kp : Kp) (e : Env W) :
    R kp e (flushLoop ts time d ids kp e).2.1 (flushLoop ts time d ids kp e).2.2 := by
  induction ids generalizing kp e with
  | nil => exact hrefl kp e
  | cons id ids ih =>
    have hfirst : R kp e
        (if d then ts.callKpKiUpdate id kp e else (.ok, kp, e)).2.1
        (if d then ts.callKpKiUpdate id kp e else (.ok, kp, e)).2.2 := by
      cases d
      · exact hrefl kp e
      · exact hup id List.mem_cons_self kp e
    have hrest := ih (fun id' hid' => hup id' (List.mem_cons_of_mem _ hid'))
      fun id' hid' => hflush id' (List.mem_cons_of_mem _ hid')
    rw [flushLoop]
    generalize (if d then ts.callKpKiUpdate id kp e else (.ok, kp, e)) = r at hfirst ⊢
    obtain ⟨r, kp₁, e₁⟩ := r
    cases r with
    -- the exit that sets `dirty` again
    | fail => exact htrans hfirst (hdirty kp₁ e₁)
    | stop why => exact hfirst
    | ok =>
      have hcall := hflush id List.mem_cons_self kp₁ e₁
      dsimp only
      generalize ts.callKpFlush id kp₁ time e₁ = r at hcall ⊢
      obtain ⟨r, kp₂, e₂⟩ := r
      cases r with
      | ok => exact htrans (htrans hfirst hcall) (hrest kp₂ e₂)
      | fail => exact htrans hfirst hcall
      | stop why => exact htrans hfirst hcall

end Loops

theorem resolveLoop_spec (ts : Timeseries W) (time : UInt32) (ids : List BackendId) (kp : Kp)
    (e : Env W) :
    CallsOn time kp e (resolveLoop ts ids kp e).2.1 (resolveLoop ts ids kp e).2.2 :=
  resolveLoop_rel ts (CallsOn.refl time) CallsOn.trans
    (fun id _ kp e => callKpKiUpdate_spec ts time id kp e) kp e

theorem flushLoop_spec (ts : Timeseries W) (time : UInt32) (d : Bool) (ids : List BackendId)
    (kp : Kp) (e : Env W) :
    CallsOn time kp e (flushLoop ts time d ids kp e).2.1 (flushLoop ts time d ids kp e).2.2 :=
  flushLoop_rel ts (CallsOn.refl time) CallsOn.trans time d
    (fun id _ kp e => callKpKiUpdate_spec ts time id kp e)
    (fun id _ kp e => callKpFlush_spec ts time id kp e)
    (fun _ _ => ⟨rfl, [], by simp, by simp⟩) kp e

theorem resolve_spec (ts : Timeseries W) (time : UInt32) (kp : Kp) (e : Env W) :
    CallsOn time kp e (kp.resolve ts e).2.1 (kp.resolve ts e).2.2 :=
  (resolveLoop_spec ts time ts.enabledIds { kp with dirty := false } e).of_dirty

/-- **What `timeseries_kp_flush` does to the package**: nothing but backend
states and `dirty` if it does not return 0, and otherwise the reset loop on top
of that. -/
theorem flush_spec (ts : Timeseries W) (kp : Kp) (time : UInt32) (e : Env W) :
    ∃ kp₁, CallsOn time kp e kp₁ (kp.flush ts time e).2.2 ∧
      (kp.flush ts time e).2.1
        = if (kp.flush ts time e).1 = .ok then kp₁.resetDisable else kp₁ := by
  have h := (flushLoop_spec ts time kp.dirty ts.enabledIds { kp with dirty := false } e).of_dirty
  unfold flush
  generalize flushLoop ts time kp.dirty ts.enabledIds { kp with dirty := false } e = r at h ⊢
  obtain ⟨r, kp₁, e₁⟩ := r
  cases r with
  | ok => exact ⟨kp₁, h, rfl⟩
  | fail => exact ⟨kp₁, h, rfl⟩
  | stop why => exact ⟨kp₁, h, rfl⟩

/-- Flushing changes no key string. -/
theorem AllKeys.flush {P : Bytes → Prop} {kp : Kp} (h : kp.AllKeys P) (hwf : kp.WellFormed)
    (ts : Timeseries W) (time : UInt32) (e : Env W) : (kp.flush ts time e).2.1.AllKeys P := by
  obtain ⟨kp₁, hspec, hkp⟩ := flush_spec ts kp time e
  rw [hkp]
  split
  · exact (h.of_core hspec.core).resetDisable (hwf.of_core hspec.core)
  · exact h.of_core hspec.core

theorem WellFormed.resolve {kp : Kp} (h : kp.WellFormed) (ts : Timeseries W) (e : Env W) :
    (kp.resolve ts e).2.1.WellFormed :=
  h.of_core (resolve_spec ts 0 kp e).core

theorem WellFormed.flush {kp : Kp} (h : kp.WellFormed) (ts : Timeseries W) (time : UInt32)
    (e : Env W) : (kp.flush ts time e).2.1.WellFormed := by
  obtain ⟨kp₁, hcalls, hkp⟩ := flush_spec ts kp time e
  have h₁ : kp₁.WellFormed := h.of_core hcalls.core
  rw [hkp]
  split
  · exact h₁.resetDisable
  · exact h₁

end Kp

/-! ## What reaches a backend -/

/-- The flush a callback asks for: its time and the enabled pairs. -/
def Call.flush? (c : Call W) : Option (UInt32 × List (Bytes × UInt64)) :=
  match c.callback with
  | .kpKiUpdate => none
  | .kpFlush time => some (time, c.kp.enabledPairs)

/-- The flushes that reached the backends. -/
def Env.flushes (e : Env W) : List (UInt32 × List (Bytes × UInt64)) :=
  e.calls.filterMap Call.flush?

theorem Env.flushes_of_calls {e e' : Env W} {new : List (Call W)}
    (h : e'.calls = e.calls ++ new) :
    e'.flushes = e.flushes ++ new.filterMap Call.flush? := by
  rw [flushes, h, List.filterMap_append]
  rfl

/-- What `timeseries_kp_flush` can do with one enabled backend, which sees the
calls `new`. -/
inductive Kp.FlushOne (time : UInt32) (kp : Kp) (new : List (Call W)) : Ret → Kp → Prop
  /-- the backend is flushed once -/
  | done {kp' : Kp} (kp₁ : Kp) (core : kp₁.core = kp.core) (reset : kp' = kp₁.resetDisable)
      (flushes : new.filterMap Call.flush? = [(time, kp.enabledPairs)]) :
      FlushOne time kp new .ok kp'
  /-- a callback does not succeed -/
  | failed {r : Ret} {kp' : Kp} (core : kp'.core = kp.core) (ret : r ≠ .ok)
      (call : ∃ c ∈ new, c.ret = r)
      (flushes : ∀ f ∈ new.filterMap Call.flush?, f = (time, kp.enabledPairs)) :
      FlushOne time kp new r kp'

/-- The flush callback and what follows it in the loop. -/
theorem Kp.callKpFlush_single (id : BackendId) (b : Backend W) (kp : Kp) (time : UInt32)
    (e : Env W) :
    let r := (Timeseries.single id b).callKpFlush id kp time e
    ∃ c : Call W, r.2.2.calls = e.calls ++ [c] ∧ c.ret = r.1 ∧
      c.flush? = some (time, kp.enabledPairs) ∧ r.2.1.core = kp.core :=
  ⟨_, rfl, rfl, rfl, core_of_erase (b.kpFlush_erase kp time e.world)⟩

/-- The callback made before it, if any, is no flush. -/
theorem Kp.callFirst_single (id : BackendId) (b : Backend W) (kp : Kp) (e : Env W) :
    let r := if kp.dirty then
        (Timeseries.single id b).callKpKiUpdate id { kp with dirty := false } e
      else (.ok, { kp with dirty := false }, e)
    ∃ new, r.2.2.calls = e.calls ++ new ∧ (∀ c ∈ new, c.flush? = none) ∧
      (r.1 ≠ .ok → ∃ c ∈ new, c.ret = r.1) ∧ r.2.1.core = kp.core := by
  cases kp.dirty with
  | false => exact ⟨[], by simp, by simp, fun h => absurd rfl h, rfl⟩
  | true =>
    refine ⟨[_], rfl, fun c hc => ?_, fun _ => ⟨_, List.mem_singleton_self _, rfl⟩, ?_⟩
    · rw [List.mem_singleton.mp hc]
      rfl
    · exact (core_of_erase (b.kpKiUpdate_erase { kp with dirty := false } e.world)).trans
        (core_dirty kp false)

theorem Kp.flush_single (id : BackendId) (b : Backend W) (kp : Kp) (time : UInt32) (e : Env W) :
    let r := kp.flush (.single id b) time e
    ∃ new, r.2.2.calls = e.calls ++ new ∧ FlushOne time kp new r.1 r.2.1 := by
  have hfirst := Kp.callFirst_single id b kp e
  unfold flush
  rw [Timeseries.single_enabledIds, flushLoop]
  dsimp only at hfirst
  generalize (if kp.dirty then
      (Timeseries.single id b).callKpKiUpdate id { kp with dirty := false } e
    else (.ok, { kp with dirty := false }, e)) = r₁ at hfirst ⊢
  obtain ⟨new₁, hcalls₁, hnoflush, hbad, hcore₁⟩ := hfirst
  have hnone : new₁.filterMap Call.flush? = [] := List.filterMap_eq_nil_iff.mpr hnoflush
  obtain ⟨r₁, kp₁, e₁⟩ := r₁
  cases r₁ with
  | fail =>
    have hne : Ret.fail ≠ .ok := by rintro ⟨⟩
    exact ⟨new₁, hcalls₁, .failed hcore₁ hne (hbad hne) (by simp [hnone])⟩
  | stop why =>
    have hne : Ret.stop why ≠ .ok := by rintro ⟨⟩
    exact ⟨new₁, hcalls₁, .failed hcore₁ hne (hbad hne) (by simp [hnone])⟩
  | ok =>
    obtain ⟨c, hcalls₂, hret, hflush, hcore₂⟩ := Kp.callKpFlush_single id b kp₁ time e₁
    rw [enabledPairs_of_core hcore₁] at hflush
    have hcore := hcore₂.trans hcore₁
    have hcalls : ((Timeseries.single id b).callKpFlush id kp₁ time e₁).2.2.calls
        = e.calls ++ (new₁ ++ [c]) := by
      rw [hcalls₂, hcalls₁, List.append_assoc]
    have hflushes : (new₁ ++ [c]).filterMap Call.flush? = [(time, kp.enabledPairs)] := by
      rw [List.filterMap_append, hnone, List.filterMap_cons_some hflush]
      rfl
    dsimp only
    generalize (Timeseries.single id b).callKpFlush id kp₁ time e₁ = r₂ at hcalls hret hcore ⊢
    obtain ⟨r₂, kp₂, e₂⟩ := r₂
    have hmem : c ∈ new₁ ++ [c] := List.mem_append_right _ List.mem_cons_self
    cases r₂ with
    | ok => exact ⟨_, hcalls, .done kp₂ hcore rfl hflushes⟩
    | fail =>
      have hne : Ret.fail ≠ .ok := by rintro ⟨⟩
      exact ⟨_, hcalls, .failed hcore hne ⟨c, hmem, hret⟩ (by simp [hflushes])⟩
    | stop why =>
      have hne : Ret.stop why ≠ .ok := by rintro ⟨⟩
      exact ⟨_, hcalls, .failed hcore hne ⟨c, hmem, hret⟩ (by simp [hflushes])⟩

end Libtimeseries
