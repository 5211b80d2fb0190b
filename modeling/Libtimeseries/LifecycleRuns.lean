import Libtimeseries.Lifecycle

/-!
# Backends enabled after a package was created

A package should only talk to the backends that were enabled when it was created:
they were told of it with `kp_init` (`Introduced`), and they are the ones its
flushes are for (`FlushedAtInit`). The loops do not see to that. They take the
backends that are enabled now, so it is up to the application to enable no backend
while it uses a package (`Settled`).
-/

namespace Libtimeseries

open ByteLib RunLib

variable {W : Type}

namespace Lifecycle

/-! ## What callbacks a call makes -/

/-- The log grows by notices that meet `P`. -/
def Notifies (P : Notice → Prop) (io io' : Io W) : Prop :=
  ∃ new, io'.log = io.log ++ new ∧ ∀ n ∈ new, P n

namespace Notifies

variable {P : Notice → Prop}

theorem refl (io : Io W) : Notifies P io io := ⟨[], (List.append_nil _).symm, by simp⟩

theorem trans {io io' io'' : Io W} (h : Notifies P io io') (h' : Notifies P io' io'') :
    Notifies P io io'' := by
  obtain ⟨new, hnew, hP⟩ := h
  obtain ⟨new', hnew', hP'⟩ := h'
  refine ⟨new ++ new', by rw [hnew', hnew, List.append_assoc], ?_⟩
  intro n hn
  exact (List.mem_append.mp hn).elim (hP n) (hP' n)

theorem call {n : Notice} (hn : P n) (f : W → Ret × W) (io : Io W) :
    Notifies P io (call n f io).2 :=
  ⟨[n], rfl, fun _ hm => List.mem_singleton.mp hm ▸ hn⟩

theorem callVoid {n : Notice} (hn : P n) (f : W → Option Stop × W) (io : Io W) :
    Notifies P io (callVoid n f io).2 :=
  ⟨[n], rfl, fun _ hm => List.mem_singleton.mp hm ▸ hn⟩

end Notifies

/-- A notice of one package to one of some backends, other than `kp_init`. -/
structure Later (pkg : Nat) (ids : List BackendId) (n : Notice) : Prop where
  pkg : n.pkg = pkg
  backend : n.backend ∈ ids
  later : n.callback ≠ .kpInit

section Loops

variable (plugin : BackendId → Plugin W) (pkg : Nat)

/-- When `timeseries_kp_init` succeeds, every backend has been told. -/
theorem kpInitLoop_notifies (kp : Kp) (ids : List BackendId) (io : Io W) :
    Notifies (fun n => n.pkg = pkg ∧ n.callback = .kpInit) io (kpInitLoop plugin pkg kp ids io).2 ∧
      ((kpInitLoop plugin pkg kp ids io).1 = .ok →
        ∀ id ∈ ids, ⟨pkg, id, .kpInit⟩ ∈ (kpInitLoop plugin pkg kp ids io).2.log) := by
  induction ids generalizing io with
  | nil => exact ⟨.refl io, by rintro - id ⟨⟩⟩
  | cons id ids ih =>
    have hcall : Notifies (fun n => n.pkg = pkg ∧ n.callback = .kpInit) io
        (call ⟨pkg, id, .kpInit⟩ ((plugin id).kpInit kp) io).2 := .call ⟨rfl, rfl⟩ _ io
    have hmem : ⟨pkg, id, .kpInit⟩ ∈
        (call ⟨pkg, id, .kpInit⟩ ((plugin id).kpInit kp) io).2.log :=
      List.mem_append_right _ (List.mem_singleton_self _)
    rw [kpInitLoop]
    generalize call ⟨pkg, id, .kpInit⟩ ((plugin id).kpInit kp) io = r at hcall hmem ⊢
    obtain ⟨ret, io₁⟩ := r
    cases ret with
    | fail => exact ⟨hcall, by rintro ⟨⟩⟩
    | stop why => exact ⟨hcall, by rintro ⟨⟩⟩
    | ok =>
      obtain ⟨hrest, htold⟩ := ih io₁
      refine ⟨hcall.trans hrest, fun hok id' hid' => ?_⟩
      rcases List.mem_cons.mp hid' with rfl | hid'
      · obtain ⟨new, hnew, -⟩ := hrest
        show _ ∈ (kpInitLoop plugin pkg kp ids io₁).2.log
        rw [hnew]
        exact List.mem_append_left _ hmem
      · exact htold hok id' hid'

theorem kpKiFree_notifies (i : Nat) {all ids : List BackendId} (hids : ids ⊆ all) (kp : Kp)
    (io : Io W) : Notifies (Later pkg all) io (kpKiFree plugin pkg i ids kp io).2.2 := by
  induction ids generalizing kp io with
  | nil => exact .refl io
  | cons id ids ih =>
    obtain ⟨hid, hids'⟩ := List.cons_subset.mp hids
    have hcall : Notifies (Later pkg all) io
        (callVoid ⟨pkg, id, .kpKiFree⟩ ((plugin id).kpKiFree kp i) io).2 :=
      .callVoid ⟨rfl, hid, by rintro ⟨⟩⟩ _ io
    rw [kpKiFree]
    generalize callVoid ⟨pkg, id, .kpKiFree⟩ ((plugin id).kpKiFree kp i) io = r at hcall ⊢
    obtain ⟨why?, io₁⟩ := r
    cases why? with
    | some why => exact hcall
    | none => exact hcall.trans (ih hids' _ io₁)

theorem freeKeys_notifies (ids : List BackendId) (is : List Nat) (kp : Kp) (io : Io W) :
    Notifies (Later pkg ids) io (freeKeys plugin pkg ids is kp io).2.2 := by
  induction is generalizing kp io with
  | nil => exact .refl io
  | cons i is ih =>
    have hkey := kpKiFree_notifies plugin pkg i (List.Subset.refl ids) kp io
    rw [freeKeys]
    generalize kpKiFree plugin pkg i ids kp io = r at hkey ⊢
    obtain ⟨why?, kp₁, io₁⟩ := r
    cases why? with
    | some why => exact hkey
    | none => exact hkey.trans (ih kp₁ io₁)

theorem kpFreeLoop_notifies {all ids : List BackendId} (hids : ids ⊆ all) (kp : Kp) (io : Io W) :
    Notifies (Later pkg all) io (kpFreeLoop plugin pkg kp ids io).2 := by
  induction ids generalizing io with
  | nil => exact .refl io
  | cons id ids ih =>
    obtain ⟨hid, hids'⟩ := List.cons_subset.mp hids
    have hcall : Notifies (Later pkg all) io
        (callVoid ⟨pkg, id, .kpFree⟩ ((plugin id).kpFree kp) io).2 :=
      .callVoid ⟨rfl, hid, by rintro ⟨⟩⟩ _ io
    rw [kpFreeLoop]
    generalize callVoid ⟨pkg, id, .kpFree⟩ ((plugin id).kpFree kp) io = r at hcall ⊢
    obtain ⟨why?, io₁⟩ := r
    cases why? with
    | some why => exact hcall
    | none => exact hcall.trans (ih hids' io₁)

end Loops

/-! ## Invariant -/

/-- A later callback needs `kp_init` of the same backend for the same package. -/
def needsInit (n n' : Notice) : Prop :=
  n.callback ≠ .kpInit ∧ n' = ⟨n.pkg, n.backend, .kpInit⟩

/-- Backends only get callbacks for packages they were told of. -/
def Introduced (log : List Notice) : Prop := Preceded needsInit log

/-- Packages are only flushed to the backends enabled when they were created. -/
def FlushedAtInit (s : State W) : Prop :=
  ∀ n ∈ s.io.log, ∀ time, n.callback = .kpFlush time → s.atInit n.pkg n.backend = true

/-- No backend was enabled since the package was created. -/
def State.Settled (s : State W) (pkg : Nat) : Prop :=
  ∀ id, s.enabled id = true → s.atInit pkg id = true

/-- The package whose backends a call goes through. -/
def Op.notifies : Op → Option Nat
  | .addKey pkg al _ => if al.realloc && !al.strdup then some pkg else none
  | .resolve pkg => some pkg
  | .flush pkg _ => some pkg
  | .kpFree pkg => some pkg
  | _ => none

/-- A call that goes through the backends of a package finds none of them enabled since
the package was created. -/
def StepOk (s : State W) (op : Op) : Prop :=
  s.halted = none → ∀ pkg, op.notifies = some pkg → (s.kps pkg).isSome = true → s.Settled pkg

/-- The invariant behind it. -/
structure Inv (s : State W) : Prop where
  introduced : Introduced s.io.log
  flushed : FlushedAtInit s
  /-- the backends a package was created with were told -/
  told : ∀ pkg, (s.kps pkg).isSome = true → ∀ id, s.atInit pkg id = true →
    ⟨pkg, id, .kpInit⟩ ∈ s.io.log
  log : ∀ n ∈ s.io.log, n.pkg < s.next
  kps : ∀ pkg, (s.kps pkg).isSome = true → pkg < s.next

theorem State.mem_enabledIds {s : State W} {id : BackendId} :
    id ∈ s.enabledIds ↔ s.enabled id = true := by
  simp [enabledIds, BackendId.mem_all]

/-- Adding callbacks for live packages to backends that were told of them. -/
theorem Inv.extend {s s' : State W} (h : Inv s) {new : List Notice}
    (hlog : s'.io.log = s.io.log ++ new)
    (hnew : ∀ n ∈ new, (s.kps n.pkg).isSome = true ∧ s.atInit n.pkg n.backend = true ∧
      n.callback ≠ .kpInit)
    (hatInit : s'.atInit = s.atInit) (hnext : s'.next = s.next)
    (hkps : ∀ pkg, (s'.kps pkg).isSome = true → (s.kps pkg).isSome = true) : Inv s' where
  introduced := by
    rw [hlog]
    refine h.introduced.append ?_
    rintro n hn _ ⟨-, rfl⟩
    exact h.told n.pkg (hnew n hn).1 n.backend (hnew n hn).2.1
  flushed := by
    rw [FlushedAtInit, hlog, hatInit]
    intro n hn time hflush
    rcases List.mem_append.mp hn with hn | hn
    · exact h.flushed n hn time hflush
    · exact (hnew n hn).2.1
  told := by
    rw [hlog, hatInit]
    intro pkg hpkg id hid
    exact List.mem_append_left _ (h.told pkg (hkps pkg hpkg) id hid)
  log := by
    rw [hlog, hnext]
    intro n hn
    rcases List.mem_append.mp hn with hn | hn
    · exact h.log n hn
    · exact h.kps n.pkg (hnew n hn).1
  kps := by
    rw [hnext]
    exact fun pkg hpkg => h.kps pkg (hkps pkg hpkg)

/-- A call that goes through the backends of a settled package. -/
theorem Inv.notify {s s' : State W} (h : Inv s) {pkg : Nat} (hlive : (s.kps pkg).isSome = true)
    (hsettled : s.Settled pkg) (hio : Notifies (Later pkg s.enabledIds) s.io s'.io)
    (hatInit : s'.atInit = s.atInit) (hnext : s'.next = s.next)
    (hkps : ∀ pkg, (s'.kps pkg).isSome = true → (s.kps pkg).isSome = true) : Inv s' := by
  obtain ⟨new, hlog, hnew⟩ := hio
  refine h.extend hlog (fun n hn => ?_) hatInit hnext hkps
  obtain ⟨rfl, hbackend, hlater⟩ := hnew n hn
  exact ⟨hlive, hsettled _ (State.mem_enabledIds.mp hbackend), hlater⟩

/-- A call that reaches no backend. -/
theorem Inv.quiet {s s' : State W} (h : Inv s) (hlog : s'.io.log = s.io.log)
    (hatInit : s'.atInit = s.atInit) (hnext : s'.next = s.next)
    (hkps : ∀ pkg, (s'.kps pkg).isSome = true → (s.kps pkg).isSome = true) : Inv s' :=
  h.extend (hlog.trans (List.append_nil _).symm) (by rintro n ⟨⟩) hatInit hnext hkps

/-- Putting a live package back brings no package to life. -/
theorem State.isSome_put {s : State W} {pkg : Nat} (hlive : (s.kps pkg).isSome = true) (kp : Kp)
    (pkg' : Nat) (h : ((s.put pkg kp).kps pkg').isSome = true) : (s.kps pkg').isSome = true := by
  by_cases hpkg : pkg' = pkg
  · rw [hpkg]
    exact hlive
  · have hkps : (Function.update s.kps pkg (some kp) pkg').isSome = true := h
    rwa [Function.update_of_ne hpkg] at hkps

theorem Inv.put {s : State W} (h : Inv s) {pkg : Nat} (hlive : (s.kps pkg).isSome = true)
    (kp : Kp) : Inv (s.put pkg kp) :=
  h.quiet rfl rfl rfl (State.isSome_put hlive kp)

/-! ## Key package calls -/

/-- The log of an environment grows by calls of some backends. -/
def CallsTo (ids : List BackendId) (e e' : Env W) : Prop :=
  ∃ new, e'.calls = e.calls ++ new ∧ ∀ c ∈ new, c.backend ∈ ids

namespace CallsTo

variable {ids : List BackendId}

theorem refl (e : Env W) : CallsTo ids e e := ⟨[], (List.append_nil _).symm, by simp⟩

theorem trans {e e' e'' : Env W} (h : CallsTo ids e e') (h' : CallsTo ids e' e'') :
    CallsTo ids e e'' := by
  obtain ⟨new, hnew, hids⟩ := h
  obtain ⟨new', hnew', hids'⟩ := h'
  refine ⟨new ++ new', by rw [hnew', hnew, List.append_assoc], ?_⟩
  intro c hc
  exact (List.mem_append.mp hc).elim (hids c) (hids' c)

variable {id : BackendId} (hid : id ∈ ids) (ts : Timeseries W)

include hid

theorem kpKiUpdate (kp : Kp) (e : Env W) : CallsTo ids e (ts.callKpKiUpdate id kp e).2.2 :=
  ⟨[_], rfl, fun _ hc => List.mem_singleton.mp hc ▸ hid⟩

theorem kpFlush (kp : Kp) (time : UInt32) (e : Env W) :
    CallsTo ids e (ts.callKpFlush id kp time e).2.2 :=
  ⟨[_], rfl, fun _ hc => List.mem_singleton.mp hc ▸ hid⟩

end CallsTo

theorem resolve_callsTo (ts : Timeseries W) (kp : Kp) (e : Env W) :
    CallsTo ts.enabledIds e (kp.resolve ts e).2.2 :=
  Kp.resolveLoop_rel ts (R := fun _ e _ e' => CallsTo ts.enabledIds e e') (fun _ => .refl)
    .trans (fun _ hid kp e => .kpKiUpdate hid ts kp e) _ e

theorem flush_callsTo (ts : Timeseries W) (kp : Kp) (time : UInt32) (e : Env W) :
    CallsTo ts.enabledIds e (kp.flush ts time e).2.2 := by
  have hloop := Kp.flushLoop_rel ts (R := fun _ e _ e' => CallsTo ts.enabledIds e e')
    (fun _ => .refl) .trans time kp.dirty (fun _ hid kp e => .kpKiUpdate hid ts kp e)
    (fun _ hid kp e => .kpFlush hid ts kp time e) (fun _ => .refl) { kp with dirty := false } e
  rw [Kp.flush]
  generalize Kp.flushLoop ts time kp.dirty ts.enabledIds { kp with dirty := false } e = r at hloop ⊢
  obtain ⟨ret, kp₁, e₁⟩ := r
  cases ret <;> exact hloop

/-- The callbacks of a key package call are later ones. -/
theorem CallsTo.notifies {ids : List BackendId} {io : Io W} {e : Env W}
    (h : CallsTo ids ⟨io.world, []⟩ e) (pkg : Nat) :
    Notifies (Later pkg ids) io (io.extend pkg e) := by
  obtain ⟨new, hcalls, hids⟩ := h
  have hcalls' : e.calls = new := hcalls
  refine ⟨e.calls.map (noticeOf pkg), rfl, ?_⟩
  rw [hcalls']
  intro n hn
  obtain ⟨c, hc, rfl⟩ := List.mem_map.mp hn
  refine ⟨rfl, hids c hc, ?_⟩
  cases hcallback : c.callback <;> simp [noticeOf, hcallback]

/-! ## Steps -/

section Steps

variable (plugin : BackendId → Plugin W) {s : State W} (h : Inv s)

include h

theorem Inv.enableBackend (id : BackendId) : Inv (enableBackend plugin id s) := by
  rw [Lifecycle.enableBackend]
  split
  · exact h
  · exact h.quiet rfl rfl rfl fun _ h => h

theorem Inv.kpInit (flags : Nat) : Inv (kpInit plugin flags s) := by
  obtain ⟨⟨new, hlog, hnew⟩, htold⟩ :=
    kpInitLoop_notifies plugin s.next (Kp.init flags) s.enabledIds s.io
  have hlog' : (Lifecycle.kpInit plugin flags s).io.log = s.io.log ++ new := hlog
  have hatInit : (Lifecycle.kpInit plugin flags s).atInit
      = Function.update s.atInit s.next s.enabled := rfl
  -- a package that is live now was live before, or has just been created
  have hkps : ∀ pkg, ((Lifecycle.kpInit plugin flags s).kps pkg).isSome = true →
      (s.kps pkg).isSome = true ∧ pkg ≠ s.next ∨ pkg = s.next ∧
        (kpInitLoop plugin s.next (Kp.init flags) s.enabledIds s.io).1 = .ok := by
    intro pkg hpkg
    rw [Lifecycle.kpInit] at hpkg
    dsimp only at hpkg
    split at hpkg
    · next hok =>
      by_cases heq : pkg = s.next
      · exact .inr ⟨heq, hok⟩
      · rw [Function.update_of_ne heq] at hpkg
        exact .inl ⟨hpkg, heq⟩
    · exact .inl ⟨hpkg, Nat.ne_of_lt (h.kps pkg hpkg)⟩
  constructor
  · rw [hlog']
    refine h.introduced.append ?_
    rintro n hn _ ⟨hlater, -⟩
    exact absurd (hnew n hn).2 hlater
  · rw [FlushedAtInit, hlog', hatInit]
    intro n hn time hflush
    rcases List.mem_append.mp hn with hn | hn
    · rw [Function.update_of_ne (Nat.ne_of_lt (h.log n hn))]
      exact h.flushed n hn time hflush
    · rw [(hnew n hn).2] at hflush
      cases hflush
  · rw [hlog', hatInit]
    intro pkg hpkg id hid
    rcases hkps pkg hpkg with ⟨hlive, hne⟩ | ⟨rfl, hok⟩
    · rw [Function.update_of_ne hne] at hid
      exact List.mem_append_left _ (h.told pkg hlive id hid)
    · rw [Function.update_self] at hid
      rw [← hlog]
      exact htold hok id (State.mem_enabledIds.mpr hid)
  · rw [hlog']
    show ∀ n ∈ s.io.log ++ new, n.pkg < s.next + 1
    intro n hn
    rcases List.mem_append.mp hn with hn | hn
    · exact Nat.lt_succ_of_lt (h.log n hn)
    · rw [(hnew n hn).1]
      exact Nat.lt_succ_self _
  · show ∀ pkg, _ → pkg < s.next + 1
    intro pkg hpkg
    rcases hkps pkg hpkg with ⟨hlive, -⟩ | ⟨rfl, -⟩
    · exact Nat.lt_succ_of_lt (h.kps pkg hlive)
    · exact Nat.lt_succ_self _

variable {pkg : Nat} (hlive : (s.kps pkg).isSome = true)

include hlive

theorem Inv.addKey (al : AllocResult) (key : CString) (kp : Kp)
    (hsettled : (al.realloc && !al.strdup) = true → s.Settled pkg) :
    Inv (addKey plugin pkg al key kp s) := by
  rw [Lifecycle.addKey]
  split
  · next hfails =>
    exact h.notify hlive (hsettled hfails)
      (kpKiFree_notifies plugin pkg kp.keyInfosCnt (List.Subset.refl _) kp s.io) rfl rfl
      (State.isSome_put hlive _)
  · exact h.put hlive _

variable (hsettled : s.Settled pkg)

include hsettled

theorem Inv.resolve (kp : Kp) : Inv (resolve plugin pkg kp s) :=
  h.notify hlive hsettled
    ((resolve_callsTo (s.timeseries plugin) kp ⟨s.io.world, []⟩).notifies pkg) rfl rfl
    (State.isSome_put hlive _)

theorem Inv.flush (time : UInt32) (kp : Kp) : Inv (flush plugin pkg time kp s) :=
  h.notify hlive hsettled
    ((flush_callsTo (s.timeseries plugin) kp time ⟨s.io.world, []⟩).notifies pkg) rfl rfl
    (State.isSome_put hlive _)

theorem Inv.kpFree (kp : Kp) : Inv (kpFree plugin pkg kp s) := by
  have hkeys := freeKeys_notifies plugin pkg s.enabledIds (List.range kp.keyInfosCnt) kp s.io
  rw [Lifecycle.kpFree]
  generalize freeKeys plugin pkg s.enabledIds (List.range kp.keyInfosCnt) kp s.io = r at hkeys ⊢
  obtain ⟨why?, kp₁, io₁⟩ := r
  cases why? with
  | some why => exact h.notify hlive hsettled hkeys rfl rfl fun _ h => h
  | none =>
    refine h.notify hlive hsettled (hkeys.trans (kpFreeLoop_notifies plugin pkg
      (List.Subset.refl _) { kp₁ with keyInfos := [], keyInfosCnt := 0 } io₁)) rfl rfl ?_
    intro pkg' hpkg'
    by_cases heq : pkg' = pkg
    · rw [heq]
      exact hlive
    · have hpkg : (Function.update s.kps pkg none pkg').isSome = true := hpkg'
      rwa [Function.update_of_ne heq] at hpkg

end Steps

theorem Inv.on {s : State W} (h : Inv s) {pkg : Nat} {f : Kp → State W → State W}
    (hf : (s.kps pkg).isSome = true → ∀ kp, Inv (f kp s)) : Inv (s.on pkg f) := by
  rw [State.on]
  cases hkp : s.kps pkg with
  | none => exact h
  | some kp => exact hf (by rw [hkp]; rfl) kp

/-- One call keeps the invariant. -/
theorem Inv.step (plugin : BackendId → Plugin W) {s : State W} (h : Inv s) {op : Op}
    (hok : StepOk s op) : Inv (step plugin s op) := by
  unfold Lifecycle.step
  split
  · exact h
  next hrunning =>
  have hok' : ∀ pkg, op.notifies = some pkg → (s.kps pkg).isSome = true → s.Settled pkg :=
    hok (by simpa using hrunning)
  cases op with
  | enableBackend id => exact h.enableBackend plugin id
  | kpInit flags => exact h.kpInit plugin flags
  | addKey pkg al key =>
    refine h.on fun hlive kp => h.addKey plugin hlive al key kp fun hfails => hok' pkg ?_ hlive
    exact if_pos hfails
  | set pkg id value => exact h.on fun hlive kp => (h.put hlive _).quiet rfl rfl rfl fun _ h => h
  | enableKey pkg id => exact h.on fun hlive kp => h.put hlive _
  | disableKey pkg id => exact h.on fun hlive kp => h.put hlive _
  | resolve pkg => exact h.on fun hlive kp => h.resolve plugin hlive (hok' pkg rfl hlive) kp
  | flush pkg time => exact h.on fun hlive kp => h.flush plugin hlive (hok' pkg rfl hlive) time kp
  | kpFree pkg => exact h.on fun hlive kp => h.kpFree plugin hlive (hok' pkg rfl hlive) kp

theorem inv_init (w : W) : Inv (State.init w) where
  introduced := preceded_nil _
  flushed := by rintro n ⟨⟩
  told := by rintro pkg ⟨⟩
  log := by rintro n ⟨⟩
  kps := by rintro pkg ⟨⟩

/-- **A package talks to the backends it was created with**: in every run in which the
calls that go through the backends of a package find none enabled since its
creation, a backend gets `kp_init` before any other callback for the package, and
flushes only reach the backends that were enabled when it was created. -/
theorem introduced_run (plugin : BackendId → Plugin W) (w : W) {ops : List Op}
    (hok : Along (step plugin) StepOk (State.init w) ops) :
    let s := run (step plugin) (State.init w) ops
    Introduced s.io.log ∧ FlushedAtInit s := by
  have hstep : ∀ s op, Inv s → StepOk s op → Inv (step plugin s op) :=
    fun _ _ h hok => h.step plugin hok
  have hinv := run_invariant hstep (inv_init w) hok
  exact ⟨hinv.introduced, hinv.flushed⟩

/-- The ASCII backend keeps no state about packages and their keys. -/
def asciiPlugin : Plugin Ascii.State where
  toBackend := Ascii.backend
  init := fun w => (.ok, w)
  kpInit := fun _ w => (.ok, w)
  kpKiFree := fun kp i w =>
    (if (kp.keyInfos[i]?.bind fun ki => ki.backendState .ascii).isSome then some .assertFailed
      else none, w)
  kpFree := fun _ w => (none, w)

/-- The backend is enabled before the package is created. -/
def earlyRun : List Op :=
  [.enableBackend .ascii, .kpInit 0, .addKey 0 .success (CString.ofAscii "a"), .flush 0 60,
    .kpFree 0]

theorem introduced_earlyRun :
    let s := run (step fun _ => asciiPlugin) (State.init ⟨[]⟩) earlyRun
    Introduced s.io.log ∧ FlushedAtInit s := by
  refine introduced_run (fun _ => asciiPlugin) ⟨[]⟩ ⟨?_, ?_, ?_, ?_, ?_, trivial⟩
  · rintro - pkg ⟨⟩
  · rintro - pkg ⟨⟩
  · rintro - pkg ⟨⟩
  · rintro - pkg ⟨⟩ - id
    cases id <;> decide +kernel
  · rintro - pkg ⟨⟩ - id
    cases id <;> decide +kernel

/-- The backend is enabled between the creation of the package and its flush. -/
def lateRun : List Op := [.kpInit 0, .enableBackend .ascii, .flush 0 60]

/-- The backend is flushed although it never heard of the package. -/
theorem late_backend_flushed :
    let s := run (step fun _ => asciiPlugin) (State.init ⟨[]⟩) lateRun
    ¬ Introduced s.io.log ∧ ¬ FlushedAtInit s := by
  have hlog : (run (step fun _ => asciiPlugin) (State.init ⟨[]⟩) lateRun).io.log
      = [⟨0, .ascii, .kpFlush 60⟩] := by decide +kernel
  dsimp only
  constructor
  · rw [hlog]
    intro h
    cases h 0 ⟨0, .ascii, .kpFlush 60⟩ rfl ⟨0, .ascii, .kpInit⟩ ⟨by decide, rfl⟩
  · rw [FlushedAtInit, hlog]
    intro h
    have hatInit := h ⟨0, .ascii, .kpFlush 60⟩ (List.mem_singleton_self _) 60 rfl
    revert hatInit
    decide +kernel

end Lifecycle

end Libtimeseries
