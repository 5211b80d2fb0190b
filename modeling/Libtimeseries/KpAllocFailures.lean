import Libtimeseries.Base.Runs
import Libtimeseries.KpAlloc
import Libtimeseries.LifecycleRuns

/-!
# Adding keys when memory runs out

What a failed `timeseries_kp_add_key` leaves behind, and who can tell:

- `Atomic`: the call that returned -1 cannot be noticed afterwards, by no sequence of
  calls;
- `Package.Alike`: packages that differ behind the counted slots only, a bisimulation;
- `KeepsArray`: `realloc` does not fail while the package has keys.

A failed `realloc` returns NULL and the array with all keys is lost, since the result is
assigned to `key_infos` at once; `addKey_atomic_iff` says that nothing else goes wrong.
-/

namespace Libtimeseries

open ByteLib RunLib BlockLib

variable {W : Type}

namespace KpAlloc

section Runs

variable (plugin : BackendId → Lifecycle.Plugin W)

/-! ## The statement -/

/-- Counters, and for every counted key its name, value, enabled flag and lookup, are
the same. -/
structure Package.Unchanged (p p' : Package) : Prop where
  size : p'.size = p.size
  enabledSize : p'.enabledSize = p.enabledSize
  name : ∀ id < p.size, p'.getKeyName id = p.getKeyName id
  value : ∀ id < p.size, p'.get id = p.get id
  enabled : ∀ id < p.size, p'.kiEnabled id = p.kiEnabled id
  lookup : ∀ key, p'.getKey key = p.getKey key

/-- A `timeseries_kp_add_key` that returns -1 leaves everything as it was, and whatever
is called afterwards goes as if it had not been called. -/
def Atomic (s : State W) : Op → Prop
  | .addKey al key => reply plugin s (.addKey al key) = some (.int (-1)) →
      s.package.Unchanged (step plugin s (.addKey al key)).package ∧
        ∀ ops, outputs (step plugin) (reply plugin) (step plugin s (.addKey al key)) ops
            = outputs (step plugin) (reply plugin) s ops ∧
          (run (step plugin) (step plugin s (.addKey al key)) ops).env
            = (run (step plugin) s ops).env
  | _ => True

/-- `realloc` does not fail while the package has keys. -/
def KeepsArray (s : State W) : Op → Prop
  | .addKey al _ => s.running = true → 0 < s.package.keyInfosCnt → al.realloc = true
  | _ => True

/-! ## What cannot be noticed -/

namespace Package

/-- Two packages that differ in the slots behind the counted ones, and in an array
without counted slots being NULL. -/
def Alike (p p' : Package) : Prop :=
  ∃ b, Block.SameBelow p.keyInfosCnt p.keyInfos b ∧ p' = { p with keyInfos := b }

/-- Two outcomes with the same reply. -/
def SameOutcome (r r' : Reply × Package) : Prop := r'.1 = r.1 ∧ r.2.Alike r'.2

theorem lt_of_element {p : Package} {id : Nat} {ki : Ki} (hki : p.element id = some ki) :
    id < p.keyInfosCnt := by
  unfold Package.element at hki
  split at hki
  · assumption
  · cases hki

variable {p p' : Package} (h : p.Alike p')

include h

theorem Alike.element (id : Nat) : p'.element id = p.element id := by
  obtain ⟨b, hb, rfl⟩ := h
  unfold Package.element
  split
  · next hid => exact hb.get id hid
  · rfl

theorem Alike.read (id : Nat) (f : Ki → Reply) : p'.read id f = p.read id f := by
  rw [Package.read, Package.read, h.element]

theorem Alike.write {id : Nat} (hid : id < p.keyInfosCnt) (ki : Ki) (cnt : Nat) :
    ({ p.write id ki with keyInfosEnabledCnt := cnt } : Package).Alike
      { p'.write id ki with keyInfosEnabledCnt := cnt } := by
  obtain ⟨b, hb, rfl⟩ := h
  exact ⟨_, hb.put hid _, rfl⟩

theorem Alike.getKeyName (id : Nat) : p'.getKeyName id = p.getKeyName id := by
  rw [Package.getKeyName, Package.getKeyName, h.read]
  obtain ⟨b, -, rfl⟩ := h
  rfl

theorem Alike.getKey (key : CString) : p'.getKey key = p.getKey key := by
  obtain ⟨b, -, rfl⟩ := h
  rfl

theorem Alike.cnt : p'.keyInfosCnt = p.keyInfosCnt := by
  obtain ⟨b, -, rfl⟩ := h
  rfl

theorem Alike.enabledCnt : p'.keyInfosEnabledCnt = p.keyInfosEnabledCnt := by
  obtain ⟨b, -, rfl⟩ := h
  rfl

theorem Alike.unchanged : p.Unchanged p' where
  size := h.cnt
  enabledSize := h.enabledCnt
  name id _ := h.getKeyName id
  value id _ := h.read id _
  enabled id _ := h.read id _
  lookup := h.getKey

theorem Alike.set (id : Nat) (value : UInt64) : SameOutcome (p.set id value) (p'.set id value) := by
  unfold Package.set
  rw [h.element, h.cnt]
  split
  · cases hki : p.element id with
    | none => exact ⟨rfl, h⟩
    | some ki =>
      have hwrite := h.write (lt_of_element hki) (ki.set value) p.keyInfosEnabledCnt
      refine ⟨rfl, ?_⟩
      nth_rewrite 2 [← h.enabledCnt] at hwrite
      exact hwrite
  · exact ⟨rfl, h⟩

theorem Alike.setDisabled (disabled : Bool) (id : Nat) :
    SameOutcome (p.setDisabled disabled id) (p'.setDisabled disabled id) := by
  unfold Package.setDisabled
  rw [h.element, h.enabledCnt]
  cases hki : p.element id with
  | none => exact ⟨rfl, h⟩
  | some ki =>
    dsimp only
    split
    · exact ⟨rfl, h⟩
    · exact ⟨rfl, h.write (lt_of_element hki) _ _⟩

theorem Alike.addKey (enabled : BackendId → Bool) (al : Alloc) (key : CString) :
    SameOutcome (p.addKey enabled al key) (p'.addKey enabled al key) := by
  obtain ⟨b, hb, rfl⟩ := h
  unfold Package.addKey
  -- the three allocations in turn, and what is in the new slot after them
  cases al.realloc with
  | false => exact ⟨rfl, .null, .refl _ _, rfl⟩
  | true =>
    cases al.strdup with
    | false =>
      have hspare := (hb.grow none).mono (Nat.le_succ _)
      simp only [Bool.not_true, Bool.not_false, Bool.false_eq_true, if_false, if_true]
      split
      · exact ⟨rfl, _, hspare, rfl⟩
      · exact ⟨rfl, _, hspare, rfl⟩
    | true =>
      have hgrow := hb.grow (some (Ki.init key))
      cases al.khPut with
      | false => exact ⟨rfl, _, hgrow.mono (Nat.le_succ _), rfl⟩
      | true => exact ⟨rfl, _, hgrow, rfl⟩

theorem Alike.whole : p'.whole = p.whole := by
  obtain ⟨b, hb, rfl⟩ := h
  rw [Package.whole, Package.whole, hb.toList]
  rfl

theorem Alike.freeKi (enabled : BackendId → Bool) {id : Nat} (hid : id < p.keyInfosCnt) :
    p'.freeKi enabled id = p.freeKi enabled id := by
  have hnull : p'.keyInfos.isNull = p.keyInfos.isNull := by
    obtain ⟨b, hb, rfl⟩ := h
    exact hb.null (Nat.zero_lt_of_lt hid)
  rw [Package.freeKi, Package.freeKi, h.element, hnull]

theorem Alike.free (enabled : BackendId → Bool) : p'.free enabled = p.free enabled := by
  have hloop : ∀ ids : List Nat, (∀ id ∈ ids, id < p.keyInfosCnt) →
      ids.findSome? (p'.freeKi enabled) = ids.findSome? (p.freeKi enabled) := by
    intro ids hids
    induction ids with
    | nil => rfl
    | cons id ids ih =>
      rw [List.findSome?_cons, List.findSome?_cons, h.freeKi enabled (hids id List.mem_cons_self),
        ih fun id' hid' => hids id' (List.mem_cons_of_mem _ hid')]
  rw [Package.free, Package.free, h.cnt, hloop _ fun id hid => List.mem_range.mp hid]

/-- The loops over all keys see the same keys, and write them back. -/
theorem Alike.loopCall (e : Env W) {f : Kp → Ret × Kp × Env W}
    (hcount : ∀ kp, KeepsCount kp (f kp).2.1) :
    (p'.loopCall e f).1 = (p.loopCall e f).1 ∧
      (p.loopCall e f).2.1.Alike (p'.loopCall e f).2.1 ∧
      (p'.loopCall e f).2.2 = (p.loopCall e f).2.2 := by
  rw [Package.loopCall, Package.loopCall, h.whole]
  cases hkp : p.whole with
  | none => exact ⟨rfl, h, rfl⟩
  | some kp =>
    obtain ⟨kis, hlist, rfl⟩ := Option.map_eq_some_iff.mp hkp
    obtain ⟨b, hb, rfl⟩ := h
    have hkis : kis.length = p.keyInfosCnt := Block.toList_length hlist
    refine ⟨rfl, ⟨_, ?_, rfl⟩, rfl⟩
    show Block.SameBelow (f (p.withInfos kis)).2.1.keyInfosCnt _ _
    rw [(hcount _).cnt]
    exact hb.store ((hcount _).length.trans hkis)

end Package

/-- Two states that differ in what cannot be noticed of the package. -/
def State.Alike (s t : State W) : Prop :=
  ∃ p, s.package.Alike p ∧ t = { s with package := p }

theorem State.put_alike {s : State W} {p : Package} {r r' : Reply × Package}
    (h : Package.SameOutcome r r') :
    (({ s with package := p } : State W).put r').1 = (s.put r).1 ∧
      (s.put r).2.Alike (({ s with package := p } : State W).put r').2 :=
  ⟨h.1, _, h.2, rfl⟩

/-- Every call returns the same, and leaves states with no more difference. -/
theorem State.Alike.call {s t : State W} (h : s.Alike t) (op : Op) :
    (t.call plugin op).1 = (s.call plugin op).1 ∧
      (s.call plugin op).2.Alike (t.call plugin op).2 := by
  obtain ⟨p, hp, rfl⟩ := h
  have hsame : s.Alike { s with package := p } := ⟨p, hp, rfl⟩
  cases op with
  | size => exact ⟨congrArg (fun n : Nat => Reply.int n) hp.cnt, hsame⟩
  | enabledSize => exact ⟨congrArg (fun n : Nat => Reply.int n) hp.enabledCnt, hsame⟩
  | addKey al key => exact State.put_alike (hp.addKey s.enabled al key)
  | getKey key => exact ⟨hp.getKey key, hsame⟩
  | getKeyName id => exact ⟨hp.getKeyName id, hsame⟩
  | get id => exact ⟨hp.read id _, hsame⟩
  | kiEnabled id => exact ⟨hp.read id _, hsame⟩
  | set id value => exact State.put_alike (hp.set id value)
  | disableKey id => exact State.put_alike (hp.setDisabled true id)
  | enableKey id => exact State.put_alike (hp.setDisabled false id)
  | resolve =>
    obtain ⟨hreply, hpackage, henv⟩ := hp.loopCall s.env
      (keepsCount_resolve (s.timeseries plugin) · s.env)
    exact ⟨hreply, _, hpackage, congrArg (State.mk _ _ · _) henv⟩
  | flush time =>
    obtain ⟨hreply, hpackage, henv⟩ := hp.loopCall s.env
      (keepsCount_flush (s.timeseries plugin) · time s.env)
    exact ⟨hreply, _, hpackage, congrArg (State.mk _ _ · _) henv⟩
  | free => exact ⟨hp.free s.enabled, hsame⟩
  | enableBackend id =>
    show (State.enableBackend plugin _ id).1 = (s.enableBackend plugin id).1 ∧ _
    simp only [State.call, State.enableBackend]
    split
    · exact ⟨rfl, hsame⟩
    · exact ⟨rfl, p, hp, rfl⟩

theorem State.Alike.reply {s t : State W} (h : s.Alike t) (op : Op) :
    reply plugin s op = reply plugin t op := by
  obtain ⟨hreply, -⟩ := h.call plugin op
  obtain ⟨p, -, rfl⟩ := h
  rw [KpAlloc.reply, KpAlloc.reply, hreply]

theorem State.Alike.step {s t : State W} (h : s.Alike t) (op : Op) :
    (step plugin s op).Alike (step plugin t op) := by
  obtain ⟨hreply, p', hp', hcall⟩ := h.call plugin op
  have hrunning : t.running = s.running := by
    obtain ⟨p, -, rfl⟩ := h
    rfl
  unfold KpAlloc.step
  rw [hrunning]
  split
  · refine ⟨p', hp', ?_⟩
    dsimp only
    rw [hreply, hcall]
  · exact h

/-! ## The result -/

/-- A package that the run still uses has its array. -/
def State.Sound (s : State W) : Prop := s.running = true → ∃ kis, s.package.Holds kis

theorem sound_call {s : State W} {op : Op} {kis : List Ki} (h : s.package.Holds kis)
    (hrunning : s.running = true) (hkeeps : KeepsArray s op) :
    ∃ kis', (s.call plugin op).2.package.Holds kis' := by
  cases op with
  | addKey al key => exact h.addKey s.enabled key (hkeeps hrunning)
  | set id value => exact h.set id value
  | disableKey id => exact h.setDisabled true id
  | enableKey id => exact h.setDisabled false id
  | resolve =>
    exact h.loopCall s.env (fun kp hwf => hwf.resolve _ _) (keepsCount_resolve _ · _)
  | flush time =>
    exact h.loopCall s.env (fun kp hwf => hwf.flush _ _ _) (keepsCount_flush _ · _ _)
  | enableBackend id =>
    refine ⟨kis, ?_⟩
    show (s.enableBackend plugin id).2.package.Holds kis
    unfold State.enableBackend
    split
    · exact h
    · exact h
  | size | enabledSize | getKey | getKeyName | get | kiEnabled | free => exact ⟨kis, h⟩

theorem sound_step (s : State W) (op : Op) (h : s.Sound) (hkeeps : KeepsArray s op) :
    (step plugin s op).Sound := by
  unfold KpAlloc.step
  split
  · next hrunning =>
    obtain ⟨kis, hkis⟩ := h hrunning
    exact fun _ => sound_call plugin hkis hrunning hkeeps
  · exact h

/-- A failed `timeseries_kp_add_key` that does not lose keys cannot be noticed. -/
theorem failed_alike {s : State W} (h : s.Sound) {al : Alloc} {key : CString}
    (hkeeps : KeepsArray s (.addKey al key))
    (hreply : reply plugin s (.addKey al key) = some (.int (-1))) :
    s.Alike (step plugin s (.addKey al key)) := by
  cases hrunning : s.running with
  | false => rw [reply, hrunning] at hreply; cases hreply
  | true =>
    obtain ⟨kis, hkis⟩ := h hrunning
    rw [reply, if_pos hrunning, Option.some.injEq] at hreply
    have hstep : step plugin s (.addKey al key)
        = { s with package := (s.package.addKey s.enabled al key).2 } := by
      rw [KpAlloc.step, if_pos hrunning]
      dsimp only
      rw [hreply, hrunning]
      rfl
    refine ⟨_, ?_, hstep⟩
    rcases Package.addKey_cases s.enabled al key s.package with
      ⟨hrealloc, heq⟩ | ⟨-, -, x, r, -, heq⟩ | ⟨-, -, hid⟩
    · -- the array is lost, without a key
      have hnone : s.package.keyInfosCnt = 0 :=
        Package.noKeys_of_lost (hkeeps hrunning) hrealloc
      rw [heq]
      exact ⟨.null, hnone ▸ Block.sameBelow_zero _ _, rfl⟩
    · rw [heq]
      exact ⟨_, hkis.size ▸ hkis.block.sameBelow x, rfl⟩
    · have : (s.package.addKey s.enabled al key).1 = .int (-1) := hreply
      rw [hid, Reply.int.injEq] at this
      omega

/-- The first key is gone when the array is. -/
theorem not_unchanged_of_lost {p : Package} {kis : List Ki} (h : p.Holds kis)
    (hpos : 0 < p.keyInfosCnt) : ¬ p.Unchanged { p with keyInfos := .null } := by
  intro hunchanged
  have hname := hunchanged.name 0 hpos
  have hlost : ({ p with keyInfos := .null } : Package).element 0 = none := by
    rw [Package.element, if_pos hpos, Block.get_null]
  rw [h.answers.1, Package.getKeyName, if_neg (Nat.not_le.mpr hpos), Package.read, hlost] at hname
  cases hname

theorem atomic_iff_keepsArray (s : State W) (op : Op) (h : s.Sound) :
    Atomic plugin s op ↔ KeepsArray s op := by
  cases op with
  | addKey al key =>
    constructor
    · intro hatomic hrunning hpos
      by_contra hrealloc
      obtain ⟨kis, hkis⟩ := h hrunning
      have hlost : s.package.addKey s.enabled al key
          = (.int (-1), { s.package with keyInfos := .null }) := by
        unfold Package.addKey
        rw [Bool.not_eq_true _ |>.mp hrealloc]
        rfl
      have hcall : s.call plugin (.addKey al key) = s.put (s.package.addKey s.enabled al key) := rfl
      have hreply : reply plugin s (.addKey al key) = some (.int (-1)) := by
        rw [reply, if_pos hrunning, hcall, hlost]
        rfl
      have hunchanged := (hatomic hreply).1
      rw [KpAlloc.step, if_pos hrunning, hcall, hlost] at hunchanged
      exact not_unchanged_of_lost hkis hpos hunchanged
    · intro hkeeps hreply
      have halike := failed_alike plugin h hkeeps hreply
      refine ⟨?_, fun ops => ?_⟩
      · obtain ⟨p, hp, hstep⟩ := halike
        rw [hstep]
        exact hp.unchanged
      · obtain ⟨houtputs, p, -, hrun⟩ := outputs_eq_of_rel State.Alike
          (fun s t op h => h.reply plugin op) (fun s t op h => h.step plugin op) halike ops
        exact ⟨houtputs.symm, by rw [hrun]⟩
  | _ => exact Iff.rfl

/-- **`timeseries_kp_add_key` is atomic on failure** in exactly the runs where `realloc`
does not fail while the package has keys. -/
theorem addKey_atomic_iff (flags : Nat) (enabled : BackendId → Bool) (w : W) (ops : List Op) :
    Along (step plugin) (Atomic plugin) (State.init flags enabled w) ops ↔
      Along (step plugin) KeepsArray (State.init flags enabled w) ops :=
  along_congr (atomic_iff_keepsArray plugin) (sound_step plugin)
    (fun _ => ⟨[], Package.holds_init flags⟩) ops

end Runs

/-- A key is added, and there is no memory for the next one. -/
def outOfMemory : List Op :=
  [.addKey ⟨.success, fun _ => false⟩ (CString.ofAscii "a"),
    .addKey ⟨⟨false, true, true⟩, fun _ => false⟩ (CString.ofAscii "b")]

/-- After the second call returned -1 the name of the first key cannot be read. -/
theorem outOfMemory_not_atomic :
    ¬ Along (step fun _ => Lifecycle.asciiPlugin) (Atomic fun _ => Lifecycle.asciiPlugin)
      (State.init 0 (fun id => id == .ascii) ⟨[]⟩) outOfMemory := by
  rintro ⟨-, hatomic, -⟩
  have hname := (hatomic (by decide +kernel)).1.name 0 (by decide +kernel)
  revert hname
  decide +kernel

end KpAlloc

end Libtimeseries
