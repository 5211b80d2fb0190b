import Libtimeseries.Base.Blocks
import Libtimeseries.Lifecycle

/-!
# The array of a key package

`Kp` lists the counted key infos. Here the array is what the pointer `key_infos` leads
to, as `timeseries_kp_add_key` changes it: `realloc`, then the new slot, then the hash,
then the counters. A call that fails stops anywhere in between and returns -1.

- `Package`: `struct timeseries_kp` over a `Block`, with the operations of
  `timeseries_kp.c`; an access to an element that is not there stops the process;
- `State.call`, `step`: a run of calls on a package, with what each one replies;
- `Package.Holds p kis`: the counted slots hold `kis`, and the package is the `Kp` of
  these key infos, whose invariant it has. Every operation keeps this, with one
  exception: a `realloc` that fails while there are keys.
-/

namespace Libtimeseries

open ByteLib BlockLib

variable {W : Type}

namespace KpAlloc

/-- Which allocations of a `timeseries_kp_add_key` succeed, and the backends whose
pointer in the new slot is not NULL before the slot is initialised. -/
structure Alloc extends AllocResult where
  stale : BackendId → Bool

/-- How `kp_ki_free` of a backend ends for a pointer that is left over: ASCII and Kafka
assert that theirs is NULL, DBATS frees what it finds. -/
def freeStale : BackendId → Stop
  | .ascii | .kafka => .assertFailed
  | .dbats => .badPointer

/-- What a call returns, or why it does not return. -/
inductive Reply where
  | int (n : Int)
  | name (name : Option Bytes)
  | value (value : UInt64)
  | enabled (enabled : Bool)
  | done
  | freed
  | stop (why : Stop)
deriving DecidableEq

/-- The result of a function that returns 0 or -1. -/
def Reply.ofRet : Ret → Reply
  | .ok => .int 0
  | .fail => .int (-1)
  | .stop why => .stop why

/-- Is this the last call on a package? -/
def Reply.isLast : Reply → Bool
  | .freed => true
  | .stop _ => true
  | _ => false

/-- `struct timeseries_kp`, with the array behind its pointer. The strings of the keys
have memory of their own, where the hash finds them without the array. -/
structure Package where
  keyInfos : Block Ki
  strings : List Bytes
  keyIdHash : List (Nat × Nat)
  keyInfosCnt : Nat
  keyInfosEnabledCnt : Nat
  reset : Bool
  disable : Bool
  dirty : Bool

namespace Package

/-- `timeseries_kp_init` -/
def init (flags : Nat) : Package where
  keyInfos := .null
  strings := []
  keyIdHash := []
  keyInfosCnt := 0
  keyInfosEnabledCnt := 0
  reset := flags.testBit 0
  disable := flags.testBit 1
  dirty := false

/-- `timeseries_kp_size` -/
def size (p : Package) : Nat := p.keyInfosCnt

/-- `timeseries_kp_enabled_size` -/
def enabledSize (p : Package) : Nat := p.keyInfosEnabledCnt

/-- `kp->key_infos[id]`, which is there if the id is in range, the array is not NULL
and the element was written. -/
def element (p : Package) (id : Nat) : Option Ki :=
  if id < p.keyInfosCnt then p.keyInfos.get id else none

/-- Look at an element. -/
def read (p : Package) (id : Nat) (f : Ki → Reply) : Reply :=
  match p.element id with
  | none => .stop .nullDeref
  | some ki => f ki

/-- Change an element. -/
def write (p : Package) (id : Nat) (ki : Ki) : Package :=
  { p with keyInfos := p.keyInfos.put id (some ki) }

/-- `timeseries_kp_add_key` -/
def addKey (enabled : BackendId → Bool) (al : Alloc) (key : CString) (p : Package) :
    Reply × Package :=
  let thisId := p.keyInfosCnt
  if !al.realloc then
    (.int (-1), { p with keyInfos := .null })
  else
    let keyInfos := p.keyInfos.realloc
    if !al.strdup then
      -- `kp_ki_init` hands the slot to `kp_ki_free` before it zeroes the backend states
      let p := { p with keyInfos := keyInfos.put thisId none }
      match BackendId.all.find? fun id => enabled id && al.stale id with
      | some id => (.stop (freeStale id), p)
      | none => (.int (-1), p)
    else
      let keyInfos := keyInfos.put thisId (some (Ki.init key))
      if !al.khPut then
        (.int (-1), { p with keyInfos := keyInfos })
      else
        let strings := p.strings ++ [key.bytes]
        (.int thisId,
          { p with
            keyInfos := keyInfos
            strings := strings
            keyIdHash := Libtimeseries.khPut strings p.keyIdHash thisId thisId
            keyInfosCnt := p.keyInfosCnt + 1
            keyInfosEnabledCnt := p.keyInfosEnabledCnt + 1
            dirty := true })

/-- `timeseries_kp_get_key` -/
def getKey (p : Package) (key : CString) : Reply :=
  match khGet p.strings p.keyIdHash key.bytes with
  | none => .int (-1)
  | some id => .int id

/-- `timeseries_kp_get_key_name` -/
def getKeyName (p : Package) (id : Nat) : Reply :=
  if p.keyInfosCnt ≤ id then .name none else p.read id fun ki => .name (some ki.name)

/-- `timeseries_kp_get` -/
def get (p : Package) (id : Nat) : Reply := p.read id fun ki => .value ki.value

/-- `timeseries_kp_ki_enabled` of `timeseries_kp_get_ki` -/
def kiEnabled (p : Package) (id : Nat) : Reply := p.read id fun ki => .enabled !ki.disabled

/-- `timeseries_kp_set` -/
def set (p : Package) (id : Nat) (value : UInt64) : Reply × Package :=
  if id < p.keyInfosCnt then
    match p.element id with
    | none => (.stop .nullDeref, p)
    | some ki => (.done, p.write id (ki.set value))
  else
    (.stop .assertFailed, p)

/-- Change the `disabled` flag of an element if it is another one, and count. -/
def setDisabled (disabled : Bool) (p : Package) (id : Nat) : Reply × Package :=
  match p.element id with
  | none => (.stop .nullDeref, p)
  | some ki =>
    if ki.disabled = disabled then
      (.done, p)
    else
      (.done, { p.write id (ki.setDisabled disabled) with
        keyInfosEnabledCnt :=
          if disabled then p.keyInfosEnabledCnt - 1 else p.keyInfosEnabledCnt + 1 })

/-- `timeseries_kp_disable_key` -/
def disableKey (p : Package) (id : Nat) : Reply × Package := p.setDisabled true id

/-- `timeseries_kp_enable_key` -/
def enableKey (p : Package) (id : Nat) : Reply × Package := p.setDisabled false id

/-- The package with these key infos. -/
def withInfos (p : Package) (kis : List Ki) : Kp where
  keyInfos := kis
  keyIdHash := p.keyIdHash
  keyInfosCnt := p.keyInfosCnt
  keyInfosEnabledCnt := p.keyInfosEnabledCnt
  reset := p.reset
  disable := p.disable
  dirty := p.dirty

/-- The package as a loop over all of its keys sees it, if every element is there. -/
def whole (p : Package) : Option Kp :=
  (p.keyInfos.toList p.keyInfosCnt).map p.withInfos

/-- The package after a loop over all of its keys. -/
def store (p : Package) (kp : Kp) : Package where
  keyInfos := p.keyInfos.store kp.keyInfos
  strings := kp.names
  keyIdHash := kp.keyIdHash
  keyInfosCnt := kp.keyInfosCnt
  keyInfosEnabledCnt := kp.keyInfosEnabledCnt
  reset := kp.reset
  disable := kp.disable
  dirty := kp.dirty

/-- A call that goes over all keys. With one missing it stops here, also where the
enabled backends would not look at it. -/
def loopCall (p : Package) (e : Env W) (f : Kp → Ret × Kp × Env W) : Reply × Package × Env W :=
  match p.whole with
  | none => (.stop .nullDeref, p, e)
  | some kp =>
    let r := f kp
    (.ofRet r.1, p.store r.2.1, r.2.2)

/-- `timeseries_kp_resolve` -/
def resolve (ts : Timeseries W) (p : Package) (e : Env W) : Reply × Package × Env W :=
  p.loopCall e fun kp => kp.resolve ts e

/-- `timeseries_kp_flush` -/
def flush (ts : Timeseries W) (time : UInt32) (p : Package) (e : Env W) :
    Reply × Package × Env W :=
  p.loopCall e fun kp => kp.flush ts time e

/-- `kp_ki_free`, which stops if a backend other than DBATS finds a state. The first
element of an array that is NULL is NULL itself, and skipped. -/
def freeKi (enabled : BackendId → Bool) (p : Package) (id : Nat) : Option Stop :=
  match p.element id with
  | none => if p.keyInfos.isNull && id = 0 then none else some .nullDeref
  | some ki =>
    if [BackendId.ascii, .kafka].any fun id => enabled id && (ki.backendState id).isSome then
      some .assertFailed
    else
      none

/-- `timeseries_kp_free`. The `kp_free` of the backends do nothing. -/
def free (enabled : BackendId → Bool) (p : Package) : Reply :=
  match (List.range p.keyInfosCnt).findSome? (p.freeKi enabled) with
  | none => .freed
  | some why => .stop why

end Package

/-! ## Runs -/

/-- A call of the application on its package; backends may be enabled in between. -/
inductive Op where
  | size
  | enabledSize
  | addKey (al : Alloc) (key : CString)
  | getKey (key : CString)
  | getKeyName (id : Nat)
  | get (id : Nat)
  | kiEnabled (id : Nat)
  | set (id : Nat) (value : UInt64)
  | disableKey (id : Nat)
  | enableKey (id : Nat)
  | resolve
  | flush (time : UInt32)
  | free
  | enableBackend (id : BackendId)

/-- A run in progress. -/
structure State (W : Type) where
  package : Package
  enabled : BackendId → Bool
  env : Env W
  running : Bool

/-- A fresh package of a timeseries object with some backends enabled. -/
def State.init (flags : Nat) (enabled : BackendId → Bool) (w : W) : State W :=
  ⟨Package.init flags, enabled, ⟨w, []⟩, true⟩

section Runs

variable (plugin : BackendId → Lifecycle.Plugin W)

/-- The backends as the package sees them now. -/
def State.timeseries (s : State W) : Timeseries W :=
  ⟨fun id => (plugin id).toBackend, s.enabled⟩

/-- Put back what a call returns. -/
def State.put (s : State W) (r : Reply × Package) : Reply × State W :=
  (r.1, { s with package := r.2 })

/-- Put back what a call that reaches backends returns. -/
def State.putAll (s : State W) (r : Reply × Package × Env W) : Reply × State W :=
  (r.1, { s with package := r.2.1, env := r.2.2 })

/-- `timeseries_enable_backend` -/
def State.enableBackend (s : State W) (id : BackendId) : Reply × State W :=
  if s.enabled id then
    (.int 0, s)
  else
    let r := (plugin id).init s.env.world
    (.ofRet r.1,
      { s with
        enabled := if r.1 = .ok then Function.update s.enabled id true else s.enabled
        env := { s.env with world := r.2 } })

/-- A call. -/
def State.call (s : State W) : Op → Reply × State W
  | .size => (.int s.package.size, s)
  | .enabledSize => (.int s.package.enabledSize, s)
  | .addKey al key => s.put (s.package.addKey s.enabled al key)
  | .getKey key => (s.package.getKey key, s)
  | .getKeyName id => (s.package.getKeyName id, s)
  | .get id => (s.package.get id, s)
  | .kiEnabled id => (s.package.kiEnabled id, s)
  | .set id value => s.put (s.package.set id value)
  | .disableKey id => s.put (s.package.disableKey id)
  | .enableKey id => s.put (s.package.enableKey id)
  | .resolve => s.putAll (s.package.resolve (s.timeseries plugin) s.env)
  | .flush time => s.putAll (s.package.flush (s.timeseries plugin) time s.env)
  | .free => (s.package.free s.enabled, s)
  | .enableBackend id => s.enableBackend plugin id

/-- What the application gets from a call, if the run goes on. -/
def reply (s : State W) (op : Op) : Option Reply :=
  if s.running then some (s.call plugin op).1 else none

/-- The state after a call. -/
def step (s : State W) (op : Op) : State W :=
  if s.running then
    let r := s.call plugin op
    { r.2 with running := !r.1.isLast }
  else
    s

end Runs

/-! ## What a package holds -/

namespace Package

/-- The counted slots hold these key infos, and with them the package satisfies the
invariant of key packages. -/
structure Holds (p : Package) (kis : List Ki) : Prop where
  block : p.keyInfos.Holds kis
  size : p.keyInfosCnt = kis.length
  strings : p.strings = kis.map Ki.name
  wellFormed : (p.withInfos kis).WellFormed

theorem holds_init (flags : Nat) : (init flags).Holds [] where
  block := Block.holds_nil _
  size := rfl
  strings := rfl
  wellFormed := Kp.wellFormed_init flags

theorem Holds.element {p : Package} {kis : List Ki} (h : p.Holds kis) (id : Nat) :
    p.element id = kis[id]? := by
  unfold Package.element
  split
  · next hid => exact h.block.get (h.size ▸ hid)
  · next hid => exact (List.getElem?_eq_none (by rw [← h.size]; omega)).symm

theorem Holds.whole {p : Package} {kis : List Ki} (h : p.Holds kis) :
    p.whole = some (p.withInfos kis) := by
  rw [Package.whole, h.size, h.block.toList]
  rfl

/-- **Refinement**: a package with its array answers as the `Kp` of its key infos. -/
theorem Holds.answers {p : Package} {kis : List Ki} (h : p.Holds kis) :
    (∀ id, p.getKeyName id = .name ((p.withInfos kis).getKeyName id)) ∧
      (∀ key, p.getKey key = .int ((p.withInfos kis).getKey key)) ∧
      ∀ id < p.size, p.get id = .value ((p.withInfos kis).get id) ∧
        p.kiEnabled id = .enabled ((p.withInfos kis).isEnabled id) := by
  refine ⟨fun id => ?_, fun key => ?_, fun id hid => ?_⟩
  · rw [getKeyName, Kp.getKeyName]
    show (if p.keyInfosCnt ≤ id then _ else _) = Reply.name (if p.keyInfosCnt ≤ id then _ else _)
    split
    · rfl
    · next hid =>
      have hlt : id < kis.length := by rw [← h.size]; omega
      rw [read, h.element, List.getElem?_eq_getElem hlt]
      show _ = Reply.name (kis[id]?.map Ki.name)
      rw [List.getElem?_eq_getElem hlt]
      rfl
  · rw [getKey, Kp.getKey, h.strings]
    show _ = Reply.int (match khGet (kis.map Ki.name) p.keyIdHash key.bytes with
      | none => -1
      | some id => id)
    cases khGet (kis.map Ki.name) p.keyIdHash key.bytes <;> rfl
  · have hlt : id < kis.length := h.size ▸ hid
    rw [get, kiEnabled, read, read, h.element, Kp.get, Kp.isEnabled]
    show _ = Reply.value ((kis[id]?.map Ki.value).getD 0) ∧
      _ = Reply.enabled (kis[id]?.any fun ki => !ki.disabled)
    rw [List.getElem?_eq_getElem hlt]
    exact ⟨rfl, rfl⟩

/-- What `timeseries_kp_add_key` can do: lose the array, change the slot behind the
counted ones, or add the key. -/
theorem addKey_cases (enabled : BackendId → Bool) (al : Alloc) (key : CString) (p : Package) :
    (al.realloc = false ∧
      p.addKey enabled al key = (.int (-1), { p with keyInfos := .null })) ∨
    (al.realloc = true ∧ (al.strdup && al.khPut) = false ∧
      ∃ x r, (r = .int (-1) ∨ ∃ why, r = .stop why) ∧ p.addKey enabled al key
        = (r, { p with keyInfos := p.keyInfos.realloc.put p.keyInfosCnt x })) ∨
    (al.realloc = true ∧ (al.strdup && al.khPut) = true ∧
      (p.addKey enabled al key).1 = .int p.keyInfosCnt) := by
  unfold addKey
  cases hrealloc : al.realloc with
  | false => exact .inl ⟨rfl, rfl⟩
  | true =>
    cases hstrdup : al.strdup with
    | false =>
      refine .inr (.inl ⟨rfl, rfl, none, ?_⟩)
      simp only [Bool.not_true, Bool.not_false, Bool.false_eq_true, if_false, if_true]
      split
      · exact ⟨_, .inr ⟨_, rfl⟩, rfl⟩
      · exact ⟨_, .inl rfl, rfl⟩
    | true =>
      cases hput : al.khPut with
      | false => exact .inr (.inl ⟨rfl, rfl, _, _, .inl rfl, rfl⟩)
      | true => exact .inr (.inr ⟨rfl, rfl, rfl⟩)

/-- The next key is appended, as in `Kp.addKey`. -/
theorem Holds.push {p : Package} {kis : List Ki} (h : p.Holds kis)
    (enabled : BackendId → Bool) {al : Alloc} (key : CString) (hrealloc : al.realloc = true)
    (hrest : (al.strdup && al.khPut) = true) :
    (p.addKey enabled al key).2.Holds (kis ++ [Ki.init key]) := by
  have hname : (kis ++ [Ki.init key]).map Ki.name = p.strings ++ [key.bytes] := by
    rw [h.strings]
    exact Kp.addKey_names (p.withInfos kis) key
  have hwf := h.wellFormed.addKey key
  obtain ⟨hstrdup, hput⟩ := Bool.and_eq_true_iff.mp hrest
  unfold Package.addKey
  simp only [hrealloc, hstrdup, hput, Bool.not_true, Bool.false_eq_true, if_false]
  refine { block := ?_, size := ?_, strings := hname.symm, wellFormed := ?_ }
  · rw [h.size]
    exact h.block.push _
  · show p.keyInfosCnt + 1 = _
    rw [h.size, List.length_append, List.length_singleton]
  · rw [← hname]
    exact hwf

/-- A failed call that keeps the array changes it behind the counted slots only. -/
theorem Holds.spare {p : Package} {kis : List Ki} (h : p.Holds kis) (x : Option Ki) :
    ({ p with keyInfos := p.keyInfos.realloc.put p.keyInfosCnt x } : Package).Holds kis where
  block := h.size ▸ h.block.realloc_put x
  size := h.size
  strings := h.strings
  wellFormed := h.wellFormed

/-- An element that keeps its key is changed, with the counter brought in line. -/
theorem Holds.write {p : Package} {kis : List Ki} (h : p.Holds kis) {id : Nat} {ki : Ki}
    (hki : kis[id]? = some ki) (f : Ki → Ki) (hf : ∀ ki, (f ki).name = ki.name) {cnt : Nat}
    (hwf : ({ (p.withInfos kis).modifyKi id f with keyInfosEnabledCnt := cnt } : Kp).WellFormed) :
    ({ p.write id (f ki) with keyInfosEnabledCnt := cnt } : Package).Holds (kis.modify id f) where
  block := h.block.modify hki f
  size := by
    rw [List.length_modify]
    exact h.size
  strings := by
    rw [map_modify_of_eq Ki.name f hf]
    exact h.strings
  wellFormed := hwf

theorem Holds.store {p : Package} {kis : List Ki} (h : p.Holds kis) {kp : Kp}
    (hwf : kp.WellFormed) (hcnt : kp.keyInfosCnt = p.keyInfosCnt) :
    (p.store kp).Holds kp.keyInfos where
  block := h.block.store (by rw [← hwf.size, hcnt, h.size])
  size := hwf.size
  strings := rfl
  wellFormed := hwf

/-- **Refinement**: unless the array is lost, the keys are those of `Kp.addKey`, and so is
the reply of a call that returns. -/
theorem Holds.addKey_refines {p : Package} {kis : List Ki} (h : p.Holds kis)
    (enabled : BackendId → Bool) {al : Alloc} (key : CString) (hrealloc : al.realloc = true) :
    (p.addKey enabled al key).2.Holds
        ((p.withInfos kis).addKey al.toAllocResult key).2.keyInfos ∧
      ((p.addKey enabled al key).1
          = .int ((p.withInfos kis).addKey al.toAllocResult key).1 ∨
        ∃ why, (p.addKey enabled al key).1 = .stop why) := by
  rcases addKey_cases enabled al key p with
    ⟨hlost, -⟩ | ⟨-, hfails, x, r, hr, heq⟩ | ⟨-, hrest, hid⟩
  · rw [hrealloc] at hlost
    cases hlost
  · have hkp : (p.withInfos kis).addKey al.toAllocResult key = (-1, p.withInfos kis) := by
      rw [Bool.and_eq_false_iff] at hfails
      unfold Kp.addKey
      rcases hfails with hfails | hfails <;> simp [hrealloc, hfails]
    rw [hkp, heq]
    exact ⟨h.spare x, hr⟩
  · have hpush := h.push enabled key hrealloc hrest
    obtain ⟨hstrdup, hput⟩ := Bool.and_eq_true_iff.mp hrest
    unfold Kp.addKey
    simp only [hrealloc, hstrdup, hput, Bool.not_true, Bool.false_eq_true, if_false]
    exact ⟨hpush, .inl hid⟩

/-- Where a `realloc` that loses keys is ruled out, a failed one finds none. -/
theorem noKeys_of_lost {p : Package} {al : Alloc}
    (hkeeps : 0 < p.keyInfosCnt → al.realloc = true) (hrealloc : al.realloc = false) :
    p.keyInfosCnt = 0 := by
  by_contra hne
  rw [hkeeps (Nat.pos_of_ne_zero hne)] at hrealloc
  cases hrealloc

theorem Holds.addKey {p : Package} {kis : List Ki} (h : p.Holds kis)
    (enabled : BackendId → Bool) {al : Alloc} (key : CString)
    (hkeeps : 0 < p.keyInfosCnt → al.realloc = true) :
    ∃ kis', (p.addKey enabled al key).2.Holds kis' := by
  cases hrealloc : al.realloc with
  | true => exact ⟨_, (h.addKey_refines enabled key hrealloc).1⟩
  | false =>
    have hnone : p.keyInfosCnt = 0 := noKeys_of_lost hkeeps hrealloc
    have hkis : kis = [] := List.eq_nil_of_length_eq_zero (h.size.symm.trans hnone)
    subst hkis
    unfold Package.addKey
    rw [hrealloc]
    exact ⟨[], Block.holds_nil _, h.size, h.strings, h.wellFormed⟩

theorem Holds.set {p : Package} {kis : List Ki} (h : p.Holds kis) (id : Nat) (value : UInt64) :
    ∃ kis', (p.set id value).2.Holds kis' := by
  unfold Package.set
  rw [h.element]
  split
  · cases hki : kis[id]? with
    | none => exact ⟨kis, h⟩
    | some ki =>
      exact ⟨_, h.write hki (·.set value) (fun _ => rfl)
        (h.wellFormed.modifyValue id fun _ => value)⟩
  · exact ⟨kis, h⟩

theorem Holds.setDisabled {p : Package} {kis : List Ki} (h : p.Holds kis) (disabled : Bool)
    (id : Nat) : ∃ kis', (p.setDisabled disabled id).2.Holds kis' := by
  unfold Package.setDisabled
  rw [h.element]
  cases hki : kis[id]? with
  | none => exact ⟨kis, h⟩
  | some ki =>
    dsimp only
    split
    · exact ⟨kis, h⟩
    · next hother =>
      refine ⟨_, h.write hki (·.setDisabled disabled) (fun _ => rfl) ?_⟩
      cases disabled with
      | true =>
        have hwf := h.wellFormed.disableKey id
        have hon : (p.withInfos kis).isEnabled id = true := by
          rw [Kp.isEnabled]
          show (kis[id]?.any fun ki => !ki.disabled) = true
          simpa [hki] using hother
        rwa [Kp.disableKey, if_pos hon] at hwf
      | false =>
        have hwf := h.wellFormed.enableKey id
        have hoff : (p.withInfos kis).isDisabled id = true := by
          rw [Kp.isDisabled]
          show (kis[id]?.any fun ki => ki.disabled) = true
          simpa [hki] using hother
        rwa [Kp.enableKey, if_pos hoff] at hwf

end Package

/-- A call that goes over all keys neither adds nor removes any. -/
structure KeepsCount (kp kp' : Kp) : Prop where
  cnt : kp'.keyInfosCnt = kp.keyInfosCnt
  length : kp'.keyInfos.length = kp.keyInfos.length

theorem keepsCount_of_core {kp kp' : Kp} (h : kp'.core = kp.core) : KeepsCount kp kp' where
  cnt := Kp.cnt_of_core h
  length := by simpa using congrArg List.length (Kp.map_of_core h Ki.value fun _ => rfl)

theorem keepsCount_resolve (ts : Timeseries W) (kp : Kp) (e : Env W) :
    KeepsCount kp (kp.resolve ts e).2.1 :=
  keepsCount_of_core (Kp.resolve_spec ts 0 kp e).core

theorem length_resetDisable (kp : Kp) : kp.resetDisable.keyInfos.length = kp.keyInfos.length := by
  have hloop : ∀ (ids : List Nat) (f : Ki → Ki) (kis : List Ki),
      (ids.foldl (fun l i => l.modify i f) kis).length = kis.length := by
    intro ids f
    induction ids with
    | nil => exact fun _ => rfl
    | cons id ids ih =>
      intro kis
      rw [List.foldl_cons, ih, List.length_modify]
  unfold Kp.resetDisable
  split
  · rfl
  · rw [(Kp.foldl_resetDisableKey kp _).1, hloop]

theorem keepsCount_flush (ts : Timeseries W) (kp : Kp) (time : UInt32) (e : Env W) :
    KeepsCount kp (kp.flush ts time e).2.1 := by
  obtain ⟨kp₁, hcalls, hkp⟩ := Kp.flush_spec ts kp time e
  have hcount := keepsCount_of_core hcalls.core
  rw [hkp]
  split
  · exact ⟨(Kp.resetDisable_frame kp₁).cnt.trans hcount.cnt,
      (length_resetDisable kp₁).trans hcount.length⟩
  · exact hcount

/-- The loops over all keys keep the invariant. -/
theorem Package.Holds.loopCall {p : Package} {kis : List Ki} (h : p.Holds kis) (e : Env W)
    {f : Kp → Ret × Kp × Env W} (hwf : ∀ kp, kp.WellFormed → (f kp).2.1.WellFormed)
    (hcount : ∀ kp, KeepsCount kp (f kp).2.1) :
    ∃ kis', (p.loopCall e f).2.1.Holds kis' := by
  rw [Package.loopCall, h.whole]
  exact ⟨_, h.store (hwf _ h.wellFormed) (hcount _).cnt⟩

end KpAlloc

end Libtimeseries
