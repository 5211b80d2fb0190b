import Mathlib.Data.List.Basic
import Mathlib.Logic.Function.Basic

/-!
# Arrays behind a pointer

A C array that a program grows with `realloc` and whose length it keeps elsewhere:

- `Block α`: the pointer, which is NULL or leads to memory whose slots may not have
  been written yet; `get`, `put`, `realloc` and `store` are the accesses;
- `Block.Holds b l`: the first slots hold the elements of `l`, whatever lies behind
  them;
- `Block.SameBelow n`: two blocks that a program which counts `n` elements cannot
  tell apart.
-/

namespace BlockLib

universe u

/-- A pointer to an array: NULL, or memory, where a slot that was never written
holds `none`. -/
inductive Block (α : Type u) where
  | null
  | mem (slots : Nat → Option α)

namespace Block

variable {α : Type u}

/-- The contents of a slot. -/
def get : Block α → Nat → Option α
  | null, _ => none
  | mem slots, i => slots i

/-- Change a slot. -/
def put : Block α → Nat → Option α → Block α
  | null, _, _ => null
  | mem slots, i, x => mem (Function.update slots i x)

/-- A `realloc` that succeeds: the slots there were keep what they hold. -/
def realloc : Block α → Block α
  | null => mem fun _ => none
  | mem slots => mem slots

/-- Overwrite the first slots with the elements of a list. -/
def store : Block α → List α → Block α
  | null, _ => null
  | mem slots, l => mem fun i => if i < l.length then l[i]? else slots i

/-- Is the pointer NULL? -/
def isNull : Block α → Bool
  | null => true
  | mem _ => false

/-- The first `n` slots, if each of them was written. -/
def toList (b : Block α) (n : Nat) : Option (List α) :=
  (List.range n).mapM b.get

@[simp] theorem get_null (i : Nat) : (null : Block α).get i = none := rfl

@[simp] theorem get_realloc (b : Block α) (i : Nat) : b.realloc.get i = b.get i := by
  cases b <;> rfl

@[simp] theorem isNull_realloc (b : Block α) : b.realloc.isNull = false := by
  cases b <;> rfl

@[simp] theorem isNull_put (b : Block α) (i : Nat) (x : Option α) :
    (b.put i x).isNull = b.isNull := by
  cases b <;> rfl

@[simp] theorem isNull_store (b : Block α) (l : List α) : (b.store l).isNull = b.isNull := by
  cases b <;> rfl

theorem isNull_of_get {b : Block α} {i : Nat} {x : α} (h : b.get i = some x) :
    b.isNull = false := by
  cases b with
  | null => cases h
  | mem slots => rfl

theorem get_put_self {b : Block α} (h : b.isNull = false) (i : Nat) (x : Option α) :
    (b.put i x).get i = x := by
  cases b with
  | null => cases h
  | mem slots => exact Function.update_self i x slots

theorem get_put_of_ne (b : Block α) {i j : Nat} (h : j ≠ i) (x : Option α) :
    (b.put i x).get j = b.get j := by
  cases b with
  | null => rfl
  | mem slots => exact Function.update_of_ne h x slots

theorem get_store {b : Block α} (h : b.isNull = false) {l : List α} {i : Nat}
    (hi : i < l.length) : (b.store l).get i = l[i]? := by
  cases b with
  | null => cases h
  | mem slots => exact if_pos hi

/-! ## What the first slots hold -/

/-- The first slots hold the elements of a list. -/
def Holds (b : Block α) (l : List α) : Prop :=
  ∀ i x, l[i]? = some x → b.get i = some x

theorem holds_nil (b : Block α) : b.Holds [] := by
  intro i x h
  cases h

theorem Holds.get {b : Block α} {l : List α} (h : b.Holds l) {i : Nat} (hi : i < l.length) :
    b.get i = l[i]? := by
  rw [List.getElem?_eq_getElem hi]
  exact h i _ (List.getElem?_eq_getElem hi)

theorem Holds.isNull {b : Block α} {l : List α} (h : b.Holds l) (hl : 0 < l.length) :
    b.isNull = false :=
  isNull_of_get (h 0 _ (List.getElem?_eq_getElem hl))

/-- A slot behind the elements may be changed. -/
theorem Holds.realloc_put {b : Block α} {l : List α} (h : b.Holds l) (x : Option α) :
    (b.realloc.put l.length x).Holds l := by
  intro i y hi
  have hlt : i < l.length := (List.getElem?_eq_some_iff.mp hi).1
  rw [get_put_of_ne _ (Nat.ne_of_lt hlt), get_realloc]
  exact h i y hi

/-- One more element, in a slot made for it. -/
theorem Holds.push {b : Block α} {l : List α} (h : b.Holds l) (x : α) :
    (b.realloc.put l.length (some x)).Holds (l ++ [x]) := by
  intro i y hi
  rcases Nat.lt_or_ge i l.length with hlt | hge
  · rw [List.getElem?_append_left hlt] at hi
    exact h.realloc_put (some x) i y hi
  · have hlen : i = l.length := by
      have := (List.getElem?_eq_some_iff.mp hi).1
      rw [List.length_append, List.length_singleton] at this
      omega
    subst hlen
    rw [List.getElem?_concat_length] at hi
    rw [get_put_self (isNull_realloc b), hi]

/-- Changing an element through its slot. -/
theorem Holds.modify {b : Block α} {l : List α} (h : b.Holds l) {i : Nat} {x : α}
    (hx : l[i]? = some x) (f : α → α) : (b.put i (some (f x))).Holds (l.modify i f) := by
  have hnull : b.isNull = false := isNull_of_get (h i x hx)
  intro j y hj
  rw [List.getElem?_modify] at hj
  by_cases hij : i = j
  · subst hij
    rw [hx] at hj
    rw [get_put_self hnull]
    simpa using hj
  · rw [get_put_of_ne _ (Ne.symm hij)]
    refine h j y ?_
    simpa [hij] using hj

theorem Holds.store {b : Block α} {l : List α} (h : b.Holds l) {l' : List α}
    (hlen : l'.length = l.length) : (b.store l').Holds l' := by
  intro i y hi
  have hlt : i < l'.length := (List.getElem?_eq_some_iff.mp hi).1
  rw [get_store (h.isNull (by omega)) hlt, hi]

/-- A list of options that are all there. -/
theorem mapM_eq_some_iff {f : Nat → Option α} {is : List Nat} {l : List α} :
    is.mapM f = some l ↔ is.map f = l.map some := by
  induction is generalizing l with
  | nil => cases l <;> simp
  | cons i is ih =>
    rw [List.mapM_cons, List.map_cons]
    cases hi : f i with
    | none =>
      cases l <;> simp
    | some x =>
      cases l with
      | nil => cases is.mapM f <;> simp
      | cons y l =>
        rw [List.map_cons, List.cons.injEq, ← ih]
        cases is.mapM f <;> simp

theorem toList_length {b : Block α} {n : Nat} {l : List α} (h : b.toList n = some l) :
    l.length = n := by
  have := congrArg List.length (mapM_eq_some_iff.mp h)
  simpa using this.symm

theorem Holds.toList {b : Block α} {l : List α} (h : b.Holds l) :
    b.toList l.length = some l := by
  refine mapM_eq_some_iff.mpr (List.ext_getElem? fun i => ?_)
  rw [List.getElem?_map, List.getElem?_map]
  rcases Nat.lt_or_ge i l.length with hi | hi
  · rw [List.getElem?_range hi, Option.map_some, h.get hi, List.getElem?_eq_getElem hi]
    rfl
  · rw [List.getElem?_eq_none hi, List.getElem?_eq_none (by simpa using hi)]
    rfl

/-! ## Blocks that look the same -/

/-- Two blocks agree on their first `n` slots, and on being NULL if there are any. -/
structure SameBelow (n : Nat) (b b' : Block α) : Prop where
  get : ∀ i < n, b'.get i = b.get i
  null : 0 < n → b'.isNull = b.isNull

theorem SameBelow.refl (n : Nat) (b : Block α) : SameBelow n b b :=
  ⟨fun _ _ => rfl, fun _ => rfl⟩

/-- No element, no difference. -/
theorem sameBelow_zero (b b' : Block α) : SameBelow 0 b b' :=
  ⟨fun _ hi => absurd hi (Nat.not_lt_zero _), fun h => absurd h (Nat.lt_irrefl 0)⟩

/-- A slot made behind the elements cannot be seen. -/
theorem Holds.sameBelow {b : Block α} {l : List α} (h : b.Holds l) (x : Option α) :
    SameBelow l.length b (b.realloc.put l.length x) where
  get i hi := by rw [get_put_of_ne _ (Nat.ne_of_lt hi), get_realloc]
  null hpos := by rw [isNull_put, isNull_realloc, h.isNull hpos]

theorem SameBelow.put {n : Nat} {b b' : Block α} (h : SameBelow n b b') {i : Nat} (hi : i < n)
    (x : Option α) : SameBelow n (b.put i x) (b'.put i x) where
  get j hj := by
    by_cases hij : j = i
    · subst hij
      have hnull := h.null (Nat.zero_lt_of_lt hj)
      cases b with
      | null =>
        cases b' with
        | null => rfl
        | mem slots => cases hnull
      | mem slots =>
        rw [get_put_self (b := mem slots) rfl, get_put_self (hnull.trans rfl)]
    · rw [get_put_of_ne _ hij, get_put_of_ne _ hij, h.get j hj]
  null hpos := by rw [isNull_put, isNull_put, h.null hpos]

/-- Growing by a slot with the same contents; the contents may be counted or not. -/
theorem SameBelow.grow {n : Nat} {b b' : Block α} (h : SameBelow n b b') (x : Option α) :
    SameBelow (n + 1) (b.realloc.put n x) (b'.realloc.put n x) where
  get i hi := by
    rcases Nat.lt_succ_iff_lt_or_eq.mp hi with hlt | heq
    · rw [get_put_of_ne _ (Nat.ne_of_lt hlt), get_put_of_ne _ (Nat.ne_of_lt hlt), get_realloc,
        get_realloc, h.get i hlt]
    · rw [heq, get_put_self (isNull_realloc b), get_put_self (isNull_realloc b')]
  null _ := by rw [isNull_put, isNull_put, isNull_realloc, isNull_realloc]

theorem SameBelow.mono {m n : Nat} {b b' : Block α} (h : SameBelow n b b') (hmn : m ≤ n) :
    SameBelow m b b' :=
  ⟨fun i hi => h.get i (Nat.lt_of_lt_of_le hi hmn), fun hpos => h.null (Nat.lt_of_lt_of_le hpos hmn)⟩

theorem SameBelow.store {n : Nat} {b b' : Block α} (h : SameBelow n b b') {l : List α}
    (hl : l.length = n) : SameBelow n (b.store l) (b'.store l) where
  get i hi := by
    have hnull := h.null (Nat.zero_lt_of_lt hi)
    cases b with
    | null =>
      cases b' with
      | null => rfl
      | mem slots => cases hnull
    | mem slots =>
      rw [get_store (b := mem slots) rfl (hl.symm ▸ hi),
        get_store (hnull.trans rfl) (hl.symm ▸ hi)]
  null hpos := by rw [isNull_store, isNull_store, h.null hpos]

theorem SameBelow.toList {n : Nat} {b b' : Block α} (h : SameBelow n b b') :
    b'.toList n = b.toList n := by
  have hmapM : ∀ is : List Nat, (∀ i ∈ is, i < n) → is.mapM b'.get = is.mapM b.get := by
    intro is his
    induction is with
    | nil => rfl
    | cons i is ih =>
      rw [List.mapM_cons, List.mapM_cons, h.get i (his i List.mem_cons_self),
        ih fun j hj => his j (List.mem_cons_of_mem _ hj)]
  exact hmapM _ fun i hi => List.mem_range.mp hi

end Block

end BlockLib
