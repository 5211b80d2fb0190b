import Mathlib.Data.List.Basic

/-!
# Cutting a stream into messages

A producer collects items and sends what it has as one message: before an item
that does not belong to it (`splits`), after an item that fills it (`full`), and
at the end of the stream.

- `cut`: the messages, from what is collected already;
- `cut_flatten`: nothing is lost, repeated or reordered;
- `cut_forall`: what holds of everything that is collected holds of the messages.
-/

namespace CutLib

universe u

variable {α : Type u} (splits : List α → α → Bool) (full : List α → Bool)

/-- The messages for the items to come, with `cur` collected already. -/
def cut : List α → List α → List (List α)
  | cur, [] => if cur.isEmpty then [] else [cur]
  | cur, a :: as =>
    if !cur.isEmpty && splits cur a then
      cur :: if full [a] then [a] :: cut [] as else cut [a] as
    else if full (cur ++ [a]) then
      (cur ++ [a]) :: cut [] as
    else
      cut (cur ++ [a]) as

/-- The messages once an item has joined what is collected. -/
def grow (cur : List α) (a : α) (as : List α) : List (List α) :=
  if full (cur ++ [a]) then (cur ++ [a]) :: cut splits full [] as
  else cut splits full (cur ++ [a]) as

theorem cut_cons (cur : List α) (a : α) (as : List α) :
    cut splits full cur (a :: as)
      = if !cur.isEmpty && splits cur a then cur :: grow splits full [] a as
        else grow splits full cur a as := by
  unfold cut grow
  rfl

theorem cut_nil_of_ne {cur : List α} (h : cur ≠ []) : cut splits full cur [] = [cur] := by
  unfold cut
  rw [List.isEmpty_eq_false_iff.mpr h]
  rfl

/-- **Nothing is lost**, repeated or reordered. -/
theorem cut_flatten (cur as : List α) : (cut splits full cur as).flatten = cur ++ as := by
  induction as generalizing cur with
  | nil =>
    unfold cut
    cases cur <;> simp
  | cons a as ih =>
    have hgrow : ∀ cur, (grow splits full cur a as).flatten = cur ++ a :: as := by
      intro cur
      unfold grow
      split <;> simp [ih]
    rw [cut_cons]
    split
    · rw [List.flatten_cons, hgrow, List.nil_append]
    · exact hgrow cur

/-- **Invariants of messages**: what a new message has and every item that joins an
open message keeps. -/
theorem cut_forall (P : List α → Prop) (hnew : ∀ a, P [a])
    (hstep : ∀ cur a, cur ≠ [] → P cur → splits cur a = false → full cur = false → P (cur ++ [a]))
    {cur : List α} (hcur : cur ≠ [] → P cur ∧ full cur = false) (as : List α) :
    ∀ m ∈ cut splits full cur as, m ≠ [] ∧ P m := by
  induction as generalizing cur with
  | nil =>
    intro m hm
    unfold cut at hm
    cases cur with
    | nil => cases hm
    | cons b cur =>
      obtain rfl : m = b :: cur := List.mem_singleton.mp hm
      exact ⟨List.cons_ne_nil b cur, (hcur (List.cons_ne_nil b cur)).1⟩
  | cons a as ih =>
    have hgrow : ∀ cur, P (cur ++ [a]) → ∀ m ∈ grow splits full cur a as, m ≠ [] ∧ P m := by
      intro cur hP m hm
      unfold grow at hm
      split at hm
      · have hnil : ([] : List α) ≠ [] → P [] ∧ full [] = false := fun h => absurd rfl h
        rcases List.mem_cons.mp hm with rfl | hm
        · exact ⟨by simp, hP⟩
        · exact ih hnil m hm
      · next hopen => exact ih (fun _ => ⟨hP, Bool.eq_false_iff.mpr hopen⟩) m hm
    rw [cut_cons]
    split
    · next hsplit =>
      have hne : cur ≠ [] := by
        rintro rfl
        simp at hsplit
      intro m hm
      rcases List.mem_cons.mp hm with rfl | hm
      · exact ⟨hne, (hcur hne).1⟩
      · exact hgrow [] (hnew a) m hm
    · next hsplit =>
      refine hgrow cur ?_
      by_cases hne : cur = []
      · rw [hne]
        exact hnew a
      · obtain ⟨hP, hopen⟩ := hcur hne
        refine hstep cur a hne hP ?_ hopen
        simpa [hne] using hsplit

theorem ne_nil_of_mem_cut {as m : List α} (hm : m ∈ cut splits full [] as) : m ≠ [] :=
  (cut_forall splits full (fun _ => True) (fun _ => trivial) (fun _ _ _ _ _ _ => trivial)
    (fun h => absurd rfl h) as m hm).1

/-- A message that is not the last was full, or some item did not belong to it. -/
theorem sent_of_mem_dropLast (cur as : List α) :
    ∀ m ∈ (cut splits full cur as).dropLast, full m = true ∨ ∃ a, splits m a = true := by
  have hcons : ∀ {m x : List α} {ms : List (List α)}, m ∈ (x :: ms).dropLast →
      m = x ∨ m ∈ ms.dropLast := by
    intro m x ms hm
    cases ms with
    | nil => cases hm
    | cons y ms => exact List.mem_cons.mp hm
  induction as generalizing cur with
  | nil =>
    intro m hm
    unfold cut at hm
    cases cur <;> cases hm
  | cons a as ih =>
    have hgrow : ∀ cur, ∀ m ∈ (grow splits full cur a as).dropLast,
        full m = true ∨ ∃ a, splits m a = true := by
      intro cur m hm
      unfold grow at hm
      split at hm
      · next hfull =>
        rcases hcons hm with rfl | hm
        · exact .inl hfull
        · exact ih [] m hm
      · exact ih _ m hm
    rw [cut_cons]
    split
    · next hsplit =>
      intro m hm
      rcases hcons hm with rfl | hm
      · exact .inr ⟨a, (Bool.and_eq_true_iff.mp hsplit).2⟩
      · exact hgrow [] m hm
    · exact hgrow cur

/-- A message holds items that come in a row. -/
theorem infix_of_mem_cut {as m : List α} (hm : m ∈ cut splits full [] as) : m <:+: as := by
  have hflatten := cut_flatten splits full [] as
  rw [List.nil_append] at hflatten
  rw [← hflatten]
  exact List.infix_of_mem_flatten hm

/-- The items of a message are among those that were cut. -/
theorem mem_of_mem_cut {as m : List α} (hm : m ∈ cut splits full [] as) {a : α} (ha : a ∈ m) :
    a ∈ as :=
  (infix_of_mem_cut splits full hm).subset ha

end CutLib
