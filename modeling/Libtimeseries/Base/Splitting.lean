import Mathlib.Data.List.Infix

/-!
# Split lists and their beginnings

What the beginning of a list tells about the fields of the list (`List.splitOn`):

- `splitOn_prefix`: its fields are beginnings of the fields of the list;
- `opening sep n l`: the first `n` fields of a list, with the separators in between;
- `take_splitOn_eq_iff`: a beginning with `n` fields has the first `n` fields of the
  list if and only if they fit into it;
- `splitOn_append_of_notMem`: what comes in front of the first field.
-/

namespace SplitLib

universe u

theorem intercalate_take_prefix {α : Type u} (s : List α) (n : Nat) (ls : List (List α)) :
    s.intercalate (ls.take n) <+: s.intercalate ls := by
  induction n generalizing ls with
  | zero => exact List.nil_prefix
  | succ n ih =>
    cases ls with
    | nil => exact List.prefix_refl _
    | cons x ls =>
      cases ls with
      | nil => rw [List.take_succ_cons, List.take_nil]
      | cons y ls =>
        cases n with
        | zero =>
          rw [List.take_succ_cons, List.take_zero, List.intercalate_singleton,
            List.intercalate_cons_cons]
          exact (List.prefix_append x s).trans (List.prefix_append _ _)
        | succ n =>
          have h := ih (y :: ls)
          rw [List.take_succ_cons] at h
          rw [List.take_succ_cons, List.take_succ_cons, List.intercalate_cons_cons,
            List.intercalate_cons_cons]
          exact (List.prefix_append_right_inj _).mpr h

variable {α : Type u} [BEq α] [LawfulBEq α] {sep : α} {l m : List α}

/-- The first field grows with the list, the others stay. -/
theorem splitOn_append_of_notMem (hl : sep ∉ l) (m : List α) :
    (l ++ m).splitOn sep = (m.splitOn sep).modifyHead (l ++ ·) := by
  induction l with
  | nil =>
    obtain ⟨f, fs, hm⟩ := List.exists_cons_of_ne_nil (List.splitOn_ne_nil sep m)
    rw [List.nil_append, hm]
    rfl
  | cons a l ih =>
    rw [List.mem_cons, not_or] at hl
    have ha : ¬ (a == sep) = true := fun h => hl.1 (eq_of_beq h).symm
    rw [List.cons_append, List.splitOn_cons_eq_if_modifyHead, if_neg ha, ih hl.2,
      List.modifyHead_modifyHead]
    rfl

omit [LawfulBEq α] in
/-- **Fields of a beginning**. -/
theorem splitOn_prefix (h : l <+: m) {i : Nat} {f : List α} (hf : (l.splitOn sep)[i]? = some f) :
    ∃ g, (m.splitOn sep)[i]? = some g ∧ f <+: g := by
  induction l generalizing m i f with
  | nil =>
    obtain ⟨g, gs, hm⟩ := List.exists_cons_of_ne_nil (List.splitOn_ne_nil sep m)
    rw [List.splitOn_nil] at hf
    cases i with
    | zero =>
      obtain rfl := Option.some.inj hf
      exact ⟨g, by rw [hm]; rfl, List.nil_prefix⟩
    | succ i => cases hf
  | cons a l ih =>
    obtain ⟨m, rfl, hlm⟩ : ∃ m', m = a :: m' ∧ l <+: m' := by
      obtain ⟨rest, rfl⟩ := h
      exact ⟨l ++ rest, rfl, List.prefix_append _ _⟩
    have ih : ∀ i f, (l.splitOn sep)[i]? = some f → ∃ g, (m.splitOn sep)[i]? = some g ∧ f <+: g :=
      fun i f => ih hlm
    rw [List.splitOn_cons_eq_if_modifyHead] at hf ⊢
    by_cases ha : (a == sep) = true
    · rw [if_pos ha] at hf ⊢
      cases i with
      | zero => exact ⟨[], rfl, (Option.some.inj hf) ▸ List.prefix_refl _⟩
      | succ i => exact ih i f hf
    · rw [if_neg ha] at hf ⊢
      obtain ⟨e, es, hl⟩ := List.exists_cons_of_ne_nil (List.splitOn_ne_nil sep l)
      obtain ⟨g, gs, hm⟩ := List.exists_cons_of_ne_nil (List.splitOn_ne_nil sep m)
      rw [hl] at hf ih
      rw [hm] at ih ⊢
      cases i with
      | zero =>
        obtain ⟨g', hg, hpre⟩ := ih 0 e rfl
        obtain rfl := Option.some.inj hg
        obtain rfl := Option.some.inj hf
        exact ⟨a :: g, rfl, List.prefix_cons_inj a |>.mpr hpre⟩
      | succ i => exact ih (i + 1) f hf

/-- The first `n` fields, with the separators between them. -/
def opening (sep : α) (n : Nat) (l : List α) : List α := [sep].intercalate ((l.splitOn sep).take n)

theorem opening_isPrefix (sep : α) (n : Nat) (l : List α) : opening sep n l <+: l := by
  have h := intercalate_take_prefix [sep] n (l.splitOn sep)
  rwa [List.intercalate_splitOn] at h

/-- No field has a separator. -/
theorem notMem_of_mem_splitOn {f : List α} (hf : f ∈ l.splitOn sep) : sep ∉ f := by
  induction l generalizing f with
  | nil =>
    rw [List.splitOn_nil, List.mem_singleton] at hf
    exact hf ▸ List.not_mem_nil
  | cons a l ih =>
    rw [List.splitOn_cons_eq_if_modifyHead] at hf
    by_cases ha : (a == sep) = true
    · rw [if_pos ha] at hf
      rcases List.mem_cons.mp hf with rfl | hf
      · exact List.not_mem_nil
      · exact ih hf
    · rw [if_neg ha] at hf
      obtain ⟨e, es, hl⟩ := List.exists_cons_of_ne_nil (List.splitOn_ne_nil sep l)
      rw [hl] at hf ih
      rcases List.mem_cons.mp hf with rfl | hf
      · rintro hmem
        rcases List.mem_cons.mp hmem with h | h
        · exact ha (beq_iff_eq.mpr h.symm)
        · exact ih List.mem_cons_self h
      · exact ih (List.mem_cons_of_mem _ hf)

theorem splitOn_opening (sep : α) {n : Nat} (hn : n ≠ 0) (l : List α) :
    (opening sep n l).splitOn sep = (l.splitOn sep).take n := by
  refine List.splitOn_intercalate sep (fun f hf => notMem_of_mem_splitOn (List.mem_of_mem_take hf)) ?_
  intro h
  rcases List.take_eq_nil_iff.mp h with h | h
  · exact hn h
  · exact List.splitOn_ne_nil sep l h

/-- Between the opening of a list and the list, the first fields do not change. -/
theorem take_splitOn_of_opening {n : Nat} (hn : n ≠ 0) {mid : List α}
    (hopening : opening sep n l <+: mid) (hmid : mid <+: l) :
    (mid.splitOn sep).take n = (l.splitOn sep).take n := by
  refine List.ext_getElem? fun i => ?_
  rw [List.getElem?_take, List.getElem?_take]
  split
  · next hi =>
    cases hf : (mid.splitOn sep)[i]? with
    | none =>
      cases hg : (l.splitOn sep)[i]? with
      | none => rfl
      | some g =>
        -- the opening has this field
        have hopen : ((opening sep n l).splitOn sep)[i]? = some g := by
          rw [splitOn_opening sep hn, List.getElem?_take, if_pos hi, hg]
        obtain ⟨f, hf', -⟩ := splitOn_prefix hopening hopen
        rw [hf] at hf'
        cases hf'
    | some f =>
      obtain ⟨g, hg, hfg⟩ := splitOn_prefix hmid hf
      have hopen : ((opening sep n l).splitOn sep)[i]? = some g := by
        rw [splitOn_opening sep hn, List.getElem?_take, if_pos hi, hg]
      obtain ⟨f', hf', hgf⟩ := splitOn_prefix hopening hopen
      obtain rfl := Option.some.inj (hf.symm.trans hf')
      rw [hg, hfg.eq_of_length_le hgf.length_le]
  · rfl

/-- **When a beginning has the first fields**. -/
theorem take_splitOn_eq_iff (sep : α) {n : Nat} (hn : n ≠ 0) (h : m <+: l) :
    (m.splitOn sep).take n = (l.splitOn sep).take n ↔ (opening sep n l).length ≤ m.length := by
  constructor
  · intro heq
    rw [opening, ← heq]
    exact (opening_isPrefix sep n m).length_le
  · intro hlen
    exact take_splitOn_of_opening hn
      (List.prefix_of_prefix_length_le (opening_isPrefix sep n l) h hlen) h

end SplitLib
