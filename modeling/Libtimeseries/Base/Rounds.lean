import Mathlib.Data.List.Basic
import Mathlib.Data.List.Count
import Mathlib.Data.List.Nodup

/-!
# Rounds that get part of the way

A list without repetition is gone through again and again, each round up to some
point only; `ns` lists how far the rounds get.

- `visits as ns a`: how often `a` is reached;
- `filter_rounds`: the visits of `a` among all visits;
- `visits_antitone`: who comes first is visited at least as often;
- `visits_getLast`: the last one is visited by complete rounds only.
-/

namespace RoundLib

universe u

variable {α : Type u}

/-- A round reaches the element at `i` if and only if it gets that far. -/
theorem getElem_mem_take_iff {as : List α} (hnd : as.Nodup) {i : Nat} (hi : i < as.length)
    (n : Nat) : as[i] ∈ as.take n ↔ i < n := by
  rw [List.mem_iff_getElem]
  constructor
  · rintro ⟨k, hk, hget⟩
    rw [List.length_take] at hk
    rw [List.getElem_take] at hget
    have := (List.Nodup.getElem_inj_iff hnd).mp hget
    omega
  · intro hlt
    exact ⟨i, by rw [List.length_take]; omega, List.getElem_take⟩

variable [DecidableEq α]

/-- How often the rounds reach `a`. -/
def visits (as : List α) (ns : List Nat) (a : α) : Nat := ns.countP fun n => decide (a ∈ as.take n)

/-- Everything the rounds reach, in order. -/
def rounds (as : List α) (ns : List Nat) : List α := ns.flatMap fun n => as.take n

theorem visits_le (as : List α) (ns : List Nat) (a : α) : visits as ns a ≤ ns.length :=
  List.countP_le_length

/-- A round has whom it reaches once. -/
theorem count_rounds {as : List α} (hnd : as.Nodup) (ns : List Nat) (a : α) :
    (rounds as ns).count a = visits as ns a := by
  induction ns with
  | nil => rfl
  | cons n ns ih =>
    have hround : (as.take n).count a = if a ∈ as.take n then 1 else 0 :=
      (hnd.sublist (List.take_sublist n as)).count
    rw [rounds] at ih
    rw [rounds, List.flatMap_cons, List.count_append, hround, ih, visits, visits,
      List.countP_cons, Nat.add_comm]
    simp only [decide_eq_true_eq]

theorem filter_rounds {as : List α} (hnd : as.Nodup) (ns : List Nat) (a : α) :
    (rounds as ns).filter (fun b => b = a) = List.replicate (visits as ns a) a := by
  rw [← count_rounds hnd]
  exact List.filter_eq a

/-- A complete round visits everyone. -/
theorem visits_pos {as : List α} {ns : List Nat} {a : α} (ha : a ∈ as)
    (hcomplete : as.length ∈ ns) : 1 ≤ visits as ns a := by
  refine List.countP_pos_iff.mpr ⟨as.length, hcomplete, ?_⟩
  rw [List.take_length]
  exact decide_eq_true ha

theorem visits_eq_zero {as : List α} (ns : List Nat) {a : α} (ha : a ∉ as) : visits as ns a = 0 := by
  refine List.countP_eq_zero.mpr fun n _ => ?_
  simpa using fun hmem => ha (List.mem_of_mem_take hmem)

/-- Who comes first is visited at least as often. -/
theorem visits_antitone {as : List α} (hnd : as.Nodup) (ns : List Nat) :
    as.Pairwise fun a b => visits as ns b ≤ visits as ns a := by
  rw [List.pairwise_iff_getElem]
  intro i j hi hj hij
  refine List.countP_mono_left fun n _ hn => ?_
  have hjn := (getElem_mem_take_iff hnd hj n).mp (of_decide_eq_true hn)
  exact decide_eq_true ((getElem_mem_take_iff hnd hi n).mpr (Nat.lt_trans hij hjn))

/-- The last one is visited by the complete rounds only. -/
theorem visits_getLast {as : List α} (hnd : as.Nodup) {a : α} (hlast : as.getLast? = some a)
    {ns : List Nat} (hle : ∀ n ∈ ns, n < as.length) : visits as (ns ++ [as.length]) a = 1 := by
  have hne : as ≠ [] := by
    rintro rfl
    cases hlast
  have hpos := List.length_pos_of_ne_nil hne
  have hget : as[as.length - 1] = a := by
    rw [List.getLast?_eq_getLast_of_ne_nil hne, Option.some_inj, List.getLast_eq_getElem] at hlast
    exact hlast
  have hrest : ns.countP (fun n => decide (a ∈ as.take n)) = 0 := by
    refine List.countP_eq_zero.mpr fun n hn hmem => ?_
    have hmem' : a ∈ as.take n := of_decide_eq_true hmem
    rw [← hget, getElem_mem_take_iff hnd (by omega)] at hmem'
    have := hle n hn
    omega
  have hmem : a ∈ as.take as.length := by
    rw [List.take_length, ← hget]
    exact List.getElem_mem _
  have hcomplete : [as.length].countP (fun n => decide (a ∈ as.take n)) = 1 :=
    List.countP_cons_of_pos (decide_eq_true hmem)
  rw [visits, List.countP_append, hrest, hcomplete]

end RoundLib
