import Mathlib.Data.Finset.Card
import Mathlib.Data.Nat.ModEq

/-!
# Strides around a circle

Steps of length `s` from any point `c` of a circle of `n` places: two of them
end at one place if and only if their numbers agree modulo `n / gcd n s`, so
`n` of them visit `n / gcd n s` places.
-/

namespace StrideLib

/-- The place after `k` steps. -/
def place (n s c k : Nat) : Nat := (c + s * k) % n

variable {n s c k j : Nat}

theorem place_lt (hn : 0 < n) (k : Nat) : place n s c k < n := Nat.mod_lt _ hn

/-- **When two walks meet**. -/
theorem place_eq_iff (hn : 0 < n) :
    place n s c k = place n s c j ↔ k ≡ j [MOD n / Nat.gcd n s] := by
  constructor
  · intro h
    exact (Nat.ModEq.add_left_cancel' c h).cancel_left_div_gcd hn
  · intro h
    -- `n` divides `s` times the period
    have hdvd : n ∣ s * (n / Nat.gcd n s) := by
      rw [← Nat.mul_div_assoc s (Nat.gcd_dvd_left n s), Nat.mul_comm,
        Nat.mul_div_assoc n (Nat.gcd_dvd_right n s)]
      exact Nat.dvd_mul_right n _
    exact ((h.mul_left' s).of_dvd hdvd).add_left c

theorem period_pos (hn : 0 < n) : 0 < n / Nat.gcd n s :=
  Nat.div_pos (Nat.gcd_le_left s hn) (Nat.gcd_pos_of_pos_left s hn)

/-- The first steps, up to the period, go to different places. -/
theorem place_injOn (hn : 0 < n) :
    Set.InjOn (place n s c) (Finset.range (n / Nat.gcd n s)) := by
  intro k hk j hj h
  have hmod := (place_eq_iff hn).mp h
  rw [Finset.coe_range, Set.mem_Iio] at hk hj
  exact Nat.ModEq.eq_of_lt_of_lt hmod hk hj

/-- Steps beyond the period add no place. -/
theorem image_place (hn : 0 < n) :
    (Finset.range n).image (place n s c) = (Finset.range (n / Nat.gcd n s)).image (place n s c) := by
  apply Finset.Subset.antisymm
  · intro p hp
    obtain ⟨k, -, rfl⟩ := Finset.mem_image.mp hp
    refine Finset.mem_image.mpr ⟨k % (n / Nat.gcd n s), ?_, ?_⟩
    · exact Finset.mem_range.mpr (Nat.mod_lt k (period_pos hn))
    · exact (place_eq_iff hn).mpr (Nat.mod_modEq k _)
  · exact Finset.image_subset_image (Finset.range_mono (Nat.div_le_self n _))

/-- **How many places `n` steps visit**. -/
theorem card_image_place (hn : 0 < n) :
    ((Finset.range n).image (place n s c)).card = n / Nat.gcd n s := by
  rw [image_place hn, Finset.card_image_of_injOn (place_injOn hn), Finset.card_range]

/-- The steps go to different places if and only if the stride is coprime to the
circle. -/
theorem injOn_place_iff (hn : 0 < n) :
    Set.InjOn (place n s c) (Finset.range n) ↔ Nat.gcd n s = 1 := by
  rw [← Finset.card_image_iff, card_image_place hn, Finset.card_range]
  constructor
  · intro h
    have hmul := Nat.div_mul_cancel (Nat.gcd_dvd_left n s)
    rw [h] at hmul
    exact Nat.eq_of_mul_eq_mul_left hn (hmul.trans (Nat.mul_one n).symm)
  · intro h
    rw [h, Nat.div_one]

/-- Then they visit every place once. -/
theorem existsUnique_place (hn : 0 < n) (hgcd : Nat.gcd n s = 1) {p : Nat} (hp : p < n) :
    ∃! k, k < n ∧ place n s c k = p := by
  have hinj : Set.InjOn (place n s c) (Finset.range n) := (injOn_place_iff hn).mpr hgcd
  have hsubset : (Finset.range n).image (place n s c) ⊆ Finset.range n := by
    intro p hp
    obtain ⟨k, -, rfl⟩ := Finset.mem_image.mp hp
    exact Finset.mem_range.mpr (place_lt hn k)
  have hall : (Finset.range n).image (place n s c) = Finset.range n := by
    refine Finset.eq_of_subset_of_card_le hsubset ?_
    rw [card_image_place hn, hgcd, Nat.div_one, Finset.card_range]
  obtain ⟨k, hk, hkp⟩ := Finset.mem_image.mp (hall ▸ Finset.mem_range.mpr hp)
  refine ⟨k, ⟨Finset.mem_range.mp hk, hkp⟩, ?_⟩
  rintro j ⟨hj, hjp⟩
  exact hinj (Finset.mem_coe.mpr (Finset.mem_range.mpr hj)) (Finset.mem_coe.mpr hk)
    (hjp.trans hkp.symm)

end StrideLib
