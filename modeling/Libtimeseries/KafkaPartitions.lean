import Libtimeseries.Base.Strides
import Libtimeseries.Kafka

/-!
# Partitions of periodic flushes

A program that flushes every `s` minutes sends its messages to the partitions
`(t / 60) % P` of the times `t`. The partitioner truncates the time to minutes,
so the flushes walk around the partitions in strides of `s` (`Base.Strides`),
whatever the second of the minute they start in: `P` of them reach
`P / gcd(s, P)` partitions, and all of them if and only if `s` and `P` are
coprime. A count that is no multiple of the step is not enough: with 6 partitions
and a step of 4 minutes, 3 partitions get everything.
-/

namespace Libtimeseries

open ByteLib StrideLib

namespace Kafka

/-- `swaptime` of `SEND_MSG`: the key of a message. -/
def swaptime (time : UInt32) : Bytes := beBytes 4 time.toNat

/-- The partition of the `k`-th flush of a series that starts at the time `t₀`,
with a step of `s` minutes. -/
def flushPartition (partitionCnt s t₀ k : Nat) : Nat :=
  timePartitioner (swaptime (UInt32.ofNat (t₀ + 60 * s * k))) partitionCnt

/-- The flushes stride around the partitions. -/
theorem flushPartition_eq (partitionCnt : Nat) {s t₀ k : Nat} (ht : t₀ + 60 * s * k < 2 ^ 32) :
    flushPartition partitionCnt s t₀ k = place partitionCnt s (t₀ / 60) k := by
  have hnat : (UInt32.ofNat (t₀ + 60 * s * k)).toNat = t₀ + 60 * s * k :=
    UInt32.toNat_ofNat_of_lt ht
  have hminutes : (t₀ + 60 * s * k) / 60 = t₀ / 60 + s * k := by
    rw [Nat.mul_assoc, Nat.add_mul_div_left t₀ (s * k) (by decide)]
  rw [flushPartition, timePartitioner, swaptime, beNat_beBytes (UInt32.toNat_lt _), hnat, hminutes,
    place]

/-- **Partition coverage**: `P` flushes with a step of `s` minutes reach
`P / gcd(s, P)` partitions; they go to different partitions, one to each, if and
only if `s` and `P` are coprime. -/
theorem flushPartition_coverage {partitionCnt s t₀ : Nat} (hcnt : 1 ≤ partitionCnt)
    (ht : t₀ + 60 * s * (partitionCnt - 1) < 2 ^ 32) :
    ((∀ k j, k < partitionCnt → j < partitionCnt →
          flushPartition partitionCnt s t₀ k = flushPartition partitionCnt s t₀ j → k = j) ↔
        Nat.gcd s partitionCnt = 1) ∧
      ((∀ part, part < partitionCnt →
          ∃! k, k < partitionCnt ∧ flushPartition partitionCnt s t₀ k = part) ↔
        Nat.gcd s partitionCnt = 1) ∧
      ((Finset.range partitionCnt).image (flushPartition partitionCnt s t₀)).card
        = partitionCnt / Nat.gcd s partitionCnt := by
  have heq : ∀ k, k < partitionCnt →
      flushPartition partitionCnt s t₀ k = place partitionCnt s (t₀ / 60) k := by
    intro k hk
    refine flushPartition_eq partitionCnt (Nat.lt_of_le_of_lt ?_ ht)
    exact Nat.add_le_add_left (Nat.mul_le_mul_left _ (by omega)) t₀
  have himage : (Finset.range partitionCnt).image (flushPartition partitionCnt s t₀)
      = (Finset.range partitionCnt).image (place partitionCnt s (t₀ / 60)) :=
    Finset.image_congr fun k hk => heq k (Finset.mem_range.mp (Finset.mem_coe.mp hk))
  have hinj := injOn_place_iff (c := t₀ / 60) (s := s) hcnt
  rw [Nat.gcd_comm] at hinj
  have hone : (∀ k j, k < partitionCnt → j < partitionCnt →
      flushPartition partitionCnt s t₀ k = flushPartition partitionCnt s t₀ j → k = j) ↔
      Nat.gcd s partitionCnt = 1 := by
    rw [← hinj]
    constructor
    · intro h k hk j hj hkj
      rw [Finset.coe_range, Set.mem_Iio] at hk hj
      exact h k j hk hj (by rw [heq k hk, heq j hj, hkj])
    · intro h k j hk hj hkj
      rw [heq k hk, heq j hj] at hkj
      exact h (Finset.mem_coe.mpr (Finset.mem_range.mpr hk))
        (Finset.mem_coe.mpr (Finset.mem_range.mpr hj)) hkj
  refine ⟨hone, ⟨fun h => hone.mp ?_, fun h part hpart => ?_⟩, ?_⟩
  · -- each partition gets a flush, and there are as many
    intro k j hk hj hkj
    have hlt : flushPartition partitionCnt s t₀ k < partitionCnt := by
      rw [heq k hk]
      exact place_lt hcnt k
    obtain ⟨i, -, hunique⟩ := h _ hlt
    exact (hunique k ⟨hk, rfl⟩).trans (hunique j ⟨hj, hkj.symm⟩).symm
  · obtain ⟨k, ⟨hk, hkp⟩, hunique⟩ :=
      existsUnique_place (c := t₀ / 60) hcnt (Nat.gcd_comm s partitionCnt ▸ h) hpart
    refine ⟨k, ⟨hk, (heq k hk).trans hkp⟩, ?_⟩
    rintro j ⟨hj, hjp⟩
    exact hunique j ⟨hj, (heq j hj).symm.trans hjp⟩
  · rw [himage, card_image_place hcnt, Nat.gcd_comm]

/-- A step of 4 minutes and 6 partitions. -/
theorem flushPartition_coverage_six :
    ((∀ k j, k < 6 → j < 6 → flushPartition 6 4 90 k = flushPartition 6 4 90 j → k = j) ↔
        Nat.gcd 4 6 = 1) ∧
      ((∀ part, part < 6 → ∃! k, k < 6 ∧ flushPartition 6 4 90 k = part) ↔ Nat.gcd 4 6 = 1) ∧
      ((Finset.range 6).image (flushPartition 6 4 90)).card = 6 / Nat.gcd 4 6 :=
  flushPartition_coverage (by decide) (by decide)

end Kafka

end Libtimeseries
