import Mathlib.Algebra.Group.Nat.Defs
import Mathlib.Algebra.Ring.Int.Defs
import Mathlib.Tactic.Common

/-!
# Machine words as integers

Conversions between words of either sign, and from integers, as equations of
integers that `omega` can use.
-/

namespace WordLib

theorem toInt_eq_bmod (i : Int32) : i.toInt = (i.toUInt32.toNat : Int).bmod (2 ^ 32) := by
  show i.toBitVec.toInt = _
  rw [BitVec.toInt_eq_toNat_bmod]
  rfl

/-- `(int) n` -/
theorem toInt_toInt32 (n : UInt32) : n.toInt32.toInt = (n.toNat : Int).bmod (2 ^ 32) := by
  rw [toInt_eq_bmod, UInt32.toUInt32_toInt32]

/-- `(uint32_t) i` -/
theorem toNat_toUInt32 (i : Int32) : (i.toUInt32.toNat : Int) = i.toInt % 2 ^ 32 := by
  have := i.toUInt32.toNat_lt
  rw [toInt_eq_bmod, Int.bmod_eq_emod]
  split <;> omega

/-- An integer converted to `int`, read as an unsigned number. -/
theorem toNat_ofInt (n : Int) : ((Int32.ofInt n).toUInt32.toNat : Int) = n % 2 ^ 32 := by
  rw [toNat_toUInt32, Int32.toInt_ofInt, show Int32.size = 2 ^ 32 from rfl, Int.bmod_eq_emod]
  split <;> omega

/-- `(uint64_t) i`, with the sign extended. -/
theorem toNat_toUInt64 (i : Int32) : (i.toInt64.toUInt64.toNat : Int) = i.toInt % 2 ^ 64 := by
  have h : i.toInt64.toInt = (i.toInt64.toUInt64.toNat : Int).bmod (2 ^ 64) := by
    show i.toInt64.toBitVec.toInt = _
    rw [BitVec.toInt_eq_toNat_bmod]
    rfl
  have hlt := i.toInt64.toUInt64.toNat_lt
  rw [Int32.toInt_toInt64, Int.bmod_eq_emod] at h
  rw [h]
  split <;> omega

/-- An integer converted to `uint64_t`. -/
theorem toNat_ofInt64 (n : Int) : ((UInt64.ofInt n).toNat : Int) = n % 2 ^ 64 := by
  rw [UInt64.ofInt, UInt64.toNat_ofNat']
  omega

theorem ofInt_natCast (n : Nat) : UInt64.ofInt n = UInt64.ofNat n := by
  have := toNat_ofInt64 n
  apply UInt64.toNat_inj.mp
  rw [UInt64.toNat_ofNat']
  omega

end WordLib
