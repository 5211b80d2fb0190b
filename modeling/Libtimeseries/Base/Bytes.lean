import Mathlib.Algebra.Group.Nat.Defs
import Mathlib.Data.List.Basic
import Mathlib.Data.List.Range
import Mathlib.Data.List.TakeWhile
import Mathlib.Data.Nat.Basic

/-!
# Byte strings

A small library for programs that serialise into a reusable buffer:

- `beBytes w n`, `beNat`: the `w`-byte big-endian numeral and its reader, with
  the round trip `beNat_beBytes`;
- `cstr`: the C string at the start of a byte array, `CString`: a byte string
  that carries its own NUL-freeness;
- `strncmpEq`: when C's `strncmp` answers zero;
- `Mem`, `load`, `store`: a flat byte memory, with the one law a bump-pointer
  writer needs (`load_store_append`).
-/

namespace ByteLib

/-- A byte string. -/
abbrev Bytes := List UInt8

/-! ## Big-endian numerals -/

/-- The `w`-byte big-endian numeral of `n`, most significant byte first. -/
def beBytes : Nat → Nat → Bytes
  | 0, _ => []
  | w + 1, n => UInt8.ofNat (n / 256 ^ w) :: beBytes w n

/-- The number a big-endian numeral stands for. -/
def beNat : Bytes → Nat
  | [] => 0
  | b :: bs => b.toNat * 256 ^ bs.length + beNat bs

@[simp] theorem beBytes_length (w n : Nat) : (beBytes w n).length = w := by
  induction w with
  | zero => rfl
  | succ w ih => rw [beBytes, List.length_cons, ih]

/-- A numeral carries its number modulo the width. -/
theorem beNat_beBytes_mod (w n : Nat) : beNat (beBytes w n) = n % 256 ^ w := by
  induction w with
  | zero => simp [beBytes, beNat, Nat.mod_one]
  | succ w ih =>
    -- the leading digit is cut to a byte, which is where the modulus comes from
    have hdigit : (UInt8.ofNat (n / 256 ^ w)).toNat = n / 256 ^ w % 256 := by simp
    rw [beBytes, beNat, beBytes_length, ih, hdigit, Nat.mod_pow_succ]
    rw [Nat.mul_comm, Nat.add_comm]

/-- **Round trip**: a number that fits the width is read back unchanged. -/
theorem beNat_beBytes {w n : Nat} (h : n < 256 ^ w) : beNat (beBytes w n) = n := by
  rw [beNat_beBytes_mod, Nat.mod_eq_of_lt h]

/-! ## C strings -/

/-- The C string stored at the start of a byte array: everything before the
first NUL. -/
def cstr (bs : Bytes) : Bytes :=
  bs.takeWhile (· != 0)

theorem cstr_of_nulFree {bs : Bytes} (h : (0 : UInt8) ∉ bs) : cstr bs = bs := by
  unfold cstr
  rw [List.takeWhile_eq_self_iff]
  intro b hb
  simpa using fun hb0 : b = 0 => h (hb0 ▸ hb)

theorem nulFree_cstr (bs : Bytes) : (0 : UInt8) ∉ cstr bs := by
  intro h
  simpa using List.mem_takeWhile_imp h

/-- A NUL-free byte string, the contents of a C `char *`. -/
structure CString where
  bytes : Bytes
  nulFree : (0 : UInt8) ∉ bytes
deriving DecidableEq

namespace CString

theorem ext_iff' {a b : CString} : a = b ↔ a.bytes = b.bytes := by
  cases a
  cases b
  simp

/-- C's `strlen`. -/
def strlen (s : CString) : Nat := s.bytes.length

/-- The C string at the start of a byte array. -/
def ofBytes (bs : Bytes) : CString := ⟨cstr bs, nulFree_cstr bs⟩

/-- A string literal. -/
def ofAscii (s : String) : CString :=
  ofBytes (s.toList.map fun c => UInt8.ofNat c.toNat)

end CString

/-- `strncmp(a, b, n) == 0`: both strings agree up to `n` characters, the
terminator counting as one. -/
def strncmpEq (a b : CString) (n : Nat) : Bool :=
  a.bytes.take n == b.bytes.take n

/-- Compared over its whole length, a string matches exactly its extensions. -/
theorem strncmpEq_strlen (a b : CString) :
    strncmpEq a b a.strlen = true ↔ a.bytes <+: b.bytes := by
  unfold strncmpEq CString.strlen
  rw [List.take_length, beq_iff_eq, List.prefix_iff_eq_take]

/-! ## Flat memory -/

/-- A byte memory, indexed by offset. -/
abbrev Mem := Nat → UInt8

/-- The first `n` bytes. -/
def load (m : Mem) (n : Nat) : Bytes :=
  (List.range n).map m

/-- `memcpy` of `bs` to offset `off`. -/
def store (m : Mem) (off : Nat) (bs : Bytes) : Mem := fun i =>
  if off ≤ i then (bs[i - off]?).getD (m i) else m i

@[simp] theorem load_length (m : Mem) (n : Nat) : (load m n).length = n := by
  simp [load]

/-- **Appending**: writing `bs` right behind the first `n` bytes extends what is
read by `bs`. -/
theorem load_store_append (m : Mem) (n : Nat) (bs : Bytes) :
    load (store m n bs) (n + bs.length) = load m n ++ bs := by
  apply List.ext_getElem
  · simp
  · intro i h₁ h₂
    by_cases hi : i < n
    · rw [List.getElem_append_left (by simpa using hi)]
      simp [load, store, show ¬ n ≤ i by omega]
    · have hlen : i - n < bs.length := by
        simp at h₁
        omega
      rw [List.getElem_append_right (by simpa using hi)]
      simp [load, store, show n ≤ i by omega, hlen]

/-- A shorter read is the start of a longer one. -/
theorem load_take (m : Mem) {k n : Nat} (h : k ≤ n) : (load m n).take k = load m k := by
  unfold load
  rw [← List.map_take, List.take_range, Nat.min_eq_left h]

/-- What is written behind the part that is read does not matter. -/
theorem load_store_prefix (m : Mem) (n : Nat) (bs bs' : Bytes) :
    load (store m n (bs ++ bs')) (n + bs.length) = load m n ++ bs := by
  have h := load_store_append m n (bs ++ bs')
  rw [← load_take _ (show n + bs.length ≤ n + (bs ++ bs').length by simp), h,
    ← List.append_assoc, List.take_left' (by simp)]

/-- Bytes above the written area are untouched. -/
theorem store_above (m : Mem) {off i : Nat} {bs : Bytes} (h : off + bs.length ≤ i) :
    store m off bs i = m i := by
  unfold store
  rw [if_pos (by omega), List.getElem?_eq_none (by omega), Option.getD_none]

end ByteLib
