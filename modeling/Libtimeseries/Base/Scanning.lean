import Libtimeseries.Base.Bytes
import Libtimeseries.Base.Words

/-!
# Splitting lines and reading numbers

The functions of the C library that read text, with `unsigned long` of 64 bits:

- `strsep`: the token in front of the first separator, and what is left;
- `strtoull`: white space, a sign and decimal digits. Reading fails without an
  error code when there are no digits, and sets `errno` to `ERANGE` when the
  digits do not fit;
- `atoi`: the same for a `long`, which is clamped, and then converted to `int`.

`strtoull_toDigits` is the round trip: the decimal digits of a number are read to
their end, and give the number. What a string means, whoever reads it, is its
fields (`List.splitOn`) and the integer that a field denotes (`numeral`);
`strsep_splitOn` and `strtoull_numeral` compare.
-/

namespace ByteLib

open WordLib

/-! ## Tokens -/

/-- The first `n` bytes of a string. -/
def CString.take (n : Nat) (s : CString) : CString :=
  ⟨s.bytes.take n, fun h => s.nulFree (List.mem_of_mem_take h)⟩

/-- A string without its first `n` bytes. -/
def CString.drop (n : Nat) (s : CString) : CString :=
  ⟨s.bytes.drop n, fun h => s.nulFree (List.mem_of_mem_drop h)⟩

/-- C's `strcspn` with one separator. -/
def CString.strcspn (s : CString) (sep : UInt8) : Nat := (s.bytes.takeWhile (· ≠ sep)).length

/-- C's `strsep` with one separator, of a pointer that may be NULL. -/
def strsep (sep : UInt8) : Option CString → Option (CString × Option CString)
  | none => none
  | some s =>
    let n := s.strcspn sep
    some (s.take n, if n < s.strlen then some (s.drop (n + 1)) else none)

theorem takeWhile_ne_append {α : Type} [DecidableEq α] {sep : α} {a : List α} (ha : sep ∉ a)
    (b : List α) :
    (a ++ sep :: b).takeWhile (· ≠ sep) = a := by
  have hall : ∀ c ∈ a, decide (c ≠ sep) = true := by
    intro c hc
    simpa using fun h : c = sep => ha (h ▸ hc)
  rw [List.takeWhile_append_of_pos hall, List.takeWhile_cons_of_neg (by simp), List.append_nil]

/-- The token in front of a separator. -/
theorem strsep_append {sep : UInt8} {s token rest : CString}
    (hs : s.bytes = token.bytes ++ sep :: rest.bytes) (htoken : sep ∉ token.bytes) :
    strsep sep (some s) = some (token, some rest) := by
  have hn : s.strcspn sep = token.bytes.length := by
    rw [CString.strcspn, hs, takeWhile_ne_append htoken]
  have htake : s.take token.bytes.length = token := by
    rw [CString.ext_iff']
    show s.bytes.take token.bytes.length = token.bytes
    rw [hs]
    exact List.take_left
  have hdrop : s.drop (token.bytes.length + 1) = rest := by
    rw [CString.ext_iff']
    show s.bytes.drop (token.bytes.length + 1) = rest.bytes
    rw [hs, List.append_cons]
    exact List.drop_left' (by simp)
  have hlt : token.bytes.length < s.strlen := by
    rw [CString.strlen, hs]
    simp
  rw [strsep, hn, if_pos hlt, htake, hdrop]

/-- The last token. -/
theorem strsep_last {sep : UInt8} {s : CString} (hs : sep ∉ s.bytes) :
    strsep sep (some s) = some (s, none) := by
  have hn : s.strcspn sep = s.strlen := by
    rw [CString.strcspn, CString.strlen, List.takeWhile_eq_self_iff.mpr]
    intro c hc
    simpa using fun h : c = sep => hs (h ▸ hc)
  have htake : s.take s.strlen = s := by
    rw [CString.ext_iff']
    exact List.take_length
  rw [strsep, hn, htake, if_neg (Nat.lt_irrefl s.strlen)]

/-- `strsep` walks through the fields of a string. -/
theorem strsep_splitOn (sep : UInt8) (s : CString) :
    ∃ token rest, strsep sep (some s) = some (token, rest) ∧
      s.bytes.splitOn sep = token.bytes :: rest.elim [] fun r => r.bytes.splitOn sep := by
  by_cases hsep : sep ∈ s.bytes
  · obtain ⟨a, b, hab, ha⟩ := List.eq_append_cons_of_mem hsep
    have hnul : ∀ l : Bytes, (∀ c ∈ l, c ∈ s.bytes) → (0 : UInt8) ∉ l :=
      fun l hl h => s.nulFree (hl 0 h)
    have htoken : (0 : UInt8) ∉ a := hnul a fun c hc => hab ▸ List.mem_append_left _ hc
    have hrest : (0 : UInt8) ∉ b :=
      hnul b fun c hc => hab ▸ List.mem_append_right _ (List.mem_cons_of_mem _ hc)
    refine ⟨⟨a, htoken⟩, some ⟨b, hrest⟩, strsep_append hab ha, ?_⟩
    rw [hab, List.splitOn_append_cons_self_of_not_mem ha]
    rfl
  · exact ⟨s, none, strsep_last hsep, List.splitOn_eq_singleton hsep⟩

/-! ## Numbers -/

/-- C's `isspace`. -/
def isSpace (b : UInt8) : Bool := b == 32 || (9 ≤ b && b ≤ 13)

/-- C's `isdigit`. -/
def isDigit (b : UInt8) : Bool := 48 ≤ b && b ≤ 57

/-- The number some digits stand for. -/
def digitsVal (ds : Bytes) : Nat := ds.foldl (fun n d => 10 * n + (d.toNat - 48)) 0

/-- An optional sign: is it a minus, and what comes behind it? -/
def sign : Bytes → Bool × Bytes
  | [] => (false, [])
  | b :: bs => if b = 45 then (true, bs) else if b = 43 then (false, bs) else (false, b :: bs)

/-- What reading a number gives: its value, the bytes from `end` on, and whether
`errno` is set to `ERANGE`. -/
structure Scanned where
  value : UInt64
  rest : Bytes
  range : Bool
deriving DecidableEq

/-- C's `strtoull(str, &end, 10)`. -/
def strtoull (str : Bytes) : Scanned :=
  let signed := sign (str.dropWhile isSpace)
  let digits := signed.2.takeWhile isDigit
  let rest := signed.2.drop digits.length
  if digits = [] then ⟨0, str, false⟩
  else if UInt64.size ≤ digitsVal digits then ⟨UInt64.ofNat (UInt64.size - 1), rest, true⟩
  else
    let n := UInt64.ofNat (digitsVal digits)
    ⟨if signed.1 then 0 - n else n, rest, false⟩

/-- C's `strtol(str, NULL, 10)`: the value is clamped to the range of `long`, and
is 0 without digits. -/
def strtol (str : Bytes) : Int :=
  let signed := sign (str.dropWhile isSpace)
  let n : Int := digitsVal (signed.2.takeWhile isDigit)
  if signed.1 then max (-2 ^ 63) (-n) else min (2 ^ 63 - 1) n

/-- C's `atoi`, by way of `strtol`. -/
def atoi (str : Bytes) : Int32 := Int32.ofInt (strtol str)

theorem not_isSpace_of_isDigit {b : UInt8} (h : isDigit b = true) : isSpace b = false := by
  simp only [isDigit, Bool.and_eq_true, decide_eq_true_eq, UInt8.le_iff_toNat_le] at h
  have hb : b ≠ 32 := by
    rintro rfl
    exact absurd h.1 (by decide)
  have h13 : ¬ b ≤ 13 := by
    rw [UInt8.le_iff_toNat_le]
    exact fun h13 => absurd (Nat.le_trans h.1 h13) (by decide)
  simp [isSpace, hb, h13]

theorem sign_of_isDigit {b : UInt8} (h : isDigit b = true) (bs : Bytes) :
    sign (b :: bs) = (false, b :: bs) := by
  have h45 : b ≠ 45 := by
    rintro rfl
    exact absurd h (by decide)
  have h43 : b ≠ 43 := by
    rintro rfl
    exact absurd h (by decide)
  rw [sign, if_neg h45, if_neg h43]

/-- A string of digits that fit is read to its end. -/
theorem strtoull_digits {ds : Bytes} (hne : ds ≠ []) (hds : ∀ d ∈ ds, isDigit d = true)
    (hfit : digitsVal ds < UInt64.size) :
    strtoull ds = ⟨UInt64.ofNat (digitsVal ds), [], false⟩ := by
  have hsigned : sign (ds.dropWhile isSpace) = (false, ds) := by
    obtain ⟨d, ds, rfl⟩ := List.exists_cons_of_ne_nil hne
    have hd := hds d List.mem_cons_self
    rw [List.dropWhile_cons_of_neg (by simp [not_isSpace_of_isDigit hd]), sign_of_isDigit hd]
  have hall : ds.takeWhile isDigit = ds := List.takeWhile_eq_self_iff.mpr hds
  rw [strtoull, hsigned]
  dsimp only
  rw [hall, if_neg hne, if_neg (Nat.not_le.mpr hfit), List.drop_length]
  rfl

/-! ## Decimal digits -/

/-- The bytes of some characters. -/
def asciiBytes (cs : List Char) : Bytes := cs.map fun c => UInt8.ofNat c.toNat

theorem isDigit_of_char {c : Char} (h : c.isDigit = true) :
    isDigit (UInt8.ofNat c.toNat) = true ∧ (UInt8.ofNat c.toNat).toNat = c.toNat := by
  simp only [Char.isDigit, Bool.and_eq_true, decide_eq_true_eq] at h
  have hlow : 48 ≤ c.toNat := h.1
  have hhigh : c.toNat ≤ 57 := h.2
  have htoNat : (UInt8.ofNat c.toNat).toNat = c.toNat := by
    rw [UInt8.toNat_ofNat']
    omega
  refine ⟨?_, htoNat⟩
  simp only [isDigit, Bool.and_eq_true, decide_eq_true_eq, UInt8.le_iff_toNat_le, htoNat]
  exact ⟨hlow, hhigh⟩

theorem digitsVal_asciiBytes {cs : List Char} (hcs : ∀ c ∈ cs, c.isDigit = true) :
    digitsVal (asciiBytes cs) = Nat.ofDigitChars 10 cs 0 := by
  unfold digitsVal asciiBytes
  rw [Nat.ofDigitChars_eq_foldl]
  generalize (0 : Nat) = n
  induction cs generalizing n with
  | nil => rfl
  | cons c cs ih =>
    have hc := (isDigit_of_char (hcs c List.mem_cons_self)).2
    rw [List.map_cons, List.foldl_cons, List.foldl_cons, hc]
    exact ih (fun c' hc' => hcs c' (List.mem_cons_of_mem _ hc')) _

theorem isDigit_toDigits {n : Nat} {b : UInt8} (hb : b ∈ asciiBytes (Nat.toDigits 10 n)) :
    isDigit b = true := by
  obtain ⟨c, hc, rfl⟩ := List.mem_map.mp hb
  exact (isDigit_of_char (Nat.isDigit_of_mem_toDigits (by decide) (by decide) hc)).1

theorem digitsVal_toDigits (n : Nat) : digitsVal (asciiBytes (Nat.toDigits 10 n)) = n := by
  rw [digitsVal_asciiBytes fun c hc => Nat.isDigit_of_mem_toDigits (by decide) (by decide) hc]
  exact Nat.ofDigitChars_ten_toDigits

/-- **Round trip**: the decimal digits of a number are read back as the number. -/
theorem strtoull_toDigits {n : Nat} (hn : n < UInt64.size) :
    strtoull (asciiBytes (Nat.toDigits 10 n)) = ⟨UInt64.ofNat n, [], false⟩ := by
  have hne : asciiBytes (Nat.toDigits 10 n) ≠ [] := by
    rw [asciiBytes, ne_eq, List.map_eq_nil_iff]
    exact Nat.toDigits_ne_nil
  have hval := digitsVal_toDigits n
  rw [strtoull_digits hne (fun _ => isDigit_toDigits) (hval.symm ▸ hn), hval]

/-! ## Numerals -/

/-- The integer that a string denotes: it has white space, a sign if any, digits, and
nothing else. -/
def numeral (str : Bytes) : Option Int :=
  let signed := sign (str.dropWhile isSpace)
  if signed.2 ≠ [] ∧ signed.2.all isDigit = true then
    some (if signed.1 then -digitsVal signed.2 else digitsVal signed.2)
  else
    none

/-- The digits that `strtoull` reads. -/
def leadingDigits (str : Bytes) : Bytes := (sign (str.dropWhile isSpace)).2.takeWhile isDigit

/-- Does the number at the start of a string not fit? -/
def overflows (str : Bytes) : Bool := decide (UInt64.size ≤ digitsVal (leadingDigits str))

/-- The integer that a string denotes, if it fits. -/
def number (str : Bytes) : Option Int :=
  (numeral str).filter fun z => decide (z.natAbs < UInt64.size)

theorem strtoull_range (str : Bytes) : (strtoull str).range = overflows str := by
  unfold strtoull overflows leadingDigits
  dsimp only
  split
  · next h => rw [h]; rfl
  · split
    · next h => exact (decide_eq_true h).symm
    · next h => exact (decide_eq_false h).symm

/-- Numerals are the strings that `strtoull` reads to their end. -/
theorem isSome_numeral (str : Bytes) :
    (numeral str).isSome = true ↔ (strtoull str).rest = [] ∧ (strtoull str).rest ≠ str := by
  have hrest : (strtoull str).rest
      = if leadingDigits str = [] then str
        else (sign (str.dropWhile isSpace)).2.drop (leadingDigits str).length := by
    unfold strtoull leadingDigits
    dsimp only
    split
    · rfl
    · split <;> rfl
  have hsome : (numeral str).isSome = true ↔ (sign (str.dropWhile isSpace)).2 ≠ [] ∧
      (sign (str.dropWhile isSpace)).2.all isDigit = true := by
    unfold numeral
    dsimp only
    split
    · next h => exact iff_of_true rfl h
    · next h => exact iff_of_false (by simp) h
  have hnil : str = [] → (sign (str.dropWhile isSpace)).2 = [] := by
    rintro rfl
    rfl
  rw [hsome, hrest, leadingDigits, List.all_eq_true]
  generalize (sign (str.dropWhile isSpace)).2 = digits at hnil ⊢
  constructor
  · rintro ⟨hne, hall⟩
    rw [List.takeWhile_eq_self_iff.mpr hall, if_neg hne, List.drop_length]
    exact ⟨rfl, fun h => hne (hnil h.symm)⟩
  · rintro ⟨hend, hread⟩
    have hne : digits.takeWhile isDigit ≠ [] := fun h => hread (if_pos h)
    rw [if_neg hne, List.drop_eq_nil_iff] at hend
    have hall : digits.takeWhile isDigit = digits := (List.takeWhile_prefix _).eq_of_length_le hend
    rw [hall] at hne
    exact ⟨hne, List.takeWhile_eq_self_iff.mp hall⟩

/-- What `strtoull` makes of a numeral. -/
theorem strtoull_numeral {str : Bytes} {z : Int} (h : numeral str = some z) :
    overflows str = decide (UInt64.size ≤ z.natAbs) ∧
      (z.natAbs < UInt64.size → (strtoull str).value = UInt64.ofInt z) := by
  unfold numeral at h
  unfold overflows leadingDigits strtoull
  dsimp only at h ⊢
  generalize sign (str.dropWhile isSpace) = signed at h ⊢
  obtain ⟨minus, digits⟩ := signed
  split at h
  · next hdigits =>
    rw [List.takeWhile_eq_self_iff.mpr (List.all_eq_true.mp hdigits.2)]
    have habs : z.natAbs = digitsVal digits := by
      rw [← Option.some.inj h]
      split <;> simp
    rw [habs]
    refine ⟨rfl, fun hfit => ?_⟩
    rw [if_neg hdigits.1, if_neg (Nat.not_le.mpr hfit)]
    rw [← Option.some.inj h]
    cases minus with
    | false =>
      show UInt64.ofNat (digitsVal digits) = UInt64.ofInt (digitsVal digits)
      exact (ofInt_natCast _).symm
    | true =>
      show 0 - UInt64.ofNat (digitsVal digits) = UInt64.ofInt (-digitsVal digits)
      rw [UInt64.ofInt_neg, ofInt_natCast, UInt64.zero_sub]
  · cases h

end ByteLib
