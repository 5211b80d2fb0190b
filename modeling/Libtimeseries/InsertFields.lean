import Libtimeseries.InsertAscii

/-!
# What is on a line

`insert` expects `<key> <value> <time>`. It takes the first three fields of a line,
however many there are, and the numbers as `strtoull` gives them: reduced to 64
bits if they are negative, and the time to 32 bits.

- `record`: the key and the integers that `insert` sees on a line;
- `parse_eq`: what `insert` makes of a line, in these terms;
- `insert_exact_iff`: when what it stores is what the line says.
-/

namespace Libtimeseries

open ByteLib WordLib

variable {W : Type}

namespace Insert

/-- The fields of a line. -/
def fields (line : Bytes) : List Bytes := line.splitOn 32

/-- A key with two integers, not yet cut to the width of a point. -/
structure Record where
  key : Bytes
  value : Int
  time : Int

/-- `strtoull` of both numbers, and the time as an `uint32_t`. -/
def Record.point (r : Record) : Point :=
  ⟨CString.ofBytes r.key, UInt64.ofInt r.value, (UInt64.ofInt r.time).toUInt32⟩

/-- The record in the first three fields of a line. -/
def record (line : Bytes) : Option Record :=
  match fields line with
  | key :: value :: time :: _ =>
    match number value, number time with
    | some v, some t => some ⟨key, v, t⟩
    | _, _ => none
  | _ => none

/-- Does reading the line set `errno`? The time is not read if the value is wrong. -/
def lineOverflows (line : Bytes) : Bool :=
  match fields line with
  | _ :: value :: times =>
    overflows value || ((number value).isSome && times.head?.any overflows)
  | _ => false

/-! ## Reading a line -/

theorem number_of_overflows {str : Bytes} (h : overflows str = true) : number str = none := by
  unfold number
  cases hz : numeral str with
  | none => rfl
  | some z =>
    have hlarge := (strtoull_numeral hz).1
    rw [h, eq_comm, decide_eq_true_eq] at hlarge
    exact Option.filter_eq_none_iff.mpr fun z' hz' => by
      obtain rfl : z = z' := Option.some.inj hz'
      simpa using hlarge

theorem number_of_not_overflows {str : Bytes} (h : overflows str = false) :
    number str = numeral str := by
  unfold number
  cases hz : numeral str with
  | none => rfl
  | some z =>
    have hlarge := (strtoull_numeral hz).1
    rw [h, eq_comm, decide_eq_false_iff_not, Nat.not_le] at hlarge
    exact Option.filter_some_pos (decide_eq_true hlarge)

theorem not_overflows_of_number {str : Bytes} {z : Int} (h : number str = some z) :
    overflows str = false := by
  by_contra hlarge
  rw [number_of_overflows (Bool.not_eq_false _ ▸ hlarge)] at h
  cases h

/-- Nothing is read when `errno` is set, before or by this number. -/
theorem parseNumber_erange {erange : Bool} {str : CString}
    (h : (erange || overflows str.bytes) = true) : parseNumber erange str = (none, true) := by
  unfold parseNumber
  dsimp only
  rw [strtoull_range, h, if_pos (.inr (.inr rfl))]

/-- Otherwise the whole string has to be a numeral. -/
theorem parseNumber_fits {str : CString} (h : overflows str.bytes = false) :
    parseNumber false str = ((numeral str.bytes).map UInt64.ofInt, false) := by
  have hsome := isSome_numeral str.bytes
  unfold parseNumber
  dsimp only
  rw [strtoull_range, h]
  cases hz : numeral str.bytes with
  | none =>
    rw [hz] at hsome
    rw [if_pos]
    · rfl
    · by_contra hread
      simp only [not_or, not_not] at hread
      exact Bool.false_ne_true (hsome.mpr ⟨hread.2.1, hread.1⟩)
  | some z =>
    rw [hz] at hsome
    obtain ⟨hend, hread⟩ := hsome.mp rfl
    obtain ⟨hlarge, hvalue⟩ := strtoull_numeral hz
    rw [h, eq_comm, decide_eq_false_iff_not, Nat.not_le] at hlarge
    have hnot : ¬ ((strtoull str.bytes).rest = str.bytes ∨ (strtoull str.bytes).rest ≠ [] ∨
        (false || false) = true) := by
      rintro (h | h | h)
      · exact hread h
      · exact h hend
      · cases h
    rw [if_neg hnot, hvalue hlarge]
    rfl

/-- A number is read if `errno` is not set before or while it is read. -/
theorem parseNumber_eq (erange : Bool) (str : CString) :
    parseNumber erange str = (if erange then none else (number str.bytes).map UInt64.ofInt,
      erange || overflows str.bytes) := by
  cases erange with
  | true => exact parseNumber_erange rfl
  | false =>
    cases hlarge : overflows str.bytes with
    | true =>
      have herange : (false || overflows str.bytes) = true := hlarge
      rw [parseNumber_erange herange, number_of_overflows hlarge]
      rfl
    | false =>
      rw [parseNumber_fits hlarge, number_of_not_overflows hlarge]
      rfl

/-- **What `insert` makes of a line**: its record, unless `errno` was set before. -/
theorem parse_eq (erange : Bool) (line : CString) :
    parse erange (some line) = (if erange then none else (record line.bytes).map Record.point,
      erange || lineOverflows line.bytes) := by
  obtain ⟨key, rest, hkey, hfields⟩ := strsep_splitOn 32 line
  have hkeyBytes : CString.ofBytes key.bytes = key :=
    CString.ext_iff'.mpr (cstr_of_nulFree key.nulFree)
  unfold parse record lineOverflows fields
  rw [hkey, hfields]
  dsimp only
  cases rest with
  | none => simp [strsep]
  | some rest =>
    obtain ⟨value, rest, hvalue, hfields⟩ := strsep_splitOn 32 rest
    rw [hvalue, Option.elim_some, hfields]
    dsimp only
    rw [parseNumber_eq]
    cases erange with
    | true => simp
    | false =>
      cases hv : number value.bytes with
      | none =>
        cases rest with
        | none => simp
        | some rest =>
          obtain ⟨time, rest, -, hfields⟩ := strsep_splitOn 32 rest
          rw [Option.elim_some, hfields]
          simp [hv]
      | some v =>
        have hvalueFits : overflows value.bytes = false := not_overflows_of_number hv
        cases rest with
        | none => simp [strsep, hvalueFits]
        | some rest =>
          obtain ⟨time, rest, htime, hfields⟩ := strsep_splitOn 32 rest
          rw [Option.elim_some, hfields, hvalueFits]
          simp only [hv, Bool.false_eq_true, if_false, Option.map_some, Bool.or_false, htime,
            parseNumber_eq]
          cases number time.bytes with
          | none => simp
          | some t => simp [Record.point, hkeyBytes]

theorem record_eq_some {line : Bytes} {r : Record} :
    record line = some r ↔ ∃ value time rest, fields line = r.key :: value :: time :: rest ∧
      number value = some r.value ∧ number time = some r.time := by
  unfold record
  constructor
  · intro h
    split at h
    · next key value time rest hfields =>
      split at h
      · next v t hv ht =>
        obtain rfl := Option.some.inj h
        exact ⟨value, time, rest, hfields, hv, ht⟩
      · cases h
    · cases h
  · rintro ⟨value, time, rest, hfields, hv, ht⟩
    rw [hfields]
    simp only [hv, ht]

/-- The first field is a string without NUL. -/
theorem key_of_fields {line : CString} {key : Bytes} {rest : List Bytes}
    (h : fields line.bytes = key :: rest) : (CString.ofBytes key).bytes = key := by
  obtain ⟨token, rest', -, hfields⟩ := strsep_splitOn 32 line
  obtain rfl : key = token.bytes := (List.cons.inj (h.symm.trans hfields)).1
  exact cstr_of_nulFree token.nulFree

/-- An integer that fits `uint64_t` and is not negative. -/
theorem toNat_ofInt_of_number {str : Bytes} {z : Int} (h : number str = some z) (hnonneg : 0 ≤ z) :
    ((UInt64.ofInt z).toNat : Int) = z := by
  have hfit : z.natAbs < UInt64.size := by
    simpa using (Option.filter_eq_some_iff.mp h).2
  rw [toNat_ofInt64]
  have : UInt64.size = 2 ^ 64 := rfl
  omega

theorem numeral_of_number {str : Bytes} {z : Int} (h : number str = some z) :
    numeral str = some z :=
  (Option.filter_eq_some_iff.mp h).1

/-! ## What is stored -/

/-- `insert` hands a point on, to `timeseries_set_single` or to the key package. -/
def Program.Forwards (p : Program W) (line : CString) (s : State W) (pt : Point) : Prop :=
  ∃ erange, parse s.erange (some line) = (some pt, erange) ∧
    p.insert (some line) s = p.insertPoint pt { s with erange := erange }

theorem Program.forwards_iff (p : Program W) (line : CString) (s : State W) (pt : Point) :
    p.Forwards line s pt ↔
      s.erange = false ∧ ∃ r, record line.bytes = some r ∧ r.point = pt := by
  constructor
  · rintro ⟨erange, hparse, -⟩
    rw [parse_eq, Prod.mk.injEq] at hparse
    cases herrno : s.erange with
    | true => simp [herrno] at hparse
    | false =>
      rw [herrno] at hparse
      exact ⟨rfl, Option.map_eq_some_iff.mp hparse.1⟩
  · rintro ⟨herrno, r, hrecord, rfl⟩
    have hparse : parse s.erange (some line) = (some r.point, lineOverflows line.bytes) := by
      rw [parse_eq, herrno, hrecord]
      rfl
    refine ⟨_, hparse, ?_⟩
    rw [Program.insert]
    simp only [hparse]

/-- The string is plain decimal digits of a number. -/
structure Decimal (str : Bytes) (n : Nat) : Prop where
  ne_nil : str ≠ []
  digits : ∀ d ∈ str, isDigit d = true
  value : digitsVal str = n

theorem Decimal.numeral {str : Bytes} {n : Nat} (h : Decimal str n) :
    numeral str = some (n : Int) := by
  obtain ⟨d, ds, rfl⟩ := List.exists_cons_of_ne_nil h.ne_nil
  have hd := h.digits d List.mem_cons_self
  unfold ByteLib.numeral
  rw [List.dropWhile_cons_of_neg (by simp [not_isSpace_of_isDigit hd]), sign_of_isDigit hd]
  dsimp only
  rw [if_pos ⟨h.ne_nil, List.all_eq_true.mpr h.digits⟩, h.value]
  rfl

theorem Decimal.number {str : Bytes} {n : Nat} (h : Decimal str n) (hfit : n < UInt64.size) :
    number str = some (n : Int) := by
  rw [ByteLib.number, h.numeral]
  exact Option.filter_some_pos (decide_eq_true hfit)

/-- The line is `<key> <value> <time>`, for this point, in whatever spelling of its
numbers. -/
def Spells (line : CString) (pt : Point) : Prop :=
  ∃ value time, fields line.bytes = [pt.key.bytes, value, time] ∧
    numeral value = some (pt.value.toNat : Int) ∧ numeral time = some (pt.time.toNat : Int)

/-- The line is that, in plain decimal digits. -/
def SpellsPlainly (line : CString) (pt : Point) : Prop :=
  ∃ value time, fields line.bytes = [pt.key.bytes, value, time] ∧
    Decimal value pt.value.toNat ∧ Decimal time pt.time.toNat

/-- What `insert` forwards is what the line says, and all that a plain line says. -/
structure Program.Exact (p : Program W) (line : CString) (s : State W) : Prop where
  sound : ∀ pt, p.Forwards line s pt → Spells line pt
  complete : ∀ pt, SpellsPlainly line pt → p.Forwards line s pt

/-- **When `insert` stores the numbers that were written**: if the second and third
field of the line are integers that fit 64 bits, then there is no fourth, neither
of them is negative, and the time fits 32 bits. -/
theorem insert_exact_iff (p : Program W) (line : CString) {s : State W}
    (herrno : s.erange = false) :
    p.Exact line s ↔
      ∀ key value time rest v t, fields line.bytes = key :: value :: time :: rest →
        number value = some v → number time = some t →
          rest = [] ∧ 0 ≤ v ∧ 0 ≤ t ∧ t < 2 ^ 32 := by
  constructor
  · intro h key value time rest v t hfields hv ht
    have hrecord : record line.bytes = some ⟨key, v, t⟩ :=
      record_eq_some.mpr ⟨value, time, rest, hfields, hv, ht⟩
    obtain ⟨value', time', hfields', hv', ht'⟩ :=
      h.sound _ ((p.forwards_iff line s _).mpr ⟨herrno, _, hrecord, rfl⟩)
    rw [hfields] at hfields'
    obtain ⟨rfl, rfl, rfl⟩ : value = value' ∧ time = time' ∧ rest = [] := by
      simpa using (List.cons.inj hfields').2
    rw [numeral_of_number hv, Option.some.injEq] at hv'
    rw [numeral_of_number ht, Option.some.injEq] at ht'
    have hlt := (Record.point ⟨key, v, t⟩).time.toNat_lt
    exact ⟨rfl, by omega, by omega, by omega⟩
  · intro h
    constructor
    · intro pt hpt
      obtain ⟨-, r, hrecord, rfl⟩ := (p.forwards_iff line s pt).mp hpt
      obtain ⟨value, time, rest, hfields, hv, ht⟩ := record_eq_some.mp hrecord
      obtain ⟨rfl, hv0, ht0, ht1⟩ := h _ _ _ _ _ _ hfields hv ht
      refine ⟨value, time, ?_, ?_, ?_⟩
      · rw [hfields]
        exact congrArg (· :: _) (key_of_fields hfields).symm
      · rw [numeral_of_number hv]
        exact congrArg some (toNat_ofInt_of_number hv hv0).symm
      · have htime := toNat_ofInt_of_number ht ht0
        rw [numeral_of_number ht, Record.point, UInt64.toNat_toUInt32]
        exact congrArg some (by omega)
    · rintro pt ⟨value, time, hfields, hvalue, htime⟩
      have hv := hvalue.number pt.value.toNat_lt
      have ht := htime.number (Nat.lt_trans pt.time.toNat_lt (by decide))
      refine (p.forwards_iff line s pt).mpr ⟨herrno, ⟨pt.key.bytes, _, _⟩,
        record_eq_some.mpr ⟨value, time, [], hfields, hv, ht⟩, ?_⟩
      have hkey : CString.ofBytes pt.key.bytes = pt.key :=
        CString.ext_iff'.mpr (cstr_of_nulFree pt.key.nulFree)
      simp [Record.point, hkey, ofInt_natCast]

/-- A line with three fields, the time with a sign. -/
theorem insert_exact_iff_signedTime :
    asciiProgram.Exact (CString.ofAscii "a 5 +60") (State.init ⟨[]⟩) ↔
      ∀ key value time rest v t,
        fields (CString.ofAscii "a 5 +60").bytes = key :: value :: time :: rest →
        number value = some v → number time = some t →
          rest = [] ∧ 0 ≤ v ∧ 0 ≤ t ∧ t < 2 ^ 32 :=
  insert_exact_iff asciiProgram (CString.ofAscii "a 5 +60") rfl

/-- A negative value is stored as a large one. -/
theorem negativeValue_not_exact :
    ¬ asciiProgram.Exact (CString.ofAscii "a -1 60") (State.init ⟨[]⟩) := by
  intro h
  have hforwards : asciiProgram.Forwards (CString.ofAscii "a -1 60") (State.init ⟨[]⟩)
      ⟨CString.ofAscii "a", 18446744073709551615, 60⟩ :=
    ⟨false, by decide +kernel, rfl⟩
  obtain ⟨value, time, hfields, hvalue, -⟩ := h.sound _ hforwards
  have hline : fields (CString.ofAscii "a -1 60").bytes = [[97], [45, 49], [54, 48]] := by
    decide +kernel
  rw [hline] at hfields
  obtain ⟨rfl, -⟩ : [45, 49] = value ∧ _ := by simpa using (List.cons.inj hfields).2
  exact absurd hvalue (by decide +kernel)

end Insert

end Libtimeseries
