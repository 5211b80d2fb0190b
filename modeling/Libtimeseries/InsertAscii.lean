import Libtimeseries.Ascii
import Libtimeseries.Insert

/-!
# ASCII output is input

What the ASCII backend writes for a key package is a file for `timeseries-insert`:
in single mode the tool makes one call of `timeseries_set_single` for each enabled
key, with the key, value and time of the flush. Printer and parser meet in the
decimal digits of a number (`strtoull_toDigits`).
-/

namespace Libtimeseries

open ByteLib

variable {W : Type}

namespace Insert

/-- What is assumed of `wandio_fgets`: it returns 0 at the end of the file, and a line
that fits the buffer is returned chomped. -/
structure ReadsLines (fgets : Nat → Bytes → Option (Bytes × Bytes)) : Prop where
  eof : ∀ len, fgets len [] = none
  line : ∀ {len : Nat} {line rest : Bytes}, (10 : UInt8) ∉ line → line.length + 1 ≤ len - 1 →
    fgets len (line ++ 10 :: rest) = some (line, rest)

/-- A `wandio_fgets` that cuts lines that do not fit. -/
def fgetsOf (len : Nat) (input : Bytes) : Option (Bytes × Bytes) :=
  let n := (input.takeWhile (· ≠ 10)).length
  if input = [] then none
  else if n + 1 ≤ len - 1 then some (input.take n, input.drop (n + 1))
  else some (input.take (len - 1), input.drop (len - 1))

theorem readsLines_fgetsOf : ReadsLines fgetsOf where
  eof _ := rfl
  line {len line rest} hline hlen := by
    have hn : ((line ++ 10 :: rest).takeWhile (· ≠ 10)).length = line.length := by
      rw [takeWhile_ne_append hline]
    rw [fgetsOf, hn, if_neg (by simp), if_pos hlen, List.take_left, List.append_cons,
      List.drop_left' (by simp)]

/-! ## A line -/

/-- The bytes of a point on a line. -/
def Point.line (pt : Point) : Bytes :=
  pt.key.bytes ++ 32 :: (decimal pt.value.toNat ++ 32 :: decimal pt.time.toNat)

theorem notMem_decimal {b : UInt8} (hb : isDigit b = false) (n : Nat) : b ∉ decimal n := by
  intro h
  rw [isDigit_toDigits h] at hb
  cases hb

theorem parseNumber_decimal {n : Nat} (hn : n < UInt64.size) {str : CString}
    (hstr : str.bytes = decimal n) : parseNumber false str = (some (UInt64.ofNat n), false) := by
  have hread : strtoull str.bytes = ⟨UInt64.ofNat n, [], false⟩ := by
    rw [hstr]
    exact strtoull_toDigits hn
  have hne : ([] : Bytes) ≠ str.bytes := by
    rw [hstr, decimal, ne_eq, eq_comm, List.map_eq_nil_iff]
    exact Nat.toDigits_ne_nil
  rw [parseNumber, hread]
  simp [hne]

/-- **A line is parsed back** to its point. -/
theorem parse_line {pt : Point} (hkey : 32 ∉ pt.key.bytes) {line : CString}
    (hline : line.bytes = pt.line) : parse false (some line) = (some pt, false) := by
  have hdecimal : ∀ n, (0 : UInt8) ∉ decimal n := notMem_decimal (by decide)
  have hspace : ∀ n, (32 : UInt8) ∉ decimal n := notMem_decimal (by decide)
  obtain ⟨valueStr, hvalueStr⟩ : ∃ str : CString, str.bytes = decimal pt.value.toNat :=
    ⟨⟨_, hdecimal _⟩, rfl⟩
  obtain ⟨timeStr, htimeStr⟩ : ∃ str : CString, str.bytes = decimal pt.time.toNat :=
    ⟨⟨_, hdecimal _⟩, rfl⟩
  obtain ⟨rest, hrest⟩ : ∃ str : CString, str.bytes = valueStr.bytes ++ 32 :: timeStr.bytes := by
    refine ⟨⟨_, fun h => ?_⟩, rfl⟩
    rcases List.mem_append.mp h with h | h
    · exact valueStr.nulFree h
    · exact timeStr.nulFree ((List.mem_cons.mp h).resolve_left (by decide))
  have hfirst : strsep 32 (some line) = some (pt.key, some rest) := by
    refine strsep_append ?_ hkey
    rw [hline, hrest, hvalueStr, htimeStr]
    rfl
  have hsecond : strsep 32 (some rest) = some (valueStr, some timeStr) :=
    strsep_append hrest (hvalueStr ▸ hspace _)
  have hthird : strsep 32 (some timeStr) = some (timeStr, none) :=
    strsep_last (htimeStr ▸ hspace _)
  have hvalue := parseNumber_decimal pt.value.toNat_lt hvalueStr
  have htime := parseNumber_decimal
    (Nat.lt_trans pt.time.toNat_lt (by decide : (2 : Nat) ^ 32 < UInt64.size)) htimeStr
  have hcut : (UInt64.ofNat pt.time.toNat).toUInt32 = pt.time := by
    apply UInt32.toNat_inj.mp
    simp
  rw [parse, hfirst]
  simp only [hsecond, hvalue, hthird, htime, hcut, UInt64.ofNat_toNat]

example : parse false (some (CString.ofAscii "a.b 18446744073709551615 60"))
    = (some ⟨CString.ofAscii "a.b", 18446744073709551615, 60⟩, false) := by decide +kernel

-- a number that does not fit sets `errno`
example : parse false (some (CString.ofAscii "a.b 18446744073709551616 60")) = (none, true) := by
  decide +kernel

/-! ## A file of lines -/

/-- A point whose line `timeseries-insert` reads as a record: the key has no space or
newline and does not start a comment, and the line fits the buffer. -/
structure Point.Readable (pt : Point) : Prop where
  space : (32 : UInt8) ∉ pt.key.bytes
  newline : (10 : UInt8) ∉ pt.key.bytes
  comment : pt.key.bytes.head? ≠ some 35
  fits : pt.line.length + 1 ≤ bufferLen - 1

theorem Point.notMem_line {pt : Point} {b : UInt8} (hb : isDigit b = false) (hspace : b ≠ 32)
    (hkey : b ∉ pt.key.bytes) : b ∉ pt.line := by
  intro hmem
  rcases List.mem_append.mp hmem with hmem | hmem
  · exact hkey hmem
  rcases List.mem_cons.mp hmem with hmem | hmem
  · exact hspace hmem
  rcases List.mem_append.mp hmem with hmem | hmem
  · exact notMem_decimal hb _ hmem
  rcases List.mem_cons.mp hmem with hmem | hmem
  · exact hspace hmem
  · exact notMem_decimal hb _ hmem

theorem Point.line_ofBytes (pt : Point) : (CString.ofBytes pt.line).bytes = pt.line :=
  cstr_of_nulFree (Point.notMem_line (by decide) (by decide) pt.key.nulFree)

theorem Point.Readable.not_skipped {pt : Point} (h : pt.Readable) :
    Program.skipped (CString.ofBytes pt.line) = false := by
  have hhead : pt.line.head? ≠ some 35 := by
    unfold Point.line
    cases hkey : pt.key.bytes with
    | nil => simp
    | cons b bs =>
      have hcomment := h.comment
      rw [hkey] at hcomment
      exact hcomment
  have hne : pt.line ≠ [] := List.append_ne_nil_of_right_ne_nil _ (List.cons_ne_nil _ _)
  rw [Program.skipped, pt.line_ofBytes]
  simp [hhead, hne]

namespace Program

/-- The calls of single mode for some points, up to the first that fails. -/
def setAll (p : Program W) : List Point → State W → Ret × State W
  | [], s => (.ok, s)
  | pt :: pts, s =>
    match p.timeseriesSetSingle pt s with
    | (.ok, s) => setAll p pts s
    | (r, s) => (r, s)

/-- A call of `timeseries_set_single` is recorded, and fails only if a callback does. -/
theorem timeseriesSetSingle_spec (p : Program W) (pt : Point) (s : State W) :
    let r := p.timeseriesSetSingle pt s
    r.2.points = s.points ++ [pt] ∧ r.2.erange = s.erange ∧
      ∃ new, r.2.setSingles = s.setSingles ++ new ∧ (r.1 ≠ .ok → ∃ c ∈ new, c.ret ≠ .ok) := by
  obtain ⟨env, new, hs, -, hbad⟩ := p.setSingleLoop_spec pt p.ts.enabledIds
    { s with points := s.points ++ [pt] }
  show (p.setSingleLoop pt p.ts.enabledIds { s with points := s.points ++ [pt] }).2.points = _ ∧ _
  rw [timeseriesSetSingle, hs]
  exact ⟨rfl, rfl, new, rfl, hbad⟩

theorem setAll_spec (p : Program W) (pts : List Point) (s : State W) :
    let r := p.setAll pts s
    r.2.points <+: s.points ++ pts ∧ ∃ new, r.2.setSingles = s.setSingles ++ new ∧
      ((∀ c ∈ new, c.ret = .ok) → r.1 = .ok ∧ r.2.points = s.points ++ pts) := by
  induction pts generalizing s with
  | nil => exact ⟨by simp [setAll], [], by simp [setAll], fun _ => ⟨rfl, by simp [setAll]⟩⟩
  | cons pt pts ih =>
    have hcall := p.timeseriesSetSingle_spec pt s
    rw [setAll]
    generalize p.timeseriesSetSingle pt s = r at hcall ⊢
    obtain ⟨ret, s₁⟩ := r
    obtain ⟨hpoints, -, new, hnew, hbad⟩ := hcall
    dsimp only at hpoints hnew
    have hstop : ret ≠ .ok → s₁.points <+: s.points ++ pt :: pts ∧
        ∃ new, s₁.setSingles = s.setSingles ++ new ∧
          ((∀ c ∈ new, c.ret = .ok) → ret = .ok ∧ s₁.points = s.points ++ pt :: pts) := by
      intro hne
      obtain ⟨c, hc, hcne⟩ := hbad hne
      refine ⟨?_, new, hnew, fun h => absurd (h c hc) hcne⟩
      rw [hpoints, List.append_cons s.points pt pts]
      exact List.prefix_append _ _
    cases ret with
    | ok =>
      obtain ⟨hpre, new', hnew', hok⟩ := ih s₁
      rw [hpoints, ← List.append_cons] at hpre hok
      refine ⟨hpre, new ++ new', ?_, fun h => hok fun c hc => ?_⟩
      · show (p.setAll pts s₁).2.setSingles = _
        rw [hnew', hnew, List.append_assoc]
      · exact h c (List.mem_append_right _ hc)
    | fail => exact hstop (by rintro ⟨⟩)
    | stop why => exact hstop (by rintro ⟨⟩)

/-- Reading a file of readable lines makes the calls for their points. -/
theorem readLoop_lines (p : Program W) (hmode : p.batchMode = false)
    {fgets : Nat → Bytes → Option (Bytes × Bytes)} (hfgets : ReadsLines fgets) {pts : List Point}
    (hpts : ∀ pt ∈ pts, pt.Readable) {fuel : Nat} (hfuel : pts.length < fuel) {s : State W}
    (herrno : s.erange = false) :
    p.readLoop fgets fuel (pts.flatMap fun pt => pt.line ++ [10]) s = p.setAll pts s := by
  induction pts generalizing fuel s with
  | nil =>
    obtain ⟨fuel, rfl⟩ := Nat.exists_eq_add_of_lt hfuel
    rw [List.flatMap_nil, readLoop, hfgets.eof]
    rfl
  | cons pt pts ih =>
    obtain ⟨hpt, hpts⟩ := List.forall_mem_cons.mp hpts
    obtain ⟨fuel, rfl⟩ : ∃ n, fuel = n + 1 := ⟨fuel - 1, by omega⟩
    have hnewline := Point.notMem_line (by decide) (by decide) hpt.newline
    have hread : fgets bufferLen ((pt :: pts).flatMap fun pt => pt.line ++ [10])
        = some (pt.line, pts.flatMap fun pt => pt.line ++ [10]) := by
      rw [List.flatMap_cons, List.append_assoc]
      exact hfgets.line hnewline hpt.fits
    have hinsert : p.insert (some (CString.ofBytes pt.line)) s = p.timeseriesSetSingle pt s := by
      have hs : ({ s with erange := false } : State W) = s := by rw [← herrno]
      rw [insert, herrno, parse_line hpt.space pt.line_ofBytes]
      dsimp only
      rw [hs, insertPoint, hmode]
      rfl
    have herrno' := (p.timeseriesSetSingle_spec pt s).2.1
    rw [readLoop, hread]
    dsimp only
    rw [hpt.not_skipped, hinsert, setAll]
    generalize p.timeseriesSetSingle pt s = r at herrno' ⊢
    obtain ⟨ret, s₁⟩ := r
    cases ret with
    | ok => exact ih hpts (by simpa using hfuel) (herrno'.trans herrno)
    | fail => rfl
    | stop why => rfl

/-- Single mode from the read loop on. -/
theorem main_lines (p : Program W) (hmode : p.batchMode = false)
    {fgets : Nat → Bytes → Option (Bytes × Bytes)} (hfgets : ReadsLines fgets) {pts : List Point}
    (hpts : ∀ pt ∈ pts, pt.Readable) {s : State W} (herrno : s.erange = false) :
    p.main fgets (pts.flatMap fun pt => pt.line ++ [10]) s = p.setAll pts s := by
  have hlen : pts.length ≤ (pts.flatMap fun pt => pt.line ++ [10]).length := by
    clear hpts
    induction pts with
    | nil => exact Nat.le_refl _
    | cons pt pts ih =>
      simp only [List.flatMap_cons, List.length_append, List.length_cons] at ih ⊢
      omega
  rw [main, p.readLoop_lines hmode hfgets hpts (Nat.lt_succ_of_le hlen) herrno]
  generalize p.setAll pts s = r
  obtain ⟨ret, s₁⟩ := r
  cases ret with
  | ok =>
    dsimp only
    rw [finish, hmode]
    rfl
  | fail => rfl
  | stop why => rfl

end Program

/-! ## What the ASCII backend writes -/

/-- The points of a flush. -/
def pointsOf (kp : Kp) (time : UInt32) : List Point :=
  kp.enabledKis.map fun ki => ⟨CString.ofBytes ki.key, ki.value, time⟩

theorem output_eq_lines (kp : Kp) (time : UInt32) :
    (Ascii.kpFlush kp time ⟨[]⟩).2.2.output
      = (pointsOf kp time).flatMap fun pt => pt.line ++ [10] := by
  rw [Ascii.kpFlush_output, List.nil_append, Kp.enabledPairs, pointsOf, List.flatMap_map,
    List.flatMap_map]
  refine List.flatMap_congr fun ki _ => ?_
  show metricLine ki.name ki.value time = _
  simp [metricLine, Point.line, CString.ofBytes, Ki.name]

/-- **ASCII output is read back**: the tool makes the calls of
`timeseries_set_single` for the enabled keys of the package, in index order, with
the key, value and time of the flush; all of them unless a callback fails. -/
theorem ascii_readBack {fgets : Nat → Bytes → Option (Bytes × Bytes)} (hfgets : ReadsLines fgets)
    {p : Program W} (hmode : p.batchMode = false) {kp : Kp} {time : UInt32}
    (hkeys : ∀ r ∈ kp.enabledPairs, (32 : UInt8) ∉ r.1 ∧ (10 : UInt8) ∉ r.1 ∧ r.1.head? ≠ some 35)
    (hlines : ∀ r ∈ kp.enabledPairs, (metricLine r.1 r.2 time).length ≤ bufferLen - 1)
    {s : State W} (herrno : s.erange = false) :
    let r := p.main fgets (Ascii.kpFlush kp time ⟨[]⟩).2.2.output s
    r = p.setAll (pointsOf kp time) s ∧ r.2.points <+: s.points ++ pointsOf kp time ∧
      ∃ new, r.2.setSingles = s.setSingles ++ new ∧
        ((∀ c ∈ new, c.ret = .ok) → r.1 = .ok ∧ r.2.points = s.points ++ pointsOf kp time) := by
  have hreadable : ∀ pt ∈ pointsOf kp time, pt.Readable := by
    intro pt hpt
    obtain ⟨ki, hki, rfl⟩ := List.mem_map.mp hpt
    have hmem : (ki.name, ki.value) ∈ kp.enabledPairs := List.mem_map_of_mem hki
    obtain ⟨hspace, hnewline, hcomment⟩ := hkeys _ hmem
    refine ⟨hspace, hnewline, hcomment, Nat.le_trans (Nat.le_of_eq ?_) (hlines _ hmem)⟩
    simp [metricLine, Point.line, CString.ofBytes, Ki.name]
    omega
  have hmain := p.main_lines hmode hfgets hreadable herrno
  rw [← output_eq_lines] at hmain
  dsimp only
  rw [hmain]
  exact ⟨rfl, p.setAll_spec _ s⟩

/-- Single mode with the ASCII backend. -/
def asciiProgram : Program Ascii.State where
  ts := .single .ascii Ascii.backend
  setSingle := fun _ pt s => Ascii.setSingle s pt.key pt.value pt.time
  batchMode := false

/-- Two keys, one with the largest value. -/
def twoMetrics : Kp :=
  ((((Kp.init 0).addKey .success (CString.ofAscii "a.b")).2.addKey .success
    (CString.ofAscii "c")).2.set 0 18446744073709551615).2

theorem ascii_readBack_twoMetrics :
    let r := asciiProgram.main fgetsOf (Ascii.kpFlush twoMetrics 60 ⟨[]⟩).2.2.output
      (State.init ⟨[]⟩)
    r = asciiProgram.setAll (pointsOf twoMetrics 60) (State.init ⟨[]⟩) ∧
      r.2.points <+: [] ++ pointsOf twoMetrics 60 ∧
      ∃ new, r.2.setSingles = [] ++ new ∧
        ((∀ c ∈ new, c.ret = .ok) → r.1 = .ok ∧ r.2.points = [] ++ pointsOf twoMetrics 60) :=
  ascii_readBack readsLines_fgetsOf rfl (by decide +kernel) (by decide +kernel) rfl

end Insert

end Libtimeseries
