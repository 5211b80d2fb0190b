import Libtimeseries.InsertFields

/-!
# What earlier lines leave behind

`insert` tests `errno` after each number, and nothing ever resets it: once a number
of some line does not fit 64 bits, every later line is rejected.

- `insertLines`: some lines, as the read loop takes them;
- `readLoop_gets`: the read loop is that, for the lines that `fgets` gets;
- `insert_history_iff`: when a line meets the same fate after two histories.
-/

namespace Libtimeseries

open ByteLib

variable {W : Type}

namespace Insert

/-- The contents of the buffer, call by call, until the end of the file. -/
inductive Gets (fgets : Nat → Bytes → Option (Bytes × Bytes)) : Bytes → List CString → Prop
  | eof {input : Bytes} (h : fgets bufferLen input = none) : Gets fgets input []
  | line {input buffer rest : Bytes} {lines : List CString}
      (h : fgets bufferLen input = some (buffer, rest)) (hrest : Gets fgets rest lines) :
      Gets fgets input (CString.ofBytes buffer :: lines)

/-- A line that reaches `insert` and has a number that does not fit 64 bits. -/
def SetsErrno (line : CString) : Prop :=
  Program.skipped line = false ∧ lineOverflows line.bytes = true

namespace Program

/-- The read loop on some lines. -/
def insertLines (p : Program W) : List CString → State W → Ret × State W
  | [], s => (.ok, s)
  | line :: lines, s =>
    if skipped line then
      insertLines p lines s
    else
      match p.insert (some line) s with
      | (.ok, s) => insertLines p lines s
      | (r, s) => (r, s)

/-- One round of the read loop. -/
theorem readLoop_line (p : Program W) {fgets : Nat → Bytes → Option (Bytes × Bytes)} {fuel : Nat}
    {input buffer rest : Bytes} {lines : List CString}
    (h : fgets bufferLen input = some (buffer, rest))
    (hrest : ∀ s, p.readLoop fgets fuel rest s = p.insertLines lines s) (s : State W) :
    p.readLoop fgets (fuel + 1) input s = p.insertLines (CString.ofBytes buffer :: lines) s := by
  rw [readLoop, h, insertLines]
  dsimp only
  split
  · exact hrest s
  · generalize p.insert _ s = r
    obtain ⟨ret, s₁⟩ := r
    cases ret with
    | ok => exact hrest s₁
    | fail => rfl
    | stop why => rfl

/-- **The read loop** takes the lines of the file one by one. -/
theorem readLoop_gets (p : Program W) {fgets : Nat → Bytes → Option (Bytes × Bytes)}
    {input : Bytes} {lines : List CString} (h : Gets fgets input lines) {fuel : Nat}
    (hfuel : lines.length < fuel) (s : State W) :
    p.readLoop fgets fuel input s = p.insertLines lines s := by
  induction h generalizing fuel s with
  | eof h =>
    obtain ⟨fuel, rfl⟩ := Nat.exists_eq_add_of_lt hfuel
    rw [readLoop, h]
    rfl
  | line h hrest ih =>
    obtain ⟨fuel, rfl⟩ : ∃ n, fuel = n + 1 := ⟨fuel - 1, by omega⟩
    exact p.readLoop_line h (ih (Nat.lt_of_succ_lt_succ hfuel)) s

/-! ## Single mode without failures -/

theorem setSingleLoop_ok (p : Program W) (hset : ∀ id pt w, (p.setSingle id pt w).1 = .ok)
    (pt : Point) (ids : List BackendId) (s : State W) : (p.setSingleLoop pt ids s).1 = .ok := by
  induction ids generalizing s with
  | nil => rfl
  | cons id ids ih =>
    have hcall : (p.callSetSingle id pt s).1 = .ok := hset id pt s.env.world
    rw [setSingleLoop]
    generalize p.callSetSingle id pt s = r at hcall ⊢
    obtain ⟨ret, s₁⟩ := r
    cases hcall
    exact ih s₁

/-- A line in single mode: it is passed on if it is a record and `errno` is clear. -/
theorem insert_single (p : Program W) (hmode : p.batchMode = false)
    (hset : ∀ id pt w, (p.setSingle id pt w).1 = .ok) (line : CString) (s : State W) :
    let r := p.insert (some line) s
    r.1 = .ok ∧ r.2.erange = (s.erange || lineOverflows line.bytes) ∧
      r.2.points = s.points ++
        (if s.erange then none else (record line.bytes).map Record.point).toList := by
  dsimp only
  rw [insert, parse_eq]
  generalize (if s.erange then none else (record line.bytes).map Record.point) = pt?
  cases pt? with
  | none => exact ⟨rfl, rfl, (List.append_nil _).symm⟩
  | some pt =>
    dsimp only
    rw [insertPoint, hmode]
    have hspec := p.timeseriesSetSingle_spec pt
      { s with erange := s.erange || lineOverflows line.bytes }
    exact ⟨p.setSingleLoop_ok hset pt _ _, hspec.2.1, hspec.1⟩

/-- **What a history leaves**: `errno` is set if some line of it sets it. -/
theorem insertLines_single (p : Program W) (hmode : p.batchMode = false)
    (hset : ∀ id pt w, (p.setSingle id pt w).1 = .ok) (lines : List CString) (s : State W) :
    let r := p.insertLines lines s
    r.1 = .ok ∧ (r.2.erange = true ↔ s.erange = true ∨ ∃ line ∈ lines, SetsErrno line) := by
  induction lines generalizing s with
  | nil => exact ⟨rfl, by simp [insertLines]⟩
  | cons line lines ih =>
    dsimp only
    rw [insertLines, List.exists_mem_cons_iff]
    by_cases hskip : skipped line = true
    · have hnot : ¬ SetsErrno line := fun h => by simp [SetsErrno, hskip] at h
      rw [if_pos hskip, or_iff_right hnot]
      exact ih s
    · have hsets : SetsErrno line ↔ lineOverflows line.bytes = true :=
        and_iff_right (Bool.not_eq_true _ ▸ hskip)
      have hline := p.insert_single hmode hset line s
      rw [if_neg hskip, hsets, ← or_assoc, ← Bool.or_eq_true]
      generalize p.insert (some line) s = r at hline ⊢
      obtain ⟨ret, s₁⟩ := r
      obtain ⟨hret, herrno, -⟩ := hline
      cases hret
      rw [← herrno]
      exact ih s₁

/-! ## The same line after two histories -/

/-- `insert` ignores the line. -/
def Rejects (p : Program W) (line : CString) (s : State W) : Prop :=
  (p.insert (some line) s).2.points = s.points

/-- `insert` calls `timeseries_set_single` for this point. -/
def Calls (p : Program W) (line : CString) (s : State W) (pt : Point) : Prop :=
  (p.insert (some line) s).2.points = s.points ++ [pt]

/-- The line is rejected in both states, or leads to the same call in both. -/
def SameFate (p : Program W) (line : CString) (s s' : State W) : Prop :=
  (p.Rejects line s ∧ p.Rejects line s') ∨ ∃ pt, p.Calls line s pt ∧ p.Calls line s' pt

theorem sameFate_iff (p : Program W) (hmode : p.batchMode = false)
    (hset : ∀ id pt w, (p.setSingle id pt w).1 = .ok) (line : CString) (s s' : State W) :
    p.SameFate line s s' ↔
      ((record line.bytes).isSome → (s.erange = true ↔ s'.erange = true)) := by
  have hpoints := (p.insert_single hmode hset line s).2.2
  have hpoints' := (p.insert_single hmode hset line s').2.2
  simp only [SameFate, Rejects, Calls, hpoints, hpoints', List.append_cancel_left_eq,
    List.append_right_eq_self]
  cases record line.bytes with
  | none => simp
  | some r => cases s.erange <;> cases s'.erange <;> simp

end Program

/-- **When the history makes no difference** to a line: unless the line is a record,
either both histories set `errno` or none does. -/
theorem insert_history_iff (p : Program W) (hmode : p.batchMode = false)
    (hset : ∀ id pt w, (p.setSingle id pt w).1 = .ok) (w : W) (earlier earlier' : List CString)
    (line : CString) :
    p.SameFate line (p.insertLines earlier (State.init w)).2
        (p.insertLines earlier' (State.init w)).2 ↔
      ((record line.bytes).isSome →
        ((∃ l ∈ earlier, SetsErrno l) ↔ ∃ l ∈ earlier', SetsErrno l)) := by
  have hclear : ¬ (State.init w).erange = true := Bool.false_ne_true
  have hleft := (p.insertLines_single hmode hset earlier (State.init w)).2
  have hright := (p.insertLines_single hmode hset earlier' (State.init w)).2
  rw [or_iff_right hclear] at hleft hright
  rw [p.sameFate_iff hmode hset, hleft, hright]

/-- A line after a malformed one and after none. -/
theorem insert_history_iff_malformed :
    asciiProgram.SameFate (CString.ofAscii "a 5 60")
        (asciiProgram.insertLines [CString.ofAscii "a b 60"] (State.init ⟨[]⟩)).2
        (asciiProgram.insertLines [] (State.init ⟨[]⟩)).2 ↔
      ((record (CString.ofAscii "a 5 60").bytes).isSome →
        ((∃ l ∈ [CString.ofAscii "a b 60"], SetsErrno l) ↔ ∃ l ∈ [], SetsErrno l)) :=
  insert_history_iff asciiProgram rfl (fun _ _ _ => rfl) ⟨[]⟩ [CString.ofAscii "a b 60"] []
    (CString.ofAscii "a 5 60")

/-- A value that does not fit 64 bits makes `insert` reject every line after it. -/
theorem overflow_not_sameFate :
    ¬ asciiProgram.SameFate (CString.ofAscii "a 5 60")
      (asciiProgram.insertLines [CString.ofAscii "b 18446744073709551616 60"]
        (State.init ⟨[]⟩)).2
      (asciiProgram.insertLines [] (State.init ⟨[]⟩)).2 := by
  have hleft : (asciiProgram.insert (some (CString.ofAscii "a 5 60"))
      (asciiProgram.insertLines [CString.ofAscii "b 18446744073709551616 60"]
        (State.init ⟨[]⟩)).2).2.points = [] := by decide +kernel
  have hright : (asciiProgram.insert (some (CString.ofAscii "a 5 60"))
      (asciiProgram.insertLines [] (State.init ⟨[]⟩)).2).2.points
        = [⟨CString.ofAscii "a", 5, 60⟩] := by decide +kernel
  rintro (⟨-, hrejects⟩ | ⟨pt, hcalls, -⟩)
  · rw [Program.Rejects, hright] at hrejects
    cases hrejects
  · rw [Program.Calls, hleft] at hcalls
    exact List.append_ne_nil_of_right_ne_nil _ (List.cons_ne_nil _ _) hcalls.symm

end Insert

end Libtimeseries
