import Libtimeseries.Base.Runs
import Libtimeseries.Base.Splitting
import Libtimeseries.InsertErrno

/-!
# Lines that do not fit the buffer

`wandio_fgets` returns a physical line that does not fit the buffer piece by piece,
and the read loop takes every piece for a line of its own.

- `pieces`: what the buffer holds for a physical line, call by call;
- `readLine`, `readFile`: the read loop on physical lines, with a log of what each
  of them made `insert` forward;
- `Unmixed`: at most one record comes from a line, and with the fields of the line;
- `main_unmixed_iff`: when all lines of a file are unmixed.
-/

namespace Libtimeseries

open ByteLib RunLib SplitLib

variable {W : Type}

namespace Insert

/-- What is assumed of `wandio_fgets` about the other lines: the last one may lack its
newline, and of a line that does not fit the buffer is filled. -/
structure CutsLines (fgets : Nat → Bytes → Option (Bytes × Bytes)) : Prop
    extends ReadsLines fgets where
  last : ∀ {len : Nat} {input : Bytes}, input ≠ [] → (10 : UInt8) ∉ input →
    input.length < len - 1 → fgets len input = some (input, [])
  long : ∀ {len : Nat} {input : Bytes}, input ≠ [] → (10 : UInt8) ∉ input.take (len - 1) →
    len - 1 ≤ input.length → fgets len input = some (input.take (len - 1), input.drop (len - 1))

theorem cutsLines_fgetsOf : CutsLines fgetsOf where
  toReadsLines := readsLines_fgetsOf
  last {len input} hne hlast hlen := by
    have hall : input.takeWhile (· ≠ 10) = input := by
      refine List.takeWhile_eq_self_iff.mpr fun b hb => ?_
      simpa using fun h : b = 10 => hlast (h ▸ hb)
    rw [fgetsOf, hall, if_neg hne, if_pos (by omega), List.take_length,
      List.drop_eq_nil_of_le (Nat.le_succ _)]
  long {len input} hne hlong hlen := by
    have hall : ∀ b ∈ input.take (len - 1), decide (b ≠ 10) = true := by
      intro b hb
      simpa using fun h : b = 10 => hlong (h ▸ hb)
    have hn : len - 1 ≤ (input.takeWhile (· ≠ 10)).length := by
      rw [← List.take_append_drop (len - 1) input, List.takeWhile_append_of_pos hall,
        List.length_append, List.length_take_of_le hlen]
      exact Nat.le_add_right _ _
    rw [fgetsOf, if_neg hne, if_neg (by omega)]

/-! ## The pieces of a line -/

/-- What the buffer holds for a physical line, call by call. A line that fills the
last buffer leaves an empty piece. -/
def pieces (line : Bytes) : List CString :=
  (List.range (line.length / (bufferLen - 1) + 1)).map fun i =>
    CString.ofBytes ((line.drop (i * (bufferLen - 1))).take (bufferLen - 1))

theorem pieces_of_lt {line : Bytes} (h : line.length < bufferLen - 1) :
    pieces line = [CString.ofBytes line] := by
  rw [pieces, Nat.div_eq_of_lt h, Nat.zero_add, List.range_one, List.map_singleton, Nat.zero_mul,
    List.drop_zero, List.take_of_length_le (Nat.le_of_lt h)]

theorem pieces_of_le {line : Bytes} (h : bufferLen - 1 ≤ line.length) :
    pieces line
      = CString.ofBytes (line.take (bufferLen - 1)) :: pieces (line.drop (bufferLen - 1)) := by
  have hdiv : line.length / (bufferLen - 1) + 1
      = (line.drop (bufferLen - 1)).length / (bufferLen - 1) + 1 + 1 := by
    rw [List.length_drop, Nat.div_eq_sub_div (by decide) h]
  rw [pieces, hdiv, List.range_succ_eq_map, List.map_cons, List.map_map, Nat.zero_mul,
    List.drop_zero, pieces]
  refine congrArg (List.cons _) (List.map_congr_left fun i _ => ?_)
  rw [Function.comp_apply, List.drop_drop, Nat.succ_mul, Nat.add_comm]

/-- The first piece begins the line. -/
theorem pieces_eq_cons (line : Bytes) :
    pieces line = CString.ofBytes (line.take (bufferLen - 1)) :: (pieces line).tail := by
  rcases Nat.lt_or_ge line.length (bufferLen - 1) with h | h
  · rw [pieces_of_lt h, List.take_of_length_le (Nat.le_of_lt h), List.tail_cons]
  · rw [pieces_of_le h, List.tail_cons]

/-- There are more only if it fills the buffer, and none is longer. -/
theorem length_of_mem_pieces_tail {line : Bytes} {piece : CString}
    (h : piece ∈ (pieces line).tail) :
    bufferLen - 1 ≤ line.length ∧ piece.bytes.length ≤ bufferLen - 1 := by
  constructor
  · by_contra hlt
    rw [pieces_of_lt (Nat.lt_of_not_le hlt)] at h
    cases h
  · obtain ⟨i, -, rfl⟩ := List.mem_map.mp (List.mem_of_mem_tail h)
    exact Nat.le_trans (List.takeWhile_prefix _).length_le (List.length_take_le _ _)

/-- A line with its newline, if the newline is found while the buffer is filled. -/
theorem exists_line {input : Bytes} (h : (10 : UInt8) ∈ input.take (bufferLen - 1)) :
    ∃ line rest, input = line ++ 10 :: rest ∧ (10 : UInt8) ∉ line ∧
      line.length + 1 ≤ bufferLen - 1 := by
  obtain ⟨line, rest, htake, hline⟩ := List.eq_append_cons_of_mem h
  refine ⟨line, rest ++ input.drop (bufferLen - 1), ?_, hline, ?_⟩
  · conv_lhs => rw [← List.take_append_drop (bufferLen - 1) input, htake]
    rw [List.append_assoc, List.cons_append]
  · have hlen := congrArg List.length htake
    rw [List.length_append, List.length_cons] at hlen
    have := List.length_take_le (bufferLen - 1) input
    omega

/-- When the buffer is filled before the first newline, it holds the first piece, and the
others are those of the rest. -/
theorem flatMap_pieces_filled {input : Bytes} (hlong : (10 : UInt8) ∉ input.take (bufferLen - 1))
    (hlen : bufferLen - 1 ≤ input.length) :
    (input.splitOn 10).flatMap pieces = CString.ofBytes (input.take (bufferLen - 1)) ::
      ((input.drop (bufferLen - 1)).splitOn 10).flatMap pieces := by
  have hsplit : input.splitOn 10
      = ((input.drop (bufferLen - 1)).splitOn 10).modifyHead (input.take (bufferLen - 1) ++ ·) := by
    conv_lhs => rw [← List.take_append_drop (bufferLen - 1) input]
    exact splitOn_append_of_notMem hlong _
  have htake : (input.take (bufferLen - 1)).length = bufferLen - 1 :=
    List.length_take_of_le hlen
  obtain ⟨line, lines, hlines⟩ :=
    List.exists_cons_of_ne_nil (List.splitOn_ne_nil 10 (input.drop (bufferLen - 1)))
  rw [hsplit, hlines, List.modifyHead_cons, List.flatMap_cons, pieces_of_le (by simp [htake]),
    List.take_left' htake, List.drop_left' htake, List.flatMap_cons, List.cons_append]

namespace Program

/-- **The read loop** takes the pieces of the physical lines one by one. -/
theorem readLoop_pieces (p : Program W) {fgets : Nat → Bytes → Option (Bytes × Bytes)}
    (hfgets : CutsLines fgets) {fuel : Nat} {input : Bytes} (hfuel : input.length < fuel)
    (s : State W) :
    p.readLoop fgets fuel input s = p.insertLines ((input.splitOn 10).flatMap pieces) s := by
  induction fuel generalizing input s with
  | zero => exact absurd hfuel (Nat.not_lt_zero _)
  | succ fuel ih =>
    by_cases hempty : input = []
    · subst hempty
      rw [readLoop, hfgets.eof]
      rfl
    by_cases hnewline : (10 : UInt8) ∈ input.take (bufferLen - 1)
    · -- a line with its newline fits the buffer
      obtain ⟨line, rest, rfl, hline, hfits⟩ := exists_line hnewline
      rw [List.splitOn_append_cons_self_of_not_mem hline, List.flatMap_cons,
        pieces_of_lt (Nat.lt_of_succ_le hfits)]
      refine p.readLoop_line (hfgets.line hline hfits) (ih ?_) s
      rw [List.length_append, List.length_cons] at hfuel
      omega
    rcases Nat.lt_or_ge input.length (bufferLen - 1) with hlen | hlen
    · -- the last line lacks its newline
      rw [List.take_of_length_le (Nat.le_of_lt hlen)] at hnewline
      rw [List.splitOn_eq_singleton hnewline, List.flatMap_singleton, pieces_of_lt hlen]
      refine p.readLoop_line (hfgets.last hempty hnewline hlen) (fun s => ?_) s
      have hpos := List.length_pos_iff.mpr hempty
      have hrest : ([] : Bytes).length < fuel := Nat.lt_of_lt_of_le hpos (Nat.le_of_lt_succ hfuel)
      rw [ih hrest]
      rfl
    · -- the buffer is filled
      have hdrop : (input.drop (bufferLen - 1)).length < fuel := by
        rw [List.length_drop]
        have : bufferLen - 1 = 1023 := rfl
        omega
      rw [flatMap_pieces_filled hnewline hlen]
      exact p.readLoop_line (hfgets.long hempty hnewline hlen) (fun s => ih hdrop s) s

/-! ## The read loop with a log -/

/-- What some lines do after others. -/
theorem insertLines_append (p : Program W) (lines lines' : List CString) (s : State W) :
    p.insertLines (lines ++ lines') s =
      match p.insertLines lines s with
      | (.ok, s) => p.insertLines lines' s
      | r => r := by
  induction lines generalizing s with
  | nil => rfl
  | cons line lines ih =>
    rw [List.cons_append, insertLines, insertLines]
    split
    · exact ih s
    · generalize p.insert (some line) s = r
      obtain ⟨ret, s₁⟩ := r
      cases ret with
      | ok => exact ih s₁
      | fail => rfl
      | stop why => rfl

end Program

/-- Within a physical line: what `insert` returned, the state, and the pieces that
`insert` forwarded so far, with their points. -/
structure Reading (W : Type) where
  ret : Ret
  state : State W
  forwarded : List (CString × Point)

/-- Within a file: the same, and what each physical line so far made `insert` forward. -/
structure FileReading (W : Type) where
  ret : Ret
  state : State W
  log : List (Bytes × List (CString × Point))

/-- One round of the read loop, unless it was left. -/
def Program.readPiece (p : Program W) (r : Reading W) (piece : CString) : Reading W :=
  match r.ret with
  | .ok =>
    if Program.skipped piece then
      r
    else
      let q := p.insert (some piece) r.state
      ⟨q.1, q.2, r.forwarded ++ ((parse r.state.erange (some piece)).1.map (piece, ·)).toList⟩
  | _ => r

/-- The rounds for a physical line. -/
def Program.readLine (p : Program W) (r : FileReading W) (line : Bytes) : FileReading W :=
  let q := run p.readPiece ⟨r.ret, r.state, []⟩ (pieces line)
  ⟨q.ret, q.state, r.log ++ [(line, q.forwarded)]⟩

/-- The read loop on a file. -/
def Program.readFile (p : Program W) (input : Bytes) (s : State W) : FileReading W :=
  run p.readLine ⟨.ok, s, []⟩ (input.splitOn 10)

section Result

variable (p : Program W)

theorem readPiece_of_ne {r : Reading W} (h : r.ret ≠ .ok) (piece : CString) :
    p.readPiece r piece = r := by
  unfold Program.readPiece
  split
  · next hok => exact absurd hok h
  · rfl

theorem run_readPiece_of_ne {r : Reading W} (h : r.ret ≠ .ok) (ps : List CString) :
    run p.readPiece r ps = r := by
  induction ps with
  | nil => rfl
  | cons piece ps ih => rw [run_cons, readPiece_of_ne p h, ih]

/-- The log aside, a line is read as its pieces are. -/
theorem run_readPiece_result (ps : List CString) (s : State W)
    (forwarded : List (CString × Point)) :
    let r := run p.readPiece ⟨.ok, s, forwarded⟩ ps
    (r.ret, r.state) = p.insertLines ps s := by
  induction ps generalizing s forwarded with
  | nil => rfl
  | cons piece ps ih =>
    dsimp only
    rw [run_cons, Program.insertLines, Program.readPiece]
    dsimp only
    split
    · exact ih s forwarded
    · generalize p.insert (some piece) s = q
      obtain ⟨ret, s₁⟩ := q
      cases ret with
      | ok => exact ih s₁ _
      | fail => rw [run_readPiece_of_ne p (by rintro ⟨⟩)]
      | stop why => rw [run_readPiece_of_ne p (by rintro ⟨⟩)]

/-- The log aside, the lines are read as all their pieces are. -/
theorem run_readLine_result (lines : List Bytes) (r : FileReading W) :
    let q := run p.readLine r lines
    (q.ret, q.state) =
      match r.ret with
      | .ok => p.insertLines (lines.flatMap pieces) r.state
      | ret => (ret, r.state) := by
  induction lines generalizing r with
  | nil =>
    obtain ⟨ret, s, log⟩ := r
    cases ret <;> rfl
  | cons line lines ih =>
    dsimp only
    rw [run_cons, ih, List.flatMap_cons, p.insertLines_append]
    unfold Program.readLine
    dsimp only
    obtain ⟨ret, s, log⟩ := r
    cases ret with
    | ok =>
      dsimp only
      have hresult := run_readPiece_result p (pieces line) s []
      dsimp only at hresult
      rw [← hresult]
      generalize run p.readPiece ⟨.ok, s, []⟩ (pieces line) = q
      obtain ⟨ret, s₁, forwarded⟩ := q
      cases ret <;> rfl
    | fail => rw [run_readPiece_of_ne p (by rintro ⟨⟩)]
    | stop why => rw [run_readPiece_of_ne p (by rintro ⟨⟩)]

/-- **The program** is the read loop with a log, and the final flush. -/
theorem main_readFile {fgets : Nat → Bytes → Option (Bytes × Bytes)} (hfgets : CutsLines fgets)
    (input : Bytes) (s : State W) :
    p.main fgets input s =
      match (p.readFile input s).ret with
      | .ok => p.finish (p.readFile input s).state
      | ret => (ret, (p.readFile input s).state) := by
  have hresult := run_readLine_result p (input.splitOn 10) ⟨.ok, s, []⟩
  dsimp only at hresult
  rw [Program.main, p.readLoop_pieces hfgets (Nat.lt_succ_self _), ← hresult]
  unfold Program.readFile
  generalize run p.readLine ⟨.ok, s, []⟩ (input.splitOn 10) = q
  obtain ⟨ret, s₁, log⟩ := q
  cases ret <;> rfl

end Result

/-! ## What is forwarded -/

/-- The loop is not left and `errno` is clear: a record would be forwarded. -/
structure Reading.Open (r : Reading W) : Prop where
  running : r.ret = .ok
  clear : r.state.erange = false

/-- The next piece will be forwarded: it is neither a comment nor empty, and a record. -/
structure Takes (r : Reading W) (piece : CString) : Prop extends r.Open where
  notSkipped : Program.skipped piece = false
  isRecord : (record piece.bytes).isSome

/-- `errno` stays set. -/
theorem insert_erange (p : Program W) (line : CString) (s : State W) :
    (p.insert (some line) s).2.erange = (s.erange || lineOverflows line.bytes) := by
  rw [Program.insert, parse_eq]
  generalize (if s.erange then none else (record line.bytes).map Record.point) = pt?
  cases pt? with
  | none => rfl
  | some pt =>
    exact congrArg (fun r => r.2.erange) (p.insertPoint_setErrno pt s _)

section Forwarded

variable (p : Program W) {r : Reading W} {piece : CString}

/-- **One round** forwards the piece if it takes it. -/
theorem readPiece_spec (r : Reading W) (piece : CString) :
    ((p.readPiece r piece).Open → r.Open) ∧
      ((Takes r piece ∧ ∃ found, record piece.bytes = some found ∧
          (p.readPiece r piece).forwarded = r.forwarded ++ [(piece, found.point)]) ∨
        (¬ Takes r piece ∧ (p.readPiece r piece).forwarded = r.forwarded)) := by
  by_cases hret : r.ret = .ok
  swap
  · rw [readPiece_of_ne p hret]
    exact ⟨id, .inr ⟨fun h => hret h.running, rfl⟩⟩
  rw [Program.readPiece, hret]
  dsimp only
  by_cases hskip : Program.skipped piece = true
  · rw [if_pos hskip]
    refine ⟨id, .inr ⟨fun h => ?_, rfl⟩⟩
    exact Bool.false_ne_true (h.notSkipped.symm.trans hskip)
  rw [if_neg hskip]
  constructor
  · intro h
    have hclear := h.clear
    dsimp only at hclear
    rw [insert_erange, Bool.or_eq_false_iff] at hclear
    exact ⟨hret, hclear.1⟩
  · dsimp only
    rw [parse_eq]
    dsimp only
    cases herrno : r.state.erange with
    | true =>
      refine .inr ⟨fun h => ?_, List.append_nil _⟩
      exact Bool.false_ne_true (h.clear.symm.trans herrno)
    | false =>
      cases hrecord : record piece.bytes with
      | none =>
        refine .inr ⟨fun h => ?_, List.append_nil _⟩
        have hsome := h.isRecord
        rw [hrecord] at hsome
        cases hsome
      | some found =>
        refine .inl ⟨⟨⟨hret, herrno⟩, Bool.not_eq_true _ ▸ hskip, ?_⟩, found, rfl, rfl⟩
        rw [hrecord]
        rfl

/-- **Some rounds** forward nothing but the pieces they take. -/
theorem run_readPiece_forwarded (ps : List CString) (r : Reading W) :
    ∃ new, (run p.readPiece r ps).forwarded = r.forwarded ++ new ∧
      (new = [] ↔ Along p.readPiece (fun r piece => ¬ Takes r piece) r ps) ∧
      ∀ e ∈ new, e.1 ∈ ps ∧ Takes r e.1 := by
  induction ps generalizing r with
  | nil => exact ⟨[], (List.append_nil _).symm, by simp, List.forall_mem_nil _⟩
  | cons piece ps ih =>
    obtain ⟨hopen, hround⟩ := readPiece_spec p r piece
    obtain ⟨new, hrun, hnil, hnew⟩ := ih (p.readPiece r piece)
    have hlater : ∀ e ∈ new, e.1 ∈ piece :: ps ∧ Takes r e.1 := by
      intro e he
      obtain ⟨hmem, htakes⟩ := hnew e he
      exact ⟨List.mem_cons_of_mem _ hmem,
        ⟨hopen htakes.toOpen, htakes.notSkipped, htakes.isRecord⟩⟩
    rw [run_cons, along_cons]
    rcases hround with ⟨htakes, found, hrecord, hforwarded⟩ | ⟨hnot, hforwarded⟩
    · refine ⟨(piece, found.point) :: new, ?_, ?_, ?_⟩
      · rw [hrun, hforwarded, List.append_assoc]
        rfl
      · simp [htakes]
      · exact List.forall_mem_cons.mpr ⟨⟨List.mem_cons_self, htakes⟩, hlater⟩
    · rw [hforwarded] at hrun
      exact ⟨new, hrun, by rw [hnil, and_iff_right hnot], hlater⟩

end Forwarded

/-! ## Unmixed lines -/

/-- A forwarded piece has the first three fields of its line, and so its point. -/
structure Whole (line : Bytes) (e : CString × Point) : Prop where
  firstThree : (fields e.1.bytes).take 3 = (fields line).take 3
  point : (record line).map Record.point = some e.2

/-- One line gives at most one record, which is not cut. -/
structure Unmixed (line : Bytes) (forwarded : List (CString × Point)) : Prop where
  atMostOne : forwarded.length ≤ 1
  whole : ∀ e ∈ forwarded, Whole line e

/-- No piece of the line but the first is forwarded, and the first only if the first
three fields of the line fit into it. -/
def Program.Uncut (p : Program W) (r : Reading W) (line : Bytes) : Prop :=
  let first := CString.ofBytes (line.take (bufferLen - 1))
  (Takes r first → (opening 32 3 line).length ≤ first.strlen) ∧
    Along p.readPiece (fun r piece => ¬ Takes r piece) (p.readPiece r first) (pieces line).tail

/-- A record is in the first three fields. -/
theorem record_congr {line line' : Bytes} (h : (fields line).take 3 = (fields line').take 3) :
    record line = record line' := by
  unfold record
  generalize fields line = fs at h ⊢
  generalize fields line' = fs' at h ⊢
  rcases fs with _ | ⟨key, _ | ⟨value, _ | ⟨time, rest⟩⟩⟩ <;>
    rcases fs' with _ | ⟨key', _ | ⟨value', _ | ⟨time', rest'⟩⟩⟩ <;> simp_all

theorem cstr_isPrefix (bs : Bytes) : cstr bs <+: bs := List.takeWhile_prefix _

/-- The C string at the start of a byte array is its longest beginning without NUL. -/
theorem prefix_cstr {bs bs' : Bytes} (h : bs <+: bs') (hnul : (0 : UInt8) ∉ bs) :
    bs <+: cstr bs' := by
  obtain ⟨rest, rfl⟩ := h
  unfold cstr
  rw [List.takeWhile_append_of_pos]
  · exact List.prefix_append _ _
  · intro b hb
    simpa using fun h : b = 0 => hnul (h ▸ hb)

/-- Whether a line is skipped is seen from how it begins. -/
theorem skipped_congr {bs : Bytes} (hne : bs ≠ []) {line line' : CString} (h : bs <+: line.bytes)
    (h' : bs <+: line'.bytes) : Program.skipped line = Program.skipped line' := by
  obtain ⟨b, bs, rfl⟩ := List.exists_cons_of_ne_nil hne
  obtain ⟨rest, h⟩ := h
  obtain ⟨rest', h'⟩ := h'
  unfold Program.skipped
  rw [← h, ← h']
  simp

/-- If a later piece has the first three fields of the line, then the first piece has
them too, and is forwarded. -/
theorem Whole.takes_first {r : Reading W} {line : Bytes} {e : CString × Point}
    (h : Whole line e) (hmem : e.1 ∈ (pieces line).tail) (htakes : Takes r e.1) :
    Takes r (CString.ofBytes (line.take (bufferLen - 1))) := by
  obtain ⟨hlong, hshort⟩ := length_of_mem_pieces_tail hmem
  have hopening : opening 32 3 line <+: e.1.bytes := by
    rw [opening, show (line.splitOn 32).take 3 = (e.1.bytes.splitOn 32).take 3 from h.firstThree.symm]
    exact opening_isPrefix 32 3 e.1.bytes
  have hfirst : opening 32 3 line <+: cstr (line.take (bufferLen - 1)) := by
    refine prefix_cstr ?_ fun hnul => e.1.nulFree (hopening.subset hnul)
    refine List.prefix_of_prefix_length_le (opening_isPrefix 32 3 line) (List.take_prefix _ _) ?_
    rw [List.length_take_of_le hlong]
    exact Nat.le_trans hopening.length_le hshort
  have hfields : (fields (cstr (line.take (bufferLen - 1)))).take 3 = (fields line).take 3 :=
    take_splitOn_of_opening (by decide) hfirst ((cstr_isPrefix _).trans (List.take_prefix _ _))
  have hrecord : record (cstr (line.take (bufferLen - 1))) = record e.1.bytes :=
    record_congr (hfields.trans h.firstThree.symm)
  have hne : opening 32 3 line ≠ [] := by
    intro hnil
    obtain ⟨found, hrec⟩ := Option.isSome_iff_exists.mp htakes.isRecord
    obtain ⟨value, time, rest, hthree, -, -⟩ := record_eq_some.mp hrec
    have hsplit := splitOn_opening 32 (by decide : 3 ≠ 0) line
    rw [hnil, show (line.splitOn 32).take 3 = (fields e.1.bytes).take 3 from h.firstThree.symm,
      hthree] at hsplit
    have hlen : 1 = 3 := congrArg List.length hsplit
    exact absurd hlen (by decide)
  refine ⟨htakes.toOpen, ?_, ?_⟩
  · exact (skipped_congr hne hfirst hopening).trans htakes.notSkipped
  · exact hrecord ▸ htakes.isRecord

/-- **When a line is unmixed**. -/
theorem line_unmixed_iff (p : Program W) {r : Reading W} (hr : r.forwarded = []) (line : Bytes) :
    Unmixed line (run p.readPiece r (pieces line)).forwarded ↔ p.Uncut r line := by
  obtain ⟨new, hrun, hnil, hnew⟩ :=
    run_readPiece_forwarded p (pieces line).tail
      (p.readPiece r (CString.ofBytes (line.take (bufferLen - 1))))
  obtain ⟨hopen, hround⟩ := readPiece_spec p r (CString.ofBytes (line.take (bufferLen - 1)))
  have hprefix : (CString.ofBytes (line.take (bufferLen - 1))).bytes <+: line :=
    (cstr_isPrefix _).trans (List.take_prefix _ _)
  have hfits := take_splitOn_eq_iff 32 (by decide : 3 ≠ 0) hprefix
  rw [pieces_eq_cons, run_cons, hrun, Program.Uncut, ← hnil]
  rcases hround with ⟨htakes, found, hrecord, hforwarded⟩ | ⟨hnot, hforwarded⟩
  · rw [hforwarded, hr, List.nil_append, List.singleton_append]
    constructor
    · intro h
      have hnone : new.length ≤ 0 := Nat.le_of_succ_le_succ h.atMostOne
      exact ⟨fun _ => hfits.mp (h.whole _ List.mem_cons_self).firstThree,
        List.length_eq_zero_iff.mp (Nat.le_zero.mp hnone)⟩
    · rintro ⟨hlen, rfl⟩
      have hfields := hfits.mpr (hlen htakes)
      refine ⟨Nat.le_refl 1, List.forall_mem_singleton.mpr ⟨hfields, ?_⟩⟩
      rw [← record_congr hfields, hrecord]
      rfl
  · rw [hforwarded, hr, List.nil_append]
    constructor
    · intro h
      refine ⟨fun htakes => absurd htakes hnot, List.eq_nil_iff_forall_not_mem.mpr fun e he => ?_⟩
      obtain ⟨hmem, htakes⟩ := hnew e he
      exact hnot ((h.whole e he).takes_first hmem
        ⟨hopen htakes.toOpen, htakes.notSkipped, htakes.isRecord⟩)
    · rintro ⟨-, rfl⟩
      exact ⟨Nat.zero_le 1, List.forall_mem_nil _⟩

/-- A line that fits the buffer, without a NUL, is uncut. -/
theorem uncut_of_short (p : Program W) (r : Reading W) {line : Bytes}
    (hlen : line.length < bufferLen - 1) (hnul : (0 : UInt8) ∉ line) : p.Uncut r line := by
  rw [Program.Uncut, pieces_of_lt hlen, List.take_of_length_le (Nat.le_of_lt hlen)]
  refine ⟨fun _ => ?_, along_nil _⟩
  show (opening 32 3 line).length ≤ (cstr line).length
  rw [cstr_of_nulFree hnul]
  exact (opening_isPrefix 32 3 line).length_le

theorem run_readLine_log (p : Program W) (lines : List Bytes) (r : FileReading W) :
    (run p.readLine r lines).log.map Prod.fst = r.log.map Prod.fst ++ lines ∧
      ((∀ e ∈ (run p.readLine r lines).log, Unmixed e.1 e.2) ↔
        (∀ e ∈ r.log, Unmixed e.1 e.2) ∧
          Along p.readLine (fun r line => p.Uncut ⟨r.ret, r.state, []⟩ line) r lines) := by
  induction lines generalizing r with
  | nil => exact ⟨(List.append_nil _).symm, by simp⟩
  | cons line lines ih =>
    obtain ⟨hlines, hunmixed⟩ := ih (p.readLine r line)
    have hlog : (p.readLine r line).log
        = r.log ++ [(line, (run p.readPiece ⟨r.ret, r.state, []⟩ (pieces line)).forwarded)] := rfl
    rw [run_cons, along_cons]
    constructor
    · rw [hlines, hlog, List.map_append, List.append_assoc]
      rfl
    · rw [hunmixed, hlog, List.forall_mem_append, List.forall_mem_singleton,
        line_unmixed_iff p rfl, and_assoc]

/-- **One line, one record**: the tool gets at most one record from each line of a file,
with the fields of that line, if and only if, while the loop runs and `errno` is
clear, only the first piece of a line is a record, and contains the first three
fields of the line. -/
theorem main_unmixed_iff (p : Program W) {fgets : Nat → Bytes → Option (Bytes × Bytes)}
    (hfgets : CutsLines fgets) (input : Bytes) (s : State W) :
    let r := p.readFile input s
    (p.main fgets input s =
      match r.ret with
      | .ok => p.finish r.state
      | ret => (ret, r.state)) ∧
      r.log.map Prod.fst = input.splitOn 10 ∧
      ((∀ e ∈ r.log, Unmixed e.1 e.2) ↔
        Along p.readLine (fun r line => p.Uncut ⟨r.ret, r.state, []⟩ line) ⟨.ok, s, []⟩
          (input.splitOn 10)) := by
  obtain ⟨hlines, hunmixed⟩ := run_readLine_log p (input.splitOn 10) ⟨.ok, s, []⟩
  refine ⟨main_readFile p hfgets input s, hlines, hunmixed.trans ?_⟩
  exact and_iff_right (List.forall_mem_nil _)

theorem main_unmixed_iff_oneLine :
    let r := asciiProgram.readFile [97, 32, 53, 32, 54, 48, 10] (State.init ⟨[]⟩)
    (asciiProgram.main fgetsOf [97, 32, 53, 32, 54, 48, 10] (State.init ⟨[]⟩) =
      match r.ret with
      | .ok => asciiProgram.finish r.state
      | ret => (ret, r.state)) ∧
      r.log.map Prod.fst = ([97, 32, 53, 32, 54, 48, 10] : Bytes).splitOn 10 ∧
      ((∀ e ∈ r.log, Unmixed e.1 e.2) ↔
        Along asciiProgram.readLine (fun r line => asciiProgram.Uncut ⟨r.ret, r.state, []⟩ line)
          ⟨.ok, State.init ⟨[]⟩, []⟩ (([97, 32, 53, 32, 54, 48, 10] : Bytes).splitOn 10)) :=
  main_unmixed_iff asciiProgram cutsLines_fgetsOf [97, 32, 53, 32, 54, 48, 10] (State.init ⟨[]⟩)

/-- A comment that fills the buffer, and goes on with what looks like a record. -/
def longComment : Bytes := List.replicate (bufferLen - 1) 35 ++ [97, 32, 49, 32, 50]

/-- The second piece of the comment is forwarded. -/
theorem longComment_not_unmixed :
    ¬ ∀ e ∈ (asciiProgram.readFile longComment (State.init ⟨[]⟩)).log, Unmixed e.1 e.2 := by
  intro h
  have hlog : (asciiProgram.readFile longComment (State.init ⟨[]⟩)).log
      = [(longComment, [(CString.ofAscii "a 1 2", ⟨CString.ofAscii "a", 1, 2⟩)])] := by
    decide +kernel
  rw [hlog] at h
  have hfields := ((List.forall_mem_singleton.mp h).whole _ (List.mem_singleton_self _)).firstThree
  exact absurd hfields (by decide +kernel)

end Insert

end Libtimeseries
