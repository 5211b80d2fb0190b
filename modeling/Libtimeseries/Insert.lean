import Libtimeseries.Backend
import Libtimeseries.Base.Scanning

/-!
# `timeseries-insert` (`timeseries-insert.c`)

The tool reads lines `key value time` and inserts the points: one by one with
`timeseries_set_single`, or in batch mode through a key package that it flushes
whenever the time changes.

Modelling choices:

- the static variables are one record, `State`; `gtime` is an `int` that only ever
  holds a time, so it is a `UInt32`; `points_pending` is an `int` too, and a `Nat`
  here: the model is of inputs with fewer than 2^31 records between two flushes;
- backends do not set `errno` to `ERANGE`, and nothing takes the value back, so
  `errno` is a flag that stays set;
- `wandio_fgets` is a parameter. It gets the buffer length and the rest of the
  file, and returns the chomped line with what remains;
- allocations and `timeseries_kp_init` succeed;
- the calls of `timeseries_set_single` and of the `set_single` callbacks are
  recorded, as `Env.calls` records the callbacks of key packages.
-/

namespace Libtimeseries

open ByteLib

variable {W : Type}

namespace Insert

/-- `BUFFER_LEN` -/
def bufferLen : Nat := 1024

/-- A record of the input. -/
structure Point where
  key : CString
  value : UInt64
  time : UInt32
deriving DecidableEq

/-- One invocation of a `set_single` callback. -/
structure SetSingle where
  backend : BackendId
  point : Point
  ret : Ret
deriving DecidableEq

/-- The backends and the command line. -/
structure Program (W : Type) where
  ts : Timeseries W
  /-- the `set_single` callbacks -/
  setSingle : BackendId → Point → W → Ret × W
  batchMode : Bool

/-- The static variables and `errno`, the world, and the calls made so far. -/
structure State (W : Type) where
  kp : Kp
  env : Env W
  pointsPending : Nat
  gtime : UInt32
  /-- is `errno` equal to `ERANGE`? -/
  erange : Bool
  /-- the calls of `timeseries_set_single` -/
  points : List Point
  setSingles : List SetSingle

/-- The start: flag 1 of `timeseries_kp_init` is `TIMESERIES_KP_RESET`. -/
def State.init (w : W) : State W where
  kp := Kp.init 1
  env := ⟨w, []⟩
  pointsPending := 0
  gtime := 0
  erange := false
  points := []
  setSingles := []

/-! ## Parsing a line -/

/-- A number that must make up the whole token, and `errno` after reading it. -/
def parseNumber (erange : Bool) (str : CString) : Option UInt64 × Bool :=
  let r := strtoull str.bytes
  let erange := erange || r.range
  -- `end == str` when nothing was read, `*end != '\0'` when something is left
  if r.rest = str.bytes ∨ r.rest ≠ [] ∨ erange = true then (none, erange)
  else (some r.value, erange)

/-- The point on a line, if it is well-formed, and `errno` after reading it. The time
is cut to 32 bits. -/
def parse (erange : Bool) (line : Option CString) : Option Point × Bool :=
  match strsep 32 line with
  | none => (none, erange)
  | some (key, line) =>
    match strsep 32 line with
    | none => (none, erange)
    | some (valueStr, line) =>
      match parseNumber erange valueStr with
      | (none, erange) => (none, erange)
      | (some value, erange) =>
        match strsep 32 line with
        | none => (none, erange)
        | some (timeStr, _) =>
          match parseNumber erange timeStr with
          | (none, erange) => (none, erange)
          | (some time, erange) => (some ⟨key, value, time.toUInt32⟩, erange)

namespace Program

/-! ## Single mode -/

/-- `backend->set_single(backend, key, value, time)` -/
def callSetSingle (p : Program W) (id : BackendId) (pt : Point) (s : State W) : Ret × State W :=
  let r := p.setSingle id pt s.env.world
  (r.1,
    { s with
      env := { s.env with world := r.2 }
      setSingles := s.setSingles ++ [⟨id, pt, r.1⟩] })

/-- The loop of `timeseries_set_single`. -/
def setSingleLoop (p : Program W) (pt : Point) : List BackendId → State W → Ret × State W
  | [], s => (.ok, s)
  | id :: ids, s =>
    match p.callSetSingle id pt s with
    | (.ok, s) => setSingleLoop p pt ids s
    | (r, s) => (r, s)

/-- `timeseries_set_single` -/
def timeseriesSetSingle (p : Program W) (pt : Point) (s : State W) : Ret × State W :=
  p.setSingleLoop pt p.ts.enabledIds { s with points := s.points ++ [pt] }

/-- The callbacks made for a point in single mode: all succeed and every backend gets
it, or the last one does not succeed. -/
theorem setSingleLoop_spec (p : Program W) (pt : Point) (ids : List BackendId) (s : State W) :
    ∃ env new, (p.setSingleLoop pt ids s).2
        = { s with env := env, setSingles := s.setSingles ++ new } ∧
      ((p.setSingleLoop pt ids s).1 = .ok → new = ids.map fun id => ⟨id, pt, .ok⟩) ∧
      ((p.setSingleLoop pt ids s).1 ≠ .ok → ∃ c ∈ new, c.ret ≠ .ok) := by
  induction ids generalizing s with
  | nil => exact ⟨s.env, [], by simp [setSingleLoop], fun _ => rfl, fun h => absurd rfl h⟩
  | cons id ids ih =>
    rw [setSingleLoop]
    obtain ⟨ret, hret⟩ : ∃ ret, (p.setSingle id pt s.env.world).1 = ret := ⟨_, rfl⟩
    have hcall : p.callSetSingle id pt s = (ret, { s with
        env := { s.env with world := (p.setSingle id pt s.env.world).2 }
        setSingles := s.setSingles ++ [⟨id, pt, ret⟩] }) := by
      rw [callSetSingle, hret]
    rw [hcall]
    cases ret with
    | ok =>
      obtain ⟨env, new, hs, hok, hbad⟩ := ih { s with
        env := { s.env with world := (p.setSingle id pt s.env.world).2 }
        setSingles := s.setSingles ++ [⟨id, pt, .ok⟩] }
      refine ⟨env, ⟨id, pt, .ok⟩ :: new, ?_, ?_, ?_⟩
      · dsimp only
        rw [hs, List.append_assoc]
        rfl
      · intro h
        rw [hok h]
        rfl
      · intro h
        obtain ⟨c, hc, hne⟩ := hbad h
        exact ⟨c, List.mem_cons_of_mem _ hc, hne⟩
    | fail => exact ⟨_, [_], rfl, by rintro ⟨⟩, fun h => ⟨_, List.mem_singleton_self _, h⟩⟩
    | stop why => exact ⟨_, [_], rfl, by rintro ⟨⟩, fun h => ⟨_, List.mem_singleton_self _, h⟩⟩

/-! ## Batch mode -/

/-- `timeseries_kp_flush(kp, gtime)` -/
def kpFlush (p : Program W) (s : State W) : Ret × State W :=
  let r := s.kp.flush p.ts s.gtime s.env
  (r.1, { s with kp := r.2.1, env := r.2.2 })

/-- The id of a key, which is added if it is not there, and the package. -/
def keyId (kp : Kp) (key : CString) : Int × Kp :=
  let keyId := kp.getKey key
  if keyId = -1 then kp.addKey .success key else (keyId, kp)

/-- Setting the value of a key: the end of batch mode's branch. -/
def setPoint (pt : Point) (s : State W) : Ret × State W :=
  let r := keyId s.kp pt.key
  if r.1 = -1 then
    (.fail, { s with kp := r.2 })
  -- `assert(key_id >= 0)`
  else if r.1 < 0 then
    (.stop .assertFailed, { s with kp := r.2 })
  else
    match r.2.set r.1.toNat pt.value with
    | (.ok, kp) => (.ok, { s with kp := kp, pointsPending := s.pointsPending + 1 })
    | (ret, kp) => (ret, { s with kp := kp })

/-- Batch mode's branch of `insert`. -/
def insertBatch (p : Program W) (pt : Point) (s : State W) : Ret × State W :=
  -- 0 means that no time is set
  let s := if s.gtime = 0 then { s with gtime := pt.time } else s
  if s.gtime ≠ pt.time then
    match p.kpFlush s with
    | (.ok, s) => setPoint pt { s with gtime := pt.time, pointsPending := 0 }
    | (r, s) => (r, s)
  else
    setPoint pt s

/-! ## The program -/

/-- What `insert` does with a well-formed line. -/
def insertPoint (p : Program W) (pt : Point) (s : State W) : Ret × State W :=
  if p.batchMode then p.insertBatch pt s else p.timeseriesSetSingle pt s

/-- `insert`: malformed lines are ignored. -/
def insert (p : Program W) (line : Option CString) (s : State W) : Ret × State W :=
  match line with
  | none => (.ok, s)
  | some line =>
    match parse s.erange (some line) with
    | (none, erange) => (.ok, { s with erange := erange })
    | (some pt, erange) => p.insertPoint pt { s with erange := erange }

/-- Is the line in the buffer a comment or empty? -/
def skipped (line : CString) : Bool := line.bytes.head? = some 35 || line.bytes = []

/-- The read loop of `main`, with a bound on the number of lines. -/
def readLoop (p : Program W) (fgets : Nat → Bytes → Option (Bytes × Bytes)) :
    Nat → Bytes → State W → Ret × State W
  | 0, _, s => (.stop .noReturn, s)
  | fuel + 1, input, s =>
    match fgets bufferLen input with
    | none => (.ok, s)
    | some (buffer, input) =>
      let line := CString.ofBytes buffer
      if skipped line then
        readLoop p fgets fuel input s
      else
        match p.insert (some line) s with
        | (.ok, s) => readLoop p fgets fuel input s
        | (r, s) => (r, s)

/-- The final flush of `main`. -/
def finish (p : Program W) (s : State W) : Ret × State W :=
  if p.batchMode && decide (0 < s.pointsPending) then p.kpFlush s else (.ok, s)

/-- `main` from the read loop on: every line takes at least one byte. -/
def main (p : Program W) (fgets : Nat → Bytes → Option (Bytes × Bytes)) (input : Bytes)
    (s : State W) : Ret × State W :=
  match p.readLoop fgets (input.length + 1) input s with
  | (.ok, s) => p.finish s
  | (r, s) => (r, s)

end Program

/-! ## The program on its records -/

namespace Program

/-- `insert` for some points, up to the first that fails. -/
def insertAll (p : Program W) : List Point → State W → Ret × State W
  | [], s => (.ok, s)
  | pt :: pts, s =>
    match p.insertPoint pt s with
    | (.ok, s) => insertAll p pts s
    | (r, s) => (r, s)

/-- The tool on some well-formed records. -/
def process (p : Program W) (pts : List Point) (s : State W) : Ret × State W :=
  match p.insertAll pts s with
  | (.ok, s) => p.finish s
  | (r, s) => (r, s)

theorem process_cons_of_ok (p : Program W) {pt : Point} (pts : List Point) {s s' : State W}
    (h : p.insertPoint pt s = (.ok, s')) : p.process (pt :: pts) s = p.process pts s' := by
  rw [process, insertAll, h]
  rfl

theorem process_cons_of_ne (p : Program W) {pt : Point} (pts : List Point) {s : State W}
    (h : (p.insertPoint pt s).1 ≠ .ok) : p.process (pt :: pts) s = p.insertPoint pt s := by
  rw [process, insertAll]
  generalize p.insertPoint pt s = r at h ⊢
  obtain ⟨ret, s'⟩ := r
  cases ret with
  | ok => exact absurd rfl h
  | fail => rfl
  | stop why => rfl

end Program

/-! ## From a file to its records -/

/-- The well-formed records of a file, if its lines come to an end. -/
def accepted (fgets : Nat → Bytes → Option (Bytes × Bytes)) :
    Nat → Bytes → Bool → Option (List Point)
  | 0, _, _ => none
  | fuel + 1, input, erange =>
    match fgets bufferLen input with
    | none => some []
    | some (buffer, input) =>
      if Program.skipped (CString.ofBytes buffer) then
        accepted fgets fuel input erange
      else
        match parse erange (some (CString.ofBytes buffer)) with
        | (none, erange) => accepted fgets fuel input erange
        | (some pt, erange) => (accepted fgets fuel input erange).map (pt :: ·)

/-- The same with another `errno`. -/
def State.setErrno (s : State W) (erange : Bool) : State W := { s with erange := erange }

/-- What a function returns, with another `errno`. -/
def setErrno (r : Ret × State W) (erange : Bool) : Ret × State W := (r.1, r.2.setErrno erange)

namespace Program

theorem setSingleLoop_setErrno (p : Program W) (pt : Point) (ids : List BackendId) (s : State W)
    (erange : Bool) :
    p.setSingleLoop pt ids (s.setErrno erange)
      = setErrno (p.setSingleLoop pt ids s) erange := by
  induction ids generalizing s with
  | nil => rfl
  | cons id ids ih =>
    have hcall : p.callSetSingle id pt (s.setErrno erange)
        = setErrno (p.callSetSingle id pt s) erange := rfl
    rw [setSingleLoop, setSingleLoop, hcall]
    generalize p.callSetSingle id pt s = r
    obtain ⟨ret, s₁⟩ := r
    cases ret with
    | ok => exact ih s₁
    | fail => rfl
    | stop why => rfl

theorem setPoint_setErrno (pt : Point) (s : State W) (erange : Bool) :
    setPoint pt (s.setErrno erange) = setErrno (setPoint pt s) erange := by
  have hkp : (s.setErrno erange).kp = s.kp := rfl
  rw [setPoint, setPoint, hkp]
  generalize keyId s.kp pt.key = r
  obtain ⟨id, kp⟩ := r
  generalize kp.set id.toNat pt.value = r
  obtain ⟨ret, kp'⟩ := r
  split
  · rfl
  split
  · rfl
  cases ret <;> rfl

theorem insertBatch_setErrno (p : Program W) (pt : Point) (s : State W) (erange : Bool) :
    p.insertBatch pt (s.setErrno erange) = setErrno (p.insertBatch pt s) erange := by
  have hgtime : (if (s.setErrno erange).gtime = 0 then
        { s.setErrno erange with gtime := pt.time } else s.setErrno erange)
      = (if s.gtime = 0 then { s with gtime := pt.time } else s : State W).setErrno erange := by
    have hsame : (s.setErrno erange).gtime = s.gtime := rfl
    rw [hsame]
    split <;> rfl
  rw [insertBatch, insertBatch, hgtime]
  generalize (if s.gtime = 0 then { s with gtime := pt.time } else s : State W) = s'
  have hsame : (s'.setErrno erange).gtime = s'.gtime := rfl
  have hflush : p.kpFlush (s'.setErrno erange) = setErrno (p.kpFlush s') erange := rfl
  rw [hsame, hflush]
  split
  · generalize p.kpFlush s' = r
    obtain ⟨ret, s₁⟩ := r
    cases ret with
    | ok => exact setPoint_setErrno pt { s₁ with gtime := pt.time, pointsPending := 0 } erange
    | fail => rfl
    | stop why => rfl
  · exact setPoint_setErrno pt s' erange

/-- Inserting a point does not depend on `errno`. -/
theorem insertPoint_setErrno (p : Program W) (pt : Point) (s : State W) (erange : Bool) :
    p.insertPoint pt (s.setErrno erange) = setErrno (p.insertPoint pt s) erange := by
  rw [insertPoint, insertPoint]
  split
  · exact p.insertBatch_setErrno pt s erange
  · exact p.setSingleLoop_setErrno pt p.ts.enabledIds { s with points := s.points ++ [pt] } erange

/-- The read loop inserts the well-formed records of the file, whatever it makes of
`errno`. -/
theorem readLoop_accepted (p : Program W) (fgets : Nat → Bytes → Option (Bytes × Bytes))
    {fuel : Nat} {input : Bytes} {erange : Bool} {pts : List Point}
    (h : accepted fgets fuel input erange = some pts) (s : State W) :
    ∃ erange', p.readLoop fgets fuel input (s.setErrno erange)
      = setErrno (p.insertAll pts s) erange' := by
  induction fuel generalizing input erange pts s with
  | zero => cases h
  | succ fuel ih =>
    rw [accepted] at h
    rw [readLoop]
    cases hread : fgets bufferLen input with
    | none =>
      rw [hread] at h
      cases h
      exact ⟨erange, rfl⟩
    | some r =>
      obtain ⟨buffer, rest⟩ := r
      rw [hread] at h
      dsimp only at h ⊢
      split at h
      · next hskip =>
        rw [if_pos hskip]
        exact ih h s
      · next hskip =>
        rw [if_neg hskip, insert]
        have herrno : (s.setErrno erange).erange = erange := rfl
        rw [herrno]
        generalize parse erange (some (CString.ofBytes buffer)) = r at h ⊢
        obtain ⟨pt?, erange₁⟩ := r
        cases pt? with
        | none => exact ih h s
        | some pt =>
          obtain ⟨pts, hpts, rfl⟩ := Option.map_eq_some_iff.mp h
          have hinsert : p.insertPoint pt { s.setErrno erange with erange := erange₁ }
              = setErrno (p.insertPoint pt s) erange₁ := p.insertPoint_setErrno pt s erange₁
          dsimp only
          rw [hinsert, insertAll]
          generalize p.insertPoint pt s = r
          obtain ⟨ret, s₁⟩ := r
          cases ret with
          | ok => exact ih hpts s₁
          | fail => exact ⟨erange₁, rfl⟩
          | stop why => exact ⟨erange₁, rfl⟩

/-- **The tool on a file** processes the well-formed records of the file. -/
theorem main_accepted (p : Program W) (fgets : Nat → Bytes → Option (Bytes × Bytes))
    {input : Bytes} {s : State W} {pts : List Point}
    (h : accepted fgets (input.length + 1) input s.erange = some pts) :
    ∃ erange, p.main fgets input s = setErrno (p.process pts s) erange := by
  obtain ⟨erange, hloop⟩ := p.readLoop_accepted fgets h s
  have hs : s.setErrno s.erange = s := rfl
  rw [hs] at hloop
  refine ⟨erange, ?_⟩
  rw [main, process, hloop]
  generalize p.insertAll pts s = r
  obtain ⟨ret, s₁⟩ := r
  cases ret with
  | ok =>
    show p.finish (s₁.setErrno erange) = setErrno (p.finish s₁) erange
    rw [finish, finish]
    have hsame : (s₁.setErrno erange).pointsPending = s₁.pointsPending := rfl
    rw [hsame]
    split <;> rfl
  | fail => rfl
  | stop why => rfl

end Program

end Insert

end Libtimeseries
