import Libtimeseries.TskProxySpec

/-!
# The record loop of the proxy

`parse_key_value` is read as a relation between the bytes in front of the cursor
and the bytes behind what it consumed (`Finds`). Two of its exits return 0
without having read a record: both stand in `DESERIALIZE_VAL`. The one in front
of the key length consumes nothing, so the loop never ends once it arrives
there, that is, once a single byte is left.
-/

namespace Libtimeseries

open ByteLib RunLib

namespace TskProxy

variable {W : Type}

/-! ## Cursors -/

/-- The cursor stands in front of `rest`, the end of the payload. -/
structure Cursor.At (c : Cursor) (payload rest : Bytes) : Prop where
  buf : payload.drop c.buf = rest
  remain : c.remain = rest.length

theorem Cursor.at_append (header body : Bytes) :
    (⟨header.length, body.length⟩ : Cursor).At (header ++ body) body :=
  ⟨List.drop_left, rfl⟩

section Read

variable {c : Cursor} {payload bs rest : Bytes}

theorem Cursor.At.skip (h : c.At payload (bs ++ rest)) : (c.skip bs.length).At payload rest where
  buf := by
    show payload.drop (c.buf + bs.length) = rest
    rw [← List.drop_drop, h.buf, List.drop_left]
  remain := by
    show c.remain - bs.length = rest.length
    rw [h.remain, List.length_append]
    omega

theorem Cursor.At.read (h : c.At payload (bs ++ rest)) : c.read payload bs.length = bs := by
  rw [Cursor.read, h.buf, List.take_left]

theorem Cursor.At.deserializeVal_some (h : c.At payload (bs ++ rest)) :
    deserializeVal payload c bs.length = some (bs, c.skip bs.length) := by
  have hremain := h.remain
  rw [List.length_append] at hremain
  rw [deserializeVal, if_neg (by omega), h.read]

theorem Cursor.At.deserializeVal_none (h : c.At payload rest) {size : Nat}
    (hshort : rest.length < size) : deserializeVal payload c size = none := by
  have hremain := h.remain
  exact if_pos (by omega)

end Read

/-! ## What `parse_key_value` finds -/

/-- What stands at the start of some bytes, and the bytes behind what
`parse_key_value` consumes of it. -/
inductive Finds : Bytes → Parsed → Bytes → Prop
  | noLength {rest : Bytes} (short : rest.length < 2) : Finds rest .noNumber rest
  | noKey {len rest : Bytes} (hlen : len.length = 2) (short : rest.length < beNat len) :
      Finds (len ++ rest) .noKey rest
  | longKey {len rest : Bytes} (hlen : len.length = 2) (hkey : beNat len ≤ rest.length)
      (long : keyBufLen ≤ beNat len) : Finds (len ++ rest) .longKey rest
  | noValue {len key rest : Bytes} (hlen : len.length = 2) (hkey : key.length = beNat len)
      (fits : key.length < keyBufLen) (short : rest.length < 8) :
      Finds (len ++ (key ++ rest)) .noNumber rest
  | record {len key value rest : Bytes} (hlen : len.length = 2) (hkey : key.length = beNat len)
      (fits : key.length < keyBufLen) (hvalue : value.length = 8) :
      Finds (len ++ (key ++ (value ++ rest)))
        (.record (CString.ofBytes key) key.length (UInt64.ofNat (beNat value))) rest

/-- The relation covers all bytes. -/
theorem exists_finds (bytes : Bytes) : ∃ x rest, Finds bytes x rest := by
  by_cases hshort : bytes.length < 2
  · exact ⟨_, _, .noLength hshort⟩
  obtain ⟨len, rest, rfl, hlen⟩ : ∃ len rest, bytes = len ++ rest ∧ len.length = 2 :=
    ⟨_, _, (List.take_append_drop 2 bytes).symm, List.length_take_of_le (by omega)⟩
  by_cases hkey : rest.length < beNat len
  · exact ⟨_, _, .noKey hlen hkey⟩
  by_cases hlong : keyBufLen ≤ beNat len
  · exact ⟨_, _, .longKey hlen (by omega) hlong⟩
  obtain ⟨key, rest, rfl, hkeylen⟩ : ∃ key rest', rest = key ++ rest' ∧ key.length = beNat len :=
    ⟨_, _, (List.take_append_drop (beNat len) rest).symm, List.length_take_of_le (by omega)⟩
  by_cases hvalue : rest.length < 8
  · exact ⟨_, _, .noValue hlen hkeylen (by omega) hvalue⟩
  obtain ⟨value, rest, rfl, hvaluelen⟩ : ∃ value rest', rest = value ++ rest' ∧ value.length = 8 :=
    ⟨_, _, (List.take_append_drop 8 rest).symm, List.length_take_of_le (by omega)⟩
  exact ⟨_, _, .record hlen hkeylen (by omega) hvaluelen⟩

/-- The first half of `parse_key_value` finds what is there. -/
theorem readRecord_spec {c : Cursor} {payload bytes rest : Bytes} {x : Parsed}
    (hat : c.At payload bytes) (h : Finds bytes x rest) :
    ∃ c', readRecord payload c = (x, c') ∧ c'.At payload rest := by
  unfold readRecord
  cases h with
  | noLength hshort =>
    rw [hat.deserializeVal_none hshort]
    exact ⟨c, rfl, hat⟩
  | noKey hlen hshort =>
    have hremain := hat.skip.remain
    rw [← hlen, hat.deserializeVal_some]
    exact ⟨_, if_pos (by omega), hat.skip⟩
  | longKey hlen hkey hlong =>
    have hremain := hat.skip.remain
    rw [← hlen, hat.deserializeVal_some]
    exact ⟨_, (if_neg (by omega)).trans (if_pos hlong), hat.skip⟩
  | noValue hlen hkey hfits hshort =>
    have hremain := hat.skip.remain
    rw [List.length_append] at hremain
    rw [← hlen, hat.deserializeVal_some]
    refine ⟨_, (if_neg (by omega)).trans ((if_neg (by omega)).trans ?_), hat.skip.skip⟩
    dsimp only
    rw [← hkey, hat.skip.skip.deserializeVal_none hshort]
  | record hlen hkey hfits hvalue =>
    have hremain := hat.skip.remain
    rw [List.length_append] at hremain
    rw [← hlen, hat.deserializeVal_some]
    refine ⟨_, (if_neg (by omega)).trans ((if_neg (by omega)).trans ?_), hat.skip.skip.skip⟩
    dsimp only
    rw [← hkey, ← hvalue, hat.skip.skip.deserializeVal_some, hat.skip.read]

/-- What `parse_key_value` returns for it. -/
def Parsed.ret : Parsed → Ret
  | .noNumber => .ok
  | .noKey => .fail
  | .longKey => .stop .overflow
  | .record _ _ _ => .ok

theorem parseKeyValue_spec (cfg : Config) {c : Cursor} {payload bytes rest : Bytes} {x : Parsed}
    (hat : c.At payload bytes) (h : Finds bytes x rest) {s : State W} (hwf : s.WellFormed) :
    ∃ c' s', parseKeyValue cfg payload c s = (x.ret, c', s') ∧ c'.At payload rest ∧
      s'.WellFormed := by
  obtain ⟨c', hread, hat'⟩ := readRecord_spec hat h
  have hwf' := parseKeyValue_wellFormed cfg payload c hwf
  refine ⟨c', (parseKeyValue cfg payload c s).2.2, ?_, hat', hwf'⟩
  unfold parseKeyValue
  rw [hread]
  cases x with
  | noNumber => rfl
  | noKey => rfl
  | longKey => rfl
  | record key keylen value =>
    dsimp only
    split
    · rw [(writeKeyValue_spec hwf.kp hwf.names key value).1]
      rfl
    · rfl

/-! ## Termination -/

/-- The bytes the loop can come to stand in front of: those behind a complete
record, and those behind the key of a record whose value is cut short. -/
inductive Arrives : Bytes → Bytes → Prop
  | here (body : Bytes) : Arrives body body
  | record {len key value rest target : Bytes} (hlen : len.length = 2)
      (hkey : key.length = beNat len) (fits : key.length < keyBufLen) (hvalue : value.length = 8)
      (next : Arrives rest target) : Arrives (len ++ (key ++ (value ++ rest))) target
  | noValue {len key rest target : Bytes} (hlen : len.length = 2) (hkey : key.length = beNat len)
      (fits : key.length < keyBufLen) (short : rest.length < 8) (next : Arrives rest target) :
      Arrives (len ++ (key ++ rest)) target

/-- No single byte is left over. -/
def NoStrayByte (body : Bytes) : Prop := ∀ rest, Arrives body rest → rest.length ≠ 1

/-- A call that returns 0 in front of more than one byte consumes some, and what
is behind is arrived at. -/
theorem Finds.advance {bytes rest : Bytes} {x : Parsed} (h : Finds bytes x rest)
    (hret : x.ret = .ok) (htwo : 2 ≤ bytes.length) :
    rest.length < bytes.length ∧ ∀ target, Arrives rest target → Arrives bytes target := by
  cases h with
  | noLength hshort => omega
  | noKey => cases hret
  | longKey => cases hret
  | noValue hlen hkey hfits hshort =>
    refine ⟨?_, fun target => .noValue hlen hkey hfits hshort⟩
    rw [List.length_append, List.length_append]
    omega
  | record hlen hkey hfits hvalue =>
    refine ⟨?_, fun target => .record hlen hkey hfits hvalue⟩
    rw [List.length_append, List.length_append, List.length_append]
    omega

/-- Arriving is passing through calls that return 0 and consume bytes. -/
@[elab_as_elim]
theorem Arrives.rec_finds {target : Bytes} {motive : ∀ bytes, Arrives bytes target → Prop}
    (here : motive target (.here target))
    (next : ∀ {bytes rest : Bytes} {x : Parsed} (hfinds : Finds bytes x rest) (hret : x.ret = .ok)
      (htwo : 2 ≤ bytes.length) (hrest : Arrives rest target), motive rest hrest →
        motive bytes ((hfinds.advance hret htwo).2 target hrest))
    {bytes : Bytes} (h : Arrives bytes target) : motive bytes h := by
  induction h with
  | here => exact here
  | record hlen hkey hfits hvalue hrest ih =>
    refine next (.record hlen hkey hfits hvalue) rfl ?_ hrest (ih here next)
    rw [List.length_append]
    omega
  | noValue hlen hkey hfits hshort hrest ih =>
    refine next (.noValue hlen hkey hfits hshort) rfl ?_ hrest (ih here next)
    rw [List.length_append]
    omega

section Loop

variable {cfg : Config} {c : Cursor} {payload bytes : Bytes} {s : State W}

/-- One byte left: the loop stands still. -/
theorem recordLoop_stray (hat : c.At payload bytes) (hwf : s.WellFormed) (hone : bytes.length = 1)
    (fuel : Nat) : (recordLoop cfg payload fuel c s).1 = .stop .noReturn := by
  induction fuel generalizing c s with
  | zero => rfl
  | succ fuel ih =>
    have hremain := hat.remain
    obtain ⟨c', s', hparse, hat', hwf'⟩ :=
      parseKeyValue_spec cfg hat (.noLength (by omega)) hwf
    rw [recordLoop, if_pos (by omega), hparse]
    exact ih hat' hwf'

/-- A loop that arrives in front of a single byte never ends. -/
theorem recordLoop_hangs (hat : c.At payload bytes) (hwf : s.WellFormed) {target : Bytes}
    (harr : Arrives bytes target) (hone : target.length = 1) (fuel : Nat) :
    (recordLoop cfg payload fuel c s).1 = .stop .noReturn := by
  induction harr using Arrives.rec_finds generalizing c s fuel with
  | here => exact recordLoop_stray hat hwf hone fuel
  | next hfinds hret htwo _ ih =>
    cases fuel with
    | zero => rfl
    | succ fuel =>
      have hremain := hat.remain
      obtain ⟨c', s', hparse, hat', hwf'⟩ := parseKeyValue_spec cfg hat hfinds hwf
      rw [recordLoop, if_pos (by omega), hparse, hret]
      exact ih hat' hwf' fuel

/-- Without a stray byte every round consumes bytes. -/
theorem recordLoop_returns (hat : c.At payload bytes) (hwf : s.WellFormed)
    (hstray : NoStrayByte bytes) {fuel : Nat} (hfuel : bytes.length < fuel) :
    (recordLoop cfg payload fuel c s).1 ≠ .stop .noReturn := by
  induction fuel generalizing c s bytes with
  | zero => exact absurd hfuel (Nat.not_lt_zero _)
  | succ fuel ih =>
    have hremain := hat.remain
    rw [recordLoop]
    split
    · next hpos =>
      have hlen : 2 ≤ bytes.length := by
        have hone := hstray bytes (.here bytes)
        omega
      obtain ⟨x, rest, hfinds⟩ := exists_finds bytes
      obtain ⟨c', s', hparse, hat', hwf'⟩ := parseKeyValue_spec cfg hat hfinds hwf
      rw [hparse]
      cases hret : x.ret with
      | ok =>
        obtain ⟨hlt, harr⟩ := hfinds.advance hret hlen
        refine ih hat' hwf' ?_ (by omega)
        intro rest' h
        exact hstray rest' (harr rest' h)
      | fail => rintro ⟨⟩
      | stop why =>
        cases x with
        | longKey =>
          obtain rfl : Stop.overflow = why := Ret.stop.inj hret
          rintro ⟨⟩
        | _ => cases hret
    · rintro ⟨⟩

/-- More fuel does not change what a loop that ends does. -/
theorem recordLoop_mono {fuel : Nat} (h : (recordLoop cfg payload fuel c s).1 ≠ .stop .noReturn)
    (more : Nat) :
    recordLoop cfg payload (fuel + more) c s = recordLoop cfg payload fuel c s := by
  induction fuel generalizing c s with
  | zero => exact absurd rfl h
  | succ fuel ih =>
    rw [Nat.succ_add]
    rw [recordLoop] at h ⊢
    rw [recordLoop]
    split
    · next hpos =>
      rw [if_pos hpos] at h
      generalize parseKeyValue cfg payload c s = r at h ⊢
      obtain ⟨r, c', s'⟩ := r
      cases r with
      | ok => exact ih h
      | fail => rfl
      | stop why => rfl
    · rfl

/-- The fuel `handle_message` is given suffices if any does. -/
theorem recordLoop_fuel (hat : c.At payload bytes) (hwf : s.WellFormed)
    (hle : bytes.length ≤ payload.length) {fuel : Nat}
    (h : (recordLoop cfg payload fuel c s).1 ≠ .stop .noReturn) :
    recordLoop cfg payload (payload.length + 1) c s = recordLoop cfg payload fuel c s := by
  have hstray : NoStrayByte bytes := by
    intro rest harr hone
    exact h (recordLoop_hangs hat hwf harr hone fuel)
  have henough : (recordLoop cfg payload (payload.length + 1) c s).1 ≠ .stop .noReturn :=
    recordLoop_returns hat hwf hstray (Nat.lt_succ_of_le hle)
  rw [← recordLoop_mono h (payload.length + 1), ← recordLoop_mono henough fuel, Nat.add_comm]

/-! ## The calls the loop makes -/

/-- The cursors and states in which the loop makes its rounds. -/
inductive Visits (cfg : Config) (payload : Bytes) : Cursor → State W → Cursor → State W → Prop
  | here (c : Cursor) (s : State W) : Visits cfg payload c s c s
  | next {c c₁ c' : Cursor} {s s₁ s' : State W} (more : 0 < c.remain)
      (hparse : parseKeyValue cfg payload c s = (.ok, c₁, s₁))
      (rest : Visits cfg payload c₁ s₁ c' s') : Visits cfg payload c s c' s'

/-- Every call the loop makes and that returns 0 decreases `remain`. -/
def CallsAdvance (cfg : Config) (payload : Bytes) (c : Cursor) (s : State W) : Prop :=
  ∀ c' s', Visits cfg payload c s c' s' → 0 < c'.remain →
    (parseKeyValue cfg payload c' s').1 = .ok →
    (parseKeyValue cfg payload c' s').2.1.remain < c'.remain

/-- What a call has found, and where it left the cursor. -/
theorem finds_of_parse (hat : c.At payload bytes) (hwf : s.WellFormed) {r : Ret} {c₁ : Cursor}
    {s₁ : State W} (hparse : parseKeyValue cfg payload c s = (r, c₁, s₁)) :
    ∃ x rest, Finds bytes x rest ∧ x.ret = r ∧ c₁.At payload rest ∧ s₁.WellFormed := by
  obtain ⟨x, rest, hfinds⟩ := exists_finds bytes
  obtain ⟨c₁', s₁', hparse', hat₁, hwf₁⟩ := parseKeyValue_spec cfg hat hfinds hwf
  rw [hparse, Prod.mk.injEq, Prod.mk.injEq] at hparse'
  obtain ⟨hret, rfl, rfl⟩ := hparse'
  exact ⟨x, rest, hfinds, hret.symm, hat₁, hwf₁⟩

/-- What calls that return 0 keep of the bytes in front of them, the loop keeps. -/
theorem Visits.keeps {Inv : Bytes → Prop}
    (hstep : ∀ {bytes x rest}, Inv bytes → Finds bytes x rest → x.ret = .ok → 0 < bytes.length →
      Inv rest)
    {c' : Cursor} {s' : State W} (h : Visits cfg payload c s c' s') (hat : c.At payload bytes)
    (hwf : s.WellFormed) (hinv : Inv bytes) :
    ∃ bytes', c'.At payload bytes' ∧ s'.WellFormed ∧ Inv bytes' := by
  induction h generalizing bytes with
  | here => exact ⟨bytes, hat, hwf, hinv⟩
  | next hpos hparse _ ih =>
    have hremain := hat.remain
    obtain ⟨x, rest, hfinds, hret, hat₁, hwf₁⟩ := finds_of_parse hat hwf hparse
    exact ih hat₁ hwf₁ (hstep hinv hfinds hret (by omega))

theorem NoStrayByte.next {x : Parsed} {rest : Bytes} (h : NoStrayByte bytes)
    (hfinds : Finds bytes x rest) (hret : x.ret = .ok) (hpos : 0 < bytes.length) :
    NoStrayByte rest := by
  have hone := h bytes (.here bytes)
  obtain ⟨-, harr⟩ := hfinds.advance hret (by omega)
  exact fun rest' hrest' => h rest' (harr rest' hrest')

theorem Arrives.visits {target : Bytes} (h : Arrives bytes target) (hat : c.At payload bytes)
    (hwf : s.WellFormed) :
    ∃ c' s', Visits cfg payload c s c' s' ∧ c'.At payload target ∧ s'.WellFormed := by
  induction h using Arrives.rec_finds generalizing c s with
  | here => exact ⟨c, s, .here c s, hat, hwf⟩
  | next hfinds hret htwo _ ih =>
    have hremain := hat.remain
    obtain ⟨c₁, s₁, hparse, hat₁, hwf₁⟩ := parseKeyValue_spec cfg hat hfinds hwf
    rw [hret] at hparse
    obtain ⟨c', s', hvisits, hat', hwf'⟩ := ih hat₁ hwf₁
    exact ⟨c', s', .next (by omega) hparse hvisits, hat', hwf'⟩

theorem callsAdvance_iff (hat : c.At payload bytes) (hwf : s.WellFormed) :
    CallsAdvance cfg payload c s ↔ NoStrayByte bytes := by
  constructor
  · intro h target harr hone
    obtain ⟨c', s', hvisits, hat', hwf'⟩ := harr.visits hat hwf
    obtain ⟨c₁, s₁, hparse, hat₁, -⟩ :=
      parseKeyValue_spec cfg hat' (.noLength (by omega)) hwf'
    have hlt := h c' s' hvisits (by rw [hat'.remain, hone]; decide) (by rw [hparse]; rfl)
    rw [hparse, hat₁.remain, hat'.remain] at hlt
    exact Int.lt_irrefl _ hlt
  · intro hstray c' s' hvisits hpos hok
    obtain ⟨bytes', hat', hwf', hstray'⟩ := hvisits.keeps NoStrayByte.next hat hwf hstray
    have hremain := hat'.remain
    have hone := hstray' bytes' (.here bytes')
    obtain ⟨x, rest, hfinds⟩ := exists_finds bytes'
    obtain ⟨c₁, s₁, hparse, hat₁, -⟩ := parseKeyValue_spec cfg hat' hfinds hwf'
    rw [hparse] at hok ⊢
    have hlt := (hfinds.advance hok (by omega)).1
    have hremain₁ := hat₁.remain
    show c₁.remain < c'.remain
    omega

end Loop

/-! ## The result -/

/-- The record loop ends. -/
def LoopEnds (cfg : Config) (payload : Bytes) (c : Cursor) (s : State W) : Prop :=
  ∃ fuel, (recordLoop cfg payload fuel c s).1 ≠ .stop .noReturn

/-- **When the record loop ends**: in every state it is entered in, and for every
header and body, it ends if and only if no stray byte is left over, and then
within the rounds `handle_message` is given; and the calls that return 0 consume
bytes under the same condition. -/
theorem recordLoop_ends_iff (p : Proxy W) (w : W) (is : List Input) (time : UInt32)
    (header body : Bytes) :
    let s := (p.beginRecords (header ++ body) time (run p.step (State.init w) is)).2
    let c : Cursor := ⟨header.length, body.length⟩
    (LoopEnds p.cfg (header ++ body) c s ↔ NoStrayByte body) ∧
      ((recordLoop p.cfg (header ++ body) ((header ++ body).length + 1) c s).1 ≠ .stop .noReturn ↔
        NoStrayByte body) ∧
      (CallsAdvance p.cfg (header ++ body) c s ↔ NoStrayByte body) := by
  have hwf : (p.beginRecords (header ++ body) time (run p.step (State.init w) is)).2.WellFormed :=
    beginRecords_wellFormed p _ time (wellFormed_run p w is)
  have hat := Cursor.at_append header body
  have hlen : body.length < (header ++ body).length + 1 := by
    rw [List.length_append]
    omega
  refine ⟨⟨?_, ?_⟩, ⟨?_, ?_⟩, callsAdvance_iff hat hwf⟩
  · rintro ⟨fuel, hends⟩ rest harr hone
    exact hends (recordLoop_hangs hat hwf harr hone fuel)
  · intro hstray
    exact ⟨_, recordLoop_returns hat hwf hstray hlen⟩
  · intro hends rest harr hone
    exact hends (recordLoop_hangs hat hwf harr hone _)
  · intro hstray
    exact recordLoop_returns hat hwf hstray hlen

/-- `handle_message` always returns: the record loop ends for every message. -/
def NeverHangs : Prop :=
  ∀ (p : Proxy Unit) (is : List Input) (payload : Bytes),
    (p.handleMessage payload (run p.step (State.init ()) is)).1 ≠ .stop .noReturn

/-- A proxy whose backend does nothing. -/
def idleProxy : Proxy Unit where
  cfg := ⟨[], CString.ofAscii "c", logLevelError⟩
  statsKeyPrefix := CString.ofAscii "s"
  backendId := .ascii
  backend :=
    { kpKiUpdate := fun kp w => (.ok, kp, w)
      kpFlush := fun kp _ w => (.ok, kp, w)
      kpKiUpdate_erase := fun _ _ => rfl
      kpFlush_erase := fun _ _ _ => rfl }

/-- A message with the one-byte body `0`. -/
def strayByteMessage : Bytes := Tsk.header Tsk.batchMagic 60 [99] ++ [0]

theorem strayByte_hangs :
    (idleProxy.handleMessage strayByteMessage (State.init ())).1 = .stop .noReturn ∧
      (∀ fuel, (recordLoop idleProxy.cfg strayByteMessage fuel ⟨16, 1⟩ (State.init ())).1
        = .stop .noReturn) ∧ ¬ NeverHangs := by
  have hhangs : (idleProxy.handleMessage strayByteMessage (State.init ())).1 = .stop .noReturn := by
    decide +kernel
  refine ⟨hhangs, ?_, ?_⟩
  · intro fuel
    exact recordLoop_stray (Cursor.at_append _ [0]) (State.wellFormed_init ()) rfl fuel
  · intro h
    exact h idleProxy [] strayByteMessage hhangs

end TskProxy

end Libtimeseries
