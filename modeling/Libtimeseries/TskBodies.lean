import Libtimeseries.TskHeader
import Libtimeseries.TskRoundTrip

/-!
# Arbitrary message bodies

What the record loop makes of a body that need not be well formed.

- `IsRecords`: bytes that are complete records, one behind the other;
- `LongestRecords`: the records of the longest such prefix of a body;
- `BodyFits`: no key behind complete records overflows the local buffer;
- `recordLoop_noPhantom`: the pairs that are handed on are those records. A
  record whose value is cut short leaves the loop in front of less than eight
  bytes; whatever they are read as, they are no complete record.
- `keysInBounds_iff`: the buffer holds the keys if and only if `BodyFits`.
-/

namespace Libtimeseries

open ByteLib

namespace TskProxy

variable {W : Type}

/-- Bytes that are complete records: a 2-byte length, that many key bytes, of
which the key is what is in front of the first NUL, and an 8-byte value. -/
inductive IsRecords : Bytes → List (Bytes × UInt64) → Prop
  | nil : IsRecords [] []
  | cons {len key value rest : Bytes} {rs : List (Bytes × UInt64)} (hlen : len.length = 2)
      (hkey : key.length = beNat len) (hvalue : value.length = 8) (h : IsRecords rest rs) :
      IsRecords (len ++ (key ++ (value ++ rest)))
        ((cstr key, UInt64.ofNat (beNat value)) :: rs)

/-- The records of the longest prefix that is complete records. -/
def LongestRecords (body : Bytes) (rs : List (Bytes × UInt64)) : Prop :=
  ∃ pre rest, body = pre ++ rest ∧ IsRecords pre rs ∧
    ∀ pre' rs', pre' <+: body → IsRecords pre' rs' → pre'.length ≤ pre.length

/-- Behind complete records stands no key that is all there and does not fit the
local buffer with its terminator. -/
def BodyFits (body : Bytes) : Prop :=
  ∀ pre rs len rest, body = pre ++ (len ++ rest) → IsRecords pre rs → len.length = 2 →
    beNat len ≤ rest.length → beNat len < keyBufLen

/-! ## Complete records -/

section Records

variable {len key value rest pre body : Bytes} {rs : List (Bytes × UInt64)}

/-- A record in front of some bytes is the first of any complete records they
begin with. -/
theorem IsRecords.uncons (hlen : len.length = 2) (hkey : key.length = beNat len)
    (hvalue : value.length = 8) (h : IsRecords pre rs)
    (hpre : pre <+: len ++ (key ++ (value ++ rest))) :
    (pre = [] ∧ rs = []) ∨ ∃ pre' rs', pre = len ++ (key ++ (value ++ pre')) ∧ pre' <+: rest ∧
      rs = (cstr key, UInt64.ofNat (beNat value)) :: rs' ∧ IsRecords pre' rs' := by
  cases h with
  | nil => exact .inl ⟨rfl, rfl⟩
  | @cons len' key' value' pre' rs' hlen' hkey' hvalue' h =>
    obtain ⟨tail, htail⟩ := hpre
    simp only [List.append_assoc] at htail
    obtain ⟨rfl, htail₁⟩ := List.append_inj htail (hlen'.trans hlen.symm)
    obtain ⟨rfl, htail₂⟩ := List.append_inj htail₁ (hkey'.trans hkey.symm)
    obtain ⟨rfl, htail₃⟩ := List.append_inj htail₂ (hvalue'.trans hvalue.symm)
    exact .inr ⟨pre', rs', rfl, ⟨tail, htail₃⟩, rfl, h⟩

/-- The longest prefix, when there is a record in front. -/
theorem LongestRecords.cons (hlen : len.length = 2) (hkey : key.length = beNat len)
    (hvalue : value.length = 8) (h : LongestRecords (len ++ (key ++ (value ++ rest))) rs) :
    ∃ rs', rs = (cstr key, UInt64.ofNat (beNat value)) :: rs' ∧
      LongestRecords rest rs' := by
  obtain ⟨pre, tail, hbody, hrecords, hlongest⟩ := h
  rcases hrecords.uncons hlen hkey hvalue ⟨tail, hbody.symm⟩ with ⟨rfl, -⟩ |
    ⟨pre', rs', rfl, hpre', rfl, hrecords'⟩
  · -- the empty prefix is not the longest
    have hone := hlongest _ _ ⟨rest, by simp⟩ (IsRecords.cons hlen hkey hvalue .nil)
    simp [hlen, hvalue] at hone
  · refine ⟨rs', rfl, pre', tail, ?_, hrecords', ?_⟩
    · simp only [List.append_assoc] at hbody
      exact List.append_cancel_left (List.append_cancel_left (List.append_cancel_left hbody))
    · intro pre'' rs'' hpre'' h''
      obtain ⟨tail'', rfl⟩ := hpre''
      have := hlongest _ _ ⟨tail'', by simp⟩ (IsRecords.cons hlen hkey hvalue h'')
      simpa using this

/-- The longest prefix, when there is no record in front. -/
theorem LongestRecords.eq_nil (h : LongestRecords body rs)
    (hnone : ∀ len key value rest, body = len ++ (key ++ (value ++ rest)) → len.length = 2 →
      key.length = beNat len → value.length ≠ 8) : rs = [] := by
  obtain ⟨pre, tail, rfl, hrecords, -⟩ := h
  cases hrecords with
  | nil => rfl
  | @cons len key value rest _ hlen hkey hvalue _ =>
    exact absurd hvalue (hnone len key value (rest ++ tail) (by simp) hlen hkey)

/-- Every body has a longest prefix. By induction on its length. -/
theorem exists_longestRecords (body : Bytes) : ∃ rs, LongestRecords body rs := by
  induction hn : body.length using Nat.strong_induction_on generalizing body with
  | _ n ih =>
    subst hn
    by_cases hfront : ∃ len key value rest, body = len ++ (key ++ (value ++ rest)) ∧
        len.length = 2 ∧ key.length = beNat len ∧ value.length = 8
    · obtain ⟨len, key, value, rest, rfl, hlen, hkey, hvalue⟩ := hfront
      obtain ⟨rs, pre, tail, rfl, hrecords, hlongest⟩ := ih rest.length (by simp; omega) rest rfl
      refine ⟨_, len ++ (key ++ (value ++ pre)), tail, by simp,
        .cons hlen hkey hvalue hrecords, ?_⟩
      intro pre' rs' hpre' h'
      rcases h'.uncons hlen hkey hvalue hpre' with ⟨rfl, -⟩ | ⟨pre'', rs'', rfl, hpre'', -, h''⟩
      · simp
      · have := hlongest _ _ hpre'' h''
        simpa using this
    · refine ⟨[], [], body, rfl, .nil, ?_⟩
      intro pre' rs' hpre' h'
      cases h' with
      | nil => exact Nat.le_refl _
      | @cons len key value rest _ hlen hkey hvalue _ =>
        obtain ⟨tail, rfl⟩ := hpre'
        exact absurd ⟨len, key, value, rest ++ tail, by simp, hlen, hkey, hvalue⟩ hfront

/-- Bytes behind a record that is there fit if all do. -/
theorem BodyFits.of_record (h : BodyFits (len ++ (key ++ (value ++ rest)))) (hlen : len.length = 2)
    (hkey : key.length = beNat len) (hvalue : value.length = 8) : BodyFits rest := by
  intro pre rs len' rest' hrest hrecords
  refine h (len ++ (key ++ (value ++ pre))) _ len' rest' ?_ (.cons hlen hkey hvalue hrecords)
  rw [hrest]
  simp

/-- Few bytes hold no long key. -/
theorem bodyFits_of_short (h : body.length < keyBufLen) : BodyFits body := by
  intro pre rs len rest hbody _ _ hle
  have := congrArg List.length hbody
  simp only [List.length_append] at this
  omega

/-- What a call that returns 0 leaves fits if the body does: a record whose value
is cut short leaves too few bytes for a long key. -/
theorem BodyFits.of_finds {x : Parsed} (h : BodyFits body) (hfinds : Finds body x rest)
    (hret : x.ret = .ok) : BodyFits rest := by
  cases hfinds with
  | noLength => exact h
  | noKey => cases hret
  | longKey => cases hret
  | noValue _ _ _ hshort => exact bodyFits_of_short (hshort.trans (by decide))
  | record hlen hkey _ hvalue => exact h.of_record hlen hkey hvalue

/-- A body that fits holds no long key where the loop arrives. -/
theorem BodyFits.not_longKey (h : BodyFits body) : ¬ Finds body .longKey rest := by
  intro hfinds
  generalize hx : Parsed.longKey = x at hfinds
  cases hfinds with
  | @longKey len rest hlen hkey hlong =>
    have := h [] [] len rest rfl .nil hlen hkey
    omega
  | _ => cases hx

end Records

/-! ## What is handed on -/

/-- The pairs written in a trace. -/
def writtenPairs (trace : List Event) : List (Bytes × UInt64) := trace.filterMap Event.pair?

theorem writtenPairs_concat (trace : List Event) (e : Event) :
    writtenPairs (trace ++ [e]) = writtenPairs trace ++ e.pair?.toList := by
  rw [writtenPairs, List.filterMap_append]
  cases h : e.pair? with
  | none => simp [writtenPairs, h]
  | some pair => simp [writtenPairs, h]

/-- The pair that `parse_key_value` writes for what it finds. -/
def Parsed.pairs : Parsed → List (Bytes × UInt64)
  | .record key _ value => [(key.bytes, value)]
  | _ => []

theorem parseKeyValue_pairs {cfg : Config} (hfilters : cfg.filters = []) {c : Cursor}
    {payload bytes rest : Bytes} {x : Parsed} (hat : c.At payload bytes) (h : Finds bytes x rest)
    (s : State W) :
    writtenPairs (parseKeyValue cfg payload c s).2.2.trace = writtenPairs s.trace ++ x.pairs := by
  obtain ⟨c', hread, -⟩ := readRecord_spec hat h
  unfold parseKeyValue
  rw [hread]
  cases x with
  | noNumber => exact writtenPairs_concat _ _
  | noKey => exact writtenPairs_concat _ _
  | longKey => exact (List.append_nil _).symm
  | record key keylen value =>
    have hmatches : cfg.matches key keylen = true := by
      rw [Config.matches, hfilters]
      rfl
    dsimp only
    rw [if_pos hmatches]
    exact writtenPairs_concat _ _

section Loop

variable {cfg : Config} {c : Cursor} {payload body : Bytes} {s : State W}
  {rs : List (Bytes × UInt64)}

/-- Less than a key length and a value is no record. -/
theorem longestRecords_of_short (h : body.length < 10) : LongestRecords body [] := by
  refine ⟨[], body, rfl, .nil, ?_⟩
  intro pre rs hpre hrecords
  cases hrecords with
  | nil => exact Nat.le_refl _
  | cons hlen _ hvalue _ =>
    have := hpre.length_le
    simp only [List.length_append] at this
    omega

/-- Where no complete record is found there is none. -/
theorem LongestRecords.eq_nil_of_finds {x : Parsed} {rest : Bytes} (h : LongestRecords body rs)
    (hfinds : Finds body x rest) (hx : x = .noNumber ∨ x = .noKey) : rs = [] := by
  refine h.eq_nil ?_
  cases hfinds with
  | noLength hshort =>
    rintro len key value rest rfl hlen _ _
    simp only [List.length_append] at hshort
    omega
  | @noKey len rest hlen hshort =>
    intro len' key value rest' heq hlen' hkey _
    obtain ⟨rfl, rfl⟩ := List.append_inj heq (hlen.trans hlen'.symm)
    simp only [List.length_append] at hshort
    omega
  | @noValue len key rest hlen hkey _ hshort =>
    intro len' key' value rest' heq hlen' hkey' hvalue
    obtain ⟨rfl, heq'⟩ := List.append_inj heq (hlen.trans hlen'.symm)
    obtain ⟨rfl, rfl⟩ := List.append_inj heq' (hkey.trans hkey'.symm)
    simp only [List.length_append] at hshort
    omega
  | longKey => rcases hx with hx | hx <;> cases hx
  | record => rcases hx with hx | hx <;> cases hx

/-- A call that returns 0 takes the record it writes off the longest prefix. In
front of the bytes behind a truncated value there is nothing left to take. -/
theorem LongestRecords.next {x : Parsed} {rest : Bytes} (h : LongestRecords body rs)
    (hfinds : Finds body x rest) (hret : x.ret = .ok) :
    ∃ rs', rs = x.pairs ++ rs' ∧ LongestRecords rest rs' := by
  cases hfinds with
  | noLength => exact ⟨rs, rfl, h⟩
  | noKey => cases hret
  | longKey => cases hret
  | noValue hlen hkey hfits hshort =>
    obtain rfl := h.eq_nil_of_finds (.noValue hlen hkey hfits hshort) (.inl rfl)
    exact ⟨[], rfl, longestRecords_of_short (by omega)⟩
  | record hlen hkey _ hvalue => exact h.cons hlen hkey hvalue

/-- What is written and what is left make up the records of the body, in every
round. -/
theorem Visits.longest {c' : Cursor} {s' : State W} (h : Visits cfg payload c s c' s')
    (hfilters : cfg.filters = []) (hat : c.At payload body) (hwf : s.WellFormed)
    (hfits : BodyFits body) (hlongest : LongestRecords body rs) :
    ∃ body' done rs', c'.At payload body' ∧ s'.WellFormed ∧ BodyFits body' ∧
      LongestRecords body' rs' ∧ writtenPairs s'.trace = writtenPairs s.trace ++ done ∧
      rs = done ++ rs' := by
  induction h generalizing body rs with
  | here => exact ⟨body, [], rs, hat, hwf, hfits, hlongest, (List.append_nil _).symm, rfl⟩
  | @next c c₁ c' s s₁ s' hpos hparse _ ih =>
    obtain ⟨x, rest, hfinds, hret, hat₁, hwf₁⟩ := finds_of_parse hat hwf hparse
    have hpairs := parseKeyValue_pairs hfilters hat hfinds s
    rw [hparse] at hpairs
    obtain ⟨rs₁, rfl, hlongest₁⟩ := hlongest.next hfinds hret
    obtain ⟨body', done, rs', hat', hwf', hfits', hlongest', hwritten, rfl⟩ :=
      ih hat₁ hwf₁ (hfits.of_finds hfinds hret) hlongest₁
    refine ⟨body', x.pairs ++ done, rs', hat', hwf', hfits', hlongest', ?_, ?_⟩
    · rw [hwritten, hpairs, List.append_assoc]
    · rw [List.append_assoc]

/-- Where the loop is when it has made `fuel` rounds, or has ended. -/
theorem recordLoop_visits (cfg : Config) (payload : Bytes) (fuel : Nat) (c : Cursor)
    (s : State W) :
    ∃ c' s', Visits cfg payload c s c' s' ∧
      (recordLoop cfg payload fuel c s = (.stop .noReturn, s') ∨
        (c'.remain ≤ 0 ∧ recordLoop cfg payload fuel c s = (.ok, s')) ∨
        (0 < c'.remain ∧ (parseKeyValue cfg payload c' s').1 ≠ .ok ∧
          (recordLoop cfg payload fuel c s).2 = (parseKeyValue cfg payload c' s').2.2)) := by
  induction fuel generalizing c s with
  | zero => exact ⟨c, s, .here c s, .inl rfl⟩
  | succ fuel ih =>
    rw [recordLoop]
    split
    · next hpos =>
      rcases hparse : parseKeyValue cfg payload c s with ⟨r, c₁, s₁⟩
      cases r with
      | ok =>
        obtain ⟨c', s', hvisits, hends⟩ := ih c₁ s₁
        exact ⟨c', s', .next hpos hparse hvisits, hends⟩
      | fail =>
        refine ⟨c, s, .here c s, .inr (.inr ⟨hpos, ?_, ?_⟩)⟩
        · rw [hparse]
          rintro ⟨⟩
        · rw [hparse]
      | stop why =>
        refine ⟨c, s, .here c s, .inr (.inr ⟨hpos, ?_, ?_⟩)⟩
        · rw [hparse]
          rintro ⟨⟩
        · rw [hparse]
    · next hpos => exact ⟨c, s, .here c s, .inr (.inl ⟨by omega, rfl⟩)⟩

/-- What the loop has written after any number of rounds is the beginning of the
records, and all of them if it has ended. -/
theorem recordLoop_writes (hfilters : cfg.filters = []) (hat : c.At payload body)
    (hwf : s.WellFormed) (hfits : BodyFits body) (hlongest : LongestRecords body rs)
    (fuel : Nat) :
    ∃ done rs', writtenPairs (recordLoop cfg payload fuel c s).2.trace
        = writtenPairs s.trace ++ done ∧ rs = done ++ rs' ∧
      ((recordLoop cfg payload fuel c s).1 ≠ .stop .noReturn → rs' = []) := by
  obtain ⟨c', s', hvisits, hends⟩ := recordLoop_visits cfg payload fuel c s
  obtain ⟨body', done, rs', hat', hwf', hfits', hlongest', hwritten, hrs⟩ :=
    hvisits.longest hfilters hat hwf hfits hlongest
  have hremain := hat'.remain
  rcases hends with hloop | ⟨hend, hloop⟩ | ⟨hpos, hret, hloop⟩
  · rw [hloop]
    exact ⟨done, rs', hwritten, hrs, fun hne => absurd rfl hne⟩
  · rw [hloop]
    refine ⟨done, rs', hwritten, hrs, fun _ => ?_⟩
    exact hlongest'.eq_nil_of_finds (.noLength (by omega)) (.inl rfl)
  · obtain ⟨x, rest, hfinds⟩ := exists_finds body'
    have hpairs := parseKeyValue_pairs hfilters hat' hfinds s'
    obtain ⟨c'', s'', hparse, -⟩ := parseKeyValue_spec cfg hat' hfinds hwf'
    rw [hparse] at hret
    obtain rfl : x = .noKey := by
      cases x with
      | noKey => rfl
      | longKey => exact absurd hfinds hfits'.not_longKey
      | noNumber => exact absurd rfl hret
      | record => exact absurd rfl hret
    refine ⟨done, rs', ?_, hrs, fun _ => hlongest'.eq_nil_of_finds hfinds (.inr rfl)⟩
    rw [hloop, hpairs, hwritten]
    exact List.append_nil _

/-- With more rounds than bytes everything has been written, also by a loop that
does not end. -/
theorem recordLoop_settles (hfilters : cfg.filters = []) (hat : c.At payload body)
    (hwf : s.WellFormed) (hfits : BodyFits body) (hlongest : LongestRecords body rs) {fuel : Nat}
    (hfuel : body.length < fuel) :
    writtenPairs (recordLoop cfg payload fuel c s).2.trace = writtenPairs s.trace ++ rs := by
  induction fuel generalizing c s body rs with
  | zero => exact absurd hfuel (Nat.not_lt_zero _)
  | succ fuel ih =>
    have hremain := hat.remain
    obtain ⟨x, rest, hfinds⟩ := exists_finds body
    by_cases hx : x = .noNumber ∨ x = .noKey
    · -- no record is left, so nothing more can be written
      obtain rfl := hlongest.eq_nil_of_finds hfinds hx
      obtain ⟨done, rs', hwritten, hnil, -⟩ :=
        recordLoop_writes hfilters hat hwf hfits hlongest (fuel + 1)
      rw [hwritten, (List.append_eq_nil_iff.mp hnil.symm).1]
    · have hpairs := parseKeyValue_pairs hfilters hat hfinds s
      obtain ⟨c₁, s₁, hparse, hat₁, hwf₁⟩ := parseKeyValue_spec cfg hat hfinds hwf
      cases hfinds with
      | noLength => exact absurd (.inl rfl) hx
      | noKey => exact absurd (.inr rfl) hx
      | noValue => exact absurd (.inl rfl) hx
      | longKey hlen hkey hlong =>
        exact absurd (.longKey hlen hkey hlong) hfits.not_longKey
      | record hlen hkey hkeyfits hvalue =>
        have hfinds := @Finds.record _ _ _ rest hlen hkey hkeyfits hvalue
        simp only [List.length_append] at hfuel hremain
        obtain ⟨rs', rfl, hlongest₁⟩ := hlongest.next hfinds rfl
        rw [hparse] at hpairs
        have hrest := ih hat₁ hwf₁ (hfits.of_finds hfinds rfl) hlongest₁ (by omega)
        rw [hpairs, List.append_assoc] at hrest
        rw [recordLoop, if_pos (by omega), hparse]
        exact hrest

end Loop

/-! ## No phantom data -/

/-- The pairs the record loop hands on, starting at `c` in the state `s`, are
`rs`: the first of them after any number of rounds; all once the loop has ended
or stands still; and all of them in the end. -/
structure HandsOn (cfg : Config) (payload : Bytes) (c : Cursor) (s : State W)
    (rs : List (Bytes × UInt64)) : Prop where
  begins : ∀ fuel, ∃ done, done <+: rs ∧
    writtenPairs (recordLoop cfg payload fuel c s).2.trace = writtenPairs s.trace ++ done
  ends : ∀ fuel, (recordLoop cfg payload fuel c s).1 ≠ .stop .noReturn →
    writtenPairs (recordLoop cfg payload fuel c s).2.trace = writtenPairs s.trace ++ rs
  stands : ∀ c' s', Visits cfg payload c s c' s' → 0 < c'.remain →
    (parseKeyValue cfg payload c' s').1 = .ok → (parseKeyValue cfg payload c' s').2.1 = c' →
    writtenPairs s'.trace = writtenPairs s.trace ++ rs
  settles : ∀ fuel : Nat, c.remain < fuel →
    writtenPairs (recordLoop cfg payload fuel c s).2.trace = writtenPairs s.trace ++ rs

/-- **No phantom data**: of a message that is accepted, whatever its body, the
record loop hands on exactly the records of the longest prefix of the body that
is complete records, if no key overflows the local buffer. -/
theorem recordLoop_noPhantom (cfg : Config) (hfilters : cfg.filters = []) (payload : Bytes)
    (haccepts : Accepts cfg payload) (hfits : BodyFits (recordBytes payload)) (s : State W)
    (hwf : s.WellFormed) :
    (∃ rs, LongestRecords (recordBytes payload) rs) ∧
      ∀ rs, LongestRecords (recordBytes payload) rs →
        HandsOn cfg payload (recordCursor payload) s rs := by
  have hat := recordCursor_at haccepts.1
  refine ⟨exists_longestRecords (recordBytes payload), ?_⟩
  intro rs hlongest
  refine ⟨?_, ?_, ?_, ?_⟩
  · intro fuel
    obtain ⟨done, rs', hwritten, rfl, -⟩ :=
      recordLoop_writes hfilters hat hwf hfits hlongest fuel
    exact ⟨done, List.prefix_append done rs', hwritten⟩
  · intro fuel hends
    obtain ⟨done, rs', hwritten, rfl, hnil⟩ :=
      recordLoop_writes hfilters hat hwf hfits hlongest fuel
    rw [hwritten, hnil hends, List.append_nil]
  · intro c' s' hvisits hpos hret hstands
    obtain ⟨body', done, rs', hat', hwf', -, hlongest', hwritten, rfl⟩ :=
      hvisits.longest hfilters hat hwf hfits hlongest
    obtain ⟨x, rest, hfinds⟩ := exists_finds body'
    obtain ⟨c'', s'', hparse, hat'', -⟩ := parseKeyValue_spec cfg hat' hfinds hwf'
    rw [hparse] at hret hstands
    obtain rfl : c'' = c' := hstands
    -- nothing was consumed, so not even a key length is there
    have hsame : rest.length = body'.length := by
      have := hat''.remain
      have := hat'.remain
      omega
    have hshort : body'.length < 2 := by
      by_contra htwo
      have := (hfinds.advance hret (by omega)).1
      omega
    rw [hwritten, hlongest'.eq_nil_of_finds (.noLength hshort) (.inl rfl), List.append_nil]
  · intro fuel hfuel
    refine recordLoop_settles hfilters hat hwf hfits hlongest ?_
    have := hat.remain
    omega

/-- A message with one record, and one whose value is cut short. -/
def truncatedMessage : Bytes :=
  Tsk.header Tsk.batchMagic 60 [99] ++ (Tsk.record ([97], 7) ++ [0, 1, 98, 0, 1, 99])

theorem recordLoop_noPhantom_truncated :
    (∃ rs, LongestRecords (recordBytes truncatedMessage) rs) ∧
      ∀ rs, LongestRecords (recordBytes truncatedMessage) rs →
        HandsOn idleProxy.cfg truncatedMessage (recordCursor truncatedMessage) (State.init ()) rs :=
  recordLoop_noPhantom idleProxy.cfg rfl truncatedMessage (by decide +kernel)
    (bodyFits_of_short (by decide +kernel)) (State.init ()) (State.wellFormed_init ())

/-! ## The key buffer -/

/-- The indices of the array `key` that `parse_key_value` stores at: those of
`memcpy`, and that of the terminator. -/
def keyStores (payload : Bytes) (c : Cursor) : List Nat :=
  match deserializeVal payload c 2 with
  | none => []
  | some (bs, c) =>
    let keylen := beNat bs
    if c.remain < keylen then [] else List.range keylen ++ [keylen]

/-- Every call of `parse_key_value` that the record loop makes keeps within its
array `key`. -/
def KeysInBounds (cfg : Config) (payload : Bytes) (c : Cursor) (s : State W) : Prop :=
  ∀ c' s', Visits cfg payload c s c' s' → 0 < c'.remain →
    ∀ i ∈ keyStores payload c', i < keyBufLen

section Bounds

variable {cfg : Config} {c : Cursor} {payload len rest : Bytes} {s : State W}

/-- A key that is all there is stored. -/
theorem keyStores_of_key (hat : c.At payload (len ++ rest)) (hlen : len.length = 2)
    (hkey : beNat len ≤ rest.length) :
    keyStores payload c = List.range (beNat len) ++ [beNat len] := by
  have hremain := hat.skip.remain
  rw [keyStores, ← hlen, hat.deserializeVal_some]
  exact if_neg (by omega)

/-- Otherwise nothing is. -/
theorem keyStores_of_finds {bytes rest : Bytes} {x : Parsed} (hat : c.At payload bytes)
    (h : Finds bytes x rest) (hfits : BodyFits bytes) :
    ∀ i ∈ keyStores payload c, i < keyBufLen := by
  have hbelow : ∀ n, n < keyBufLen → ∀ i ∈ List.range n ++ [n], i < keyBufLen := by
    intro n hn i hi
    rcases List.mem_append.mp hi with hi | hi
    · exact (List.mem_range.mp hi).trans hn
    · rwa [List.mem_singleton.mp hi]
  cases h with
  | noLength hshort =>
    rw [keyStores, hat.deserializeVal_none hshort]
    intro i hi
    cases hi
  | noKey hlen hshort =>
    have hremain := hat.skip.remain
    rw [keyStores, ← hlen, hat.deserializeVal_some]
    dsimp only
    rw [if_pos (by omega)]
    intro i hi
    cases hi
  | longKey hlen hkey hlong =>
    exact absurd (.longKey hlen hkey hlong) hfits.not_longKey
  | noValue hlen hkey hkeyfits hshort =>
    rw [keyStores_of_key hat hlen (by rw [List.length_append]; omega)]
    exact hbelow _ (hkey ▸ hkeyfits)
  | record hlen hkey hkeyfits hvalue =>
    rw [keyStores_of_key hat hlen (by rw [List.length_append]; omega)]
    exact hbelow _ (hkey ▸ hkeyfits)

/-- A loop that keeps within bounds gets behind any complete records, and keeps
within bounds there. -/
theorem KeysInBounds.behind {pre : Bytes} {rs : List (Bytes × UInt64)} (h : IsRecords pre rs)
    (hat : c.At payload (pre ++ rest)) (hwf : s.WellFormed)
    (hbounds : KeysInBounds cfg payload c s) :
    ∃ c' s', c'.At payload rest ∧ KeysInBounds cfg payload c' (s' : State W) := by
  induction h generalizing c s with
  | nil => exact ⟨c, s, hat, hbounds⟩
  | @cons len key value pre rs hlen hkey hvalue _ ih =>
    simp only [List.append_assoc] at hat
    have hremain := hat.remain
    simp only [List.length_append] at hremain
    have hstores := hbounds c s (.here c s) (by omega)
    rw [keyStores_of_key hat hlen (by rw [List.length_append]; omega)] at hstores
    have hfits := hstores (beNat len) (List.mem_append_right _ List.mem_cons_self)
    have hfinds := @Finds.record _ _ _ (pre ++ rest) hlen hkey (hkey ▸ hfits) hvalue
    obtain ⟨c₁, s₁, hparse, hat₁, hwf₁⟩ := parseKeyValue_spec cfg hat hfinds hwf
    refine ih hat₁ hwf₁ ?_
    intro c' s' hvisits
    exact hbounds c' s' (.next (by omega) hparse hvisits)

end Bounds

/-- **The key buffer**: on a message that is accepted, `parse_key_value` keeps
within its array if and only if no key behind complete records is all there and
`KEY_BUF_LEN` bytes long or longer. -/
theorem keysInBounds_iff (cfg : Config) (payload : Bytes) (haccepts : Accepts cfg payload)
    (s : State W) (hwf : s.WellFormed) :
    KeysInBounds cfg payload (recordCursor payload) s ↔ BodyFits (recordBytes payload) := by
  have hat := recordCursor_at haccepts.1
  constructor
  · intro hbounds pre rs len rest hbody hrecords hlen hkey
    rw [hbody] at hat
    obtain ⟨c', s', hat', hbounds'⟩ := KeysInBounds.behind hrecords hat hwf hbounds
    have hremain := hat'.remain
    rw [List.length_append] at hremain
    have hstores := hbounds' c' s' (.here c' s') (by omega)
    rw [keyStores_of_key hat' hlen hkey] at hstores
    exact hstores _ (List.mem_append_right _ List.mem_cons_self)
  · intro hfits c' s' hvisits _
    obtain ⟨body', hat', -, hfits'⟩ :=
      hvisits.keeps (fun h hfinds hret _ => h.of_finds hfinds hret) hat hwf hfits
    obtain ⟨x, rest, hfinds⟩ := exists_finds body'
    exact keyStores_of_finds hat' hfinds hfits'

theorem keysInBounds_iff_truncated :
    KeysInBounds idleProxy.cfg truncatedMessage (recordCursor truncatedMessage)
        (State.init ()) ↔
      BodyFits (recordBytes truncatedMessage) :=
  keysInBounds_iff idleProxy.cfg truncatedMessage (by decide +kernel) (State.init ())
    (State.wellFormed_init ())

/-- A key as long as the array. -/
def longKey : Bytes := List.replicate keyBufLen 97

/-- A message with that key. -/
def longKeyMessage : Bytes := Tsk.message Tsk.batchMagic 60 [99] [(longKey, 7)]

/-- The producer writes the key `longKey`; the proxy stores its terminator behind
the array. -/
theorem longKey_not_inBounds :
    (∀ mem buf, ∃ w, Kafka.writeKv mem buf Kafka.bufferLen longKey 7 = some w ∧
      (⟨mem, buf, 0⟩ : Kafka.Writer).Wrote w (Tsk.record (longKey, 7))) ∧
    ¬ ∀ (cfg : Config) (payload : Bytes) (s : State Unit), Accepts cfg payload →
      s.WellFormed → KeysInBounds cfg payload (recordCursor payload) s := by
  have hlength : longKey.length = keyBufLen := List.length_replicate
  constructor
  · intro mem buf
    refine Kafka.writeKv_wrote mem buf Kafka.bufferLen 7 ?_ ?_
    · rw [hlength]
      decide
    · rw [hlength]
      decide
  · intro h
    have haccepts : Accepts idleProxy.cfg longKeyMessage := by decide +kernel
    have hbounds := h idleProxy.cfg longKeyMessage (State.init ()) haccepts
      (State.wellFormed_init ())
    have hstores := hbounds _ _ (.here _ _) (by decide +kernel) keyBufLen (by decide +kernel)
    exact absurd hstores (Nat.lt_irrefl _)

end TskProxy

end Libtimeseries
