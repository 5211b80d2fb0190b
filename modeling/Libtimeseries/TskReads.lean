import Libtimeseries.TskProxyLoop

/-!
# Where the proxy reads

The functions that read a message once more, with the steps they take: where `buf`
and `remain` stand, and how many bytes are read there.

While the header is read, `buf` moves on and `remain` does not: the header is
counted as read behind it, all at once. From there on the two move together.

- `readRecordSteps`, `recordLoopSteps`, `Proxy.handleMessageSteps`: the functions
  with their steps, each with a lemma that it does what the function does;
- `Cursor.Counts`: `buf` and `remain` agree;
- `handleMessage_reads`: they agree behind the header, and no read leaves the payload.
-/

namespace Libtimeseries

open ByteLib

namespace TskProxy

variable {W : Type}

/-- A step: the cursor, and the number of bytes that are read there. -/
structure Step where
  cursor : Cursor
  size : Nat

/-! ## The functions with their steps -/

/-- The first half of `parse_key_value`. -/
def readRecordSteps (payload : Bytes) (c : Cursor) : List Step × Parsed × Cursor :=
  match deserializeVal payload c 2 with
  | none => ([⟨c, 0⟩], .noNumber, c)
  | some (bs, c₁) =>
    let keylen := beNat bs
    if c₁.remain < keylen then
      ([⟨c, 2⟩, ⟨c₁, 0⟩], .noKey, c₁)
    else if keyBufLen ≤ keylen then
      -- the key is read whole; what its end overwrites is undefined
      ([⟨c, 2⟩, ⟨c₁, keylen⟩], .longKey, c₁)
    else
      let key := CString.ofBytes (c₁.read payload keylen)
      let c₂ := c₁.skip keylen
      match deserializeVal payload c₂ 8 with
      | none => ([⟨c, 2⟩, ⟨c₁, keylen⟩, ⟨c₂, 0⟩], .noNumber, c₂)
      | some (bs, c₃) =>
        ([⟨c, 2⟩, ⟨c₁, keylen⟩, ⟨c₂, 8⟩, ⟨c₃, 0⟩],
          .record key keylen (UInt64.ofNat (beNat bs)), c₃)

/-- The record loop. `parse_key_value` moves the cursor in its first half only. -/
def recordLoopSteps (cfg : Config) (payload : Bytes) :
    Nat → Cursor → State W → List Step × Ret × State W
  | 0, c, s => ([⟨c, 0⟩], .stop .noReturn, s)
  | fuel + 1, c, s =>
    if 0 < c.remain then
      let steps := ⟨c, 0⟩ :: (readRecordSteps payload c).1
      match parseKeyValue cfg payload c s with
      | (.ok, c, s) =>
        let r := recordLoopSteps cfg payload fuel c s
        (steps ++ r.1, r.2)
      | (.fail, _, s) => (steps, .ok, s)
      | (.stop why, _, s) => (steps, .stop why, s)
    else
      ([⟨c, 0⟩], .ok, s)

/-- `handle_message` from where the header is counted as read. -/
def Proxy.bodySteps (p : Proxy W) (payload : Bytes) (time : UInt32) (chanlen : Nat) (fuel : Nat)
    (c : Cursor) (s : State W) : List Step × Ret × State W :=
  if c.remain < chanlen then
    ([⟨c, 0⟩], .ok, s.log .error)
  else
    let n := min chanlen p.cfg.kafkaChannel.strlen
    if c.read payload n ≠ p.cfg.kafkaChannel.bytes.take n then
      ([⟨c, n⟩], p.cfg.logUnknownChannel, s.log .error)
    else
      match p.beginRecords payload time s with
      | (.ok, s) =>
        let r := recordLoopSteps p.cfg payload fuel (c.skip chanlen) s
        (⟨c, n⟩ :: r.1, r.2)
      | r => ([⟨c, n⟩, ⟨c.skip chanlen, 0⟩], r)

/-- The steps of `handle_message` up to where the header is counted as read and from
there on, and what it returns. -/
structure Reading (W : Type) where
  header : List Step
  body : List Step
  result : Ret × State W

/-- `handle_message`, with any number of rounds of its loop. -/
def Proxy.handleMessageSteps (p : Proxy W) (payload : Bytes) (fuel : Nat) (s : State W) :
    Reading W :=
  let c₀ : Cursor := ⟨0, payload.length⟩
  if c₀.remain < headerLen then
    ⟨[⟨c₀, 0⟩], [], (.ok, s.log .error)⟩
  else
    let c₁ : Cursor := ⟨headerMagicLen, c₀.remain⟩
    let version := payload[c₁.buf]?.getD 0
    let c₂ : Cursor := ⟨c₁.buf + 1, c₁.remain⟩
    if version ≠ batchVersion then
      ⟨[⟨c₀, 0⟩, ⟨c₁, 1⟩, ⟨c₂, 0⟩], [], (.ok, s.log .error)⟩
    else
      let time := UInt32.ofNat (beNat (c₂.read payload 4))
      let c₃ : Cursor := ⟨c₂.buf + 4, c₂.remain⟩
      let chanlen := beNat (c₃.read payload 2)
      let c₄ : Cursor := ⟨c₃.buf + 2, c₃.remain⟩
      -- count the header as read
      let r := p.bodySteps payload time chanlen fuel ⟨c₄.buf, c₄.remain - headerLen⟩ s
      ⟨[⟨c₀, 0⟩, ⟨c₁, 1⟩, ⟨c₂, 4⟩, ⟨c₃, 2⟩, ⟨c₄, 0⟩], r.1, r.2⟩

theorem readRecordSteps_snd (payload : Bytes) (c : Cursor) :
    (readRecordSteps payload c).2 = readRecord payload c := by
  unfold readRecordSteps readRecord
  cases deserializeVal payload c 2 with
  | none => rfl
  | some r =>
    obtain ⟨bs, c₁⟩ := r
    dsimp only
    split
    · rfl
    split
    · rfl
    cases deserializeVal payload (c₁.skip (beNat bs)) 8 with
    | none => rfl
    | some r => rfl

theorem recordLoopSteps_snd (cfg : Config) (payload : Bytes) (fuel : Nat) (c : Cursor)
    (s : State W) : (recordLoopSteps cfg payload fuel c s).2 = recordLoop cfg payload fuel c s := by
  induction fuel generalizing c s with
  | zero => rfl
  | succ fuel ih =>
    rw [recordLoopSteps, recordLoop]
    split
    · generalize parseKeyValue cfg payload c s = r
      obtain ⟨ret, c', s'⟩ := r
      cases ret with
      | ok => exact ih c' s'
      | fail => rfl
      | stop why => rfl
    · rfl

theorem bodySteps_snd (p : Proxy W) (payload : Bytes) (time : UInt32) (chanlen fuel : Nat)
    (c : Cursor) (s : State W) :
    (p.bodySteps payload time chanlen fuel c s).2 =
      if c.remain < chanlen then
        (.ok, s.log .error)
      else if c.read payload (min chanlen p.cfg.kafkaChannel.strlen)
          ≠ p.cfg.kafkaChannel.bytes.take (min chanlen p.cfg.kafkaChannel.strlen) then
        (p.cfg.logUnknownChannel, s.log .error)
      else
        andThen (p.beginRecords payload time s) fun s =>
          recordLoop p.cfg payload fuel (c.skip chanlen) s := by
  unfold Proxy.bodySteps
  by_cases hshort : c.remain < chanlen
  · rw [if_pos hshort, if_pos hshort]
  rw [if_neg hshort, if_neg hshort]
  dsimp only
  by_cases hother : c.read payload (min chanlen p.cfg.kafkaChannel.strlen)
      ≠ p.cfg.kafkaChannel.bytes.take (min chanlen p.cfg.kafkaChannel.strlen)
  · rw [if_pos hother, if_pos hother]
  rw [if_neg hother, if_neg hother]
  generalize p.beginRecords payload time s = r
  obtain ⟨ret, s₁⟩ := r
  cases ret with
  | ok => exact recordLoopSteps_snd p.cfg payload fuel (c.skip chanlen) s₁
  | fail => rfl
  | stop why => rfl

theorem handleMessageSteps_result (p : Proxy W) (payload : Bytes) (s : State W) :
    (p.handleMessageSteps payload (payload.length + 1) s).result = p.handleMessage payload s := by
  unfold Proxy.handleMessageSteps Proxy.handleMessage
  dsimp only
  split
  · rfl
  split
  · rfl
  · exact bodySteps_snd p payload _ _ _ _ s

/-! ## Where the steps are -/

/-- `buf` and `remain` agree on where the payload ends. -/
structure Cursor.Counts (c : Cursor) (payload : Bytes) : Prop where
  sum : c.buf + c.remain = payload.length
  nonneg : 0 ≤ c.remain

/-- What is read at a step lies inside the payload. -/
def Step.Inside (st : Step) (payload : Bytes) : Prop := st.cursor.buf + st.size ≤ payload.length

/-- A step at which `buf` and `remain` agree. -/
structure Step.Safe (st : Step) (payload : Bytes) : Prop where
  counts : st.cursor.Counts payload
  inside : st.Inside payload

section Steps

variable {payload : Bytes} {c : Cursor} {n : Nat}

theorem Cursor.Counts.safe (h : c.Counts payload) (hn : n ≤ c.remain) : Step.Safe ⟨c, n⟩ payload := by
  refine ⟨h, ?_⟩
  have hsum := h.sum
  show c.buf + n ≤ payload.length
  omega

/-- Nothing is read. -/
theorem Cursor.Counts.here (h : c.Counts payload) : Step.Safe ⟨c, 0⟩ payload := h.safe h.nonneg

theorem Cursor.Counts.skip (h : c.Counts payload) (hn : n ≤ c.remain) :
    (c.skip n).Counts payload := by
  have hsum := h.sum
  constructor
  · show ((c.buf + n : Nat) : Int) + (c.remain - n) = payload.length
    omega
  · show 0 ≤ c.remain - n
    omega

/-- `DESERIALIZE_VAL` reads what is there: `remain` is not negative, so it does not
matter that it is compared as a `size_t`. -/
theorem Cursor.Counts.of_deserializeVal (h : c.Counts payload) {bs : Bytes} {c' : Cursor}
    (hread : deserializeVal payload c n = some (bs, c')) :
    Step.Safe ⟨c, n⟩ payload ∧ c'.Counts payload := by
  unfold deserializeVal at hread
  split at hread
  · cases hread
  · next hshort =>
    obtain ⟨-, rfl⟩ := Prod.mk.inj (Option.some.inj hread)
    have hnonneg := h.nonneg
    have hn : n ≤ c.remain := by omega
    exact ⟨h.safe hn, h.skip hn⟩

/-- **What one record reads**, whatever the bytes are. -/
theorem readRecordSteps_safe (h : c.Counts payload) :
    (∀ st ∈ (readRecordSteps payload c).1, st.Safe payload) ∧
      (readRecordSteps payload c).2.2.Counts payload := by
  unfold readRecordSteps
  cases hlen : deserializeVal payload c 2 with
  | none => exact ⟨List.forall_mem_singleton.mpr h.here, h⟩
  | some r =>
    obtain ⟨bs, c₁⟩ := r
    obtain ⟨hread, h₁⟩ := h.of_deserializeVal hlen
    dsimp only
    by_cases hkey : c₁.remain < beNat bs
    · rw [if_pos hkey]
      exact ⟨List.forall_mem_cons.mpr ⟨hread, List.forall_mem_singleton.mpr h₁.here⟩, h₁⟩
    rw [if_neg hkey]
    have hfits : (beNat bs : Int) ≤ c₁.remain := Int.not_lt.mp hkey
    by_cases hlong : keyBufLen ≤ beNat bs
    · rw [if_pos hlong]
      exact ⟨List.forall_mem_cons.mpr ⟨hread, List.forall_mem_singleton.mpr (h₁.safe hfits)⟩, h₁⟩
    rw [if_neg hlong]
    have h₂ := h₁.skip hfits
    cases hvalue : deserializeVal payload (c₁.skip (beNat bs)) 8 with
    | none =>
      refine ⟨?_, h₂⟩
      exact List.forall_mem_cons.mpr ⟨hread, List.forall_mem_cons.mpr ⟨h₁.safe hfits,
        List.forall_mem_singleton.mpr h₂.here⟩⟩
    | some r =>
      obtain ⟨hread', h₃⟩ := h₂.of_deserializeVal hvalue
      refine ⟨?_, h₃⟩
      exact List.forall_mem_cons.mpr ⟨hread, List.forall_mem_cons.mpr ⟨h₁.safe hfits,
        List.forall_mem_cons.mpr ⟨hread', List.forall_mem_singleton.mpr h₃.here⟩⟩⟩

/-- `parse_key_value` leaves the cursor where its first half does. -/
theorem parseKeyValue_cursor (cfg : Config) (payload : Bytes) (c : Cursor) (s : State W) :
    (parseKeyValue cfg payload c s).2.1 = (readRecord payload c).2 := by
  unfold parseKeyValue
  generalize readRecord payload c = r
  obtain ⟨x, c'⟩ := r
  cases x with
  | noNumber => rfl
  | noKey => rfl
  | longKey => rfl
  | record key keylen value =>
    dsimp only
    split <;> rfl

/-- **What the record loop reads**, in any number of rounds. -/
theorem recordLoopSteps_safe (cfg : Config) (h : c.Counts payload) (fuel : Nat) (s : State W) :
    ∀ st ∈ (recordLoopSteps cfg payload fuel c s).1, st.Safe payload := by
  induction fuel generalizing c s with
  | zero => exact List.forall_mem_singleton.mpr h.here
  | succ fuel ih =>
    rw [recordLoopSteps]
    split
    · obtain ⟨hsteps, hcursor⟩ := readRecordSteps_safe h
      rw [readRecordSteps_snd, ← parseKeyValue_cursor cfg payload c s] at hcursor
      have hround : ∀ st ∈ ⟨c, 0⟩ :: (readRecordSteps payload c).1, Step.Safe st payload :=
        List.forall_mem_cons.mpr ⟨h.here, hsteps⟩
      generalize parseKeyValue cfg payload c s = r at hcursor ⊢
      obtain ⟨ret, c', s'⟩ := r
      cases ret with
      | ok => exact List.forall_mem_append.mpr ⟨hround, ih hcursor s'⟩
      | fail => exact hround
      | stop why => exact hround
    · exact List.forall_mem_singleton.mpr h.here

/-- What is read from where the header is counted as read. -/
theorem bodySteps_safe (p : Proxy W) (h : c.Counts payload) (time : UInt32) (chanlen fuel : Nat)
    (s : State W) :
    ∀ st ∈ (p.bodySteps payload time chanlen fuel c s).1, st.Safe payload := by
  unfold Proxy.bodySteps
  by_cases hshort : c.remain < chanlen
  · rw [if_pos hshort]
    exact List.forall_mem_singleton.mpr h.here
  rw [if_neg hshort]
  have hread : Step.Safe ⟨c, min chanlen p.cfg.kafkaChannel.strlen⟩ payload := h.safe (by omega)
  have hskip := h.skip (Int.not_lt.mp hshort)
  dsimp only
  split
  · exact List.forall_mem_singleton.mpr hread
  · generalize p.beginRecords payload time s = r
    obtain ⟨ret, s₁⟩ := r
    have hended : ∀ st ∈ [⟨c, min chanlen p.cfg.kafkaChannel.strlen⟩, ⟨c.skip chanlen, 0⟩],
        Step.Safe st payload :=
      List.forall_mem_cons.mpr ⟨hread, List.forall_mem_singleton.mpr hskip.here⟩
    cases ret with
    | ok => exact List.forall_mem_cons.mpr ⟨hread, recordLoopSteps_safe p.cfg hskip fuel s₁⟩
    | fail => exact hended
    | stop why => exact hended

end Steps

/-- A step in the header: `remain` still counts the whole payload. -/
structure Step.InHeader (st : Step) (payload : Bytes) : Prop where
  remain : st.cursor.remain = payload.length
  buf : st.cursor.buf ≤ headerLen
  inside : st.Inside payload

theorem Step.inHeader {payload : Bytes} (hlen : headerLen ≤ payload.length) {buf n : Nat}
    (hn : buf + n ≤ headerLen) : Step.InHeader ⟨⟨buf, payload.length⟩, n⟩ payload where
  remain := rfl
  buf := Nat.le_of_add_right_le hn
  inside := Nat.le_trans hn hlen

/-- **The proxy never reads past a message**: behind the header `buf` plus `remain` is
the length of the payload and `remain` is not negative, at every step, after any
number of rounds of the loop; and neither the header nor the rest is read past the
end of the payload. -/
theorem handleMessage_reads (p : Proxy W) (payload : Bytes) (s : State W) :
    (p.handleMessageSteps payload (payload.length + 1) s).result = p.handleMessage payload s ∧
      ∀ fuel, (∀ st ∈ (p.handleMessageSteps payload fuel s).header, st.InHeader payload) ∧
        ∀ st ∈ (p.handleMessageSteps payload fuel s).body, st.Safe payload := by
  refine ⟨handleMessageSteps_result p payload s, fun fuel => ?_⟩
  unfold Proxy.handleMessageSteps
  dsimp only
  by_cases hshort : (payload.length : Int) < headerLen
  · rw [if_pos hshort]
    refine ⟨List.forall_mem_singleton.mpr ⟨rfl, Nat.zero_le _, Nat.zero_le _⟩, ?_⟩
    exact List.forall_mem_nil _
  rw [if_neg hshort]
  have hlen : headerLen ≤ payload.length := by omega
  have h₀ : Step.InHeader ⟨⟨0, payload.length⟩, 0⟩ payload := Step.inHeader hlen (by decide)
  have h₁ : Step.InHeader ⟨⟨headerMagicLen, payload.length⟩, 1⟩ payload :=
    Step.inHeader hlen (by decide)
  split
  · refine ⟨?_, List.forall_mem_nil _⟩
    exact List.forall_mem_cons.mpr ⟨h₀, List.forall_mem_cons.mpr ⟨h₁,
      List.forall_mem_singleton.mpr (Step.inHeader hlen (by decide))⟩⟩
  · constructor
    · exact List.forall_mem_cons.mpr ⟨h₀, List.forall_mem_cons.mpr ⟨h₁,
        List.forall_mem_cons.mpr ⟨Step.inHeader hlen (by decide),
          List.forall_mem_cons.mpr ⟨Step.inHeader hlen (by decide),
            List.forall_mem_singleton.mpr (Step.inHeader hlen (by decide))⟩⟩⟩⟩
    · refine bodySteps_safe p ⟨?_, ?_⟩ _ _ fuel s
      · show ((headerLen : Nat) : Int) + (payload.length - headerLen) = payload.length
        omega
      · show (0 : Int) ≤ payload.length - headerLen
        omega

/-- At the version `buf` has moved and `remain` has not. -/
theorem version_not_counts :
    ¬ ∀ (p : Proxy Unit) (payload : Bytes) (s : State Unit) (fuel : Nat),
      let r := p.handleMessageSteps payload fuel s
      ∀ st ∈ r.header ++ r.body, st.Safe payload := by
  intro h
  have hmem : (⟨⟨8, 17⟩, 1⟩ : Step) ∈
      (idleProxy.handleMessageSteps strayByteMessage 0 (State.init ())).header :=
    List.mem_cons_of_mem _ List.mem_cons_self
  have hsum := (h idleProxy strayByteMessage (State.init ()) 0 _
    (List.mem_append_left _ hmem)).counts.sum
  have hlength : strayByteMessage.length = 17 := rfl
  rw [hlength] at hsum
  exact absurd hsum (by decide)

end TskProxy

end Libtimeseries
