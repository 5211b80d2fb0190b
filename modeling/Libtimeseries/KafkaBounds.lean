import Libtimeseries.KafkaCalls

/-!
# The bounds of the message buffer

The buffer is sent when it is more than half full, so at least half of it is free
for the next record. The writers of the TSK formats assert that a record fits what
is free. `write_ascii` passes what is free to `snprintf`, which cuts the line, but
returns the length of the whole line, and that is what `buffer_written` grows by:
a line that does not fit makes `rd_kafka_produce` read behind the buffer. (Where
`buffer_written` itself overflows, at 2^31, the buffer counts as overrun.)

- `ProducerCall.levels`: the values `buffer_written` takes during a call;
- `Confined`: nothing behind the buffer is written or produced;
- `inBounds_iff`: all runs of some calls stay in bounds exactly when all ASCII
  lines fit behind what they find in the buffer.
-/

namespace Libtimeseries

open ByteLib RunLib

namespace Kafka

/-! ## The values of `buffer_written` -/

namespace Fill

/-- After a line was appended. -/
def asciiLevels (f : Fill) (key : Bytes) (value : UInt64) (time : UInt32) : List Nat :=
  (f.appendAscii key value time).toList.map fun f => f.st.bufferWritten

/-- After a header, if need be, and after a record. -/
def tskLevels (f : Fill) (time : UInt32) (key : Bytes) (value : UInt64) : List Nat :=
  match f.beginMessage time with
  | none => []
  | some f => f.st.bufferWritten :: (f.appendKv key value).toList.map fun f => f.st.bufferWritten

/-- For one enabled key of a flush. -/
def keyLevels (f : Fill) (time : UInt32) (ki : Ki) : List Nat :=
  match f.st.conf.format with
  | .ascii => f.asciiLevels ki.name ki.value time
  | .tsk => f.tskLevels time ki.name ki.value
  | .tskKeypart =>
    match if (hashWithoutLastTerm ki.key).1 ≠ f.lasthash ∧ 0 < f.st.bufferWritten then
        f.sendMsg f.lasthash else (true, f) with
    | (false, _) => []
    | (true, f) => f.tskLevels time ki.name ki.value

/-- For all keys of a flush, as far as it comes. -/
def loopLevels (time : UInt32) : List Ki → Fill → List Nat
  | [], _ => []
  | ki :: kis, f =>
    if ki.disabled then
      loopLevels time kis f
    else
      f.keyLevels time ki ++
        if (f.kpFlushKey time ki).1 = .ok then loopLevels time kis (f.kpFlushKey time ki).2.2
        else []

end Fill

/-- The values `buffer_written` takes during a call that is entered. -/
def ProducerCall.levels (st : State) : ProducerCall → List Nat
  | kpFlush kp time =>
    if st.bufferWritten = 0 then Fill.loopLevels time kp.keyInfos ⟨st, 0, 0, 0⟩ else []
  | setSingle key value time =>
    if st.bufferWritten = 0 then
      match st.conf.format with
      | .ascii => (⟨st, 0, 0, time⟩ : Fill).asciiLevels key.bytes value time
      | .tsk | .tskKeypart => (⟨st, 0, 0, time⟩ : Fill).tskLevels time key.bytes value
    else
      []

/-- Where the assertion at the entry fails nothing happens. -/
theorem ProducerCall.blocked {st : State} (h : st.bufferWritten ≠ 0) (c : ProducerCall) :
    c.levels st = [] ∧ c.step st = st := by
  cases c with
  | kpFlush kp time =>
    refine ⟨if_neg h, ?_⟩
    show (Kafka.kpFlush kp time st).2.2 = st
    unfold Kafka.kpFlush
    rw [if_neg h]
  | setSingle key value time =>
    refine ⟨if_neg h, ?_⟩
    show (Kafka.setSingle st key value time).2 = st
    unfold Kafka.setSingle
    rw [if_neg h]

/-! ## Nothing behind the buffer is touched -/

/-- From `st` to `st'` no byte behind the buffer was written, and none is part of
what was passed to `rd_kafka_produce`. -/
structure Confined (st st' : State) : Prop where
  conf : st'.conf = st.conf
  writes : ∀ i, bufferLen ≤ i → st'.buffer i = st.buffer i
  produces : ∃ new, st'.produced = st.produced ++ new ∧
    ∀ a ∈ new, a.payload.length ≤ bufferLen

theorem Confined.refl (st : State) : Confined st st :=
  ⟨rfl, fun _ _ => rfl, [], (List.append_nil _).symm, List.forall_mem_nil _⟩

theorem Confined.trans {st₁ st₂ st₃ : State} (h : Confined st₁ st₂) (h' : Confined st₂ st₃) :
    Confined st₁ st₃ := by
  obtain ⟨new, hnew, hlen⟩ := h.produces
  obtain ⟨new', hnew', hlen'⟩ := h'.produces
  refine ⟨h'.conf.trans h.conf, fun i hi => (h'.writes i hi).trans (h.writes i hi), new ++ new', ?_,
    List.forall_mem_append.mpr ⟨hlen, hlen'⟩⟩
  rw [hnew', hnew, List.append_assoc]

/-- Every attempt for a message passes its payload. -/
theorem produceLoop_payload (payload key : Bytes) (rs : List ProduceResult) :
    ∀ a ∈ (produceLoop payload key rs).2.2, a.payload = payload := by
  induction rs with
  | nil => exact List.forall_mem_singleton.mpr rfl
  | cons r rs ih =>
    cases r with
    | ok => exact List.forall_mem_singleton.mpr rfl
    | fatal => exact List.forall_mem_singleton.mpr rfl
    | queueFull => exact List.forall_mem_cons.mpr ⟨rfl, ih⟩

/-- A writer that only went forward: what is behind its position is as before. -/
structure Writer.Forward (w w' : Writer) : Prop where
  ptr : w.ptr ≤ w'.ptr
  mem : ∀ i, w'.ptr ≤ i → w'.mem i = w.mem i

theorem Writer.Forward.trans {w w' w'' : Writer} (h : w.Forward w') (h' : w'.Forward w'') :
    w.Forward w'' where
  ptr := h.ptr.trans h'.ptr
  mem i hi := (h'.mem i hi).trans (h.mem i (h'.ptr.trans hi))

theorem Writer.memcpy_forward (w : Writer) (bs : Bytes) : w.Forward (w.memcpy bs) where
  ptr := Nat.le_add_right _ _
  mem _ hi := store_above w.mem hi

theorem Writer.serializeVal_forward {w w' : Writer} {len : Nat} {bs : Bytes}
    (h : w.serializeVal len bs = some w') : w.Forward w' := by
  unfold serializeVal at h
  split at h
  · obtain rfl : w.memcpy bs = w' := by simpa using h
    exact w.memcpy_forward bs
  · cases h

theorem writeHeader_forward {mem : Mem} {buf len : Nat} {time : UInt32} {channel : Bytes}
    {channelLen : UInt16} {w : Writer}
    (h : writeHeader mem buf len time channel channelLen = some w) :
    (⟨mem, buf, 0⟩ : Writer).Forward w := by
  unfold writeHeader at h
  split at h
  · obtain ⟨w₁, h₁, h⟩ := Option.bind_eq_some_iff.mp h
    obtain ⟨w₂, h₂, h⟩ := Option.bind_eq_some_iff.mp h
    obtain ⟨w₃, h₃, h⟩ := Option.bind_eq_some_iff.mp h
    obtain rfl := Option.some.inj h
    exact ((((Writer.memcpy_forward _ _).trans (Writer.serializeVal_forward h₁)).trans
      (Writer.serializeVal_forward h₂)).trans (Writer.serializeVal_forward h₃)).trans
      (Writer.memcpy_forward _ _)
  · cases h

theorem writeKv_forward {mem : Mem} {buf len : Nat} {key : Bytes} {value : UInt64} {w : Writer}
    (h : writeKv mem buf len key value = some w) : (⟨mem, buf, 0⟩ : Writer).Forward w := by
  unfold writeKv at h
  split at h
  · obtain ⟨w₁, h₁, h⟩ := Option.bind_eq_some_iff.mp h
    exact ((Writer.serializeVal_forward h₁).trans (Writer.memcpy_forward _ _)).trans
      (Writer.serializeVal_forward h)
  · cases h

/-! ## One lemma for each macro -/

/-- The buffer is filled from its start. -/
def Fill.Aligned (f : Fill) : Prop := f.ptr = f.st.bufferWritten

/-- Between keys the buffer is at most half full. -/
structure Fill.Tidy (f : Fill) : Prop where
  aligned : f.Aligned
  half : f.st.bufferWritten ≤ bufferLen / 2

theorem Fill.Tidy.le {f : Fill} (h : f.Tidy) : f.st.bufferWritten ≤ bufferLen :=
  h.half.trans (Nat.div_le_self _ _)

/-- A writer that went forward stays in bounds if its end does. -/
theorem Fill.advance_confined {f : Fill} (haligned : f.Aligned) {w : Writer}
    (hforward : (⟨f.st.buffer, f.ptr, 0⟩ : Writer).Forward w) (hptr : w.ptr = f.ptr + w.written)
    (hend : (f.advance w).st.bufferWritten ≤ bufferLen) :
    Confined f.st (f.advance w).st ∧ (f.advance w).Aligned := by
  have hwptr : w.ptr ≤ bufferLen := by
    rw [hptr, haligned]
    exact hend
  constructor
  · refine ⟨rfl, fun i hi => hforward.mem i (hwptr.trans hi), [], ?_, List.forall_mem_nil _⟩
    exact (List.append_nil _).symm
  · show f.ptr + w.written = f.st.bufferWritten + w.written
    rw [haligned]

theorem Fill.sendMsg_tidy (f : Fill) (key : UInt32) : (f.sendMsg key).2.Tidy := by
  have hempty := f.sendMsg_empties key
  refine ⟨?_, by rw [hempty]; exact Nat.zero_le _⟩
  unfold Aligned
  rw [hempty]
  unfold sendMsg
  split <;> rfl

theorem Fill.sendMsg_confined {f : Fill} (hle : f.st.bufferWritten ≤ bufferLen) (key : UInt32) :
    Confined f.st (f.sendMsg key).2.st := by
  unfold sendMsg
  split
  · refine ⟨rfl, fun _ _ => rfl, _, rfl, fun a ha => ?_⟩
    rw [produceLoop_payload _ _ _ a ha, load_length]
    exact hle
  · exact Confined.refl _

theorem Fill.endKey_confined {f : Fill} (haligned : f.Aligned)
    (hle : f.st.bufferWritten ≤ bufferLen) : Confined f.st f.endKey.2.st ∧ f.endKey.2.Tidy := by
  by_cases hfull : bufferLen / 2 < f.st.bufferWritten
  · rw [endKey_full hfull]
    exact ⟨sendMsg_confined hle _, sendMsg_tidy _ _⟩
  · rw [endKey_idle (Nat.le_of_not_lt hfull)]
    exact ⟨Confined.refl _, haligned, Nat.le_of_not_lt hfull⟩

/-- The level after the tail of the loop body. -/
theorem Fill.endKey_level (f : Fill) :
    f.endKey.2.st.bufferWritten = nextFill f.st.bufferWritten := by
  unfold nextFill
  split
  · next hfull =>
    rw [endKey_full hfull]
    exact sendMsg_empties _ _
  · next hfull => rw [endKey_idle (Nat.le_of_not_lt hfull)]

/-- A line that `snprintf` can print joins the buffer with its whole length. -/
theorem Fill.appendAscii_some (f : Fill) (key : Bytes) (value : UInt64) (time : UInt32)
    (hlen : (line time (key, value)).length < 2 ^ 31) :
    ∃ f', f.appendAscii key value time = some f' ∧
      f'.st.bufferWritten = f.st.bufferWritten + (line time (key, value)).length ∧
      f.Quiet f' ∧
      (f.Aligned → f'.Aligned ∧ (f.st.bufferWritten ≤ bufferLen → Confined f.st f'.st)) := by
  have hpos := line_pos time (key, value)
  have hret : ¬ ((line time (key, value)).length : Int) ≤ 0 := by omega
  unfold appendAscii writeAscii
  rw [show metricLine key value time = line time (key, value) from rfl]
  dsimp only
  rw [if_pos hlen]
  rw [if_neg hret]
  refine ⟨_, rfl, rfl, ⟨rfl, rfl, rfl⟩, fun haligned => ⟨?_, fun hle => ?_⟩⟩
  · show f.ptr + _ = f.st.bufferWritten + _
    rw [haligned]
  · refine ⟨rfl, fun i hi => ?_, [], (List.append_nil _).symm, List.forall_mem_nil _⟩
    show (if bufferLen - f.st.bufferWritten = 0 then f.st.buffer
      else store f.st.buffer f.ptr ((line time (key, value)).take
        (bufferLen - f.st.bufferWritten - 1) ++ [0])) i = _
    split
    · rfl
    · refine store_above _ ?_
      rw [haligned, List.length_append, List.length_take, List.length_singleton]
      omega

/-- A header always fits: the channel name is short. -/
theorem Fill.Tidy.beginMessage {f : Fill} (h : f.Tidy) (time : UInt32) :
    ∃ f₁, f.beginMessage time = some f₁ ∧ Confined f.st f₁.st ∧ f₁.Aligned ∧
      f₁.st.bufferWritten ≤ bufferLen := by
  have hbl : bufferLen = 1048576 := rfl
  unfold Fill.beginMessage
  split
  · next hzero =>
    have hconn := f.st.conf.channel_lt
    obtain ⟨w, hw, hwrote⟩ := writeHeader_wrote f.st.buffer f.ptr
      (bufferLen - f.st.bufferWritten) time f.st.conf.channelName.bytes
      (by rw [hzero]; decide) (by omega)
    have hwritten : w.written = 15 + f.st.conf.channelName.bytes.length := by
      rw [hwrote.written, Tsk.header_length, Nat.zero_add]
      rfl
    have hptr : w.ptr = f.ptr + w.written := by rw [hwrote.ptr, hwrote.written, Nat.zero_add]
    have hend : (f.advance w).st.bufferWritten ≤ bufferLen := by
      show f.st.bufferWritten + w.written ≤ bufferLen
      omega
    obtain ⟨hconfined, haligned⟩ :=
      advance_confined h.aligned (writeHeader_forward hw) hptr hend
    refine ⟨f.advance w, ?_, hconfined, haligned, hend⟩
    rw [CString.strlen, hw]
    rfl
  · exact ⟨f, rfl, Confined.refl _, h.aligned, h.le⟩

/-- A record joins the buffer only where it fits. -/
theorem Fill.appendKv_confined {f f' : Fill} (haligned : f.Aligned)
    (hle : f.st.bufferWritten ≤ bufferLen) {key : Bytes} {value : UInt64}
    (h : f.appendKv key value = some f') :
    Confined f.st f'.st ∧ f'.Aligned ∧ f'.st.bufferWritten ≤ bufferLen := by
  obtain ⟨w, hw, rfl⟩ := Option.map_eq_some_iff.mp h
  have hfits : key.length < 65535 ∧ key.length + 2 + 8 ≤ bufferLen - f.st.bufferWritten := by
    by_contra hnot
    rw [writeKv, if_neg hnot] at hw
    cases hw
  obtain ⟨w', hw', hwrote⟩ := writeKv_wrote f.st.buffer f.ptr (bufferLen - f.st.bufferWritten)
    value hfits.1 (by omega)
  obtain rfl : w' = w := Option.some.inj (hw'.symm.trans hw)
  have hptr : w'.ptr = f.ptr + w'.written := by rw [hwrote.ptr, hwrote.written, Nat.zero_add]
  have hend : (f.advance w').st.bufferWritten ≤ bufferLen := by
    show f.st.bufferWritten + w'.written ≤ bufferLen
    rw [hwrote.written, Tsk.record_length]
    dsimp only
    omega
  obtain ⟨hconfined, haligned'⟩ := advance_confined haligned (writeKv_forward hw) hptr hend
  exact ⟨hconfined, haligned', hend⟩

/-! ## One key -/

/-- What is true of a step that stays in bounds: of the levels it goes through and
of the state it leaves. -/
structure Fill.StaysIn (f f' : Fill) (levels : List Nat) : Prop where
  levels : ∀ n ∈ levels, n ≤ bufferLen
  confined : Confined f.st f'.st
  le : f'.st.bufferWritten ≤ bufferLen

/-- The record part of the TSK formats, whatever the length of the key. -/
theorem Fill.Tidy.tskKey_staysIn {f : Fill} (h : f.Tidy) (time : UInt32) (key : Bytes)
    (value : UInt64) (lasthash msgkey : UInt32) :
    f.StaysIn (f.tskKey time key value lasthash msgkey).2 (f.tskLevels time key value) ∧
      ((f.tskKey time key value lasthash msgkey).1 = .ok →
        (f.tskKey time key value lasthash msgkey).2.Tidy) := by
  obtain ⟨f₁, hbegin, hconfined₁, haligned₁, hle₁⟩ := h.beginMessage time
  unfold Fill.tskKey tskLevels
  rw [hbegin]
  dsimp only
  cases happend : f₁.appendKv key value with
  | none =>
    refine ⟨⟨List.forall_mem_singleton.mpr hle₁, hconfined₁, hle₁⟩, ?_⟩
    rintro ⟨⟩
  | some f₂ =>
    obtain ⟨hconfined₂, haligned₂, hle₂⟩ := appendKv_confined haligned₁ hle₁ happend
    obtain ⟨hconfined₃, htidy⟩ := endKey_confined (f := { f₂ with lasthash, msgkey }) haligned₂ hle₂
    refine ⟨⟨?_, (hconfined₁.trans hconfined₂).trans hconfined₃, htidy.le⟩, fun _ => htidy⟩
    exact List.forall_mem_cons.mpr ⟨hle₁, List.forall_mem_singleton.mpr hle₂⟩

/-- One enabled key in the TSK formats. -/
theorem Fill.Tidy.kpFlushKey_tsk {f : Fill} (h : f.Tidy) (hfmt : f.st.conf.format ≠ .ascii)
    (time : UInt32) (ki : Ki) :
    f.StaysIn (f.kpFlushKey time ki).2.2 (f.keyLevels time ki) ∧
      ((f.kpFlushKey time ki).1 = .ok → (f.kpFlushKey time ki).2.2.Tidy) := by
  unfold kpFlushKey keyLevels
  cases hf : f.st.conf.format with
  | ascii => exact absurd hf hfmt
  | tsk => exact h.tskKey_staysIn time ki.name ki.value f.lasthash time
  | tskKeypart =>
    have hki : ({ ki with key := (hashWithoutLastTerm ki.key).2 } : Ki) = ki := by
      rw [hashWithoutLastTerm_restores]
    dsimp only
    rw [hki]
    by_cases hsend : (hashWithoutLastTerm ki.key).1 ≠ f.lasthash ∧ 0 < f.st.bufferWritten
    · rw [if_pos hsend]
      have hconfined := sendMsg_confined h.le f.lasthash
      have htidy := f.sendMsg_tidy f.lasthash
      generalize f.sendMsg f.lasthash = r at hconfined htidy ⊢
      obtain ⟨success, f'⟩ := r
      cases success with
      | false => exact ⟨⟨List.forall_mem_nil _, hconfined, htidy.le⟩, by rintro ⟨⟩⟩
      | true =>
        obtain ⟨hstays, hok⟩ := htidy.tskKey_staysIn time ki.name ki.value
          (hashWithoutLastTerm ki.key).1 (hashWithoutLastTerm ki.key).1
        exact ⟨⟨hstays.levels, hconfined.trans hstays.confined, hstays.le⟩, hok⟩
    · rw [if_neg hsend]
      exact h.tskKey_staysIn time ki.name ki.value _ _

/-- One enabled key in the ASCII format: the level is the only one there is. -/
theorem Fill.kpFlushKey_ascii (f : Fill) (hfmt : f.st.conf.format = .ascii) (time : UInt32)
    (ki : Ki) (hlen : (line time (ki.name, ki.value)).length < 2 ^ 31) :
    ∃ f' : Fill, f.kpFlushKey time ki = (f'.endKey.1, ki, f'.endKey.2) ∧
      f.keyLevels time ki = [f'.st.bufferWritten] ∧
      f'.st.bufferWritten = f.st.bufferWritten + (line time (ki.name, ki.value)).length ∧
      f.Quiet f' ∧
      (f.Aligned → f'.Aligned ∧ (f.st.bufferWritten ≤ bufferLen → Confined f.st f'.st)) := by
  obtain ⟨f', happend, hlevel, hquiet, hconfined⟩ := f.appendAscii_some ki.name ki.value time hlen
  have hquiet' : f.Quiet { f' with msgkey := time } :=
    ⟨hquiet.conf, hquiet.results, hquiet.produced⟩
  refine ⟨{ f' with msgkey := time }, ?_, ?_, hlevel, hquiet', hconfined⟩
  · unfold kpFlushKey
    rw [hfmt]
    simp only [happend]
  · unfold keyLevels asciiLevels
    rw [hfmt]
    simp only [happend]
    rfl

/-! ## Whole calls -/

/-- The lengths of the lines of some records. -/
def lineLengths (time : UInt32) (rs : List (Bytes × UInt64)) : List Nat :=
  rs.map fun r => (line time r).length

/-- The loop of a flush and what follows it. -/
theorem kpFlushLoop_inBounds {time : UInt32} {kis : List Ki} {f : Fill} (h : f.Tidy)
    (hfit : f.st.conf.format = .ascii →
      LinesFit f.st.bufferWritten (lineLengths time (pairsOf kis))) :
    (∀ n ∈ Fill.loopLevels time kis f, n ≤ bufferLen) ∧
      Confined f.st (finishFlush (Fill.kpFlushLoop time kis f)).2 ∧
      (finishFlush (Fill.kpFlushLoop time kis f)).2.bufferWritten ≤ bufferLen := by
  induction kis generalizing f with
  | nil =>
    refine ⟨List.forall_mem_nil _, Fill.sendMsg_confined h.le f.msgkey, ?_⟩
    exact (f.sendMsg_tidy f.msgkey).le
  | cons ki kis ih =>
    rw [Fill.loopLevels]
    cases hd : ki.disabled with
    | true =>
      rw [pairsOf_cons_disabled hd] at hfit
      rw [finishFlush_disabled hd]
      exact ih h hfit
    | false =>
      rw [pairsOf_cons_enabled hd] at hfit
      rw [if_neg (by simp)]
      have hkey : f.StaysIn (f.kpFlushKey time ki).2.2 (f.keyLevels time ki) ∧
          ((f.kpFlushKey time ki).1 = .ok → (f.kpFlushKey time ki).2.2.Tidy ∧
            (f.st.conf.format = .ascii → LinesFit (f.kpFlushKey time ki).2.2.st.bufferWritten
              (lineLengths time (pairsOf kis)))) := by
        by_cases hfmt : f.st.conf.format = .ascii
        · have hline : f.st.bufferWritten + (line time (ki.name, ki.value)).length ≤ bufferLen :=
            (hfit hfmt).1
          have hrest := (hfit hfmt).2
          have hbl : bufferLen = 1048576 := rfl
          obtain ⟨f', heq, hlevels, hlevel, -, hconfined⟩ := f.kpFlushKey_ascii hfmt time ki (by omega)
          obtain ⟨haligned, hconfined⟩ := hconfined h.aligned
          dsimp only at hrest
          rw [← hlevel] at hline hrest
          obtain ⟨hconfined', htidy⟩ := Fill.endKey_confined haligned hline
          rw [heq, hlevels]
          refine ⟨⟨List.forall_mem_singleton.mpr hline, (hconfined h.le).trans hconfined', htidy.le⟩,
            fun _ => ⟨htidy, fun _ => ?_⟩⟩
          rw [f'.endKey_level]
          exact hrest
        · obtain ⟨hstays, hok⟩ := h.kpFlushKey_tsk hfmt time ki
          exact ⟨hstays, fun hret => ⟨hok hret, fun hascii => absurd hascii hfmt⟩⟩
      obtain ⟨hstays, hok⟩ := hkey
      by_cases hret : (f.kpFlushKey time ki).1 = .ok
      · obtain ⟨htidy, hfit'⟩ := hok hret
        rw [if_pos hret, finishFlush_ok hd kis hret]
        rw [← hstays.confined.conf] at hfit'
        obtain ⟨hlevels, hconfined, hle⟩ := ih htidy hfit'
        exact ⟨List.forall_mem_append.mpr ⟨hstays.levels, hlevels⟩,
          hstays.confined.trans hconfined, hle⟩
      · rw [if_neg hret, List.append_nil, finishFlush_of_ne hd kis hret]
        exact ⟨hstays.levels, hstays.confined, hstays.le⟩

/-- A call that stays within the buffer: `buffer_written` never exceeds its length,
and nothing behind it is written or produced. -/
structure InBounds (st : State) (c : ProducerCall) : Prop where
  entry : st.bufferWritten ≤ bufferLen
  levels : ∀ n ∈ c.levels st, n ≤ bufferLen
  confined : Confined st (c.step st)
  exit : (c.step st).bufferWritten ≤ bufferLen

/-- The lines of a call fit the buffer, each behind what it finds there. -/
def ProducerCall.LinesFit (c : ProducerCall) : Prop :=
  Kafka.LinesFit 0 (lineLengths c.time c.records)

/-- A single write as a package of one key. -/
def soleKi (key : CString) (value : UInt64) : Ki := ⟨key.bytes, value, fun _ => none, false⟩

theorem pairsOf_soleKi (key : CString) (value : UInt64) :
    pairsOf [soleKi key value] = [(key.bytes, value)] := by
  rw [pairsOf_cons_enabled rfl, pairsOf_nil,
    show (soleKi key value).name = key.bytes from cstr_of_nulFree key.nulFree]
  rfl

theorem setSingle_sole {st : State} (hempty : st.bufferWritten = 0) (key : CString) (value : UInt64)
    (time : UInt32) :
    setSingle st key value time
      = finishFlush (Fill.kpFlushLoop time [soleKi key value] ⟨st, 0, 0, 0⟩) := by
  have hd : (soleKi key value).disabled = false := rfl
  exact setSingle_finish hempty hd rfl time

/-- **One call stays in bounds**, from any state, if its lines fit in the ASCII
format, and in the TSK formats always. -/
theorem ProducerCall.inBounds {st : State} (hentry : st.bufferWritten ≤ bufferLen)
    {c : ProducerCall} (hfit : st.conf.format = .ascii → c.LinesFit) : InBounds st c := by
  have htidy : st.bufferWritten = 0 → ∀ msgkey, (⟨st, 0, 0, msgkey⟩ : Fill).Tidy := by
    intro hempty msgkey
    exact ⟨hempty.symm, hempty.le.trans (Nat.zero_le _)⟩
  by_cases hempty : st.bufferWritten = 0
  · cases c with
    | kpFlush kp time =>
      have hfit' : st.conf.format = .ascii → Kafka.LinesFit st.bufferWritten
          (lineLengths time (pairsOf kp.keyInfos)) := by
        rw [hempty]
        exact hfit
      obtain ⟨hlevels, hconfined, hexit⟩ := kpFlushLoop_inBounds (htidy hempty 0) hfit'
      rw [← kpFlush_finish hempty] at hconfined hexit
      refine ⟨hentry, ?_, hconfined, hexit⟩
      rw [show levels st (.kpFlush kp time) = _ from if_pos hempty]
      exact hlevels
    | setSingle key value time =>
      have hfit' : st.conf.format = .ascii → Kafka.LinesFit st.bufferWritten
          (lineLengths time (pairsOf [soleKi key value])) := by
        rw [hempty, pairsOf_soleKi]
        exact hfit
      obtain ⟨-, hconfined, hexit⟩ := kpFlushLoop_inBounds (htidy hempty 0) hfit'
      rw [← setSingle_sole hempty] at hconfined hexit
      refine ⟨hentry, ?_, hconfined, hexit⟩
      have htsk := ((htidy hempty time).tskKey_staysIn time key.bytes value 0 0).1.levels
      rw [show levels st (.setSingle key value time) = _ from if_pos hempty]
      cases hf : st.conf.format with
      | ascii =>
        have hline : 0 + (line time (key.bytes, value)).length ≤ bufferLen := (hfit hf).1
        have hbl : bufferLen = 1048576 := rfl
        obtain ⟨f', happend, hlevel, -⟩ := (⟨st, 0, 0, time⟩ : Fill).appendAscii_some key.bytes value
          time (by omega)
        unfold Fill.asciiLevels
        rw [happend]
        refine List.forall_mem_singleton.mpr ?_
        show f'.st.bufferWritten ≤ bufferLen
        rw [hlevel, hempty]
        exact hline
      | tsk => exact htsk
      | tskKeypart => exact htsk
  · -- the assertion at the entry fails
    obtain ⟨hlevels, hstep⟩ := ProducerCall.blocked hempty c
    refine ⟨hentry, ?_, ?_, ?_⟩
    · rw [hlevels]
      exact List.forall_mem_nil _
    · rw [hstep]
      exact Confined.refl st
    · rw [hstep]
      exact hentry

/-! ## The condition is exact -/

/-- An idle backend in the ASCII format for which every message gets through. -/
structure State.Accepting (st : State) : Prop where
  ascii : st.conf.format = .ascii
  empty : st.bufferWritten = 0
  results : st.produceResults = []

theorem Fill.sendMsg_accepting {f : Fill} (hfmt : f.st.conf.format = .ascii)
    (hresults : f.st.produceResults = []) (key : UInt32) :
    (f.sendMsg key).1 = true ∧ (f.sendMsg key).2.st.Accepting := by
  have hempty := f.sendMsg_empties key
  unfold sendMsg at hempty ⊢
  split
  · rw [hresults]
    exact ⟨rfl, hfmt, rfl, rfl⟩
  · next hzero => exact ⟨rfl, hfmt, Nat.eq_zero_of_not_pos hzero, hresults⟩

theorem Fill.endKey_accepting {f : Fill} (hfmt : f.st.conf.format = .ascii)
    (hresults : f.st.produceResults = []) :
    f.endKey.1 = .ok ∧ f.endKey.2.st.conf.format = .ascii ∧ f.endKey.2.st.produceResults = [] := by
  by_cases hfull : bufferLen / 2 < f.st.bufferWritten
  · obtain ⟨htrue, haccepting⟩ := sendMsg_accepting hfmt hresults f.msgkey
    rw [endKey_full hfull]
    exact ⟨if_pos htrue, haccepting.ascii, haccepting.results⟩
  · rw [endKey_idle (Nat.le_of_not_lt hfull)]
    exact ⟨rfl, hfmt, hresults⟩

/-- When every message gets through, all levels are reached: if they are in bounds
the lines fit. -/
theorem kpFlushLoop_linesFit {time : UInt32} {kis : List Ki} {f : Fill}
    (hfmt : f.st.conf.format = .ascii) (hresults : f.st.produceResults = [])
    (hlines : ∀ n ∈ lineLengths time (pairsOf kis), n < 2 ^ 31) :
    ((∀ n ∈ Fill.loopLevels time kis f, n ≤ bufferLen) →
        LinesFit f.st.bufferWritten (lineLengths time (pairsOf kis))) ∧
      (finishFlush (Fill.kpFlushLoop time kis f)).2.Accepting := by
  induction kis generalizing f with
  | nil => exact ⟨fun _ => trivial, (Fill.sendMsg_accepting hfmt hresults f.msgkey).2⟩
  | cons ki kis ih =>
    rw [Fill.loopLevels]
    cases hd : ki.disabled with
    | true =>
      rw [pairsOf_cons_disabled hd] at hlines ⊢
      rw [finishFlush_disabled hd]
      exact ih hfmt hresults hlines
    | false =>
      rw [pairsOf_cons_enabled hd] at hlines ⊢
      obtain ⟨hline, hlines'⟩ := List.forall_mem_cons.mp hlines
      obtain ⟨f', heq, hlevels, hlevel, hquiet, -⟩ := f.kpFlushKey_ascii hfmt time ki hline
      have hfmt' : f'.st.conf.format = .ascii := by rw [hquiet.conf, hfmt]
      obtain ⟨hok, hfmt'', hresults'⟩ :=
        Fill.endKey_accepting hfmt' (hquiet.results.trans hresults)
      have hret : (f.kpFlushKey time ki).1 = .ok := by rw [heq, hok]
      obtain ⟨hfit, haccepting⟩ := ih hfmt'' hresults' hlines'
      rw [finishFlush_ok hd kis hret, if_neg (by simp), if_pos hret, hlevels, heq]
      refine ⟨fun hin => ?_, haccepting⟩
      obtain ⟨hin₁, hin₂⟩ := List.forall_mem_append.mp hin
      have hfit' := hfit hin₂
      rw [f'.endKey_level, hlevel] at hfit'
      have hhead := List.forall_mem_singleton.mp hin₁
      rw [hlevel] at hhead
      exact ⟨hhead, hfit'⟩

/-- One call on an accepting backend: it accepts the next one as well. -/
theorem ProducerCall.linesFit_of_inBounds {st : State} (h : st.Accepting) {c : ProducerCall}
    (hlines : ∀ n ∈ lineLengths c.time c.records, n < 2 ^ 31) :
    ((∀ n ∈ c.levels st, n ≤ bufferLen) → c.LinesFit) ∧ (c.step st).Accepting := by
  cases c with
  | kpFlush kp time =>
    obtain ⟨hfit, haccepting⟩ :=
      kpFlushLoop_linesFit (f := ⟨st, 0, 0, 0⟩) h.ascii h.results hlines
    rw [← kpFlush_finish h.empty] at haccepting
    refine ⟨fun hin => ?_, haccepting⟩
    rw [show levels st (.kpFlush kp time) = _ from if_pos h.empty] at hin
    have hfit' := hfit hin
    dsimp only at hfit'
    rw [h.empty] at hfit'
    exact hfit'
  | setSingle key value time =>
    have hlines' : ∀ n ∈ lineLengths time (pairsOf [soleKi key value]), n < 2 ^ 31 := by
      rw [pairsOf_soleKi]
      exact hlines
    obtain ⟨-, haccepting⟩ :=
      kpFlushLoop_linesFit (f := ⟨st, 0, 0, 0⟩) h.ascii h.results hlines'
    rw [← setSingle_sole h.empty] at haccepting
    refine ⟨fun hin => ?_, haccepting⟩
    have hline := List.forall_mem_singleton.mp hlines
    obtain ⟨f', happend, hlevel, -⟩ := (⟨st, 0, 0, time⟩ : Fill).appendAscii_some key.bytes value
      time hline
    rw [show levels st (.setSingle key value time) = _ from if_pos h.empty, h.ascii] at hin
    unfold Fill.asciiLevels at hin
    rw [happend] at hin
    have hle : f'.st.bufferWritten ≤ bufferLen := hin _ (List.mem_singleton_self _)
    rw [hlevel, h.empty] at hle
    exact ⟨hle, trivial⟩

/-- **The buffer is never overrun** in any run of some calls, whatever the results of
producing, if and only if in the ASCII format all lines fit. `snprintf` is taken to
return the length of the line, hence lines within an `int`. -/
theorem inBounds_iff (conf : Conf) {calls : List ProducerCall}
    (hlines : conf.format = .ascii → ∀ c ∈ calls, ∀ n ∈ lineLengths c.time c.records, n < 2 ^ 31) :
    (∀ results, Along ProducerCall.step InBounds (State.init conf results) calls) ↔
      (conf.format = .ascii → ∀ c ∈ calls, c.LinesFit) := by
  constructor
  · intro hruns hfmt
    have haccepting : (State.init conf []).Accepting := ⟨hfmt, rfl, rfl⟩
    have hrun : ∀ st : State, st.Accepting → Along ProducerCall.step InBounds st calls →
        ∀ c ∈ calls, c.LinesFit := by
      have hlines' := hlines hfmt
      clear hlines hruns
      induction calls with
      | nil => exact fun _ _ _ => List.forall_mem_nil _
      | cons c calls ih =>
        intro st hst hrun
        obtain ⟨hc, hcalls⟩ := List.forall_mem_cons.mp hlines'
        obtain ⟨hfit, hst'⟩ := ProducerCall.linesFit_of_inBounds hst hc
        exact List.forall_mem_cons.mpr ⟨hfit hrun.1.levels, ih hcalls _ hst' hrun.2⟩
    exact hrun _ haccepting (hruns [])
  · intro hfit results
    have hrun : ∀ st : State, st.conf = conf → st.bufferWritten ≤ bufferLen →
        Along ProducerCall.step InBounds st calls := by
      clear hlines
      induction calls with
      | nil => exact fun _ _ _ => trivial
      | cons c calls ih =>
        intro st hconf hle
        have hcall : InBounds st c := ProducerCall.inBounds hle fun hfmt =>
          hfit (hconf ▸ hfmt) c List.mem_cons_self
        refine ⟨hcall, ih (fun hfmt c' hc' => hfit hfmt c' (List.mem_cons_of_mem _ hc')) _ ?_
          hcall.exit⟩
        rw [hcall.confined.conf, hconf]
    exact hrun _ rfl (Nat.zero_le _)

/-- A flush and a single write of short lines. -/
theorem inBounds_iff_shortLines :
    let calls := [.kpFlush secondEnabled 60, .setSingle (CString.ofAscii "a") 1 60]
    (∀ results, Along ProducerCall.step InBounds (State.init (smallConf .ascii) results) calls) ↔
      ((smallConf .ascii).format = .ascii → ∀ c ∈ calls, c.LinesFit) := by
  refine inBounds_iff (smallConf .ascii) fun _ => ?_
  refine List.forall_mem_cons.mpr ⟨?_, List.forall_mem_singleton.mpr ?_⟩
  · show ∀ n ∈ lineLengths 60 secondEnabled.enabledPairs, n < 2 ^ 31
    decide
  · show ∀ n ∈ lineLengths 60 [((CString.ofAscii "a").bytes, 1)], n < 2 ^ 31
    decide

/-- A key of `n` letters. -/
def letters (n : Nat) : CString where
  bytes := List.replicate n 97
  nulFree h := absurd (List.eq_of_mem_replicate h) (by decide)

theorem line_letters_length (n : Nat) : (line 60 ((letters n).bytes, 1)).length = n + 6 := by
  have hvalue : (decimal (1 : UInt64).toNat).length = 1 := by decide
  have htime : (decimal (60 : UInt32).toNat).length = 2 := by decide
  simp only [line, metricLine, letters, List.length_append, List.length_singleton,
    List.length_replicate, hvalue, htime]

/-- In the ASCII format a key that is too long overruns the buffer. -/
theorem not_inBounds_of_letters {n : Nat} (hlong : bufferLen < n + 6) (hint : n + 6 < 2 ^ 31) :
    ¬ InBounds (State.init (smallConf .ascii) []) (.setSingle (letters n) 1 60) := by
  intro hin
  have haccepting : (State.init (smallConf .ascii) []).Accepting := ⟨rfl, rfl, rfl⟩
  let c : ProducerCall := .setSingle (letters n) 1 60
  have hline : ∀ m ∈ lineLengths c.time c.records, m < 2 ^ 31 := by
    show ∀ m ∈ [(line 60 ((letters n).bytes, 1)).length], m < 2 ^ 31
    rw [line_letters_length]
    exact List.forall_mem_singleton.mpr hint
  have hfit : c.LinesFit := (ProducerCall.linesFit_of_inBounds haccepting hline).1 hin.levels
  have hle : 0 + (line 60 ((letters n).bytes, 1)).length ≤ bufferLen := hfit.1
  rw [line_letters_length] at hle
  omega

/-- A key as long as the buffer. -/
theorem letters_not_inBounds :
    ¬ ∀ results, Along ProducerCall.step InBounds (State.init (smallConf .ascii) results)
      [.setSingle (letters bufferLen) 1 60] :=
  fun hruns => not_inBounds_of_letters (Nat.lt_add_of_pos_right (by decide)) (by decide)
    (hruns []).1

end Kafka

end Libtimeseries
