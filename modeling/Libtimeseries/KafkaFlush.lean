import Libtimeseries.Kafka
import Libtimeseries.KpStore

/-!
# What the Kafka backend produces

`timeseries_backend_kafka_kp_flush` cuts the enabled keys of a package into
messages: when the buffer is half full, and in key-partition mode also when the
hash changes. In the two TSK formats the messages are `Batch`es: each one header
with at least one record, under a message key that fits its records
(`Batch.Keyed`), and together they hold the enabled keys in order.

`Fill.Inv` is the loop invariant: which batches were sent, and which records the
buffer holds. Each macro has one lemma about it.
-/

namespace Libtimeseries

open ByteLib

namespace Kafka

/-! ## Writers append -/

/-- From `w` to `w'` the bytes `bs` were appended. -/
structure Writer.Wrote (w w' : Writer) (bs : Bytes) : Prop where
  ptr : w'.ptr = w.ptr + bs.length
  written : w'.written = w.written + bs.length
  mem : load w'.mem w'.ptr = load w.mem w.ptr ++ bs

theorem Writer.Wrote.trans {w w' w'' : Writer} {bs bs' : Bytes} (h : w.Wrote w' bs)
    (h' : w'.Wrote w'' bs') : w.Wrote w'' (bs ++ bs') where
  ptr := by rw [h'.ptr, h.ptr, List.length_append, Nat.add_assoc]
  written := by rw [h'.written, h.written, List.length_append, Nat.add_assoc]
  mem := by rw [h'.mem, h.mem, List.append_assoc]

theorem Writer.memcpy_wrote (w : Writer) (bs : Bytes) : w.Wrote (w.memcpy bs) bs :=
  ⟨rfl, rfl, load_store_append w.mem w.ptr bs⟩

theorem Writer.serializeVal_of_le {w : Writer} {len : Nat} {bs : Bytes}
    (h : bs.length ≤ len - w.written) : w.serializeVal len bs = some (w.memcpy bs) :=
  if_pos h

theorem writeHeader_wrote (mem : Mem) (buf len : Nat) (time : UInt32) (channel : Bytes)
    (hlen : 15 ≤ len) (hchannel : channel.length < 2 ^ 16) :
    ∃ w, writeHeader mem buf len time channel (UInt16.ofNat channel.length) = some w ∧
      (⟨mem, buf, 0⟩ : Writer).Wrote w (Tsk.header Tsk.batchMagic time channel) := by
  have hch : (UInt16.ofNat channel.length).toNat = channel.length :=
    UInt16.toNat_ofNat_of_lt' hchannel
  let w₀ : Writer := ⟨mem, buf, 0⟩
  let w₁ := w₀.memcpy Tsk.batchMagic
  let w₂ := w₁.memcpy [0]
  let w₃ := w₂.memcpy (beBytes 4 time.toNat)
  let w₄ := w₃.memcpy (beBytes 2 channel.length)
  have hw₁ : w₁.written = 8 := rfl
  have hw₂ : w₂.written = 9 := rfl
  have hw₃ : w₃.written = 13 := by
    rw [(w₂.memcpy_wrote _).written, beBytes_length, hw₂]
  refine ⟨w₄.memcpy channel, ?_, ?_⟩
  · rw [writeHeader, if_pos (by show 8 < len; omega), hch]
    show (w₁.serializeVal len [0]).bind _ = _
    rw [Writer.serializeVal_of_le (by rw [hw₁, List.length_singleton]; omega), Option.bind_some]
    show (w₂.serializeVal len (beBytes 4 time.toNat)).bind _ = _
    rw [Writer.serializeVal_of_le (by rw [hw₂, beBytes_length]; omega), Option.bind_some]
    show (w₃.serializeVal len (beBytes 2 channel.length)).bind _ = _
    rw [Writer.serializeVal_of_le (by rw [hw₃, beBytes_length]; omega), Option.bind_some,
      List.take_length]
  · exact ((((w₀.memcpy_wrote _).trans (w₁.memcpy_wrote _)).trans (w₂.memcpy_wrote _)).trans
      (w₃.memcpy_wrote _)).trans (w₄.memcpy_wrote _)

theorem writeKv_wrote (mem : Mem) (buf len : Nat) {key : Bytes} (value : UInt64)
    (hkey : key.length < 65535) (hlen : key.length + 10 ≤ len) :
    ∃ w, writeKv mem buf len key value = some w ∧
      (⟨mem, buf, 0⟩ : Writer).Wrote w (Tsk.record (key, value)) := by
  let w₀ : Writer := ⟨mem, buf, 0⟩
  let w₁ := w₀.memcpy (beBytes 2 key.length)
  let w₂ := w₁.memcpy key
  have hw₀ : w₀.written = 0 := rfl
  have hw₂ : w₂.written = key.length + 2 := by
    rw [(w₁.memcpy_wrote _).written, (w₀.memcpy_wrote _).written, beBytes_length, hw₀]
    omega
  refine ⟨w₂.memcpy (beBytes 8 value.toNat), ?_, ?_⟩
  · rw [writeKv, if_pos ⟨hkey, by omega⟩]
    show (w₀.serializeVal len (beBytes 2 key.length)).bind _ = _
    rw [Writer.serializeVal_of_le (by rw [hw₀, beBytes_length]; omega), Option.bind_some]
    exact Writer.serializeVal_of_le (by rw [hw₂, beBytes_length]; omega)
  · exact ((w₀.memcpy_wrote _).trans (w₁.memcpy_wrote _)).trans (w₂.memcpy_wrote _)

/-! ## Batches -/

/-- The contents of a message: message key, time and records. -/
structure Batch where
  key : UInt32
  time : UInt32
  records : List (Bytes × UInt64)

namespace Batch

/-- The message a batch is sent as, for a channel. -/
def message (channel : Bytes) (b : Batch) : Bytes × Bytes :=
  (Tsk.message Tsk.batchMagic b.time channel b.records, beBytes 4 b.key.toNat)

/-- The message key fits the records: the time, or the hash they all share. -/
def Keyed (b : Batch) : Format → Prop
  | .ascii => False
  | .tsk => b.key = b.time
  | .tskKeypart => ∀ r ∈ b.records, (hashWithoutLastTerm r.1).1 = b.key

end Batch

/-- What is true of a batch that was sent at a time. -/
structure Batch.SentAt (b : Batch) (time : UInt32) (conf : Conf) : Prop where
  time : b.time = time
  nonempty : b.records ≠ []
  keyed : b.Keyed conf.format
  fits : (b.message conf.channelName.bytes).1.length ≤ bufferLen

/-- The records of some batches, in order. -/
def recordsOf (sent : List Batch) : List (Bytes × UInt64) := sent.flatMap Batch.records

@[simp] theorem recordsOf_concat (sent : List Batch) (b : Batch) :
    recordsOf (sent ++ [b]) = recordsOf sent ++ b.records := by
  simp [recordsOf]

/-- What the buffer holds for the records collected so far. -/
def bufferBytes (time : UInt32) (channel : Bytes) (cur : List (Bytes × UInt64)) : Bytes :=
  if cur = [] then [] else Tsk.message Tsk.batchMagic time channel cur

/-! ## The loop invariant -/

/-- The buffer holds `bs`, and `ptr` is behind it. -/
structure Fill.Holds (f : Fill) (bs : Bytes) : Prop where
  ptr : f.ptr = f.st.bufferWritten
  load : load f.st.buffer f.st.bufferWritten = bs

theorem Fill.Holds.length {f : Fill} {bs : Bytes} (h : f.Holds bs) :
    f.st.bufferWritten = bs.length := by
  rw [← h.load, load_length]

theorem Fill.Holds.advance {f : Fill} {bs bs' : Bytes} (h : f.Holds bs) {w : Writer}
    (hw : (⟨f.st.buffer, f.ptr, 0⟩ : Writer).Wrote w bs') : (f.advance w).Holds (bs ++ bs') where
  ptr := by
    show f.ptr + w.written = f.st.bufferWritten + w.written
    rw [h.ptr]
  load := by
    show ByteLib.load w.mem (f.st.bufferWritten + w.written) = bs ++ bs'
    have hptr : f.st.bufferWritten + w.written = w.ptr := by
      rw [hw.ptr, hw.written, ← h.ptr, Nat.zero_add]
    rw [hptr, hw.mem, ← h.load, h.ptr]

/-- Since the state `st₀` the batches `sent` were sent at `time`, and the buffer
holds the records `cur`. -/
structure Fill.Inv (f : Fill) (time : UInt32) (st₀ : State) (sent : List Batch)
    (cur : List (Bytes × UInt64)) : Prop where
  conf : f.st.conf = st₀.conf
  holds : f.Holds (bufferBytes time st₀.conf.channelName.bytes cur)
  messages : f.st.messages = st₀.messages ++ sent.map (Batch.message st₀.conf.channelName.bytes)
  results : f.st.produceResults <:+ st₀.produceResults
  sentOk : ∀ b ∈ sent, b.SentAt time st₀.conf
  fits : f.st.bufferWritten ≤ bufferLen

section Send

variable {f : Fill} {time : UInt32} {st₀ : State} {sent : List Batch}
  {cur : List (Bytes × UInt64)}

theorem Fill.Inv.empty_iff (h : f.Inv time st₀ sent cur) : f.st.bufferWritten = 0 ↔ cur = [] := by
  rw [h.holds.length, bufferBytes]
  split
  · next hcur => simp [hcur]
  · next hcur =>
    simp only [hcur, iff_false]
    rw [Tsk.message, List.length_append, Tsk.header_length]
    omega

/-- `goto err` -/
theorem ret_of_false {success : Bool} (h : success = false) :
    (if success then Ret.ok else Ret.fail) = .fail := by
  rw [h]
  rfl

/-- Retrying until the queue has room: at most one message gets through. -/
theorem produceLoop_spec (payload key : Bytes) (rs : List ProduceResult) :
    let r := produceLoop payload key rs
    r.2.1 <:+ rs ∧ (r.1 = false → .fatal ∈ rs) ∧
      ((r.2.2.filter fun a => a.result = .ok).map fun a => (a.payload, a.key))
        = if r.1 then [(payload, key)] else [] := by
  induction rs with
  | nil => exact ⟨List.suffix_rfl, by rintro ⟨⟩, rfl⟩
  | cons r rs ih =>
    obtain ⟨hsuffix, hfatal, hmsgs⟩ := ih
    cases r with
    | ok => exact ⟨List.suffix_cons _ _, by rintro ⟨⟩, rfl⟩
    | fatal => exact ⟨List.suffix_cons _ _, fun _ => List.mem_cons_self, rfl⟩
    | queueFull =>
      refine ⟨hsuffix.trans (List.suffix_cons _ _), ?_, hmsgs⟩
      intro h
      exact List.mem_cons_of_mem _ (hfatal h)

/-- `SEND_MSG`: the buffered records become a batch, or are dropped after a
fatal error. -/
theorem sendMsg_spec (h : f.Inv time st₀ sent cur) (key : UInt32)
    (hkey : cur ≠ [] → (⟨key, time, cur⟩ : Batch).Keyed st₀.conf.format) :
    ∃ sent', (f.sendMsg key).2.Inv time st₀ sent' [] ∧
      (((f.sendMsg key).1 = true ∧ recordsOf sent' = recordsOf sent ++ cur) ∨
        ((f.sendMsg key).1 = false ∧ .fatal ∈ st₀.produceResults ∧ sent' = sent)) := by
  unfold Fill.sendMsg
  split
  · next hpos =>
    have hcur : cur ≠ [] := by
      intro hnil
      rw [h.empty_iff.mpr hnil] at hpos
      exact Nat.lt_irrefl 0 hpos
    obtain ⟨hsuffix, hfatal, hmsgs⟩ := produceLoop_spec (load f.st.buffer f.st.bufferWritten)
      (beBytes 4 key.toNat) f.st.produceResults
    have hpayload : load f.st.buffer f.st.bufferWritten
        = (Batch.message st₀.conf.channelName.bytes ⟨key, time, cur⟩).1 := by
      rw [h.holds.load, bufferBytes, if_neg hcur]
      rfl
    dsimp only at hsuffix hfatal hmsgs ⊢
    generalize produceLoop (load f.st.buffer f.st.bufferWritten) (beBytes 4 key.toNat)
      f.st.produceResults = r at hsuffix hfatal hmsgs ⊢
    obtain ⟨success, rest, attempts⟩ := r
    have hsent : (⟨f.st.conf, f.st.buffer, 0, rest, f.st.produced ++ attempts⟩ : State).messages
        = f.st.messages ++
          if success then [Batch.message st₀.conf.channelName.bytes ⟨key, time, cur⟩] else [] := by
      unfold State.messages
      rw [List.filter_append, List.map_append, hmsgs, hpayload]
      rfl
    have hempty : (⟨⟨f.st.conf, f.st.buffer, 0, rest, f.st.produced ++ attempts⟩, 0, f.lasthash,
        f.msgkey⟩ : Fill).Holds (bufferBytes time st₀.conf.channelName.bytes []) := ⟨rfl, rfl⟩
    cases success with
    -- the buffer is reset all the same
    | false =>
      refine ⟨sent, ⟨h.conf, hempty, ?_, hsuffix.trans h.results, h.sentOk, Nat.zero_le _⟩,
        .inr ⟨rfl, h.results.subset (hfatal rfl), rfl⟩⟩
      rw [hsent, if_neg (by simp), List.append_nil, h.messages]
    | true =>
      refine ⟨sent ++ [⟨key, time, cur⟩], ⟨h.conf, hempty, ?_, hsuffix.trans h.results, ?_,
        Nat.zero_le _⟩, .inl ⟨rfl, recordsOf_concat sent _⟩⟩
      · rw [hsent, if_pos rfl, h.messages, List.map_append, List.append_assoc]
        rfl
      · intro b hb
        rcases List.mem_append.mp hb with hb | hb
        · exact h.sentOk b hb
        · rw [List.mem_singleton.mp hb]
          refine ⟨rfl, hcur, hkey hcur, ?_⟩
          rw [← hpayload, load_length]
          exact h.fits
  · next hpos =>
    have hcur : cur = [] := h.empty_iff.mp (by omega)
    subst hcur
    refine ⟨sent, ⟨h.conf, ⟨?_, h.holds.load⟩, h.messages, h.results, h.sentOk, h.fits⟩,
      .inl ⟨rfl, ?_⟩⟩
    · show 0 = f.st.bufferWritten
      omega
    · rw [List.append_nil]

end Send

/-! ## One key -/

/-- How far a flush has come: the records `done` are sent or buffered, or a fatal
error has dropped the buffer. -/
def Progress (st₀ : State) (done : List (Bytes × UInt64)) (r : Ret) (sent : List Batch)
    (cur : List (Bytes × UInt64)) : Prop :=
  (r = .ok ∧ recordsOf sent ++ cur = done) ∨
    (r = .fail ∧ .fatal ∈ st₀.produceResults ∧ cur = [] ∧ recordsOf sent <+: done)

/-- The invariant between keys: the buffer is at most half full, and the message
key kept for it fits. -/
structure Fill.Between (f : Fill) (time : UInt32) (st₀ : State) (sent : List Batch)
    (cur : List (Bytes × UInt64)) : Prop where
  inv : f.Inv time st₀ sent cur
  half : f.st.bufferWritten ≤ bufferLen / 2
  key : cur ≠ [] → (⟨f.msgkey, time, cur⟩ : Batch).Keyed st₀.conf.format
  lasthash : st₀.conf.format = .tskKeypart → cur ≠ [] → f.lasthash = f.msgkey

section Key

variable {f : Fill} {time : UInt32} {st₀ : State} {sent : List Batch}
  {cur : List (Bytes × UInt64)}

/-- An empty buffer fits any message key. -/
theorem Fill.Inv.between (h : f.Inv time st₀ sent []) : f.Between time st₀ sent [] where
  inv := h
  half := by
    rw [h.empty_iff.mpr rfl]
    exact Nat.zero_le _
  key hnil := absurd rfl hnil
  lasthash _ hnil := absurd rfl hnil

/-- A topic name that fits leaves room for the channel in a header. -/
theorem Conf.channel_lt (conf : Conf) : conf.channelName.bytes.length < 1023 := by
  have h : conf.topicPrefix.strlen + 1 + conf.channelName.bytes.length < 1024 :=
    of_decide_eq_true conf.connected
  omega

/-- A message that is begun holds its header and the records so far. -/
theorem beginMessage_spec (h : f.Inv time st₀ sent cur)
    (hhalf : f.st.bufferWritten ≤ bufferLen / 2) :
    ∃ f', f.beginMessage time = some f' ∧
      f'.Holds (Tsk.message Tsk.batchMagic time st₀.conf.channelName.bytes cur) ∧
      f'.st.bufferWritten ≤ bufferLen / 2 + 1038 ∧
      f'.st = { f.st with buffer := f'.st.buffer, bufferWritten := f'.st.bufferWritten } := by
  unfold Fill.beginMessage
  split
  · next hzero =>
    have hconn := st₀.conf.channel_lt
    obtain ⟨w, hw, hwrote⟩ := writeHeader_wrote f.st.buffer f.ptr
      (bufferLen - f.st.bufferWritten) time st₀.conf.channelName.bytes
      (by rw [hzero]; decide) (by omega)
    have hcur : cur = [] := h.empty_iff.mp hzero
    have hadv := h.holds.advance hwrote
    rw [bufferBytes, if_pos hcur, List.nil_append] at hadv
    refine ⟨f.advance w, ?_, ?_, ?_, rfl⟩
    · rw [h.conf, CString.strlen, hw]
      rfl
    · rw [hcur, Tsk.message, Tsk.body_nil, List.append_nil]
      exact hadv
    · rw [hadv.length, Tsk.header_length]
      have : Tsk.batchMagic.length = 8 := rfl
      omega
  · next hpos =>
    refine ⟨f, rfl, ?_, Nat.le_add_right_of_le hhalf, rfl⟩
    have hcur : cur ≠ [] := fun hnil => hpos (h.empty_iff.mpr hnil)
    have := h.holds
    rwa [bufferBytes, if_neg hcur] at this

/-- Header if need be, then the record: the buffer holds one record more. -/
theorem appendRecord_spec (h : f.Inv time st₀ sent cur) (hhalf : f.st.bufferWritten ≤ bufferLen / 2)
    {key : Bytes} (value : UInt64) (hlen : key.length < 65535) :
    ∃ f₁ f₂, f.beginMessage time = some f₁ ∧ f₁.appendKv key value = some f₂ ∧
      f₂.Inv time st₀ sent (cur ++ [(key, value)]) := by
  obtain ⟨f₁, hbegin, hholds, hfill, hst⟩ := beginMessage_spec h hhalf
  have hbl : bufferLen = 1048576 := rfl
  obtain ⟨w, hw, hwrote⟩ := writeKv_wrote f₁.st.buffer f₁.ptr
    (bufferLen - f₁.st.bufferWritten) value hlen (by omega)
  refine ⟨f₁, f₁.advance w, hbegin, by rw [Fill.appendKv, hw]; rfl, ?_, ?_, ?_, ?_, h.sentOk, ?_⟩
  · show f₁.st.conf = _
    rw [hst]
    exact h.conf
  · rw [bufferBytes, if_neg (by simp), Tsk.message_concat]
    exact hholds.advance hwrote
  · show f₁.st.messages = _
    rw [hst]
    exact h.messages
  · show f₁.st.produceResults <:+ _
    rw [hst]
    exact h.results
  · show f₁.st.bufferWritten + w.written ≤ bufferLen
    rw [hwrote.written, Tsk.record_length]
    show f₁.st.bufferWritten + (0 + (key.length + 10)) ≤ bufferLen
    omega

/-- The record part of both TSK formats. -/
theorem tskKey_spec (h : f.Inv time st₀ sent cur) (hhalf : f.st.bufferWritten ≤ bufferLen / 2)
    {key : Bytes} {value : UInt64} {lasthash msgkey : UInt32} (hlen : key.length < 65535)
    (hkey : (⟨msgkey, time, cur ++ [(key, value)]⟩ : Batch).Keyed st₀.conf.format)
    (hlast : st₀.conf.format = .tskKeypart → lasthash = msgkey) :
    ∃ sent' cur', (f.tskKey time key value lasthash msgkey).2.Between time st₀ sent' cur' ∧
      Progress st₀ (recordsOf sent ++ cur ++ [(key, value)])
        (f.tskKey time key value lasthash msgkey).1 sent' cur' := by
  obtain ⟨f₁, f₂', hbegin, happend, hinv'⟩ := appendRecord_spec h hhalf value hlen
  let f₂ : Fill := { f₂' with lasthash := lasthash, msgkey := msgkey }
  have hinv : f₂.Inv time st₀ sent (cur ++ [(key, value)]) :=
    ⟨hinv'.conf, ⟨hinv'.holds.ptr, hinv'.holds.load⟩, hinv'.messages, hinv'.results, hinv'.sentOk,
      hinv'.fits⟩
  rw [Fill.tskKey, hbegin]
  simp only [happend]
  show ∃ sent' cur', (Fill.endKey f₂).2.Between time st₀ sent' cur' ∧
    Progress st₀ _ (Fill.endKey f₂).1 sent' cur'
  unfold Fill.endKey Fill.sendIfFull
  split
  · obtain ⟨sent', hinv', hres⟩ := sendMsg_spec hinv msgkey fun _ => hkey
    refine ⟨sent', [], hinv'.between, ?_⟩
    rcases hres with ⟨hok, hrecs⟩ | ⟨hfail, hfatal, rfl⟩
    · exact .inl ⟨if_pos hok, by rw [List.append_nil, hrecs, List.append_assoc]⟩
    · refine .inr ⟨ret_of_false hfail, hfatal, rfl, ?_⟩
      rw [List.append_assoc]
      exact List.prefix_append _ _
  · next hnot =>
    -- at most half full: the record stays in the buffer
    refine ⟨sent, cur ++ [(key, value)], ⟨hinv, Nat.le_of_not_lt hnot, ?_, ?_⟩,
      .inl ⟨rfl, (List.append_assoc _ _ _).symm⟩⟩
    · intro _
      exact hkey
    · intro hfmt _
      exact hlast hfmt

/-- The body of the loop. In key-partition mode a change of the hash sends the
buffered records first, under the hash they share. -/
theorem kpFlushKey_spec (h : f.Between time st₀ sent cur) (hfmt : st₀.conf.format ≠ .ascii)
    {ki : Ki} (hnul : (0 : UInt8) ∉ ki.key) (hlen : ki.key.length < 65535) :
    ∃ sent' cur', (f.kpFlushKey time ki).2.2.Between time st₀ sent' cur' ∧
      Progress st₀ (recordsOf sent ++ cur ++ [(ki.name, ki.value)]) (f.kpFlushKey time ki).1
        sent' cur' := by
  have hname : ki.name = ki.key := cstr_of_nulFree hnul
  have hlen' : ki.name.length < 65535 := hname ▸ hlen
  unfold Fill.kpFlushKey
  rw [h.inv.conf]
  cases hf : st₀.conf.format with
  | ascii => exact absurd hf hfmt
  | tsk =>
    refine tskKey_spec h.inv h.half hlen' ?_ ?_
    · rw [hf]
      rfl
    · intro hkp
      rw [hf] at hkp
      cases hkp
  | tskKeypart =>
    simp only [hashWithoutLastTerm_restores]
    generalize hhash : (hashWithoutLastTerm ki.key).1 = thishash
    have hkey : ∀ r ∈ cur, (hashWithoutLastTerm r.1).1 = f.msgkey := by
      intro r hr
      have := h.key (List.ne_nil_of_mem hr)
      rw [hf] at this
      exact this r hr
    have hrecord : (⟨thishash, time, [(ki.name, ki.value)]⟩ : Batch).Keyed st₀.conf.format := by
      rw [hf]
      intro r hr
      rw [List.mem_singleton.mp hr, hname, hhash]
    by_cases hsend : thishash ≠ f.lasthash ∧ 0 < f.st.bufferWritten
    · rw [if_pos hsend]
      obtain ⟨sent', hinv', hres⟩ := sendMsg_spec h.inv f.lasthash fun hcur => by
        rw [h.lasthash hf hcur]
        exact h.key hcur
      generalize f.sendMsg f.lasthash = r at hinv' hres ⊢
      obtain ⟨success, f'⟩ := r
      rcases hres with ⟨hok, hrecs⟩ | ⟨hfail, hfatal, rfl⟩
      · obtain rfl : success = true := hok
        have hspec := tskKey_spec hinv' hinv'.between.half hlen' hrecord fun _ => rfl
        rwa [hrecs, List.append_nil] at hspec
      · obtain rfl : success = false := hfail
        refine ⟨sent', [], hinv'.between, .inr ⟨rfl, hfatal, rfl, ?_⟩⟩
        rw [List.append_assoc]
        exact List.prefix_append _ _
    · rw [if_neg hsend]
      refine tskKey_spec h.inv h.half hlen' ?_ fun _ => rfl
      rw [hf]
      intro r hr
      rcases List.mem_append.mp hr with hr | hr
      · -- buffered records have the last hash, which is this one
        have hcur : cur ≠ [] := List.ne_nil_of_mem hr
        have hpos : 0 < f.st.bufferWritten :=
          Nat.pos_of_ne_zero fun hzero => hcur (h.inv.empty_iff.mp hzero)
        have hsame : thishash = f.lasthash := by
          by_contra hne
          exact hsend ⟨hne, hpos⟩
        show _ = thishash
        rw [hkey r hr, hsame, h.lasthash hf hcur]
      · rw [hf] at hrecord
        exact hrecord r hr

end Key

/-! ## The whole flush -/

theorem Progress.extend {st₀ : State} {done more : List (Bytes × UInt64)} {sent : List Batch}
    {cur : List (Bytes × UInt64)} (h : Progress st₀ done .fail sent cur) :
    Progress st₀ (done ++ more) .fail sent cur := by
  rcases h with ⟨hok, -⟩ | ⟨hr, hfatal, hcur, hpre⟩
  · cases hok
  · exact .inr ⟨hr, hfatal, hcur, hpre.trans (List.prefix_append _ _)⟩

theorem kpFlushLoop_spec {time : UInt32} {st₀ : State} (hfmt : st₀.conf.format ≠ .ascii)
    {kis : List Ki} (hkis : ∀ ki ∈ kis, (0 : UInt8) ∉ ki.key ∧ ki.key.length < 65535)
    {f : Fill} {sent : List Batch} {cur : List (Bytes × UInt64)}
    (h : f.Between time st₀ sent cur) :
    ∃ sent' cur', (Fill.kpFlushLoop time kis f).2.2.Between time st₀ sent' cur' ∧
      Progress st₀ (recordsOf sent ++ cur ++ pairsOf kis)
        (Fill.kpFlushLoop time kis f).1 sent' cur' := by
  induction kis generalizing f sent cur with
  | nil => exact ⟨sent, cur, h, .inl ⟨rfl, (List.append_nil _).symm⟩⟩
  | cons ki kis ih =>
    obtain ⟨⟨hnul, hlen⟩, hkis'⟩ := List.forall_mem_cons.mp hkis
    rw [Fill.kpFlushLoop]
    split
    · next hd =>
      rw [pairsOf_cons_disabled hd]
      exact ih hkis' h
    · next hd =>
      obtain ⟨sent₁, cur₁, hbetween, hprog⟩ := kpFlushKey_spec h hfmt hnul hlen
      generalize f.kpFlushKey time ki = r at hbetween hprog ⊢
      obtain ⟨r, ki', f'⟩ := r
      rw [pairsOf_cons_enabled (Bool.eq_false_iff.mpr hd), List.append_cons]
      cases r with
      | ok =>
        obtain ⟨-, hdone⟩ := hprog.resolve_right (by rintro ⟨⟨⟩, -⟩)
        obtain ⟨sent₂, cur₂, hbetween₂, hprog₂⟩ := ih hkis' hbetween
        rw [hdone] at hprog₂
        exact ⟨sent₂, cur₂, hbetween₂, hprog₂⟩
      | fail => exact ⟨sent₁, cur₁, hbetween, hprog.extend⟩
      | stop why => rcases hprog with ⟨⟨⟩, -⟩ | ⟨⟨⟩, -⟩

/-- From `st` to `st'` exactly these batches were sent, all at `time` and each
under a fitting key, and nothing stays behind in the buffer. -/
structure Sends (st st' : State) (time : UInt32) (sent : List Batch) : Prop where
  conf : st'.conf = st.conf
  empty : st'.bufferWritten = 0
  results : st'.produceResults <:+ st.produceResults
  messages : st'.messages = st.messages ++ sent.map (Batch.message st.conf.channelName.bytes)
  sentOk : ∀ b ∈ sent, b.SentAt time st.conf

theorem Sends.trans {st st₁ st₂ : State} {time : UInt32} {sent sent' : List Batch}
    (h : Sends st st₁ time sent) (h' : Sends st₁ st₂ time sent') :
    Sends st st₂ time (sent ++ sent') where
  conf := h'.conf.trans h.conf
  empty := h'.empty
  results := h'.results.trans h.results
  messages := by rw [h'.messages, h.messages, h.conf, List.map_append, List.append_assoc]
  sentOk := List.forall_mem_append.mpr ⟨h.sentOk, h.conf ▸ h'.sentOk⟩

theorem Fill.Inv.sends {f : Fill} {time : UInt32} {st : State} {sent : List Batch}
    (h : f.Inv time st sent []) : Sends st f.st time sent :=
  ⟨h.conf, h.empty_iff.mpr rfl, h.results, h.messages, h.sentOk⟩

/-- An idle buffer holds nothing. -/
theorem Fill.inv_start {st : State} (hempty : st.bufferWritten = 0)
    (time lasthash msgkey : UInt32) : (⟨st, 0, lasthash, msgkey⟩ : Fill).Inv time st [] [] :=
  ⟨rfl, ⟨hempty.symm, by rw [hempty]; rfl⟩, by simp, List.suffix_rfl, by simp,
    hempty.le.trans (Nat.zero_le _)⟩

/-- **What a flush produces** in the TSK formats: if it returns 0, batches that
hold the enabled keys of the package in order; otherwise a fatal error cut them
short. -/
theorem kpFlush_spec {st : State} (hfmt : st.conf.format ≠ .ascii) (hempty : st.bufferWritten = 0)
    {kp : Kp} (hkeys : ∀ ki ∈ kp.keyInfos, (0 : UInt8) ∉ ki.key ∧ ki.key.length < 65535)
    (time : UInt32) :
    ∃ sent, Sends st (kpFlush kp time st).2.2 time sent ∧
      (((kpFlush kp time st).1 = .ok ∧ recordsOf sent = kp.enabledPairs) ∨
        ((kpFlush kp time st).1 = .fail ∧ .fatal ∈ st.produceResults ∧
          recordsOf sent <+: kp.enabledPairs)) := by
  obtain ⟨sent, cur, hbetween, hprog⟩ := kpFlushLoop_spec hfmt hkeys
    (Fill.inv_start hempty time 0 0).between
  unfold kpFlush
  rw [if_pos hempty]
  generalize Fill.kpFlushLoop time kp.keyInfos ⟨st, 0, 0, 0⟩ = r at hbetween hprog ⊢
  obtain ⟨r, kis, f⟩ := r
  have hpairs : recordsOf [] ++ [] ++ pairsOf kp.keyInfos = kp.enabledPairs := rfl
  rw [hpairs] at hprog
  cases r with
  | ok =>
    obtain ⟨-, hdone⟩ := hprog.resolve_right (by rintro ⟨⟨⟩, -⟩)
    obtain ⟨sent', hinv, hres⟩ := sendMsg_spec hbetween.inv f.msgkey hbetween.key
    refine ⟨sent', hinv.sends, ?_⟩
    rcases hres with ⟨hok, hrecs⟩ | ⟨hfail, hfatal, rfl⟩
    · exact .inl ⟨if_pos hok, hrecs.trans hdone⟩
    · refine .inr ⟨ret_of_false hfail, hfatal, ?_⟩
      rw [← hdone]
      exact List.prefix_append _ _
  | fail =>
    obtain ⟨-, hfatal, rfl, hpre⟩ := hprog.resolve_left (by rintro ⟨⟨⟩, -⟩)
    exact ⟨sent, hbetween.inv.sends, .inr ⟨rfl, hfatal, hpre⟩⟩
  | stop why => rcases hprog with ⟨⟨⟩, -⟩ | ⟨⟨⟩, -⟩

/-- The TSK part of `set_single`. -/
theorem setSingleTsk_spec {st : State} (hempty : st.bufferWritten = 0) {key : CString}
    (hkey : key.strlen < 65535) {value : UInt64} {time msgkey : UInt32}
    (hkeyed : (⟨msgkey, time, [(key.bytes, value)]⟩ : Batch).Keyed st.conf.format) :
    let r := setSingleTsk ⟨st, 0, 0, time⟩ key value time msgkey
    ∃ sent, Sends st r.2 time sent ∧
      ((r.1 = .ok ∧ recordsOf sent = [(key.bytes, value)]) ∨
        (r.1 = .fail ∧ .fatal ∈ st.produceResults ∧ sent = [])) := by
  obtain ⟨f₁, f₂, hbegin, happend, hinv⟩ := appendRecord_spec (Fill.inv_start hempty time 0 time)
    (hempty.le.trans (Nat.zero_le _)) value hkey
  obtain ⟨sent, hinv', hres⟩ := sendMsg_spec hinv msgkey fun _ => hkeyed
  rw [setSingleTsk, hbegin]
  simp only [happend]
  refine ⟨sent, hinv'.sends, ?_⟩
  rcases hres with ⟨hok, hrecs⟩ | ⟨hfail, hfatal, hsent⟩
  · exact .inl ⟨if_pos hok, hrecs⟩
  · exact .inr ⟨ret_of_false hfail, hfatal, hsent⟩

/-- **What `set_single` produces** in the TSK formats: a batch with the one
record, unless a fatal error occurs. -/
theorem setSingle_spec {st : State} (hfmt : st.conf.format ≠ .ascii) (hempty : st.bufferWritten = 0)
    {key : CString} (hkey : key.strlen < 65535) (value : UInt64) (time : UInt32) :
    ∃ sent, Sends st (setSingle st key value time).2 time sent ∧
      (((setSingle st key value time).1 = .ok ∧ recordsOf sent = [(key.bytes, value)]) ∨
        ((setSingle st key value time).1 = .fail ∧ .fatal ∈ st.produceResults ∧ sent = [])) := by
  unfold setSingle
  rw [if_pos hempty]
  cases hf : st.conf.format with
  | ascii => exact absurd hf hfmt
  | tsk =>
    refine setSingleTsk_spec hempty hkey ?_
    rw [hf]
    rfl
  | tskKeypart =>
    refine setSingleTsk_spec hempty hkey ?_
    rw [hf]
    intro r hr
    rw [List.mem_singleton.mp hr]

end Kafka

end Libtimeseries
