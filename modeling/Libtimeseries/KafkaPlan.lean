import Libtimeseries.Base.Cutting
import Libtimeseries.KafkaRuns

/-!
# The plan of a call

What a call of the Kafka backend tries to produce is settled before it asks Kafka
anything: its records are cut into messages (`plan`), in every format, and the
messages are produced in order until one of them meets a fatal error (`sendAll`).
`kpFlush_plan` and `setSingle_plan` say so for calls whose records fit the buffer,
and that the buffer is empty afterwards, however the call ends.
-/

namespace Libtimeseries

open ByteLib CutLib

namespace Kafka

/-! ## Cutting records into messages -/

/-- The line of a record. -/
def line (time : UInt32) (r : Bytes × UInt64) : Bytes := metricLine r.1 r.2 time

/-- What `snprintf` leaves of lines that are printed one behind the other: the
terminator of the last one takes the last byte of a full buffer. -/
def printed (bs : Bytes) : Bytes :=
  if bs.length < bufferLen then bs else bs.take (bufferLen - 1) ++ [0]

section Plan

variable (conf : Conf) (time : UInt32)

/-- The value of `buffer_written` for some records. -/
def levelOf (rs : List (Bytes × UInt64)) : Nat :=
  match conf.format with
  | .ascii => (rs.flatMap (line time)).length
  | .tsk | .tskKeypart => (bufferBytes time conf.channelName.bytes rs).length

/-- What the buffer holds for them. -/
def bytesOf (rs : List (Bytes × UInt64)) : Bytes :=
  match conf.format with
  | .ascii => printed (rs.flatMap (line time))
  | .tsk | .tskKeypart => bufferBytes time conf.channelName.bytes rs

/-- The message key they are sent under. -/
def keyOf (rs : List (Bytes × UInt64)) : UInt32 :=
  match conf.format with
  | .ascii | .tsk => time
  | .tskKeypart => (rs.getLast?.map fun r => (hashWithoutLastTerm r.1).1).getD 0

/-- Does a record need another message key than those before it? -/
def splitsAt (rs : List (Bytes × UInt64)) (r : Bytes × UInt64) : Bool :=
  conf.format = .tskKeypart && (hashWithoutLastTerm r.1).1 != keyOf conf time rs

/-- Is the buffer more than half full? -/
def halfFull (rs : List (Bytes × UInt64)) : Bool := bufferLen / 2 < levelOf conf time rs

/-- The message for some records, as (payload, key). -/
def messageOf (rs : List (Bytes × UInt64)) : Bytes × Bytes :=
  (bytesOf conf time rs, beBytes 4 (keyOf conf time rs).toNat)

/-- The messages for some records, with `cur` in the buffer already. -/
def planFrom (cur rs : List (Bytes × UInt64)) : List (Bytes × Bytes) :=
  (cut (splitsAt conf time) (halfFull conf time) cur rs).map (messageOf conf time)

/-- The messages of a call. -/
def plan (rs : List (Bytes × UInt64)) : List (Bytes × Bytes) := planFrom conf time [] rs

end Plan

/-! ## Records that fit -/

/-- The fill level after a line: beyond one half the buffer is sent. -/
def nextFill (n : Nat) : Nat := if bufferLen / 2 < n then 0 else n

/-- Lines of these lengths fit the buffer, each behind what it finds there. -/
def LinesFit : Nat → List Nat → Prop
  | _, [] => True
  | fill, n :: ns => fill + n ≤ bufferLen ∧ LinesFit (nextFill (fill + n)) ns

/-- Records that are within the bounds of the buffer, with `fill` bytes in it
already. -/
def RecordsFit (conf : Conf) (time : UInt32) (fill : Nat) (rs : List (Bytes × UInt64)) : Prop :=
  match conf.format with
  | .ascii => LinesFit fill (rs.map fun r => (line time r).length)
  | .tsk | .tskKeypart => ∀ r ∈ rs, r.1.length < 65535

/-! ## Producing the plan -/

/-- Produce messages until one of them fails. -/
def sendAll : List (Bytes × Bytes) → List ProduceResult →
    Bool × List ProduceResult × List Attempt
  | [], rs => (true, rs, [])
  | m :: ms, rs =>
    let r := produceLoop m.1 m.2 rs
    if r.1 then
      let r' := sendAll ms r.2.1
      (r'.1, r'.2.1, r.2.2 ++ r'.2.2)
    else
      r

/-- From `st` to `st'` these attempts were made and these results used up. -/
structure Sent (st : State) (r : Bool × List ProduceResult × List Attempt) (st' : State) :
    Prop where
  conf : st'.conf = st.conf
  results : st'.produceResults = r.2.1
  produced : st'.produced = st.produced ++ r.2.2

theorem sendAll_cons_of_true {m : Bytes × Bytes} {ms : List (Bytes × Bytes)}
    {rs : List ProduceResult} (h : (produceLoop m.1 m.2 rs).1 = true) :
    sendAll (m :: ms) rs
      = ((sendAll ms (produceLoop m.1 m.2 rs).2.1).1,
          (sendAll ms (produceLoop m.1 m.2 rs).2.1).2.1,
          (produceLoop m.1 m.2 rs).2.2 ++ (sendAll ms (produceLoop m.1 m.2 rs).2.1).2.2) := by
  rw [sendAll]
  exact if_pos h

theorem sendAll_cons_of_false {m : Bytes × Bytes} {ms : List (Bytes × Bytes)}
    {rs : List ProduceResult} (h : (produceLoop m.1 m.2 rs).1 = false) :
    sendAll (m :: ms) rs = produceLoop m.1 m.2 rs := by
  rw [sendAll]
  exact if_neg (by simp [h])

/-- One message, then the others. -/
theorem Sent.cons {st st₁ st₂ : State} {m : Bytes × Bytes} {ms : List (Bytes × Bytes)}
    (h : Sent st (produceLoop m.1 m.2 st.produceResults) st₁)
    (htrue : (produceLoop m.1 m.2 st.produceResults).1 = true)
    (h' : Sent st₁ (sendAll ms st₁.produceResults) st₂) :
    Sent st (sendAll (m :: ms) st.produceResults) st₂ := by
  rw [h.results] at h'
  rw [sendAll_cons_of_true htrue]
  refine ⟨h'.conf.trans h.conf, h'.results, ?_⟩
  rw [h'.produced, h.produced, List.append_assoc]

/-- A call, or the rest of one, produces these messages and leaves the buffer
empty. -/
structure Produces (st : State) (ms : List (Bytes × Bytes)) (ret : Ret) (st' : State) : Prop where
  ret : ret = if (sendAll ms st.produceResults).1 then .ok else .fail
  sent : Sent st (sendAll ms st.produceResults) st'
  empty : st'.bufferWritten = 0

theorem Produces.nil {st st' : State} (hconf : st'.conf = st.conf)
    (hresults : st'.produceResults = st.produceResults) (hproduced : st'.produced = st.produced)
    (hempty : st'.bufferWritten = 0) : Produces st [] .ok st' :=
  ⟨rfl, ⟨hconf, hresults, hproduced.trans (List.append_nil _).symm⟩, hempty⟩

/-- The first message fails, and nothing follows. -/
theorem Produces.failed {st st' : State} {m : Bytes × Bytes} (ms : List (Bytes × Bytes))
    (h : Sent st (produceLoop m.1 m.2 st.produceResults) st')
    (hfalse : (produceLoop m.1 m.2 st.produceResults).1 = false) (hempty : st'.bufferWritten = 0) :
    Produces st (m :: ms) .fail st' := by
  have hsend := @sendAll_cons_of_false m ms _ hfalse
  constructor
  · rw [hsend, hfalse]
    rfl
  · rw [hsend]
    exact h
  · exact hempty

/-- The first message gets through. -/
theorem Produces.cons {st st₁ st₂ : State} {m : Bytes × Bytes} {ms : List (Bytes × Bytes)}
    {ret : Ret} (h : Sent st (produceLoop m.1 m.2 st.produceResults) st₁)
    (htrue : (produceLoop m.1 m.2 st.produceResults).1 = true) (h' : Produces st₁ ms ret st₂) :
    Produces st (m :: ms) ret st₂ := by
  refine ⟨?_, h.cons htrue h'.sent, h'.empty⟩
  rw [h'.ret, h.results, sendAll_cons_of_true htrue]

/-- Only the connection matters, not the buffer. -/
theorem Produces.congr {st st₁ st₂ : State} {ms : List (Bytes × Bytes)} {ret : Ret}
    (h : Produces st₁ ms ret st₂) (hconf : st₁.conf = st.conf)
    (hresults : st₁.produceResults = st.produceResults) (hproduced : st₁.produced = st.produced) :
    Produces st ms ret st₂ := by
  obtain ⟨hret, hsent, hempty⟩ := h
  rw [hresults] at hret hsent
  exact ⟨hret, ⟨hsent.conf.trans hconf, hsent.results, by rw [hsent.produced, hproduced]⟩, hempty⟩

/-! ## Levels and bytes -/

section Plan

variable {conf : Conf} {time : UInt32}

theorem line_pos (time : UInt32) (r : Bytes × UInt64) : 0 < (line time r).length := by
  simp only [line, metricLine, List.length_append, List.length_singleton]
  omega

theorem levelOf_eq_zero {rs : List (Bytes × UInt64)} : levelOf conf time rs = 0 ↔ rs = [] := by
  unfold levelOf
  cases rs with
  | nil => cases conf.format <;> simp [bufferBytes]
  | cons r rs =>
    have hpos := line_pos time r
    have htsk : 0 < (bufferBytes time conf.channelName.bytes (r :: rs)).length := by
      rw [bufferBytes, if_neg (List.cons_ne_nil r rs), Tsk.message, List.length_append,
        Tsk.header_length]
      omega
    cases conf.format with
    | ascii =>
      show (List.flatMap (line time) (r :: rs)).length = 0 ↔ _
      rw [List.flatMap_cons, List.length_append]
      simp only [reduceCtorEq, iff_false]
      omega
    | tsk => simpa using Nat.ne_of_gt htsk
    | tskKeypart => simpa using Nat.ne_of_gt htsk

theorem bytesOf_nil : bytesOf conf time [] = [] := by
  unfold bytesOf
  cases conf.format <;> rfl

/-- In the TSK formats the fill level does not matter for what fits. -/
theorem recordsFit_tsk (hfmt : conf.format ≠ .ascii) {fill : Nat} {rs : List (Bytes × UInt64)} :
    RecordsFit conf time fill rs ↔ ∀ r ∈ rs, r.1.length < 65535 := by
  unfold RecordsFit
  cases hf : conf.format with
  | ascii => exact absurd hf hfmt
  | tsk => exact Iff.rfl
  | tskKeypart => exact Iff.rfl

theorem recordsFit_ascii (hfmt : conf.format = .ascii) {fill : Nat}
    {rs : List (Bytes × UInt64)} :
    RecordsFit conf time fill rs ↔ LinesFit fill (rs.map fun r => (line time r).length) := by
  unfold RecordsFit
  rw [hfmt]

theorem levelOf_ascii (hfmt : conf.format = .ascii) (rs : List (Bytes × UInt64)) :
    levelOf conf time rs = (rs.flatMap (line time)).length := by
  unfold levelOf
  rw [hfmt]

theorem bytesOf_ascii (hfmt : conf.format = .ascii) (rs : List (Bytes × UInt64)) :
    bytesOf conf time rs = printed (rs.flatMap (line time)) := by
  unfold bytesOf
  rw [hfmt]

theorem levelOf_tsk (hfmt : conf.format ≠ .ascii) (rs : List (Bytes × UInt64)) :
    levelOf conf time rs = (bufferBytes time conf.channelName.bytes rs).length := by
  unfold levelOf
  cases hf : conf.format with
  | ascii => exact absurd hf hfmt
  | tsk => rfl
  | tskKeypart => rfl

theorem bytesOf_tsk (hfmt : conf.format ≠ .ascii) (rs : List (Bytes × UInt64)) :
    bytesOf conf time rs = bufferBytes time conf.channelName.bytes rs := by
  unfold bytesOf
  cases hf : conf.format with
  | ascii => exact absurd hf hfmt
  | tsk => rfl
  | tskKeypart => rfl

theorem keyOf_time (hfmt : conf.format ≠ .tskKeypart) (rs : List (Bytes × UInt64)) :
    keyOf conf time rs = time := by
  unfold keyOf
  cases hf : conf.format with
  | ascii => rfl
  | tsk => rfl
  | tskKeypart => exact absurd hf hfmt

theorem keyOf_concat (hfmt : conf.format = .tskKeypart) (rs : List (Bytes × UInt64))
    (r : Bytes × UInt64) :
    keyOf conf time (rs ++ [r]) = (hashWithoutLastTerm r.1).1 := by
  unfold keyOf
  rw [hfmt, List.getLast?_concat]
  rfl

end Plan

/-! ## The buffer during a call -/

/-- The buffer holds these records, and the message keys kept for them are
theirs. -/
structure Fill.Has (f : Fill) (conf : Conf) (time : UInt32) (cur : List (Bytes × UInt64)) :
    Prop where
  sameConf : f.st.conf = conf
  holds : f.Holds (bytesOf conf time cur)
  level : f.st.bufferWritten = levelOf conf time cur
  msgkey : cur ≠ [] → f.msgkey = keyOf conf time cur
  lasthash : conf.format = .tskKeypart → cur ≠ [] → f.lasthash = keyOf conf time cur

/-- Nothing but the buffer and the message keys changed. -/
structure Fill.Quiet (f f' : Fill) : Prop where
  conf : f'.st.conf = f.st.conf
  results : f'.st.produceResults = f.st.produceResults
  produced : f'.st.produced = f.st.produced

section Has

variable {f : Fill} {conf : Conf} {time : UInt32} {cur : List (Bytes × UInt64)}

theorem Fill.Has.pos (h : f.Has conf time cur) (hcur : cur ≠ []) : 0 < f.st.bufferWritten := by
  rw [h.level]
  exact Nat.pos_of_ne_zero fun hzero => hcur (levelOf_eq_zero.mp hzero)

/-- An empty buffer. -/
theorem Fill.has_nil {f : Fill} (hptr : f.ptr = 0) (hempty : f.st.bufferWritten = 0) :
    f.Has f.st.conf time [] where
  sameConf := rfl
  holds := ⟨hptr.trans hempty.symm, by rw [hempty, bytesOf_nil]; rfl⟩
  level := by rw [hempty, levelOf_eq_zero.mpr rfl]
  msgkey hnil := absurd rfl hnil
  lasthash _ hnil := absurd rfl hnil

/-- `SEND_MSG` of what the buffer holds: it is empty afterwards in any case. -/
theorem Fill.Has.sendMsg (h : f.Has conf time cur) (hcur : cur ≠ []) {key : UInt32}
    (hkey : key = keyOf conf time cur) :
    (f.sendMsg key).1 = (produceLoop (messageOf conf time cur).1 (messageOf conf time cur).2
        f.st.produceResults).1 ∧
      Sent f.st (produceLoop (messageOf conf time cur).1 (messageOf conf time cur).2
        f.st.produceResults) (f.sendMsg key).2.st ∧
      (f.sendMsg key).2.Has conf time [] ∧ (f.sendMsg key).2.lasthash = f.lasthash := by
  have hmsg : (messageOf conf time cur) = (load f.st.buffer f.st.bufferWritten,
      beBytes 4 key.toNat) := by
    rw [h.holds.load, hkey]
    rfl
  rw [hmsg]
  unfold Fill.sendMsg
  rw [if_pos (h.pos hcur)]
  refine ⟨rfl, ⟨rfl, rfl, rfl⟩, ?_, rfl⟩
  rw [← h.sameConf]
  exact has_nil rfl rfl

/-- `SEND_MSG` of an empty buffer. -/
theorem Fill.Has.sendMsg_nil (h : f.Has conf time []) (key : UInt32) :
    f.sendMsg key = (true, { f with ptr := 0 }) := by
  unfold Fill.sendMsg
  rw [h.level, levelOf_eq_zero.mpr rfl]
  rfl

/-- A header is written if and only if the buffer is empty. -/
theorem Fill.Has.beginMessage (h : f.Has conf time cur) (hfmt : conf.format ≠ .ascii) :
    ∃ f₁, f.beginMessage time = some f₁ ∧ f.Quiet f₁ ∧
      f₁.Holds (Tsk.message Tsk.batchMagic time conf.channelName.bytes cur) := by
  have hbytes := h.holds
  rw [bytesOf_tsk hfmt, bufferBytes] at hbytes
  unfold Fill.beginMessage
  split
  · next hzero =>
    have hcur : cur = [] := levelOf_eq_zero.mp (h.level.symm.trans hzero)
    have hconn := conf.channel_lt
    obtain ⟨w, hw, hwrote⟩ := writeHeader_wrote f.st.buffer f.ptr
      (bufferLen - f.st.bufferWritten) time conf.channelName.bytes
      (by rw [hzero]; decide) (by omega)
    rw [if_pos hcur] at hbytes
    refine ⟨f.advance w, ?_, ⟨rfl, rfl, rfl⟩, ?_⟩
    · rw [h.sameConf, CString.strlen, hw]
      rfl
    · rw [hcur, Tsk.message, Tsk.body_nil, List.append_nil]
      exact hbytes.advance hwrote
  · next hpos =>
    have hcur : cur ≠ [] := by
      rintro rfl
      exact hpos (h.level.trans (levelOf_eq_zero.mpr rfl))
    rw [if_neg hcur] at hbytes
    exact ⟨f, rfl, ⟨rfl, rfl, rfl⟩, hbytes⟩

/-- A record of the TSK formats joins the buffer. -/
theorem Fill.Has.tskKey (h : f.Has conf time cur) (hfmt : conf.format ≠ .ascii)
    (hhalf : f.st.bufferWritten ≤ bufferLen / 2) {key : Bytes} (value : UInt64)
    (hlen : key.length < 65535) {lasthash msgkey : UInt32}
    (hmsgkey : msgkey = keyOf conf time (cur ++ [(key, value)]))
    (hlast : conf.format = .tskKeypart → lasthash = msgkey) :
    ∃ f', f.tskKey time key value lasthash msgkey = f'.endKey ∧ f.Quiet f' ∧
      f'.Has conf time (cur ++ [(key, value)]) := by
  obtain ⟨f₁, hbegin, hquiet, hholds⟩ := h.beginMessage hfmt
  have hbl : bufferLen = 1048576 := rfl
  have hmagic : Tsk.batchMagic.length = 8 := rfl
  -- the room behind the header, or behind the records so far
  have hlevel : f₁.st.bufferWritten ≤ bufferLen / 2 + 1038 := by
    have hconn := conf.channel_lt
    have hlevel := h.level
    rw [hholds.length]
    rw [levelOf_tsk hfmt, bufferBytes] at hlevel
    by_cases hcur : cur = []
    · rw [hcur, Tsk.message, Tsk.body_nil, List.append_nil, Tsk.header_length]
      omega
    · rw [if_neg hcur] at hlevel
      omega
  obtain ⟨w, hw, hwrote⟩ := writeKv_wrote f₁.st.buffer f₁.ptr
    (bufferLen - f₁.st.bufferWritten) value hlen (by omega)
  have hkv : f₁.appendKv key value = some (f₁.advance w) := by
    rw [Fill.appendKv, hw]
    rfl
  have hbytes : (f₁.advance w).Holds (bufferBytes time conf.channelName.bytes
      (cur ++ [(key, value)])) := by
    rw [bufferBytes, if_neg (by simp), Tsk.message_concat]
    exact hholds.advance hwrote
  refine ⟨{ f₁.advance w with lasthash := lasthash, msgkey := msgkey }, ?_,
    ⟨hquiet.conf, hquiet.results, hquiet.produced⟩, hquiet.conf.trans h.sameConf, ?_, ?_,
    fun _ => hmsgkey, fun hkeypart _ => (hlast hkeypart).trans hmsgkey⟩
  · rw [Fill.tskKey, hbegin]
    simp only [hkv]
  · rw [bytesOf_tsk hfmt]
    exact ⟨hbytes.ptr, hbytes.load⟩
  · rw [levelOf_tsk hfmt]
    exact hbytes.length

/-- What `snprintf` leaves of a line behind others: all of it if there is room for
the terminator too. Otherwise the terminator takes the place of its last byte. -/
theorem load_store_printed {m : Mem} {bs line : Bytes} (hload : load m bs.length = bs)
    (hroom : bs.length < bufferLen) (hfits : bs.length + line.length ≤ bufferLen) :
    load (store m bs.length (line.take (bufferLen - bs.length - 1) ++ [0]))
      (bs.length + line.length) = printed (bs ++ line) := by
  unfold printed
  rw [List.length_append]
  split
  · next hbehind =>
    rw [List.take_of_length_le (by omega), load_store_prefix, hload]
  · next hfull =>
    have hlen : line.length = (line.take (bufferLen - bs.length - 1) ++ [0]).length := by
      rw [List.length_append, List.length_take, List.length_singleton]
      omega
    have hbs : bs.take (bufferLen - 1) = bs := List.take_of_length_le (by omega)
    have hleft : bufferLen - 1 - bs.length = bufferLen - bs.length - 1 := Nat.sub_right_comm ..
    rw [hlen, load_store_append, hload, List.take_append, hbs, hleft, List.append_assoc]

/-- A line joins the buffer. -/
theorem Fill.Has.appendAscii (h : f.Has conf time cur) (hfmt : conf.format = .ascii)
    (hhalf : f.st.bufferWritten ≤ bufferLen / 2) {r : Bytes × UInt64}
    (hfits : f.st.bufferWritten + (line time r).length ≤ bufferLen) :
    ∃ f', f.appendAscii r.1 r.2 time = some f' ∧ f.Quiet f' ∧
      { f' with msgkey := time }.Has conf time (cur ++ [r]) := by
  have hbl : bufferLen = 1048576 := rfl
  have hpos := line_pos time r
  have hbytes := h.holds
  have hlevel := h.level
  rw [bytesOf_ascii hfmt] at hbytes
  rw [levelOf_ascii hfmt] at hlevel
  have hprinted : printed (cur.flatMap (line time)) = cur.flatMap (line time) :=
    if_pos (by omega)
  rw [hprinted] at hbytes
  let f' : Fill := f.advance
    ⟨store f.st.buffer f.ptr ((line time r).take (bufferLen - f.st.bufferWritten - 1) ++ [0]),
      f.ptr, (line time r).length⟩
  have hwrite : f.appendAscii r.1 r.2 time = some f' := by
    unfold Fill.appendAscii writeAscii
    have hshort : (metricLine r.1 r.2 time).length < 2 ^ 31 := by
      have : (metricLine r.1 r.2 time).length = (line time r).length := rfl
      omega
    have hne : ¬ ((metricLine r.1 r.2 time).length : Int) ≤ 0 := by
      have : (metricLine r.1 r.2 time).length = (line time r).length := rfl
      omega
    rw [if_pos hshort]
    dsimp only
    rw [if_neg hne, if_neg (show ¬ bufferLen - f.st.bufferWritten = 0 by omega)]
    rfl
  have hconcat : (cur ++ [r]).flatMap (line time) = cur.flatMap (line time) ++ line time r := by
    rw [List.flatMap_append, List.flatMap_singleton]
  have hload : load f'.st.buffer (f.st.bufferWritten + (line time r).length)
      = printed ((cur ++ [r]).flatMap (line time)) := by
    have hbuffer := hbytes.load
    show load (store f.st.buffer f.ptr _) _ = _
    rw [hconcat, hbytes.ptr]
    rw [hlevel] at hbuffer hfits ⊢
    exact load_store_printed hbuffer (by omega) hfits
  refine ⟨f', hwrite, ⟨rfl, rfl, rfl⟩, h.sameConf, ⟨?_, ?_⟩, ?_, fun _ => ?_, fun hkeypart => ?_⟩
  · show f.ptr + (line time r).length = f.st.bufferWritten + (line time r).length
    rw [hbytes.ptr]
  · rw [bytesOf_ascii hfmt]
    exact hload
  · rw [levelOf_ascii hfmt, hconcat, List.length_append, ← hlevel]
    rfl
  · rw [keyOf_time (by rw [hfmt]; rintro ⟨⟩)]
  · rw [hfmt] at hkeypart
    cases hkeypart

/-- What a record leaves for those behind it. -/
theorem RecordsFit.tail {r : Bytes × UInt64} {rs : List (Bytes × UInt64)}
    (h : RecordsFit conf time (levelOf conf time cur) (r :: rs)) :
    RecordsFit conf time (nextFill (levelOf conf time (cur ++ [r]))) rs := by
  by_cases hfmt : conf.format = .ascii
  · have hlevel : levelOf conf time (cur ++ [r])
        = levelOf conf time cur + (line time r).length := by
      rw [levelOf_ascii hfmt, levelOf_ascii hfmt, List.flatMap_append, List.flatMap_singleton,
        List.length_append]
    rw [recordsFit_ascii hfmt] at h ⊢
    rw [hlevel]
    exact h.2
  · rw [recordsFit_tsk hfmt] at h ⊢
    exact fun r' hr' => h r' (List.mem_cons_of_mem _ hr')

/-! ## One key -/

/-- A record that belongs to the message joins the buffer. -/
theorem Fill.Has.kpFlushKey_grows (h : f.Has conf time cur)
    (hhalf : f.st.bufferWritten ≤ bufferLen / 2) {ki : Ki} (hnul : (0 : UInt8) ∉ ki.key)
    (hjoins : cur = [] ∨ splitsAt conf time cur (ki.name, ki.value) = false)
    {rs : List (Bytes × UInt64)}
    (hfit : RecordsFit conf time (levelOf conf time cur) ((ki.name, ki.value) :: rs)) :
    ∃ f', (f.kpFlushKey time ki).1 = f'.endKey.1 ∧ (f.kpFlushKey time ki).2.2 = f'.endKey.2 ∧
      f.Quiet f' ∧ f'.Has conf time (cur ++ [(ki.name, ki.value)]) := by
  have hname : ki.name = ki.key := cstr_of_nulFree hnul
  unfold Fill.kpFlushKey
  rw [h.sameConf]
  cases hf : conf.format with
  | ascii =>
    rw [recordsFit_ascii hf] at hfit
    have hfits : f.st.bufferWritten + (line time (ki.name, ki.value)).length ≤ bufferLen := by
      rw [h.level]
      exact hfit.1
    obtain ⟨f', happend, hquiet, hhas⟩ := h.appendAscii hf hhalf hfits
    simp only [happend]
    exact ⟨{ f' with msgkey := time }, rfl, rfl,
      ⟨hquiet.conf, hquiet.results, hquiet.produced⟩, hhas⟩
  | tsk =>
    have hfmt : conf.format ≠ .ascii := by rw [hf]; rintro ⟨⟩
    rw [recordsFit_tsk hfmt] at hfit
    have hlast : conf.format = .tskKeypart → f.lasthash = time := by
      rw [hf]
      rintro ⟨⟩
    obtain ⟨f', htsk, hquiet, hhas⟩ := h.tskKey hfmt hhalf ki.value
      (hfit _ List.mem_cons_self) (keyOf_time (by rw [hf]; rintro ⟨⟩) _).symm hlast
    simp only [htsk]
    exact ⟨f', rfl, rfl, hquiet, hhas⟩
  | tskKeypart =>
    have hfmt : conf.format ≠ .ascii := by rw [hf]; rintro ⟨⟩
    rw [recordsFit_tsk hfmt] at hfit
    simp only [hashWithoutLastTerm_restores]
    have hjoins' : ¬ ((hashWithoutLastTerm ki.key).1 ≠ f.lasthash ∧ 0 < f.st.bufferWritten) := by
      rintro ⟨hne, hpos⟩
      have hcur : cur ≠ [] := by
        rintro rfl
        rw [h.level, levelOf_eq_zero.mpr rfl] at hpos
        exact Nat.lt_irrefl 0 hpos
      have hsame := hjoins.resolve_left hcur
      rw [h.lasthash hf hcur, ← hname] at hne
      simp [splitsAt, hf, hne] at hsame
    have hkey : (hashWithoutLastTerm ki.key).1 = keyOf conf time (cur ++ [(ki.name, ki.value)]) := by
      rw [keyOf_concat hf, hname]
    obtain ⟨f', htsk, hquiet, hhas⟩ := h.tskKey hfmt hhalf ki.value
      (hfit _ List.mem_cons_self) hkey fun _ => rfl
    rw [if_neg hjoins']
    simp only [htsk]
    exact ⟨f', rfl, rfl, hquiet, hhas⟩

/-- A record that does not belong to the message sends it first. -/
theorem Fill.Has.kpFlushKey_splits (h : f.Has conf time cur) (hcur : cur ≠ []) {ki : Ki}
    (hnul : (0 : UInt8) ∉ ki.key)
    (hsplit : splitsAt conf time cur (ki.name, ki.value) = true) :
    ((f.sendMsg f.lasthash).1 = false → (f.kpFlushKey time ki).1 = .fail ∧
        (f.kpFlushKey time ki).2.2 = (f.sendMsg f.lasthash).2) ∧
      ((f.sendMsg f.lasthash).1 = true →
        f.kpFlushKey time ki = (f.sendMsg f.lasthash).2.kpFlushKey time ki) := by
  have hname : ki.name = ki.key := cstr_of_nulFree hnul
  have hf : conf.format = .tskKeypart := by
    rw [splitsAt, Bool.and_eq_true, decide_eq_true_eq] at hsplit
    exact hsplit.1
  have hne : (hashWithoutLastTerm ki.key).1 ≠ f.lasthash ∧ 0 < f.st.bufferWritten := by
    refine ⟨?_, h.pos hcur⟩
    rw [h.lasthash hf hcur, ← hname]
    simpa [splitsAt, hf] using hsplit
  obtain ⟨-, -, hhas, -⟩ := h.sendMsg hcur (h.lasthash hf hcur)
  have hidle : ¬ ((hashWithoutLastTerm ki.key).1 ≠ (f.sendMsg f.lasthash).2.lasthash ∧
      0 < (f.sendMsg f.lasthash).2.st.bufferWritten) := by
    rintro ⟨-, hpos⟩
    rw [hhas.level, levelOf_eq_zero.mpr rfl] at hpos
    exact Nat.lt_irrefl 0 hpos
  unfold Fill.kpFlushKey
  rw [h.sameConf, hhas.sameConf, hf]
  simp only [hashWithoutLastTerm_restores]
  rw [if_pos hne, if_neg hidle]
  generalize f.sendMsg f.lasthash = r
  obtain ⟨success, f'⟩ := r
  cases success with
  | false => exact ⟨fun _ => ⟨rfl, rfl⟩, by rintro ⟨⟩⟩
  | true => exact ⟨by rintro ⟨⟩, fun _ => rfl⟩

end Has

/-! ## Whole calls -/

/-- The tail of the loop body sends a buffer that is more than half full. -/
theorem Fill.endKey_full {f : Fill} (h : bufferLen / 2 < f.st.bufferWritten) :
    f.endKey = (if (f.sendMsg f.msgkey).1 then .ok else .fail, (f.sendMsg f.msgkey).2) := by
  unfold endKey sendIfFull
  rw [if_pos h]

theorem Fill.endKey_idle {f : Fill} (h : f.st.bufferWritten ≤ bufferLen / 2) :
    f.endKey = (.ok, f) := by
  unfold endKey sendIfFull
  rw [if_neg (Nat.not_lt_of_le h)]
  rfl

/-- What follows the loop of a flush. -/
def finishFlush : Ret × List Ki × Fill → Ret × State
  | (.ok, _, f) => (if (f.sendMsg f.msgkey).1 then .ok else .fail, (f.sendMsg f.msgkey).2.st)
  | (r, _, f) => (r, f.st)

theorem kpFlush_finish {st : State} (hempty : st.bufferWritten = 0) (kp : Kp) (time : UInt32) :
    ((kpFlush kp time st).1, (kpFlush kp time st).2.2)
      = finishFlush (Fill.kpFlushLoop time kp.keyInfos ⟨st, 0, 0, 0⟩) := by
  unfold kpFlush
  rw [if_pos hempty]
  generalize Fill.kpFlushLoop time kp.keyInfos ⟨st, 0, 0, 0⟩ = r
  obtain ⟨r, kis, f⟩ := r
  cases r <;> rfl

theorem finishFlush_disabled {ki : Ki} (hd : ki.disabled = true) (time : UInt32) (kis : List Ki)
    (f : Fill) :
    finishFlush (Fill.kpFlushLoop time (ki :: kis) f)
      = finishFlush (Fill.kpFlushLoop time kis f) := by
  rw [Fill.kpFlushLoop, if_pos hd]
  generalize Fill.kpFlushLoop time kis f = r
  obtain ⟨r, kis', f'⟩ := r
  cases r <;> rfl

theorem finishFlush_ok {ki : Ki} (hd : ki.disabled = false) {time : UInt32} (kis : List Ki)
    {f : Fill} (hok : (f.kpFlushKey time ki).1 = .ok) :
    finishFlush (Fill.kpFlushLoop time (ki :: kis) f)
      = finishFlush (Fill.kpFlushLoop time kis (f.kpFlushKey time ki).2.2) := by
  rw [Fill.kpFlushLoop, if_neg (by simp [hd])]
  generalize f.kpFlushKey time ki = r at hok ⊢
  obtain ⟨r, ki', f'⟩ := r
  obtain rfl : r = .ok := hok
  dsimp only
  generalize Fill.kpFlushLoop time kis f' = r
  obtain ⟨r, kis', f''⟩ := r
  cases r <;> rfl

theorem finishFlush_of_ne {ki : Ki} (hd : ki.disabled = false) {time : UInt32} (kis : List Ki)
    {f : Fill} (hne : (f.kpFlushKey time ki).1 ≠ .ok) :
    finishFlush (Fill.kpFlushLoop time (ki :: kis) f)
      = ((f.kpFlushKey time ki).1, (f.kpFlushKey time ki).2.2.st) := by
  rw [Fill.kpFlushLoop, if_neg (by simp [hd])]
  generalize f.kpFlushKey time ki = r at hne ⊢
  obtain ⟨r, ki', f'⟩ := r
  cases r with
  | ok => exact absurd rfl hne
  | fail => rfl
  | stop why => rfl

/-- The end of a flush sends what is in the buffer. -/
theorem Fill.Has.finishFlush_plan {conf : Conf} {time : UInt32} {f : Fill}
    {cur : List (Bytes × UInt64)} (h : f.Has conf time cur) :
    Produces f.st (planFrom conf time cur []) (if (f.sendMsg f.msgkey).1 then .ok else .fail)
      (f.sendMsg f.msgkey).2.st := by
  by_cases hcur : cur = []
  · subst hcur
    rw [h.sendMsg_nil]
    exact .nil rfl rfl rfl (h.level.trans (levelOf_eq_zero.mpr rfl))
  · obtain ⟨hret, hsent, hhas, -⟩ := h.sendMsg hcur (h.msgkey hcur)
    have hempty := hhas.level.trans (levelOf_eq_zero.mpr rfl)
    rw [planFrom, cut_nil_of_ne _ _ hcur, List.map_singleton, hret]
    cases hp : (produceLoop (messageOf conf time cur).1 (messageOf conf time cur).2
        f.st.produceResults).1 with
    | false => exact .failed [] hsent hp hempty
    | true => exact .cons hsent hp (.nil rfl rfl rfl hempty)

/-- The keys produce their plan, whatever is in the buffer before them. -/
def FlushesPlan (conf : Conf) (time : UInt32) (kis : List Ki) : Prop :=
  ∀ (f : Fill) (cur : List (Bytes × UInt64)), f.Has conf time cur →
    f.st.bufferWritten ≤ bufferLen / 2 →
    RecordsFit conf time (levelOf conf time cur) (pairsOf kis) →
    Produces f.st (planFrom conf time cur (pairsOf kis))
      (finishFlush (Fill.kpFlushLoop time kis f)).1 (finishFlush (Fill.kpFlushLoop time kis f)).2

/-- A key whose record joins what is in the buffer. -/
theorem FlushesPlan.grow {conf : Conf} {time : UInt32} {ki : Ki} {kis : List Ki}
    (hrest : FlushesPlan conf time kis) (hd : ki.disabled = false) (hnul : (0 : UInt8) ∉ ki.key)
    {f : Fill} {cur : List (Bytes × UInt64)} (h : f.Has conf time cur)
    (hhalf : f.st.bufferWritten ≤ bufferLen / 2)
    (hjoins : cur = [] ∨ splitsAt conf time cur (ki.name, ki.value) = false)
    (hfit : RecordsFit conf time (levelOf conf time cur) ((ki.name, ki.value) :: pairsOf kis)) :
    Produces f.st ((CutLib.grow (splitsAt conf time) (halfFull conf time) cur (ki.name, ki.value)
        (pairsOf kis)).map (messageOf conf time))
      (finishFlush (Fill.kpFlushLoop time (ki :: kis) f)).1
      (finishFlush (Fill.kpFlushLoop time (ki :: kis) f)).2 := by
  obtain ⟨f', hret, hf', hquiet, hhas⟩ := h.kpFlushKey_grows hhalf hnul hjoins hfit
  have hne : cur ++ [(ki.name, ki.value)] ≠ [] := by simp
  have htail := hfit.tail
  have hhalfFull : halfFull conf time (cur ++ [(ki.name, ki.value)])
      = decide (bufferLen / 2 < f'.st.bufferWritten) := by
    rw [hhas.level]
    rfl
  have hnil : levelOf conf time [] = 0 := levelOf_eq_zero.mpr rfl
  unfold CutLib.grow
  by_cases hfull : bufferLen / 2 < f'.st.bufferWritten
  · rw [Fill.endKey_full hfull] at hret hf'
    rw [← hhas.level, nextFill, if_pos hfull, ← hnil] at htail
    rw [hhalfFull, if_pos (decide_eq_true hfull), List.map_cons]
    dsimp only at hret hf'
    obtain ⟨hsuccess, hsent, hempty, -⟩ := hhas.sendMsg hne (hhas.msgkey hne)
    have hzero := hempty.level.trans (levelOf_eq_zero.mpr rfl)
    refine Produces.congr ?_ hquiet.conf hquiet.results hquiet.produced
    rw [hsuccess] at hret
    cases hp : (produceLoop (messageOf conf time (cur ++ [(ki.name, ki.value)])).1
        (messageOf conf time (cur ++ [(ki.name, ki.value)])).2 f'.st.produceResults).1 with
    | false =>
      rw [hp] at hret
      rw [finishFlush_of_ne hd kis (by simp [hret]), hret, hf']
      exact .failed _ hsent hp hzero
    | true =>
      rw [hp] at hret
      rw [finishFlush_ok hd kis hret, hf']
      exact .cons hsent hp (hrest _ _ hempty (hzero.le.trans (Nat.zero_le _)) htail)
  · rw [Fill.endKey_idle (Nat.le_of_not_lt hfull)] at hret hf'
    rw [← hhas.level, nextFill, if_neg hfull, hhas.level] at htail
    rw [hhalfFull, if_neg (by simpa using hfull), finishFlush_ok hd kis hret, hf']
    exact (hrest _ _ hhas (Nat.le_of_not_lt hfull) htail).congr hquiet.conf hquiet.results
      hquiet.produced

/-- A key whose record sends the message before it. -/
theorem FlushesPlan.split {conf : Conf} {time : UInt32} {ki : Ki} {kis : List Ki}
    (hrest : FlushesPlan conf time kis) (hd : ki.disabled = false) (hnul : (0 : UInt8) ∉ ki.key)
    {f : Fill} {cur : List (Bytes × UInt64)} (h : f.Has conf time cur) (hcur : cur ≠ [])
    (hsplit : splitsAt conf time cur (ki.name, ki.value) = true)
    (hfit : RecordsFit conf time (levelOf conf time cur) ((ki.name, ki.value) :: pairsOf kis)) :
    Produces f.st (messageOf conf time cur ::
        (CutLib.grow (splitsAt conf time) (halfFull conf time) [] (ki.name, ki.value)
          (pairsOf kis)).map (messageOf conf time))
      (finishFlush (Fill.kpFlushLoop time (ki :: kis) f)).1
      (finishFlush (Fill.kpFlushLoop time (ki :: kis) f)).2 := by
  have hf : conf.format = .tskKeypart := by
    rw [splitsAt, Bool.and_eq_true, decide_eq_true_eq] at hsplit
    exact hsplit.1
  have hfmt : conf.format ≠ .ascii := by
    rw [hf]
    rintro ⟨⟩
  obtain ⟨hfalse, htrue⟩ := h.kpFlushKey_splits hcur hnul hsplit
  obtain ⟨hsuccess, hsent, hhas, -⟩ := h.sendMsg hcur (h.lasthash hf hcur)
  have hzero := hhas.level.trans (levelOf_eq_zero.mpr rfl)
  cases hp : (f.sendMsg f.lasthash).1 with
  | false =>
    obtain ⟨hret, hf'⟩ := hfalse hp
    rw [finishFlush_of_ne hd kis (by simp [hret]), hret, hf']
    exact .failed _ hsent (hsuccess.symm.trans hp) hzero
  | true =>
    have hloop : finishFlush (Fill.kpFlushLoop time (ki :: kis) f)
        = finishFlush (Fill.kpFlushLoop time (ki :: kis) (f.sendMsg f.lasthash).2) := by
      rw [Fill.kpFlushLoop, Fill.kpFlushLoop, if_neg (by simp [hd]), if_neg (by simp [hd]),
        htrue hp]
    rw [hloop]
    refine .cons hsent (hsuccess.symm.trans hp) (hrest.grow hd hnul hhas ?_ (.inl rfl) ?_)
    · exact hzero.le.trans (Nat.zero_le _)
    · rw [recordsFit_tsk hfmt] at hfit ⊢
      exact hfit

/-- The loop of a flush and what follows it, with the records `cur` in the
buffer. -/
theorem kpFlushLoop_plan {conf : Conf} {time : UInt32} {kis : List Ki}
    (hkis : ∀ ki ∈ kis, (0 : UInt8) ∉ ki.key) : FlushesPlan conf time kis := by
  induction kis with
  | nil => exact fun f cur h _ _ => h.finishFlush_plan
  | cons ki kis ih =>
    intro f cur h hhalf hfit
    obtain ⟨hnul, hkis'⟩ := List.forall_mem_cons.mp hkis
    have hrest := ih hkis'
    cases hd : ki.disabled with
    | true =>
      rw [pairsOf_cons_disabled hd] at hfit ⊢
      rw [finishFlush_disabled hd]
      exact hrest f cur h hhalf hfit
    | false =>
      rw [pairsOf_cons_enabled hd] at hfit ⊢
      rw [planFrom, cut_cons]
      split
      · next hsplit =>
        rw [Bool.and_eq_true, Bool.not_eq_true', List.isEmpty_eq_false_iff] at hsplit
        exact hrest.split hd hnul h hsplit.1 hsplit.2 hfit
      · next hsplit =>
        refine hrest.grow hd hnul h hhalf ?_ hfit
        by_cases hcur : cur = []
        · exact .inl hcur
        · exact .inr (by simpa [hcur] using hsplit)

/-- **What a flush does**: it produces its plan. -/
theorem kpFlush_plan {st : State} (hempty : st.bufferWritten = 0) {kp : Kp}
    (hkeys : ∀ ki ∈ kp.keyInfos, (0 : UInt8) ∉ ki.key) {time : UInt32}
    (hfit : RecordsFit st.conf time 0 kp.enabledPairs) :
    Produces st (plan st.conf time kp.enabledPairs) (kpFlush kp time st).1
      (kpFlush kp time st).2.2 := by
  have hhas : (⟨st, 0, 0, 0⟩ : Fill).Has st.conf time [] := Fill.has_nil rfl hempty
  have hnil : levelOf st.conf time [] = 0 := levelOf_eq_zero.mpr rfl
  rw [← hnil] at hfit
  have hloop := kpFlushLoop_plan hkeys _ _ hhas (hempty.le.trans (Nat.zero_le _)) hfit
  rwa [← kpFlush_finish hempty] at hloop

/-- A connected backend of a format. -/
def smallConf (format : Format) : Conf :=
  ⟨CString.ofAscii "live", CString.ofAscii "tsk", format, by decide⟩

end Kafka

end Libtimeseries
