import Libtimeseries.Ascii
import Libtimeseries.TskFormat

/-!
# The Kafka backend (`timeseries_backend_kafka.c`)

Metrics are collected in one reusable buffer and produced as messages. The
serialisation macros become writers on the buffer: `serializeVal` checks its
assertion, `memcpy` does not check anything.

librdkafka is not part of the repository. `produceResults` lists the results of
the calls of `rd_kafka_produce` to come (once it is used up they all succeed);
`produced` records the attempts that were made.

`buffer_written` is an `int`, here a `Nat`. It is at most `BUFFER_LEN` except behind an
ASCII line that does not fit, whose whole length is added to it: where the line and what
is pending come to 2^31 bytes or more, the addition overflows, which is undefined. The
model goes on counting there.
-/

namespace Libtimeseries

open ByteLib

namespace Kafka

/-- `BUFFER_LEN` -/
def bufferLen : Nat := 1024 * 512 * 2

/-- `IDENTITY_MAX_LEN` -/
def identityMaxLen : Nat := 1024

/-- `format_t` -/
inductive Format where
  | ascii
  | tsk
  | tskKeypart
deriving DecidableEq, Repr

/-- What `rd_kafka_produce` does: enqueue, `QUEUE_FULL`, or another error. -/
inductive ProduceResult where
  | ok
  | queueFull
  | fatal
deriving DecidableEq, Repr

/-- One call of `rd_kafka_produce`. -/
structure Attempt where
  payload : Bytes
  key : Bytes
  result : ProduceResult

/-- The check of `topic_connect`: does `<topic_prefix>.<channel_name>` fit? -/
def topicConnect (topicPrefix channelName : CString) : Bool :=
  topicPrefix.strlen + 1 + channelName.strlen < identityMaxLen

/-- The configuration of a backend that has connected to its topic. -/
structure Conf where
  /-- Name of the channel (DBATS server) to publish metrics to -/
  channelName : CString
  /-- Name of the kafka topic to produce to -/
  topicPrefix : CString
  /-- Output format -/
  format : Format
  connected : topicConnect topicPrefix channelName = true

/-- `struct timeseries_backend_kafka_state` -/
structure State where
  conf : Conf
  /-- Reusable message buffer -/
  buffer : Mem
  /-- Number of bytes written to the buffer -/
  bufferWritten : Nat
  produceResults : List ProduceResult
  produced : List Attempt

/-- The state of a connected backend. -/
def State.init (conf : Conf) (results : List ProduceResult) : State :=
  ⟨conf, fun _ => 0, 0, results, []⟩

/-- The messages that reached Kafka, as (payload, key). -/
def State.messages (st : State) : List (Bytes × Bytes) :=
  (st.produced.filter fun a => a.result = .ok).map fun a => (a.payload, a.key)

/-! ## Writers -/

/-- A serialiser at work: the memory, its position and the bytes written. -/
structure Writer where
  mem : Mem
  ptr : Nat
  written : Nat

/-- `memcpy(buf, from, n)`, then advance. -/
def Writer.memcpy (w : Writer) (bs : Bytes) : Writer :=
  ⟨store w.mem w.ptr bs, w.ptr + bs.length, w.written + bs.length⟩

/-- `SERIALIZE_VAL`: `none` if its assertion fails. -/
def Writer.serializeVal (w : Writer) (len : Nat) (bs : Bytes) : Option Writer :=
  if bs.length ≤ len - w.written then some (w.memcpy bs) else none

/-- `write_header`: `none` if an assertion fails. -/
def writeHeader (mem : Mem) (buf len : Nat) (time : UInt32) (channel : Bytes)
    (channelLen : UInt16) : Option Writer :=
  if Tsk.batchMagic.length < len then do
    let w := (⟨mem, buf, 0⟩ : Writer).memcpy Tsk.batchMagic
    let w ← w.serializeVal len [0]
    let w ← w.serializeVal len (beBytes 4 time.toNat)
    let w ← w.serializeVal len (beBytes 2 channelLen.toNat)
    some (w.memcpy (channel.take channelLen.toNat))
  else
    none

/-- `write_kv`: `none` if an assertion fails. -/
def writeKv (mem : Mem) (buf len : Nat) (key : Bytes) (value : UInt64) : Option Writer :=
  if key.length < 65535 ∧ key.length + 2 + 8 ≤ len then do
    let w : Writer := ⟨mem, buf, 0⟩
    let w ← w.serializeVal len (beBytes 2 key.length)
    let w := w.memcpy key
    w.serializeVal len (beBytes 8 value.toNat)
  else
    none

/-- `write_ascii`: what `snprintf` returns (the untruncated length, or an error
if that is no `int`) and what it leaves in memory. -/
def writeAscii (mem : Mem) (buf len : Nat) (key : Bytes) (value : UInt64) (time : UInt32) :
    Int × Mem :=
  let line := metricLine key value time
  if line.length < 2 ^ 31 then
    (line.length, if len = 0 then mem else store mem buf (line.take (len - 1) ++ [0]))
  else
    (-1, mem)

/-! ## The partition key -/

/-- A `char` is signed: its value, as added to a `uint32_t`. -/
def signedChar (c : UInt8) : UInt32 := if c < 128 then c.toUInt32 else c.toUInt32 - 256

/-- `keyhash` -/
def keyhash (key : Bytes) : UInt32 :=
  (cstr key).foldl (fun hash c => ((hash <<< 5) + hash) + signedChar c) 5381

/-- The last index of a byte. -/
def lastIndex (c : UInt8) : Bytes → Option Nat
  | [] => none
  | b :: bs =>
    match lastIndex c bs with
    | some i => some (i + 1)
    | none => if b = c then some 0 else none

/-- `strrchr`, as an index into the buffer. -/
def strrchr (buf : Bytes) (c : UInt8) : Option Nat := lastIndex c (cstr buf)

/-- The hash of a key without its last term, and the key buffer afterwards: it is
cut at the last `.` and put back together. -/
def hashWithoutLastTerm (key : Bytes) : UInt32 × Bytes :=
  match strrchr key 46 with
  | some sptr =>
    let cut := key.set sptr 0
    (keyhash cut, cut.set sptr 46)
  | none => (keyhash key, key)

/-- `time_partitioner` -/
def timePartitioner (key : Bytes) (partitionCnt : Nat) : Nat :=
  (beNat key / 60) % partitionCnt

/-! ## Sending -/

/-- The loop of `SEND_MSG`: retries while the queue is full. -/
def produceLoop (payload key : Bytes) : List ProduceResult →
    Bool × List ProduceResult × List Attempt
  | [] => (true, [], [⟨payload, key, .ok⟩])
  | .ok :: rs => (true, rs, [⟨payload, key, .ok⟩])
  | .fatal :: rs => (false, rs, [⟨payload, key, .fatal⟩])
  | .queueFull :: rs =>
    let r := produceLoop payload key rs
    (r.1, r.2.1, ⟨payload, key, .queueFull⟩ :: r.2.2)

/-- The local variables of a function that fills the buffer. -/
structure Fill where
  st : State
  /-- the write position -/
  ptr : Nat
  lasthash : UInt32
  msgkey : UInt32

namespace Fill

/-- `SEND_MSG`: `false` means `goto err`. Either way the buffer is reset. -/
def sendMsg (f : Fill) (key : UInt32) : Bool × Fill :=
  if 0 < f.st.bufferWritten then
    let r := produceLoop (load f.st.buffer f.st.bufferWritten) (beBytes 4 key.toNat)
      f.st.produceResults
    (r.1,
      { f with
        st := { f.st with
          bufferWritten := 0, produceResults := r.2.1, produced := f.st.produced ++ r.2.2 }
        ptr := 0 })
  else
    (true, { f with ptr := 0 })

/-- `SEND_IF_FULL` -/
def sendIfFull (f : Fill) : Bool × Fill :=
  if bufferLen / 2 < f.st.bufferWritten then f.sendMsg f.msgkey else (true, f)

/-- `buffer_written += s; ptr += s` after a writer. -/
def advance (f : Fill) (w : Writer) : Fill :=
  { f with
    st := { f.st with buffer := w.mem, bufferWritten := f.st.bufferWritten + w.written }
    ptr := f.ptr + w.written }

/-- A new message gets a header. -/
def beginMessage (f : Fill) (time : UInt32) : Option Fill :=
  if f.st.bufferWritten = 0 then
    (writeHeader f.st.buffer f.ptr (bufferLen - f.st.bufferWritten) time
      f.st.conf.channelName.bytes (UInt16.ofNat f.st.conf.channelName.strlen)).map f.advance
  else
    some f

/-- Write a record behind what is in the buffer. -/
def appendKv (f : Fill) (key : Bytes) (value : UInt64) : Option Fill :=
  (writeKv f.st.buffer f.ptr (bufferLen - f.st.bufferWritten) key value).map f.advance

/-- Write a line behind what is in the buffer: `none` means `goto err`. -/
def appendAscii (f : Fill) (key : Bytes) (value : UInt64) (time : UInt32) : Option Fill :=
  let r := writeAscii f.st.buffer f.ptr (bufferLen - f.st.bufferWritten) key value time
  if r.1 ≤ 0 then none else some (f.advance ⟨r.2, f.ptr, r.1.toNat⟩)

/-- The tail of the loop body: send the buffer if it is half full. -/
def endKey (f : Fill) : Ret × Fill :=
  let r := f.sendIfFull
  (if r.1 then .ok else .fail, r.2)

/-- The record part of the TSK formats, with the message key set last. -/
def tskKey (f : Fill) (time : UInt32) (key : Bytes) (value : UInt64) (lasthash msgkey : UInt32) :
    Ret × Fill :=
  match f.beginMessage time with
  | none => (.stop .assertFailed, f)
  | some f =>
    match f.appendKv key value with
    | none => (.stop .assertFailed, f)
    | some f => endKey { f with lasthash := lasthash, msgkey := msgkey }

/-- The body of the loop of `timeseries_backend_kafka_kp_flush` for an enabled
key info: also the key info afterwards. -/
def kpFlushKey (f : Fill) (time : UInt32) (ki : Ki) : Ret × Ki × Fill :=
  match f.st.conf.format with
  | .ascii =>
    match f.appendAscii ki.name ki.value time with
    | none => (.fail, ki, f)
    | some f =>
      let r := endKey { f with msgkey := time }
      (r.1, ki, r.2)
  | .tsk =>
    let r := f.tskKey time ki.name ki.value f.lasthash time
    (r.1, ki, r.2)
  | .tskKeypart =>
    let thishash := (hashWithoutLastTerm ki.key).1
    let ki := { ki with key := (hashWithoutLastTerm ki.key).2 }
    match if thishash ≠ f.lasthash ∧ 0 < f.st.bufferWritten then f.sendMsg f.lasthash
      else (true, f) with
    | (false, f) => (.fail, ki, f)
    | (true, f) =>
      let r := f.tskKey time ki.name ki.value thishash thishash
      (r.1, ki, r.2)

/-- The loop of `timeseries_backend_kafka_kp_flush`. -/
def kpFlushLoop (time : UInt32) : List Ki → Fill → Ret × List Ki × Fill
  | [], f => (.ok, [], f)
  | ki :: kis, f =>
    if ki.disabled then
      let r := kpFlushLoop time kis f
      (r.1, ki :: r.2.1, r.2.2)
    else
      match f.kpFlushKey time ki with
      | (.ok, ki, f) =>
        let r := kpFlushLoop time kis f
        (r.1, ki :: r.2.1, r.2.2)
      | (r, ki, f) => (r, ki :: kis, f)

end Fill

/-- `timeseries_backend_kafka_kp_flush` -/
def kpFlush (kp : Kp) (time : UInt32) (st : State) : Ret × Kp × State :=
  if st.bufferWritten = 0 then
    match Fill.kpFlushLoop time kp.keyInfos ⟨st, 0, 0, 0⟩ with
    | (.ok, kis, f) =>
      let r := f.sendMsg f.msgkey
      (if r.1 then .ok else .fail, { kp with keyInfos := kis }, r.2.st)
    | (r, kis, f) => (r, { kp with keyInfos := kis }, f.st)
  else
    (.stop .assertFailed, kp, st)

/-- The TSK part of `timeseries_backend_kafka_set_single`. -/
def setSingleTsk (f : Fill) (key : CString) (value : UInt64) (time msgkey : UInt32) :
    Ret × State :=
  match f.beginMessage time with
  | none => (.stop .assertFailed, f.st)
  | some f =>
    match f.appendKv key.bytes value with
    | none => (.stop .assertFailed, f.st)
    | some f =>
      let r := f.sendMsg msgkey
      (if r.1 then .ok else .fail, r.2.st)

/-- `timeseries_backend_kafka_set_single`. The caller's key is cut and restored as
well; what is restored is `(hashWithoutLastTerm key.bytes).2`. -/
def setSingle (st : State) (key : CString) (value : UInt64) (time : UInt32) : Ret × State :=
  if st.bufferWritten = 0 then
    let f : Fill := ⟨st, 0, 0, time⟩
    match st.conf.format with
    | .ascii =>
      match f.appendAscii key.bytes value time with
      | none => (.fail, st)
      | some f =>
        let r := f.sendMsg time
        (if r.1 then .ok else .fail, r.2.st)
    | .tskKeypart => setSingleTsk f key value time (hashWithoutLastTerm key.bytes).1
    | .tsk => setSingleTsk f key value time time
  else
    (.stop .assertFailed, st)

/-! ## The key strings are put back -/

theorem lastIndex_spec {c : UInt8} {bs : Bytes} {i : Nat} (h : lastIndex c bs = some i) :
    bs[i]? = some c := by
  induction bs generalizing i with
  | nil => cases h
  | cons b bs ih =>
    rw [lastIndex] at h
    cases hbs : lastIndex c bs with
    | some j =>
      rw [hbs] at h
      obtain rfl : j + 1 = i := by simpa using h
      simpa using ih hbs
    | none =>
      rw [hbs] at h
      by_cases hb : b = c
      · rw [if_pos hb] at h
        obtain rfl : 0 = i := by simpa using h
        simp [hb]
      · simp [hb] at h

/-- The cut is undone whatever the buffer holds. -/
theorem hashWithoutLastTerm_restores (key : Bytes) : (hashWithoutLastTerm key).2 = key := by
  unfold hashWithoutLastTerm
  cases hdot : strrchr key 46 with
  | none => rfl
  | some i =>
    have hcstr : (cstr key)[i]? = some 46 := lastIndex_spec hdot
    have hkey : key[i]? = some 46 := by
      obtain ⟨rest, hrest⟩ : cstr key <+: key := List.takeWhile_prefix _
      obtain ⟨hi, -⟩ := List.getElem?_eq_some_iff.mp hcstr
      rw [← hrest, List.getElem?_append_left hi, hcstr]
    show (key.set i 0).set i 46 = key
    rw [List.set_set]
    obtain ⟨hi, hget⟩ := List.getElem?_eq_some_iff.mp hkey
    rw [← hget, List.set_getElem_self]

theorem kpFlushKey_ki (f : Fill) (time : UInt32) (ki : Ki) :
    (f.kpFlushKey time ki).2.1 = ki := by
  unfold Fill.kpFlushKey
  split
  · split <;> rfl
  · rfl
  · simp only [hashWithoutLastTerm_restores]
    split <;> rfl

theorem kpFlushLoop_kis (time : UInt32) (kis : List Ki) (f : Fill) :
    (Fill.kpFlushLoop time kis f).2.1 = kis := by
  induction kis generalizing f with
  | nil => rfl
  | cons ki kis ih =>
    rw [Fill.kpFlushLoop]
    split
    · exact congrArg (ki :: ·) (ih f)
    · have hki := kpFlushKey_ki f time ki
      generalize f.kpFlushKey time ki = r at hki ⊢
      obtain ⟨r, ki', f'⟩ := r
      obtain rfl : ki' = ki := hki
      cases r with
      | ok => exact congrArg (ki' :: ·) (ih f')
      | fail => rfl
      | stop why => rfl

/-- **A flush gives the package back as it was.** -/
theorem kpFlush_kp (kp : Kp) (time : UInt32) (st : State) : (kpFlush kp time st).2.1 = kp := by
  have hkis := kpFlushLoop_kis time kp.keyInfos ⟨st, 0, 0, 0⟩
  unfold kpFlush
  split
  · generalize Fill.kpFlushLoop time kp.keyInfos ⟨st, 0, 0, 0⟩ = r at hkis ⊢
    obtain ⟨r, kis, f⟩ := r
    obtain rfl : kis = kp.keyInfos := hkis
    cases r <;> rfl
  · rfl

/-- The callbacks of the Kafka backend. -/
def backend : Backend State where
  kpKiUpdate := fun kp st => (.ok, kp, st)
  kpFlush := kpFlush
  kpKiUpdate_erase := fun _ _ => rfl
  kpFlush_erase := fun kp time st => by rw [kpFlush_kp]

end Kafka

end Libtimeseries
