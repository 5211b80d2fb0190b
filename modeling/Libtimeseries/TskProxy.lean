import Libtimeseries.Backend
import Libtimeseries.TskFormat

/-!
# The TSK proxy (`tsk-proxy.c`)

The proxy consumes TSK messages from Kafka, collects their records in a key
package, and flushes the package to its backend whenever the time of the
messages changes or a flush is forced.

Modelling choices:

- the static variables of the program are one `State`; its configuration and
  backend are a `Proxy`;
- `int` is `Int32` where a value passes through one; counts of keys are
  unbounded;
- a message is read at a cursor, the pair of `buf` (here an offset) and
  `remain`, which the program moves separately;
- the `asprintf` of a statistics key is taken to succeed. What is logged is left out, except
  for the message about a channel that is not the proxy's own: it does not fit its format,
  so the process does not survive it unless the log level is negative;
- the record loop takes fuel, and running out of it is `Stop.noReturn`;
- `trace` is not a variable of the program: it records the calls of
  `maybe_flush`, the pairs written to the key package and the uses of `LOG_ERROR`.
-/

namespace Libtimeseries

open ByteLib

namespace TskProxy

/-- `FORCE_FLUSH` -/
def forceFlush : Int32 := 0

/-- `TSKBATCH_VERSION` -/
def batchVersion : UInt8 := 0

/-- `HEADER_MAGIC_LEN` -/
def headerMagicLen : Nat := 8

/-- `HEADER_LEN` -/
def headerLen : Nat := headerMagicLen + 1 + 4 + 2

/-- `KEY_BUF_LEN` -/
def keyBufLen : Nat := 1024

/-- `LOG_LEVEL_ERROR` -/
def logLevelError : Int32 := 0

/-- `tsk_config_t`, as far as messages are concerned, and `log_level`, which only the
configuration sets. -/
structure Config where
  filters : List CString
  kafkaChannel : CString
  logLevel : Int32

/-- The `LOG_ERROR` about an unknown channel. The length `kafka_chanlen`, which is not 0
there, is given for a `%s`, and printed as the string it does not point to. -/
def Config.logUnknownChannel (cfg : Config) : Ret :=
  if logLevelError ≤ cfg.logLevel then .stop .badPointer else .ok

/-- What the proxy does, in order. -/
inductive Event where
  /-- `maybe_flush` is called -/
  | maybeFlush (flushTime : Int32)
  /-- a pair is written to the key package -/
  | apply (key : CString) (value : UInt64)
  /-- an error is logged: a message or a part of it is rejected -/
  | error

/-- The program: its configuration and its one backend. -/
structure Proxy (W : Type) where
  cfg : Config
  statsKeyPrefix : CString
  backendId : BackendId
  backend : Backend W

/-- The static variables. -/
structure State (W : Type) where
  kp : Kp
  /-- the world of the backend, and the callbacks so far -/
  env : Env W
  statsKp : Kp
  /-- `current_time` of `maybe_flush` -/
  currentTime : Int32
  trace : List Event

variable {W : Type}

/-- The state `init_timeseries` and `init_stats_timeseries` set up: `kp` has the
flag `TIMESERIES_KP_DISABLE`, `stats_kp` has `TIMESERIES_KP_RESET`. -/
def State.init (w : W) : State W := ⟨Kp.init 2, ⟨w, []⟩, Kp.init 1, 0, []⟩

/-- Add to the trace. -/
def State.log (s : State W) (e : Event) : State W := { s with trace := s.trace ++ [e] }

/-- The timeseries object `init_timeseries` sets up. -/
def Proxy.timeseries (p : Proxy W) : Timeseries W := .single p.backendId p.backend

/-- Go on with the next statement unless the process stopped or the function
returned. -/
def andThen {σ : Type} (r : Ret × σ) (next : σ → Ret × σ) : Ret × σ :=
  match r with
  | (.ok, s) => next s
  | (r, s) => (r, s)

/-! ## Statistics -/

/-- A `uint64_t` converted to `int`. -/
def intOfValue (v : UInt64) : Int32 := v.toUInt32.toInt32

/-- An `int` converted to `uint64_t`. -/
def valueOfInt (n : Int32) : UInt64 := n.toInt64.toUInt64

/-- `"%s.%s"` -/
def statsKey (statsKeyPrefix suffix : CString) : CString :=
  CString.ofBytes (statsKeyPrefix.bytes ++ [46] ++ suffix.bytes)

/-- `inc_stat`, on the statistics package. -/
def incStatKp (statsKp : Kp) (key : CString) (value : Int) : Ret × Kp :=
  if 0 < value then
    let r := if statsKp.getKey key = -1 then statsKp.addKey .success key
      else (statsKp.getKey key, statsKp)
    let oldValue := intOfValue (r.2.get r.1.toNat)
    r.2.set r.1.toNat (valueOfInt (Int32.ofInt (value + oldValue.toInt)))
  else
    (.stop .assertFailed, statsKp)

/-- `inc_stat` -/
def Proxy.incStat (p : Proxy W) (suffix : String) (value : Int) (s : State W) : Ret × State W :=
  let r := incStatKp s.statsKp (statsKey p.statsKeyPrefix (CString.ofAscii suffix)) value
  (r.1, { s with statsKp := r.2 })

/-! ## Reading a message -/

/-- `buf`, as an offset into the payload, and `remain`. -/
structure Cursor where
  buf : Nat
  remain : Int

/-- `buf += n; remain -= n` -/
def Cursor.skip (c : Cursor) (n : Nat) : Cursor := ⟨c.buf + n, c.remain - n⟩

/-- The next `n` bytes at the cursor. -/
def Cursor.read (payload : Bytes) (c : Cursor) (n : Nat) : Bytes := (payload.drop c.buf).take n

/-- `DESERIALIZE_VAL` of a variable of `size` bytes: `none` where it returns from
the function around it. `remain` is compared as a `size_t`, where a negative
number would be a huge one. -/
def deserializeVal (payload : Bytes) (c : Cursor) (size : Nat) : Option (Bytes × Cursor) :=
  if 0 ≤ c.remain ∧ c.remain < size then none else some (c.read payload size, c.skip size)

/-- What `parse_key_value` finds at the cursor. -/
inductive Parsed where
  /-- a number is cut short: logged, but 0 is returned -/
  | noNumber
  /-- the key is cut short: 1 is returned -/
  | noKey
  /-- the key does not fit the local array, and is copied nevertheless -/
  | longKey
  | record (key : CString) (keylen : Nat) (value : UInt64)

/-- The first half of `parse_key_value`. -/
def readRecord (payload : Bytes) (c : Cursor) : Parsed × Cursor :=
  match deserializeVal payload c 2 with
  | none => (.noNumber, c)
  | some (bs, c) =>
    let keylen := beNat bs
    if c.remain < keylen then
      (.noKey, c)
    else if keyBufLen ≤ keylen then
      -- `key[keylen] = '\0'` is behind the end of `key[KEY_BUF_LEN]`
      (.longKey, c)
    else
      let key := CString.ofBytes (c.read payload keylen)
      let c := c.skip keylen
      match deserializeVal payload c 8 with
      | none => (.noNumber, c)
      | some (bs, c) => (.record key keylen (UInt64.ofNat (beNat bs)), c)

/-- The filter loop of `parse_key_value`. -/
def Config.matches (cfg : Config) (key : CString) (keylen : Nat) : Bool :=
  cfg.filters = [] ||
    cfg.filters.any fun filter =>
      decide (filter.strlen ≤ keylen) && strncmpEq filter key filter.strlen

/-- Write a pair to the key package. -/
def writeKeyValue (kp : Kp) (key : CString) (value : UInt64) : Ret × Kp :=
  let r := if kp.getKey key = -1 then kp.addKey .success key
    else (kp.getKey key, kp.enableKey (kp.getKey key).toNat)
  r.2.set r.1.toNat value

/-- `parse_key_value` -/
def parseKeyValue (cfg : Config) (payload : Bytes) (c : Cursor) (s : State W) :
    Ret × Cursor × State W :=
  match readRecord payload c with
  | (.noNumber, c) => (.ok, c, s.log .error)
  | (.noKey, c) => (.fail, c, s.log .error)
  | (.longKey, c) => (.stop .overflow, c, s)
  | (.record key keylen value, c) =>
    if cfg.matches key keylen then
      let r := writeKeyValue s.kp key value
      (r.1, c, { s with kp := r.2 }.log (.apply key value))
    else
      (.ok, c, s)

/-- The record loop of `handle_message`: `ok` also when a record was cut short. -/
def recordLoop (cfg : Config) (payload : Bytes) : Nat → Cursor → State W → Ret × State W
  | 0, _, s => (.stop .noReturn, s)
  | fuel + 1, c, s =>
    if 0 < c.remain then
      match parseKeyValue cfg payload c s with
      | (.ok, c, s) => recordLoop cfg payload fuel c s
      -- this is an error, but not a fatal one
      | (.fail, _, s) => (.ok, s)
      | (.stop why, _, s) => (.stop why, s)
    else
      (.ok, s)

/-! ## Flushing -/

/-- `timeseries_kp_flush(kp, current_time)` -/
def Proxy.kpFlush (p : Proxy W) (s : State W) : Ret × State W :=
  let r := s.kp.flush p.timeseries s.currentTime.toUInt32 s.env
  (r.1, { s with kp := r.2.1, env := r.2.2 })

/-- The part of `maybe_flush` that ends a group. -/
def Proxy.flushGroup (p : Proxy W) (s : State W) : Ret × State W :=
  if 0 < s.kp.enabledSize then
    andThen (p.incStat "flush_cnt" 1 s) fun s =>
    andThen (p.incStat "flushed_key_cnt" s.kp.enabledSize s) fun s =>
    andThen (p.kpFlush s) fun s =>
      (if s.kp.enabledSize = 0 then .ok else .stop .assertFailed, s)
  else
    (.ok, s)

/-- `maybe_flush` -/
def Proxy.maybeFlush (p : Proxy W) (flushTime : Int32) (s : State W) : Ret × State W :=
  let s := s.log (.maybeFlush flushTime)
  if s.currentTime = 0 then
    (.ok, { s with currentTime := flushTime })
  else if flushTime = 0 ∨ flushTime ≠ s.currentTime then
    if flushTime = forceFlush ∧ s.currentTime = 0 then
      (.stop .assertFailed, s)
    else
      andThen (p.flushGroup s) fun s => (.ok, { s with currentTime := flushTime })
  else
    (.ok, s)

/-! ## Messages -/

/-- What `handle_message` does between the header and the records. -/
def Proxy.beginRecords (p : Proxy W) (payload : Bytes) (time : UInt32) (s : State W) :
    Ret × State W :=
  andThen (p.maybeFlush time.toInt32 s) fun s =>
  andThen (p.incStat "messages_cnt" 1 s) fun s =>
    p.incStat "messages_bytes" (Int32.ofNat payload.length).toInt s

/-- `handle_message`. The fuel of the loop suffices if any does
(`recordLoop_fuel`). -/
def Proxy.handleMessage (p : Proxy W) (payload : Bytes) (s : State W) : Ret × State W :=
  let c : Cursor := ⟨0, payload.length⟩
  if c.remain < headerLen then
    (.ok, s.log .error)
  else
    let buf := headerMagicLen
    let version := payload[buf]?.getD 0
    let buf := buf + 1
    if version ≠ batchVersion then
      (.ok, s.log .error)
    else
      let time := UInt32.ofNat (beNat ((payload.drop buf).take 4))
      let buf := buf + 4
      let chanlen := beNat ((payload.drop buf).take 2)
      let buf := buf + 2
      -- count the header as read
      let c : Cursor := ⟨buf, c.remain - headerLen⟩
      if c.remain < chanlen then
        (.ok, s.log .error)
      else
        let n := min chanlen p.cfg.kafkaChannel.strlen
        if c.read payload n ≠ p.cfg.kafkaChannel.bytes.take n then
          (p.cfg.logUnknownChannel, s.log .error)
        else
          andThen (p.beginRecords payload time s) fun s =>
            recordLoop p.cfg payload (payload.length + 1) (c.skip chanlen) s

/-- What the main loop does: handle a message, or force a flush. -/
inductive Input where
  | message (payload : Bytes)
  | forceFlush

/-- One action of the main loop, and what it returned. -/
def Proxy.act (p : Proxy W) (s : State W) : Input → Ret × State W
  | .message payload => p.handleMessage payload s
  | .forceFlush => p.maybeFlush forceFlush s

/-- The state after an action. The program ends after a failure; going on
regardless only adds runs. -/
def Proxy.step (p : Proxy W) (s : State W) (i : Input) : State W := (p.act s i).2

end TskProxy

end Libtimeseries
