import Libtimeseries.Kafka
import Libtimeseries.Registry

/-!
# Connecting to Kafka (`timeseries_backend_kafka.c`)

`timeseries_backend_kafka_init` parses its options, makes up to eight attempts to
connect, with longer and longer breaks in between, and then looks up the topic.
`timeseries_backend_kafka_free` waits for the queue to drain and destroys what there
is.

Modelling choices:

- `Outside` says what the functions outside the backend return, by the number of the
  call. `rd_kafka_poll` also runs the error callback, once for each error;
- `snprintf` prints a topic prefix that is NULL as `(null)`, as glibc does;
- configuration objects of librdkafka, and strings, are not followed in the ledger.
-/

namespace Libtimeseries

open ByteLib LedgerLib

namespace Kafka

open Registry (Io Link Options)

/-- The errors that the error callback tells apart. -/
inductive KafkaError where
  | badCompression
  | resolve
  | destroy
  | fail
  | transport
  | allBrokersDown
  | other (code : Int32)
deriving DecidableEq

/-- What the functions outside return. -/
structure Outside where
  malloc : Nat → Bool
  confSet : Nat → CString → CString → Bool
  /-- `rd_kafka_new` -/
  new : Nat → Bool
  /-- is a valid broker among those given? -/
  brokersAdd : Nat → Option CString → Bool
  /-- the errors that are reported meanwhile -/
  poll : Nat → List KafkaError
  topicNew : Nat → Bytes → Bool
  outqLen : Nat → Nat

/-- The fields of `struct timeseries_backend_kafka_state` that concern the connection. -/
structure Setup where
  /-- Comma-separated list of Kafka brokers to connect to -/
  brokerUri : Option CString
  /-- Compression codec to use -/
  compressionCodec : CString
  /-- Name of the channel (DBATS server) to publish metrics to -/
  channelName : Option CString
  /-- Output format -/
  format : Format
  /-- Name of the kafka topic to produce to -/
  topicPrefix : Option CString
  /-- Are we connected to Kafka? -/
  connected : Bool
  /-- Have we encountered a fatal error? -/
  fatalError : Bool
  /-- RD Kafka connection handle -/
  rdkConn : Option Nat
  /-- RD Kafka topic handle -/
  rkt : Option Nat

/-- The state that `timeseries_backend_kafka_init` starts from. -/
def Setup.init : Setup where
  brokerUri := none
  compressionCodec := CString.ofAscii "snappy"
  channelName := none
  format := .tsk
  topicPrefix := none
  connected := false
  fatalError := false
  rdkConn := none
  rkt := none

/-- `parse_args` -/
def parseArgs : Options → Setup → Ret × Setup
  | [], c =>
    if c.brokerUri = none then (.fail, c)
    else if c.channelName = none then (.fail, c)
    else (.ok, c)
  | (opt, optarg) :: options, c =>
    -- b, c, C, f, p
    if opt = 98 then parseArgs options { c with brokerUri := some optarg }
    else if opt = 99 then parseArgs options { c with channelName := some optarg }
    else if opt = 67 then parseArgs options { c with compressionCodec := optarg }
    else if opt = 102 then
      if optarg = CString.ofAscii "ascii" then parseArgs options { c with format := .ascii }
      else if optarg = CString.ofAscii "tsk" then parseArgs options { c with format := .tsk }
      else if optarg = CString.ofAscii "tskkey" then
        parseArgs options { c with format := .tskKeypart }
      else (.fail, c)
    else if opt = 112 then parseArgs options { c with topicPrefix := some optarg }
    else (.fail, c)

/-! ## Connecting -/

/-- Fatal errors. -/
def KafkaError.isFatal : KafkaError → Bool
  | .badCompression | .resolve => true
  | _ => false

/-- Errors that mean that the connection is lost. -/
def KafkaError.disconnects : KafkaError → Bool
  | .other _ => false
  | _ => true

/-- `kafka_error_callback` -/
def errorCallback (c : Setup) (err : KafkaError) : Setup :=
  { c with
    fatalError := c.fatalError || err.isFatal
    connected := c.connected && !err.disconnects }

/-- `rd_kafka_poll(state->rdk_conn, ..)` -/
def poll (out : Outside) (c : Setup) (io : Io) : Setup × Io :=
  ((out.poll io.calls).foldl errorCallback c, io.enter (.use c.rdkConn))

/-- The calls of `rd_kafka_conf_set`. -/
def Setup.settings (c : Setup) : List (CString × CString) :=
  [(CString.ofAscii "compression.codec", c.compressionCodec),
    (CString.ofAscii "log.connection.close", CString.ofAscii "false"),
    (CString.ofAscii "socket.keepalive.enable", CString.ofAscii "true")]

def confSetAll (out : Outside) : List (CString × CString) → Io → Bool × Io
  | [], io => (true, io)
  | s :: settings, io =>
    if out.confSet io.calls s.1 s.2 then confSetAll out settings io.tick else (false, io.tick)

/-- `producer_connect`, once the configuration is set. The connection of the attempt
before is not destroyed. -/
def newProducer (out : Outside) (c : Setup) (io : Io) : Ret × Setup × Io :=
  if out.new io.calls then
    let io' := (io.lose c.rdkConn).enter (.acquire io.calls none)
    let c := { c with rdkConn := some io.calls }
    if out.brokersAdd io'.calls c.brokerUri then
      let r := poll out { c with connected := true } (io'.enter (.use c.rdkConn))
      (if r.1.fatalError then .fail else .ok, r.1, r.2)
    else
      (.fail, c, io'.enter (.use c.rdkConn))
  else
    (.fail, { c with rdkConn := none }, (io.lose c.rdkConn).tick)

/-- `producer_connect` -/
def producerConnect (out : Outside) (c : Setup) (io : Io) : Ret × Setup × Io :=
  match confSetAll out c.settings io with
  | (false, io) => (.fail, c, io)
  | (true, io) => newProducer out c io

/-- The next break between two attempts. -/
def nextWait (wait : Nat) : Nat := if 180 < wait * 2 then 180 else wait * 2

/-- The loop of `kafka_connect`. -/
def connectLoop (out : Outside) : Nat → Nat → Setup → Io → Ret × Setup × Io
  | 0, _, c, io => (.ok, c, io)
  | retries + 1, wait, c, io =>
    if c.connected then
      (.ok, c, io)
    else
      match producerConnect out c io with
      | (.ok, c, io) =>
        if !c.connected && decide (0 < retries) then
          connectLoop out retries (nextWait wait) c { io with sleeps := io.sleeps ++ [wait] }
        else
          connectLoop out retries wait c io
      | r => r

/-- `<topic_prefix>.<channel_name>` -/
def Setup.topicName (c : Setup) : Bytes :=
  (c.topicPrefix.getD (CString.ofAscii "(null)")).bytes ++
    46 :: (c.channelName.getD (CString.ofAscii "(null)")).bytes

/-- Does the topic name fit its buffer? -/
def Setup.topicFits (c : Setup) : Bool :=
  Kafka.topicConnect (c.topicPrefix.getD (CString.ofAscii "(null)"))
    (c.channelName.getD (CString.ofAscii "(null)"))

/-- `topic_connect` -/
def connectTopic (out : Outside) (c : Setup) (io : Io) : Ret × Setup × Io :=
  if c.topicFits then
    if c.rkt = none then
      let io' := io.enter (.use c.rdkConn)
      if out.topicNew io.calls c.topicName then
        (.ok, { c with rkt := some io'.calls }, io'.enter (.acquire io'.calls c.rdkConn))
      else
        (.fail, c, io')
    else
      (.ok, c, io)
  else
    (.fail, c, io)

/-- `kafka_connect` -/
def kafkaConnect (out : Outside) (c : Setup) (io : Io) : Ret × Setup × Io :=
  match connectLoop out 8 10 c io with
  | (.ok, c, io) => if c.connected then connectTopic out c io else (.fail, c, io)
  | r => r

/-! ## The callbacks -/

/-- The loop of `timeseries_backend_kafka_free` that waits for the queue. -/
def drain (out : Outside) : Nat → Setup → Io → Setup × Io
  | 0, c, io => (c, io.enter (.use c.rdkConn))
  | drainWaitCnt + 1, c, io =>
    if 0 < out.outqLen io.calls then
      let r := poll out c (io.enter (.use c.rdkConn))
      drain out drainWaitCnt r.1 r.2
    else
      (c, io.enter (.use c.rdkConn))

/-- Destroy what a pointer points to, unless it is NULL. -/
def destroy (h : Option Nat) (io : Io) : Io :=
  if h = none then io else io.enter (.release h)

/-- `timeseries_backend_kafka_free` -/
def free (out : Outside) (l : Link Setup) : Link Setup :=
  match l.state with
  | none => l
  | some c =>
    let r := if c.rdkConn = none then (c, l.io) else
      let r := poll out c l.io
      drain out 12 r.1 r.2
    ⟨none, destroy r.1.rdkConn (destroy r.1.rkt r.2)⟩

/-- `timeseries_backend_kafka_init` -/
def init (out : Outside) (options : Options) (l : Link Setup) : Ret × Link Setup :=
  if out.malloc l.io.calls then
    match parseArgs options .init with
    | (.ok, c) =>
      match kafkaConnect out c l.io.tick with
      | (.ok, c, io) => (.ok, ⟨some c, io⟩)
      | (_, c, io) => (.fail, free out ⟨some c, io⟩)
    | (r, c) => (r, ⟨some c, l.io.tick⟩)
  else
    (.fail, { l with io := l.io.tick })

/-- An attempt to send the buffer (`SEND_MSG`): `rd_kafka_produce`, unless the buffer is
empty, and `rd_kafka_poll`. -/
def send (out : Outside) (written : Nat) (l : Link Setup) : Link Setup :=
  match l.state with
  | none => { l with io := l.io.enter (.use none) }
  | some c =>
    let r := poll out c (if 0 < written then l.io.enter (.use c.rkt) else l.io)
    ⟨some r.1, r.2⟩

/-! ## One attempt -/

/-- How an attempt of `producer_connect` ends: it fails, or the connection is lost while
it polls for errors, or it stays. -/
inductive Outcome where
  | broken
  | lost
  | up
deriving DecidableEq

/-- Are the settings accepted, by the calls from number `n` on? -/
def confsAccepted (out : Outside) : List (CString × CString) → Nat → Bool
  | [], _ => true
  | s :: settings, n => out.confSet n s.1 s.2 && confsAccepted out settings (n + 1)

/-- The outcome of the attempt that starts with call `n`. It makes six calls unless it
fails. -/
def attempt (out : Outside) (c : Setup) (n : Nat) : Outcome :=
  if confsAccepted out c.settings n && out.new (n + 3) && out.brokersAdd (n + 4) c.brokerUri
      && !(out.poll (n + 5)).any KafkaError.isFatal then
    if (out.poll (n + 5)).any KafkaError.disconnects then .lost else .up
  else
    .broken

/-- What the options decide. -/
def Setup.options (c : Setup) : Setup :=
  { c with connected := false, fatalError := false, rdkConn := none, rkt := none }

/-- Only the options matter for an attempt. -/
theorem attempt_options (out : Outside) {c c' : Setup} (h : c'.options = c.options) (n : Nat) :
    attempt out c' n = attempt out c n := by
  have hsame : ∀ c : Setup, attempt out c n = attempt out c.options n := fun _ => rfl
  rw [hsame c, hsame c', h]

/-- The handles that the state points to. -/
def Setup.own (c : Setup) : Holdings Nat :=
  c.rdkConn.toList.map (fun h => (h, none)) ++ c.rkt.toList.map fun h => (h, c.rdkConn)

theorem foldl_errorCallback (errs : List KafkaError) (c : Setup) :
    errs.foldl errorCallback c = { c with
      fatalError := c.fatalError || errs.any KafkaError.isFatal
      connected := c.connected && !errs.any KafkaError.disconnects } := by
  induction errs generalizing c with
  | nil => simp
  | cons err errs ih =>
    rw [List.foldl_cons, ih, errorCallback]
    simp [Bool.or_assoc, Bool.and_assoc]

/-- The connection can be used. -/
theorem holds_use {c : Setup} {io : Io} (hconn : c.rdkConn ≠ none) (hio : io.Holds c.own) :
    (io.enter (.use c.rdkConn)).Holds c.own := by
  obtain ⟨h, hh⟩ := Option.ne_none_iff_exists'.mp hconn
  have hmem : (h, (none : Option Nat)) ∈ c.own := by
    rw [Setup.own, hh]
    exact List.mem_append_left _ (List.mem_singleton_self _)
  rw [hh]
  exact hio.use hmem

/-- A poll changes the flags. -/
theorem poll_spec (out : Outside) {c : Setup} (io : Io) (hconn : c.rdkConn ≠ none) :
    (poll out c io).1.options = c.options ∧ (poll out c io).1.rdkConn = c.rdkConn ∧
      (poll out c io).1.rkt = c.rkt ∧ io.Quiet (poll out c io).2 ∧
      (io.Holds c.own → (poll out c io).2.Holds (poll out c io).1.own) := by
  rw [poll, foldl_errorCallback]
  exact ⟨rfl, rfl, rfl, ⟨rfl, rfl⟩, fun hio => holds_use hconn hio⟩

theorem confSetAll_eq (out : Outside) (settings : List (CString × CString)) (io : Io) :
    (confSetAll out settings io).1 = confsAccepted out settings io.calls ∧
      (∀ own, io.Holds own → (confSetAll out settings io).2.Holds own) ∧
      io.Quiet (confSetAll out settings io).2 ∧
      (confsAccepted out settings io.calls = true →
        (confSetAll out settings io).2 = { io with calls := io.calls + settings.length }) := by
  induction settings generalizing io with
  | nil => exact ⟨rfl, fun _ h => h, .refl io, fun _ => rfl⟩
  | cons s settings ih =>
    rw [confSetAll, confsAccepted]
    cases hset : out.confSet io.calls s.1 s.2 with
    | false => exact ⟨rfl, fun _ h => h.tick, ⟨rfl, rfl⟩, by rintro ⟨⟩⟩
    | true =>
      obtain ⟨hret, hholds, hquiet, hcalls⟩ := ih io.tick
      refine ⟨hret, fun own h => hholds own h.tick, ⟨hquiet.lost, hquiet.sleeps⟩, fun h => ?_⟩
      rw [if_pos rfl, hcalls h]
      show ({ io with calls := io.calls + 1 + settings.length } : Io) = _
      rw [List.length_cons, Nat.add_assoc, Nat.add_comm 1]

/-- What an attempt leaves behind, and its outcome. -/
structure Attempted (out : Outside) (c : Setup) (io : Io) (r : Ret × Setup × Io) : Prop where
  options : r.2.1.options = c.options
  noTopic : r.2.1.rkt = none
  holds : io.Holds c.own → r.2.2.Holds r.2.1.own
  sleeps : r.2.2.sleeps = io.sleeps
  lost : r.2.2.lost.length ≤ io.lost.length + c.rdkConn.toList.length
  broken : attempt out c io.calls = .broken → r.1 = .fail
  connects : attempt out c io.calls ≠ .broken → r.1 = .ok ∧ r.2.2.calls = io.calls + 6 ∧
    r.2.1.fatalError = false ∧ r.2.1.rdkConn ≠ none ∧
    (r.2.1.connected = true ↔ attempt out c io.calls = .up)

theorem holds_lose {io : Io} {c : Setup} (hio : io.Holds c.own) (htopic : c.rkt = none) :
    (io.lose c.rdkConn).Holds [] := by
  rw [Setup.own, htopic] at hio
  cases hconn : c.rdkConn with
  | none =>
    rw [hconn] at hio
    rw [Io.lose, Option.toList_none, List.append_nil]
    exact hio
  | some h =>
    rw [hconn] at hio
    exact Io.Holds.lose hio

theorem newProducer_attempted (out : Outside) {c : Setup} {io : Io}
    (haccepted : confsAccepted out c.settings io.calls = true) (htopic : c.rkt = none)
    (hfatal : c.fatalError = false) :
    Attempted out c io (newProducer out c { io with calls := io.calls + 3 }) := by
  have hlost : io.Holds c.own →
      (({ io with calls := io.calls + 3 } : Io).lose c.rdkConn).Holds [] := by
    intro hio
    exact holds_lose (hio.tick.tick.tick : ({ io with calls := io.calls + 3 } : Io).Holds c.own) htopic
  have hcount : (io.lost ++ c.rdkConn.toList).length ≤ io.lost.length + c.rdkConn.toList.length :=
    List.length_append.le
  rw [newProducer]
  cases hnew : out.new (io.calls + 3) with
  | false =>
    have hbroken : attempt out c io.calls = .broken := by
      rw [attempt, haccepted, hnew]
      rfl
    refine ⟨rfl, htopic, fun hio => ?_, rfl, hcount, fun _ => rfl, fun h => absurd hbroken h⟩
    show (Io.lose _ c.rdkConn).tick.Holds ({ c with rdkConn := none } : Setup).own
    rw [Setup.own, htopic]
    exact (hlost hio).tick
  | true =>
    have hown : ({ c with rdkConn := some (io.calls + 3) } : Setup).own
        = [(io.calls + 3, none)] := by
      rw [Setup.own, htopic]
      rfl
    -- the connection that `rd_kafka_new` returns
    have hacquired := fun hio => (hlost hio).acquire fun p (hp : none = some p) => nomatch hp
    rw [if_pos rfl]
    show Attempted out c io (if out.brokersAdd (io.calls + 4) c.brokerUri then _ else _)
    cases hbrokers : out.brokersAdd (io.calls + 4) c.brokerUri with
    | false =>
      have hbroken : attempt out c io.calls = .broken := by
        rw [attempt, haccepted, hnew, hbrokers]
        rfl
      refine ⟨rfl, htopic, fun hio => ?_, rfl, hcount, fun _ => rfl, fun h => absurd hbroken h⟩
      show (Io.enter _ _).Holds ({ c with rdkConn := some (io.calls + 3) } : Setup).own
      rw [hown]
      exact (hacquired hio).use (List.mem_singleton_self (io.calls + 3, none))
    | true =>
      have hattempt : attempt out c io.calls = if (out.poll (io.calls + 5)).any KafkaError.isFatal
          then .broken
          else if (out.poll (io.calls + 5)).any KafkaError.disconnects then .lost else .up := by
        rw [attempt, haccepted, hnew, hbrokers]
        cases (out.poll (io.calls + 5)).any KafkaError.isFatal <;> rfl
      rw [if_pos rfl, poll, foldl_errorCallback]
      have hret : (if (c.fatalError || (out.poll (io.calls + 5)).any KafkaError.isFatal) = true
          then Ret.fail else .ok)
            = if (out.poll (io.calls + 5)).any KafkaError.isFatal = true then .fail else .ok := by
        rw [hfatal, Bool.false_or]
      refine ⟨rfl, htopic, fun hio => ?_, rfl, hcount, ?_, ?_⟩
      · show (Io.enter _ _).Holds ({ c with rdkConn := some (io.calls + 3) } : Setup).own
        rw [hown]
        have hmem := List.mem_singleton_self (io.calls + 3, (none : Option Nat))
        exact ((hacquired hio).use hmem).use hmem
      · intro hbroken
        refine hret.trans (if_pos ?_)
        rw [hattempt] at hbroken
        cases hany : (out.poll (io.calls + 5)).any KafkaError.isFatal with
        | true => rfl
        | false =>
          rw [hany, if_neg (by simp)] at hbroken
          revert hbroken
          cases (out.poll (io.calls + 5)).any KafkaError.disconnects <;> rintro ⟨⟩
      · intro hne
        cases hany : (out.poll (io.calls + 5)).any KafkaError.isFatal with
        | true =>
          rw [hattempt, hany] at hne
          exact absurd rfl hne
        | false =>
          rw [hany, if_neg (by simp)] at hattempt
          refine ⟨hret.trans (if_neg (by rw [hany]; rintro ⟨⟩)), rfl, ?_, by rintro ⟨⟩, ?_⟩
          · show (c.fatalError || (out.poll (io.calls + 5)).any KafkaError.isFatal) = false
            rw [hfatal, hany]
            rfl
          · show (true && !(out.poll (io.calls + 5)).any KafkaError.disconnects) = true ↔ _
            rw [hattempt]
            cases (out.poll (io.calls + 5)).any KafkaError.disconnects <;> simp

theorem producerConnect_attempted (out : Outside) {c : Setup} (io : Io)
    (htopic : c.rkt = none) (hfatal : c.fatalError = false) :
    Attempted out c io (producerConnect out c io) := by
  obtain ⟨hret, hholds, hquiet, hcalls⟩ := confSetAll_eq out c.settings io
  rw [producerConnect]
  cases haccepted : confsAccepted out c.settings io.calls with
  | false =>
    have hbroken : attempt out c io.calls = .broken := by
      rw [attempt, haccepted]
      rfl
    rw [haccepted] at hret
    generalize confSetAll out c.settings io = r at hret hholds hquiet ⊢
    obtain ⟨accepted, io₁⟩ := r
    obtain rfl : accepted = false := hret
    refine ⟨rfl, htopic, fun hio => hholds _ hio, hquiet.sleeps, ?_, fun _ => rfl,
      fun h => absurd hbroken h⟩
    show io₁.lost.length ≤ _
    rw [show io₁.lost = io.lost from hquiet.lost]
    exact Nat.le_add_right _ _
  | true =>
    have hconfs : confSetAll out c.settings io = (true, { io with calls := io.calls + 3 }) :=
      Prod.ext (hret.trans haccepted) (hcalls haccepted)
    rw [hconfs]
    exact newProducer_attempted out haccepted htopic hfatal

/-! ## The attempts -/

/-- The breaks before the attempts. -/
def waits : Nat → Nat → List Nat
  | _, 0 => []
  | wait, k + 1 => wait :: waits (nextWait wait) k

theorem length_waits (wait k : Nat) : (waits wait k).length = k := by
  induction k generalizing wait with
  | zero => rfl
  | succ k ih => rw [waits, List.length_cons, ih]

/-- The breaks of `kafka_connect`. -/
theorem waits_eq : ∀ k ≤ 7, waits 10 k = [10, 20, 40, 80, 160, 180, 180].take k := by decide

/-- How the attempts end: after `k` connections that were lost, one stays, or an attempt
fails, or there are no more attempts. -/
inductive Ends (out : Outside) (c : Setup) (n retries k : Nat) (r : Ret × Setup × Io) : Prop
  | up (attempt : attempt out c (n + 6 * k) = .up) (ret : r.1 = .ok)
      (connected : r.2.1.connected = true) (conn : r.2.1.rdkConn ≠ none)
      (calls : r.2.2.calls = n + 6 * (k + 1))
  | broken (attempt : attempt out c (n + 6 * k) = .broken) (ret : r.1 = .fail)
  | lost (attempt : attempt out c (n + 6 * k) = .lost) (last : k = retries) (ret : r.1 = .ok)
      (connected : r.2.1.connected = false)

/-- What the loop of `kafka_connect` leaves behind. -/
structure Tried (out : Outside) (c : Setup) (io : Io) (retries wait : Nat) (r : Ret × Setup × Io) :
    Prop where
  options : r.2.1.options = c.options
  noTopic : r.2.1.rkt = none
  holds : io.Holds c.own → r.2.2.Holds r.2.1.own
  ends : ∃ k ≤ retries, (∀ j < k, attempt out c (io.calls + 6 * j) = .lost) ∧
    r.2.2.sleeps = io.sleeps ++ waits wait k ∧
    r.2.2.lost.length ≤ io.lost.length + c.rdkConn.toList.length + k ∧ Ends out c io.calls retries k r

/-- No attempt was repeated. -/
theorem Attempted.tried {out : Outside} {c : Setup} {io : Io} {retries wait : Nat}
    {r : Ret × Setup × Io} (h : Attempted out c io r) (hends : Ends out c io.calls retries 0 r) :
    Tried out c io retries wait r :=
  ⟨h.options, h.noTopic, h.holds, 0, Nat.zero_le _, fun _ hj => absurd hj (Nat.not_lt_zero _),
    by rw [h.sleeps, waits, List.append_nil], h.lost, hends⟩

/-- One round of the loop. -/
theorem connectLoop_round (out : Outside) (retries wait : Nat) {c : Setup} (io : Io)
    (htopic : c.rkt = none) (hfatal : c.fatalError = false)
    (hconnected : c.connected = false)
    (hrest : ∀ c₁ io₁, Attempted out c io (.ok, c₁, io₁) → attempt out c io.calls = .lost →
      io₁.calls = io.calls + 6 → c₁.fatalError = false → c₁.connected = false →
      Tried out c io retries wait (if 0 < retries then
          connectLoop out retries (nextWait wait) c₁ { io₁ with sleeps := io₁.sleeps ++ [wait] }
        else (.ok, c₁, io₁))) :
    Tried out c io retries wait (connectLoop out (retries + 1) wait c io) := by
  have hattempted := producerConnect_attempted out io htopic hfatal
  rw [connectLoop, hconnected, if_neg (by simp)]
  generalize producerConnect out c io = r at hattempted ⊢
  obtain ⟨ret, c₁, io₁⟩ := r
  cases hattempt : attempt out c io.calls with
  | broken =>
    obtain rfl : ret = .fail := hattempted.broken hattempt
    exact hattempted.tried (.broken hattempt rfl)
  | up =>
    obtain ⟨hret, hcalls, -, hconn, hup⟩ := hattempted.connects (by rw [hattempt]; rintro ⟨⟩)
    obtain rfl : ret = .ok := hret
    have hconnected₁ : c₁.connected = true := hup.mpr hattempt
    have hstays : connectLoop out retries wait c₁ io₁ = (.ok, c₁, io₁) := by
      cases retries with
      | zero => rfl
      | succ retries => rw [connectLoop, if_pos hconnected₁]
    dsimp only
    rw [hconnected₁, Bool.not_true, Bool.false_and, if_neg (by simp), hstays]
    exact hattempted.tried (.up hattempt rfl hconnected₁ hconn hcalls)
  | lost =>
    obtain ⟨hret, hcalls, hfatal₁, -, hup⟩ := hattempted.connects (by rw [hattempt]; rintro ⟨⟩)
    obtain rfl : ret = .ok := hret
    have hconnected₁ : c₁.connected = false := by
      rw [Bool.eq_false_iff]
      intro hc
      rw [hattempt] at hup
      cases hup.mp hc
    have hround := hrest c₁ io₁ hattempted hattempt hcalls hfatal₁ hconnected₁
    dsimp only
    rw [hconnected₁, Bool.not_false, Bool.true_and]
    cases retries with
    | zero => exact hround
    | succ retries =>
      rw [if_pos (Nat.succ_pos retries)] at hround
      rw [if_pos (by simp)]
      exact hround

theorem connectLoop_tried (out : Outside) (retries wait : Nat) {c : Setup} (io : Io)
    (htopic : c.rkt = none) (hfatal : c.fatalError = false)
    (hconnected : c.connected = false) :
    Tried out c io retries wait (connectLoop out (retries + 1) wait c io) := by
  induction retries generalizing wait c io with
  | zero =>
    refine connectLoop_round out 0 wait io htopic hfatal hconnected ?_
    intro c₁ io₁ hattempted hattempt hcalls hfatal₁ hconnected₁
    exact hattempted.tried (.lost hattempt rfl rfl hconnected₁)
  | succ retries ih =>
    refine connectLoop_round out (retries + 1) wait io htopic hfatal hconnected ?_
    intro c₁ io₁ hattempted hattempt hcalls hfatal₁ hconnected₁
    rw [if_pos (Nat.succ_pos retries)]
    have htried := ih (nextWait wait) { io₁ with sleeps := io₁.sleeps ++ [wait] }
      hattempted.noTopic hfatal₁ hconnected₁
    generalize connectLoop out (retries + 1) (nextWait wait) c₁
      { io₁ with sleeps := io₁.sleeps ++ [wait] } = r at htried ⊢
    obtain ⟨k, hk, hlost, hsleeps, hcount, hends⟩ := htried.ends
    -- the attempts of the rest are those from the second one on
    have hshift : ∀ j, attempt out c₁ (io₁.calls + 6 * j) = attempt out c (io.calls + 6 * (j + 1)) := by
      intro j
      rw [attempt_options out hattempted.options, hcalls]
      congr 1
      omega
    refine ⟨htried.options.trans hattempted.options, htried.noTopic,
      fun hio => htried.holds ((hattempted.holds hio).sleep _), k + 1, Nat.succ_le_succ hk, ?_, ?_, ?_, ?_⟩
    · intro j hj
      cases j with
      | zero => exact hattempt
      | succ j =>
        rw [← hshift]
        exact hlost j (Nat.lt_of_succ_lt_succ hj)
    · rw [hsleeps, waits]
      show io₁.sleeps ++ [wait] ++ _ = _
      rw [show io₁.sleeps = io.sleeps from hattempted.sleeps, List.append_assoc]
      rfl
    · have hfirst : io₁.lost.length ≤ io.lost.length + c.rdkConn.toList.length := hattempted.lost
      have hone : c₁.rdkConn.toList.length ≤ 1 := by cases c₁.rdkConn <;> simp
      have hcount₁ : r.2.2.lost.length ≤ io₁.lost.length + c₁.rdkConn.toList.length + k := hcount
      omega
    · cases hends with
      | up hup hret hconn hrdk hcalls' =>
        refine .up (hshift k ▸ hup) hret hconn hrdk ?_
        rw [hcalls']
        show io₁.calls + 6 * (k + 1) = _
        omega
      | broken hbroken hret => exact .broken (hshift k ▸ hbroken) hret
      | lost hlast hk' hret hconn => exact .lost (hshift k ▸ hlast) (by rw [hk']) hret hconn

/-! ## The topic -/

/-- What `topic_connect` does for a state that has a connection, but no topic. -/
theorem connectTopic_spec (out : Outside) {c : Setup} (io : Io) (htopic : c.rkt = none)
    (hconn : c.rdkConn ≠ none) :
    let r := connectTopic out c io
    (r.1 = .ok ∨ r.1 = .fail) ∧
      (r.1 = .ok ↔ c.topicFits = true ∧ out.topicNew io.calls c.topicName = true) ∧
      r.2.1.options = c.options ∧ r.2.1.rdkConn = c.rdkConn ∧ (r.1 = .ok → r.2.1.rkt ≠ none) ∧
      io.Quiet r.2.2 ∧ (io.Holds c.own → r.2.2.Holds r.2.1.own) := by
  rw [connectTopic]
  cases hfits : c.topicFits with
  | false => exact ⟨.inr rfl, by simp, rfl, rfl, by rintro ⟨⟩, .refl io, fun hio => hio⟩
  | true =>
    rw [if_pos rfl, if_pos htopic]
    cases hnew : out.topicNew io.calls c.topicName with
    | false => exact ⟨.inr rfl, by simp, rfl, rfl, by rintro ⟨⟩, ⟨rfl, rfl⟩, holds_use hconn⟩
    | true =>
      refine ⟨.inl rfl, by simp, rfl, rfl, fun _ => by rintro ⟨⟩, ⟨rfl, rfl⟩, fun hio => ?_⟩
      obtain ⟨h, hh⟩ := Option.ne_none_iff_exists'.mp hconn
      have hown : c.own = [(h, none)] := by
        rw [Setup.own, htopic, hh]
        rfl
      have hboth : ({ c with rkt := some (io.enter (.use c.rdkConn)).calls } : Setup).own
          = c.own ++ [((io.enter (.use c.rdkConn)).calls, c.rdkConn)] := by
        rw [hown, Setup.own, hh]
        rfl
      show (Io.enter _ _).Holds
        ({ c with rkt := some (io.enter (.use c.rdkConn)).calls } : Setup).own
      rw [hboth]
      refine (holds_use hconn hio).acquire fun p hp => ?_
      rw [hown, ← Option.some.inj (hh.symm.trans hp)]
      exact List.mem_singleton_self h

/-! ## Freeing -/

theorem drain_spec (out : Outside) (drainWaitCnt : Nat) {c : Setup} (io : Io)
    (hconn : c.rdkConn ≠ none) :
    let r := drain out drainWaitCnt c io
    r.1.rdkConn = c.rdkConn ∧ r.1.rkt = c.rkt ∧ io.Quiet r.2 ∧
      (io.Holds c.own → r.2.Holds r.1.own) := by
  induction drainWaitCnt generalizing c io with
  | zero => exact ⟨rfl, rfl, ⟨rfl, rfl⟩, holds_use hconn⟩
  | succ drainWaitCnt ih =>
    rw [drain]
    split
    · obtain ⟨-, hconn₁, htopic₁, hquiet₁, hholds₁⟩ :=
        poll_spec out (io.enter (.use c.rdkConn)) hconn
      obtain ⟨hconn₂, htopic₂, hquiet₂, hholds₂⟩ :=
        ih (poll out c (io.enter (.use c.rdkConn))).2 (hconn₁ ▸ hconn)
      have hquiet : io.Quiet (io.enter (.use c.rdkConn)) := ⟨rfl, rfl⟩
      exact ⟨hconn₂.trans hconn₁, htopic₂.trans htopic₁, hquiet.trans (hquiet₁.trans hquiet₂),
        fun hio => hholds₂ (hholds₁ (holds_use hconn hio))⟩
    · exact ⟨rfl, rfl, ⟨rfl, rfl⟩, holds_use hconn⟩

/-- The topic is destroyed before its connection. -/
theorem holds_destroy {c : Setup} {io : Io} (htopic : c.rkt ≠ none → c.rdkConn ≠ none)
    (hio : io.Holds c.own) : (destroy c.rdkConn (destroy c.rkt io)).Holds [] := by
  rw [Setup.own] at hio
  cases hconn : c.rdkConn with
  | none =>
    have hnone : c.rkt = none := by
      by_contra hne
      exact htopic hne hconn
    rw [hconn, hnone] at hio
    rw [hnone]
    exact hio
  | some h =>
    rw [hconn] at hio
    cases hrkt : c.rkt with
    | none =>
      rw [hrkt] at hio
      exact (hio : io.Holds ([] ++ [(h, none)])).release (by rintro ⟨⟩) (List.forall_mem_nil _)
    | some t =>
      rw [hrkt] at hio
      have hlt : h ≠ t := by
        have hincreasing := (List.pairwise_append.mp hio.increasing).2.1
        exact Nat.ne_of_lt ((List.pairwise_cons.mp hincreasing).1 t (List.mem_singleton_self t))
      have hfirst : (io.enter (.release (some t))).Holds ([] ++ [(h, none)]) :=
        (hio : io.Holds ([(h, none)] ++ [(t, some h)])).release
          (fun heq => hlt (Option.some.inj heq)) (List.forall_mem_singleton.mpr (by rintro ⟨⟩))
      exact hfirst.release (by rintro ⟨⟩) (List.forall_mem_nil _)

theorem destroy_quiet (h : Option Nat) (io : Io) : io.Quiet (destroy h io) := by
  rw [destroy]
  split
  · exact .refl io
  · exact ⟨rfl, rfl⟩

/-- `timeseries_backend_kafka_free` destroys what there is. -/
theorem free_spec (out : Outside) {c : Setup} (io : Io) (htopic : c.rkt ≠ none → c.rdkConn ≠ none) :
    (free out ⟨some c, io⟩).state = none ∧ io.Quiet (free out ⟨some c, io⟩).io ∧
      (io.Holds c.own → (free out ⟨some c, io⟩).io.Holds []) := by
  rw [free]
  dsimp only
  by_cases hconn : c.rdkConn = none
  · rw [if_pos hconn]
    exact ⟨rfl, (destroy_quiet _ _).trans (destroy_quiet _ _), holds_destroy htopic⟩
  · rw [if_neg hconn]
    obtain ⟨-, hconn₁, htopic₁, hquiet₁, hholds₁⟩ := poll_spec out io hconn
    obtain ⟨hconn₂, htopic₂, hquiet₂, hholds₂⟩ :=
      drain_spec out 12 (poll out c io).2 (hconn₁ ▸ hconn)
    refine ⟨rfl, (hquiet₁.trans hquiet₂).trans ((destroy_quiet _ _).trans (destroy_quiet _ _)),
      fun hio => holds_destroy ?_ (hholds₂ (hholds₁ hio))⟩
    intro _
    rw [hconn₂, hconn₁]
    exact hconn

/-! ## The whole of it -/

/-- The backend is connected to its topic. -/
def Linked (l : Link Setup) : Prop :=
  ∃ c, l.state = some c ∧ c.rdkConn ≠ none ∧ c.rkt ≠ none ∧ l.io.Holds c.own

/-- There is only one way in which the attempts can end. -/
theorem attempts_unique {out : Outside} {c : Setup} {n k k' : Nat}
    (hlost : ∀ j < k, attempt out c (n + 6 * j) = .lost)
    (hends : attempt out c (n + 6 * k) ≠ .lost ∨ 7 ≤ k) (hk' : k' ≤ 7)
    (hlost' : ∀ j < k', attempt out c (n + 6 * j) = .lost)
    (hup : attempt out c (n + 6 * k') = .up) : k' = k := by
  rcases Nat.lt_trichotomy k' k with hlt | heq | hlt
  · rw [hlost k' hlt] at hup
    cases hup
  · exact heq
  · rcases hends with hne | hle
    · exact absurd (hlost' k hlt) hne
    · omega

/-- The attempts lead to a connection and the topic is looked up, or they do not. -/
theorem kafkaConnect_spec (out : Outside) {c : Setup} (io : Io) (hconn : c.rdkConn = none)
    (htopic : c.rkt = none) (hfatal : c.fatalError = false) (hconnected : c.connected = false) :
    let r := kafkaConnect out c io
    (r.1 = .ok ∨ r.1 = .fail) ∧ r.2.1.options = c.options ∧
      (io.Holds [] → r.2.2.Holds r.2.1.own) ∧ (r.2.1.rkt ≠ none → r.2.1.rdkConn ≠ none) ∧
      (r.1 = .ok → r.2.1.rkt ≠ none) ∧
      (∃ k ≤ 7, r.2.2.sleeps = io.sleeps ++ waits 10 k ∧
        r.2.2.lost.length ≤ io.lost.length + k) ∧
      (r.1 = .ok ↔ ∃ k ≤ 7, (∀ j < k, attempt out c (io.calls + 6 * j) = .lost) ∧
        attempt out c (io.calls + 6 * k) = .up ∧ c.topicFits = true ∧
        out.topicNew (io.calls + 6 * (k + 1)) c.topicName = true) := by
  have hown : c.own = [] := by rw [Setup.own, hconn, htopic]; rfl
  have htried : Tried out c io 7 10 (connectLoop out 8 10 c io) :=
    connectLoop_tried out 7 10 io htopic hfatal hconnected
  rw [kafkaConnect]
  generalize connectLoop out 8 10 c io = r at htried ⊢
  obtain ⟨ret, c₁, io₁⟩ := r
  obtain ⟨hoptions, hnoTopic, hholds, k, hk, hlost, hsleeps, hcount, hends⟩ := htried
  rw [hown] at hholds
  rw [hconn] at hcount
  have hnot : c₁.rkt ≠ none → c₁.rdkConn ≠ none := fun h => absurd hnoTopic h
  cases hends with
  | broken hattempt hret =>
    obtain rfl : ret = .fail := hret
    refine ⟨.inr rfl, hoptions, hholds, hnot, by rintro ⟨⟩, ⟨k, hk, hsleeps, hcount⟩, by rintro ⟨⟩, ?_⟩
    rintro ⟨k', hk', hlost', hup, -⟩
    have heq := attempts_unique hlost (.inl (by rw [hattempt]; rintro ⟨⟩)) hk' hlost' hup
    rw [heq, hattempt] at hup
    cases hup
  | lost hattempt hlast hret hdown =>
    obtain rfl : ret = .ok := hret
    have hdown' : c₁.connected = false := hdown
    dsimp only
    rw [hdown', if_neg (by simp)]
    refine ⟨.inr rfl, hoptions, hholds, hnot, by rintro ⟨⟩, ⟨k, hk, hsleeps, hcount⟩, by rintro ⟨⟩, ?_⟩
    rintro ⟨k', hk', hlost', hup, -⟩
    have heq := attempts_unique hlost (.inr hlast.ge) hk' hlost' hup
    rw [heq, hattempt] at hup
    cases hup
  | up hattempt hret hupConn hconn₁ hcalls =>
    obtain rfl : ret = .ok := hret
    have hup' : c₁.connected = true := hupConn
    have hcalls' : io₁.calls = io.calls + 6 * (k + 1) := hcalls
    dsimp only
    rw [hup', if_pos rfl]
    obtain ⟨hret, hok, hoptions₂, hconn₂, htopic₂, hquiet₂, hholds₂⟩ :=
      connectTopic_spec out io₁ hnoTopic hconn₁
    have hfits : c₁.topicFits = c.topicFits := by
      show c₁.options.topicFits = c.options.topicFits
      exact congrArg Setup.topicFits hoptions
    have hname : c₁.topicName = c.topicName := by
      show c₁.options.topicName = c.options.topicName
      exact congrArg Setup.topicName hoptions
    refine ⟨hret, hoptions₂.trans hoptions, fun hio => hholds₂ (hholds hio),
      fun _ => by rw [hconn₂]; exact hconn₁, htopic₂, ⟨k, hk, ?_⟩, ?_⟩
    · exact ⟨hquiet₂.sleeps.trans hsleeps, hquiet₂.lost ▸ hcount⟩
    rw [hok, hfits, hname, hcalls']
    constructor
    · rintro ⟨hfit, hnew⟩
      exact ⟨k, hk, hlost, hattempt, hfit, hnew⟩
    · rintro ⟨k', hk', hlost', hup, hfit, hnew⟩
      have heq := attempts_unique hlost (.inl (by rw [hattempt]; rintro ⟨⟩)) hk' hlost' hup
      exact ⟨hfit, heq ▸ hnew⟩

/-! ## Initialising -/

/-- `parse_args` sets what the options decide. -/
theorem parseArgs_spec (options : Options) (c : Setup) :
    let r := parseArgs options c
    (r.1 = .ok ∨ r.1 = .fail) ∧ r.2.rdkConn = c.rdkConn ∧ r.2.rkt = c.rkt ∧
      r.2.fatalError = c.fatalError ∧ r.2.connected = c.connected ∧
      (r.1 = .ok → r.2.channelName ≠ none) := by
  induction options generalizing c with
  | nil =>
    rw [parseArgs]
    split
    · exact ⟨.inr rfl, rfl, rfl, rfl, rfl, by rintro ⟨⟩⟩
    split
    · exact ⟨.inr rfl, rfl, rfl, rfl, rfl, by rintro ⟨⟩⟩
    · next hchannel => exact ⟨.inl rfl, rfl, rfl, rfl, rfl, fun _ => hchannel⟩
  | cons option options ih =>
    obtain ⟨opt, optarg⟩ := option
    have hfail : Ret.fail = .ok → c.channelName ≠ none := by rintro ⟨⟩
    rw [parseArgs]
    split
    · exact ih { c with brokerUri := some optarg }
    split
    · exact ih { c with channelName := some optarg }
    split
    · exact ih { c with compressionCodec := optarg }
    split
    · split
      · exact ih { c with format := .ascii }
      split
      · exact ih { c with format := .tsk }
      split
      · exact ih { c with format := .tskKeypart }
      · exact ⟨.inr rfl, rfl, rfl, rfl, rfl, hfail⟩
    split
    · exact ih { c with topicPrefix := some optarg }
    · exact ⟨.inr rfl, rfl, rfl, rfl, rfl, hfail⟩

/-- **Connecting**: `timeseries_backend_kafka_init` succeeds if and only if the options
are complete, one of eight attempts connects while those before it have only lost their
connection again, and the topic is found. It sleeps for at most 670 seconds in all, and
a backend that is initialised has a valid configuration. -/
theorem init_connects (out : Outside) (options : Options) (l : Link Setup) :
    let r := init out options l
    let c := (parseArgs options .init).2
    (r.1 = .ok ↔ out.malloc l.io.calls = true ∧ (parseArgs options .init).1 = .ok ∧
      ∃ k ≤ 7, (∀ j < k, attempt out c (l.io.calls + 1 + 6 * j) = .lost) ∧
        attempt out c (l.io.calls + 1 + 6 * k) = .up ∧ c.topicFits = true ∧
        out.topicNew (l.io.calls + 1 + 6 * (k + 1)) c.topicName = true) ∧
      (∃ k ≤ 7, r.2.io.sleeps = l.io.sleeps ++ [10, 20, 40, 80, 160, 180, 180].take k) ∧
      (r.1 = .ok → ∃ (c : Setup) (conf : Conf), r.2.state = some c ∧
        c.channelName = some conf.channelName ∧ c.format = conf.format ∧
        conf.topicPrefix = c.topicPrefix.getD (CString.ofAscii "(null)")) := by
  rw [init]
  cases hmalloc : out.malloc l.io.calls with
  | false =>
    rw [if_neg (by simp)]
    refine ⟨by simp, ⟨0, Nat.zero_le _, ?_⟩, by rintro ⟨⟩⟩
    rw [List.take_zero, List.append_nil]
    rfl
  | true =>
    obtain ⟨hparsed, hconn, htopic, hfatal, hconnected, hchannel⟩ := parseArgs_spec options .init
    rw [if_pos rfl]
    generalize parseArgs options .init = p at hparsed hconn htopic hfatal hconnected hchannel ⊢
    obtain ⟨ret, c⟩ := p
    rcases hparsed with hret | hret
    · obtain rfl : ret = .ok := hret
      obtain ⟨hretConnect, hoptions, -, hbelow, -, ⟨k, hk, hsleeps, -⟩, hok⟩ :=
        kafkaConnect_spec out l.io.tick hconn htopic hfatal hconnected
      dsimp only at hoptions hok hchannel ⊢
      generalize kafkaConnect out c l.io.tick = r at hretConnect hoptions hbelow hsleeps hok ⊢
      obtain ⟨ret, c₁, io₁⟩ := r
      rw [waits_eq k hk] at hsleeps
      rcases hretConnect with hret | hret
      · obtain rfl : ret = .ok := hret
        refine ⟨⟨fun _ => ⟨rfl, rfl, hok.mp rfl⟩, fun _ => rfl⟩, ⟨k, hk, hsleeps⟩, fun _ => ?_⟩
        obtain ⟨-, -, -, -, hfits, -⟩ := hok.mp rfl
        have hfits₁ : c₁.topicFits = true := (congrArg Setup.topicFits hoptions).trans hfits
        have hchannel₁ : c₁.options.channelName = c.options.channelName :=
          congrArg Setup.channelName hoptions
        obtain ⟨channel, hsome⟩ := Option.ne_none_iff_exists'.mp (hchannel rfl)
        have hname : c₁.channelName = some channel := hchannel₁.trans hsome
        rw [Setup.topicFits, hname] at hfits₁
        exact ⟨c₁, ⟨channel, c₁.topicPrefix.getD (CString.ofAscii "(null)"), c₁.format, hfits₁⟩, rfl,
          hname, rfl, rfl⟩
      · obtain rfl : ret = .fail := hret
        obtain ⟨-, hfreed, -⟩ := free_spec out io₁ hbelow
        refine ⟨⟨by rintro ⟨⟩, fun h => hok.mpr h.2.2⟩, ⟨k, hk, hfreed.sleeps.trans hsleeps⟩, by rintro ⟨⟩⟩
    · obtain rfl : ret = .fail := hret
      refine ⟨by simp, ⟨0, Nat.zero_le _, ?_⟩, by rintro ⟨⟩⟩
      rw [List.take_zero, List.append_nil]
      rfl

/-- Not more connections are lost than breaks were made. -/
def Spared (io : Io) : Prop := io.lost.length ≤ io.sleeps.length

theorem Spared.quiet {io io' : Io} (h : Spared io) (hquiet : io.Quiet io') : Spared io' := by
  rw [Spared, hquiet.lost, hquiet.sleeps]
  exact h

/-- After a successful `init` the backend is linked, after any other nothing is left. -/
theorem init_kept (out : Outside) (options : Options) {l : Link Setup} (hio : l.io.Holds [])
    (hspared : Spared l.io) :
    let r := init out options l
    (r.1 = .ok → Linked r.2) ∧ (r.1 ≠ .ok → r.2.io.Holds []) ∧ Spared r.2.io := by
  rw [init]
  split
  · obtain ⟨hparsed, hconn, htopic, hfatal, hconnected, -⟩ := parseArgs_spec options .init
    generalize parseArgs options .init = p at hparsed hconn htopic hfatal hconnected ⊢
    obtain ⟨ret, c⟩ := p
    rcases hparsed with hret | hret
    · obtain rfl : ret = .ok := hret
      obtain ⟨hretConnect, -, hholds, hbelow, hrkt, ⟨k, -, hsleeps, hlost⟩, -⟩ :=
        kafkaConnect_spec out l.io.tick hconn htopic hfatal hconnected
      dsimp only
      generalize kafkaConnect out c l.io.tick = r at hretConnect hholds hbelow hrkt hsleeps hlost ⊢
      obtain ⟨ret, c₁, io₁⟩ := r
      have hspared₁ : Spared io₁ := by
        have hsleeps₁ : io₁.sleeps = l.io.sleeps ++ waits 10 k := hsleeps
        rw [Spared, hsleeps₁, List.length_append, length_waits]
        exact Nat.le_trans hlost (Nat.add_le_add_right hspared k)
      have hholds₁ : io₁.Holds c₁.own := hholds hio.tick
      rcases hretConnect with hret | hret
      · obtain rfl : ret = .ok := hret
        exact ⟨fun _ => ⟨c₁, rfl, hbelow (hrkt rfl), hrkt rfl, hholds₁⟩, fun h => absurd rfl h, hspared₁⟩
      · obtain rfl : ret = .fail := hret
        obtain ⟨-, hquiet, hfreed⟩ := free_spec out io₁ hbelow
        exact ⟨by rintro ⟨⟩, fun _ => hfreed hholds₁, hspared₁.quiet hquiet⟩
    · obtain rfl : ret = .fail := hret
      exact ⟨by rintro ⟨⟩, fun _ => hio.tick, hspared⟩
  · exact ⟨by rintro ⟨⟩, fun _ => hio.tick, hspared⟩

/-- The connection and the topic are there to send with. -/
theorem Linked.send {l : Link Setup} (h : Linked l) (out : Outside) (written : Nat) :
    Linked (send out written l) ∧ l.io.Quiet (Kafka.send out written l).io := by
  obtain ⟨c, hstate, hconn, hrkt, hio⟩ := h
  obtain ⟨t, ht⟩ := Option.ne_none_iff_exists'.mp hrkt
  have hmem : (t, c.rdkConn) ∈ c.own := by
    rw [Setup.own, ht]
    exact List.mem_append_right _ (List.mem_singleton_self _)
  have hproduced : (l.io.enter (.use c.rkt)).Holds c.own := by
    rw [ht]
    exact hio.use hmem
  rw [Kafka.send, hstate]
  dsimp only
  split
  · obtain ⟨-, hconn₁, hrkt₁, hquiet, hholds⟩ := poll_spec out (l.io.enter (.use c.rkt)) hconn
    have hentered : l.io.Quiet (l.io.enter (.use c.rkt)) := ⟨rfl, rfl⟩
    exact ⟨⟨_, rfl, hconn₁ ▸ hconn, hrkt₁ ▸ hrkt, hholds hproduced⟩, hentered.trans hquiet⟩
  · obtain ⟨-, hconn₁, hrkt₁, hquiet, hholds⟩ := poll_spec out l.io hconn
    exact ⟨⟨_, rfl, hconn₁ ▸ hconn, hrkt₁ ▸ hrkt, hholds hio⟩, hquiet⟩

theorem Linked.free {l : Link Setup} (h : Linked l) (out : Outside) :
    (free out l).io.Holds [] ∧ l.io.Quiet (Kafka.free out l).io := by
  obtain ⟨c, hstate, hconn, -, hio⟩ := h
  obtain ⟨-, hquiet, hfreed⟩ := free_spec out l.io fun _ => hconn
  have hl : l = ⟨some c, l.io⟩ := by rw [← hstate]
  rw [hl]
  exact ⟨hfreed hio, hquiet⟩

end Kafka

end Libtimeseries
