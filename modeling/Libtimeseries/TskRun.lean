import Libtimeseries.TskHeader
import Libtimeseries.TskPartitions
import Libtimeseries.TskStats

/-!
# The main loop of the proxy (`run` of `tsk-proxy.c`)

The program around the message handling: bursts of messages, forced flushes
between them, statistics, and `SIGINT`.

- `Place`: where `run` is, cut so that each step reads `shutdown_proxy` at most
  once;
- `Tick`: one step with what the outside world gives it, or a `SIGINT`, which can
  come between any two steps;
- `afterStats_cases`: `maybe_flush_stats` leaves the data.

A process that hangs stays where it is, though a third `SIGINT` would still end it. The
message rate that is logged once a second is left out.
-/

namespace Libtimeseries

open ByteLib GroupLib LastWrite RunLib

namespace TskProxy

/-- What `rd_kafka_consumer_poll` delivers. -/
inductive Polled where
  | data (payload : Bytes)
  /-- `RD_KAFKA_RESP_ERR__PARTITION_EOF` -/
  | partitionEof
  /-- any other error -/
  | error
deriving DecidableEq

/-- The program: the proxy with its statistics. -/
structure Program (W V : Type) where
  proxy : Proxy W
  stats : Stats V

/-- Where `run` is. -/
inductive Place where
  /-- at the top of the outer loop -/
  | top
  /-- at the test of `shutdown_proxy` behind the flushes -/
  | outerTest
  /-- in the inner loop, with a message to process -/
  | process (eofSinceData : Nat) (rkmessage : Polled)
  /-- at the test of `shutdown_proxy` behind a message -/
  | innerTest (eofSinceData : Nat)
  /-- `run` returned -/
  | returned (rc : Int)
  /-- `catch_sigint` ended the process -/
  | exited (status : Int)
  /-- the process stopped, or hangs -/
  | stopped (why : Stop)
deriving DecidableEq

/-- `run` goes no further. -/
def Place.isFinal : Place → Bool
  | returned _ | exited _ | stopped _ => true
  | _ => false

/-- The variables of the program. -/
structure Main (W V : Type) where
  proxy : State W
  /-- the world of the statistics backend, and its callbacks so far -/
  statsEnv : Env V
  statsTime : Int32
  shutdownProxy : Nat
  place : Place
  /-- not a variable of the program: the messages handled so far -/
  handled : List Bytes

/-- One step, with the clock it reads and what a poll delivers in it; or a
signal. -/
inductive Tick where
  | go (now : Int) (poll : Option Polled)
  | sigint

variable {W V : Type}

namespace Main

/-- The program at the start of `run`. -/
def init (w : W) (v : V) (statsTime : Int32) : Main W V :=
  ⟨State.init w, ⟨v, []⟩, statsTime, 0, .top, []⟩

def goto (s : Main W V) (place : Place) : Main W V := { s with place := place }

def setProxy (s : Main W V) (proxy : State W) : Main W V := { s with proxy := proxy }

/-- `catch_sigint` -/
def catchSigint (s : Main W V) : Main W V :=
  let s := { s with shutdownProxy := s.shutdownProxy + 1 }
  if 3 ≤ s.shutdownProxy then s.goto (.exited 1) else s

end Main

namespace Program

/-- `maybe_flush_stats`, on the variables of the program. -/
def maybeFlushStats (m : Program W V) (now : Int) (s : Main W V) : Ret × Main W V :=
  let r := m.stats.maybeFlushStats now ⟨s.proxy.statsKp, s.statsEnv, s.statsTime⟩
  (r.1,
    { s with
      proxy := { s.proxy with statsKp := r.2.statsKp }
      statsEnv := r.2.env
      statsTime := r.2.statsTime })

/-- `maybe_flush_stats`, and what follows it unless the process stops. -/
def afterStats (m : Program W V) (now : Int) (next : Main W V → Main W V) (s : Main W V) :
    Main W V :=
  match m.maybeFlushStats now s with
  | (.stop why, s) => s.goto (.stopped why)
  | (_, s) => next s

/-- The end of `run`, at `cleanup`. -/
def cleanup (m : Program W V) (rc : Int) (s : Main W V) : Main W V :=
  match m.proxy.maybeFlush forceFlush s.proxy with
  | (.stop why, proxy) => (s.setProxy proxy).goto (.stopped why)
  -- we're shutting down anyway, so ignore failures
  | (_, proxy) => (s.setProxy proxy).goto (.returned rc)

/-- The flushes at the top of the outer loop. -/
def top (m : Program W V) (now : Int) (s : Main W V) : Main W V :=
  match m.proxy.maybeFlush forceFlush s.proxy with
  | (.stop why, proxy) => (s.setProxy proxy).goto (.stopped why)
  | (.fail, proxy) => m.cleanup (-1) (s.setProxy proxy)
  | (.ok, proxy) => m.afterStats now (fun s => s.goto .outerTest) (s.setProxy proxy)

/-- The inner loop goes on if a poll delivers something. -/
def burst (eofSinceData : Nat) (poll : Option Polled) (s : Main W V) : Main W V :=
  match poll with
  | none => s.goto .top
  | some rkmessage => s.goto (.process eofSinceData rkmessage)

/-- The rest of the outer loop, up to the first poll of a burst. -/
def outerTest (m : Program W V) (poll : Option Polled) (s : Main W V) : Main W V :=
  if s.shutdownProxy ≠ 0 then m.cleanup 0 s else burst 0 poll s

/-- The body of the inner loop, up to the test behind it. -/
def process (m : Program W V) (eofSinceData : Nat) (rkmessage : Polled) (s : Main W V) :
    Main W V :=
  match rkmessage with
  | .data payload =>
    let s := { s with handled := s.handled ++ [payload] }
    match m.proxy.handleMessage payload s.proxy with
    | (.stop why, proxy) => (s.setProxy proxy).goto (.stopped why)
    | (.fail, proxy) => m.cleanup (-1) (s.setProxy proxy)
    | (.ok, proxy) => (s.setProxy proxy).goto (.innerTest 0)
  | .partitionEof =>
    if s.shutdownProxy ≠ 0 ∨ 10 ≤ eofSinceData + 1 then s.goto .top
    else s.goto (.innerTest (eofSinceData + 1))
  -- attempt to carry on
  | .error => s.goto (.innerTest eofSinceData)

/-- The end of the inner loop, with the next poll. -/
def innerTest (m : Program W V) (eofSinceData : Nat) (now : Int) (poll : Option Polled)
    (s : Main W V) : Main W V :=
  if s.shutdownProxy ≠ 0 then s.goto .top
  else m.afterStats now (fun s => burst eofSinceData poll s) s

/-- One step of `run`. -/
def go (m : Program W V) (now : Int) (poll : Option Polled) (s : Main W V) : Main W V :=
  match s.place with
  | .top => m.top now s
  | .outerTest => m.outerTest poll s
  | .process eofSinceData rkmessage => m.process eofSinceData rkmessage s
  | .innerTest eofSinceData => m.innerTest eofSinceData now poll s
  | .returned _ | .exited _ | .stopped _ => s

/-- A step, or a signal. -/
def step (m : Program W V) (s : Main W V) : Tick → Main W V
  | .go now poll => m.go now poll s
  | .sigint => if s.place.isFinal then s else s.catchSigint

end Program

/-! ## The parts of a step -/

section Step

variable (m : Program W V) (s : Main W V) (now : Int) (poll : Option Polled)

/-- What a step does at each place. -/
theorem step_go : m.step s (.go now poll) = match s.place with
    | .top => m.top now s
    | .outerTest => m.outerTest poll s
    | .process eofSinceData rkmessage => m.process eofSinceData rkmessage s
    | .innerTest eofSinceData => m.innerTest eofSinceData now poll s
    | .returned _ | .exited _ | .stopped _ => s := rfl

/-- A signal is counted, and the third one ends the process. -/
theorem step_sigint (hplace : s.place.isFinal = false) : m.step s .sigint = s.catchSigint := by
  unfold Program.step
  dsimp only
  rw [hplace]
  rfl

/-- `run` goes no further. -/
theorem step_final (hplace : s.place.isFinal = true) (tick : Tick) : m.step s tick = s := by
  cases tick with
  | sigint => exact if_pos hplace
  | go now poll =>
    rw [step_go]
    cases h : s.place with
    | returned rc => rfl
    | exited status => rfl
    | stopped why => rfl
    | top => cases h ▸ hplace
    | outerTest => cases h ▸ hplace
    | process eofSinceData rkmessage => cases h ▸ hplace
    | innerTest eofSinceData => cases h ▸ hplace

/-- How `run` ends. -/
theorem cleanup_eq (rc : Int) :
    ∃ place, m.cleanup rc s
        = (s.setProxy (m.proxy.maybeFlush forceFlush s.proxy).2).goto place ∧
      (place = .returned rc ∨ ∃ why, place = .stopped why) := by
  unfold Program.cleanup
  generalize m.proxy.maybeFlush forceFlush s.proxy = r
  obtain ⟨r, s'⟩ := r
  cases r with
  | ok => exact ⟨_, rfl, .inl rfl⟩
  | fail => exact ⟨_, rfl, .inl rfl⟩
  | stop why => exact ⟨_, rfl, .inr ⟨why, rfl⟩⟩

theorem cleanup_handled (rc : Int) : (m.cleanup rc s).handled = s.handled := by
  obtain ⟨place, heq, -⟩ := cleanup_eq m s rc
  rw [heq]
  rfl

theorem afterStats_handled {next : Main W V → Main W V}
    (hnext : ∀ s, (next s).handled = s.handled) : (m.afterStats now next s).handled = s.handled := by
  have hstats : (m.maybeFlushStats now s).2.handled = s.handled := rfl
  unfold Program.afterStats
  generalize m.maybeFlushStats now s = r at hstats ⊢
  obtain ⟨r, t⟩ := r
  cases r with
  | ok => exact (hnext t).trans hstats
  | fail => exact (hnext t).trans hstats
  | stop why => exact hstats

theorem top_handled : (m.top now s).handled = s.handled := by
  unfold Program.top
  generalize m.proxy.maybeFlush forceFlush s.proxy = r
  obtain ⟨r, t⟩ := r
  cases r with
  | fail => exact cleanup_handled m (s.setProxy t) (-1)
  | stop why => rfl
  | ok => exact afterStats_handled m (s.setProxy t) now fun _ => rfl

theorem burst_handled (eofSinceData : Nat) :
    (Program.burst eofSinceData poll s).handled = s.handled := by
  cases poll <;> rfl

theorem outerTest_handled : (m.outerTest poll s).handled = s.handled := by
  unfold Program.outerTest
  split
  · exact cleanup_handled m s 0
  · exact burst_handled s poll 0

theorem innerTest_handled (eofSinceData : Nat) :
    (m.innerTest eofSinceData now poll s).handled = s.handled := by
  unfold Program.innerTest
  split
  · rfl
  · exact afterStats_handled m s now fun s => burst_handled s poll eofSinceData

theorem process_data_handled (eofSinceData : Nat) (payload : Bytes) :
    (m.process eofSinceData (.data payload) s).handled = s.handled ++ [payload] := by
  unfold Program.process
  dsimp only
  generalize m.proxy.handleMessage payload s.proxy = r
  obtain ⟨r, t⟩ := r
  cases r with
  | ok => rfl
  | stop why => rfl
  | fail => exact cleanup_handled m _ (-1)

/-- The end of a partition is only counted. -/
theorem process_eof (eofSinceData : Nat) :
    m.process eofSinceData .partitionEof s
      = s.goto (if s.shutdownProxy ≠ 0 ∨ 10 ≤ eofSinceData + 1 then .top
        else .innerTest (eofSinceData + 1)) := by
  unfold Program.process
  dsimp only
  split <;> rfl

/-- A step handles no message, or it processes one. -/
theorem step_handled_cases (tick : Tick) :
    (m.step s tick).handled = s.handled ∨
      ∃ eofSinceData payload, m.step s tick = m.process eofSinceData (.data payload) s ∧
        (m.step s tick).handled = s.handled ++ [payload] := by
  by_cases hfinal : s.place.isFinal = true
  · rw [step_final m s hfinal]
    exact .inl rfl
  cases tick with
  | sigint =>
    left
    rw [step_sigint m s (by simpa using hfinal)]
    unfold Main.catchSigint
    dsimp only
    split <;> rfl
  | go now poll =>
    rw [step_go]
    cases s.place with
    | top => exact .inl (top_handled m s now)
    | outerTest => exact .inl (outerTest_handled m s poll)
    | innerTest eofSinceData => exact .inl (innerTest_handled m s now poll eofSinceData)
    | process eofSinceData rkmessage =>
      cases rkmessage with
      | data payload =>
        exact .inr ⟨eofSinceData, payload, rfl, process_data_handled m s eofSinceData payload⟩
      | partitionEof =>
        left
        dsimp only
        rw [process_eof]
        rfl
      | error => exact .inl rfl
    | returned rc => exact .inl rfl
    | exited status => exact .inl rfl
    | stopped why => exact .inl rfl

end Step

/-! ## Statistics -/

/-- `maybe_flush_stats` keeps the counters a key package. -/
theorem Stats.maybeFlushStats_wellFormed (st : Stats V) (now : Int) {s : StatsState V}
    (h : s.statsKp.WellFormed) : (st.maybeFlushStats now s).2.statsKp.WellFormed := by
  have hflush := h.flush st.timeseries s.statsTime.toUInt32 s.env
  unfold Stats.maybeFlushStats
  split
  · exact h
  · dsimp only
    split
    · have hkp : (st.kpFlush s).2.statsKp.WellFormed := hflush
      generalize st.kpFlush s = r at hkp ⊢
      obtain ⟨r, s'⟩ := r
      cases r with
      | ok => exact hkp
      | fail => exact hkp
      | stop why => exact hkp
    · exact h

/-- The statistics only end the process by an interval of 0, or in a callback. -/
theorem Stats.maybeFlushStats_calls (st : Stats V) (now : Int) (s : StatsState V) :
    ∃ new, (st.maybeFlushStats now s).2.env.calls = s.env.calls ++ new ∧
      (st.maybeFlushStats now s).1 ≠ .fail ∧
      ∀ why, (st.maybeFlushStats now s).1 = .stop why →
        (why = .divByZero ∧ st.statsInterval = 0) ∨ ∃ c ∈ new, c.ret = .stop why := by
  unfold Stats.maybeFlushStats statsIntervalNow
  by_cases hzero : st.statsInterval = 0
  · rw [if_pos hzero]
    refine ⟨[], (List.append_nil _).symm, by rintro ⟨⟩, fun why hstop => .inl ⟨?_, hzero⟩⟩
    exact (Ret.stop.inj hstop).symm
  rw [if_neg hzero]
  dsimp only
  split
  · obtain ⟨new, hcalls, hflush⟩ := Kp.flush_single st.backendId st.backend s.statsKp
      s.statsTime.toUInt32 s.env
    have hkp : (st.kpFlush s).2.env.calls = s.env.calls ++ new := hcalls
    have hret : ∀ why, (st.kpFlush s).1 = .stop why → ∃ c ∈ new, c.ret = .stop why := by
      intro why hstop
      have hstop' : (s.statsKp.flush (.single st.backendId st.backend) s.statsTime.toUInt32
        s.env).1 = .stop why := hstop
      rw [hstop'] at hflush
      cases hflush with
      | failed _ _ hcall => exact hcall
    generalize st.kpFlush s = r at hkp hret ⊢
    obtain ⟨r, s'⟩ := r
    cases r with
    | ok => exact ⟨new, hkp, by rintro ⟨⟩, by rintro why ⟨⟩⟩
    | fail => exact ⟨new, hkp, by rintro ⟨⟩, by rintro why ⟨⟩⟩
    | stop why => exact ⟨new, hkp, by rintro ⟨⟩, fun why' hstop => .inr (hret why' hstop)⟩
  · exact ⟨[], (List.append_nil _).symm, by rintro ⟨⟩, by rintro why ⟨⟩⟩

/-- `maybe_flush_stats` leaves the data. What follows it does so unless the process
stops. -/
theorem afterStats_cases (m : Program W V) (now : Int) {s : Main W V}
    (hwf : s.proxy.statsKp.WellFormed) (next : Main W V → Main W V) :
    ∃ t statsKp, statsKp.WellFormed ∧ t.proxy = { s.proxy with statsKp := statsKp } ∧
      t.shutdownProxy = s.shutdownProxy ∧
      ((∃ why, m.afterStats now next s = t.goto (.stopped why)) ∨
        m.afterStats now next s = next t) := by
  have hstats := m.stats.maybeFlushStats_wellFormed now
    (s := ⟨s.proxy.statsKp, s.statsEnv, s.statsTime⟩) hwf
  have hproxy : (m.maybeFlushStats now s).2.proxy = { s.proxy with
    statsKp := (m.stats.maybeFlushStats now ⟨s.proxy.statsKp, s.statsEnv, s.statsTime⟩).2.statsKp } :=
    rfl
  have hsig : (m.maybeFlushStats now s).2.shutdownProxy = s.shutdownProxy := rfl
  unfold Program.afterStats
  generalize m.maybeFlushStats now s = r at hproxy hsig ⊢
  obtain ⟨r, t⟩ := r
  cases r with
  | ok => exact ⟨t, _, hstats, hproxy, hsig, .inr rfl⟩
  | fail => exact ⟨t, _, hstats, hproxy, hsig, .inr rfl⟩
  | stop why => exact ⟨t, _, hstats, hproxy, hsig, .inl ⟨why, rfl⟩⟩

/-- Statistics that go nowhere. -/
def idleStats (statsInterval : Int32) : Stats Unit :=
  ⟨statsInterval, idleProxy.statsKeyPrefix, .ascii, idleProxy.backend⟩

end TskProxy

end Libtimeseries
