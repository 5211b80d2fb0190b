import Libtimeseries.TskRun

/-!
# Invariants over whole runs

`run` itself only calls `maybe_flush`, `handle_message` and `maybe_flush_stats`: what these
three keep, every run keeps (`KeptBy.run`).

The data package and its backend are touched by two functions only: `parse_key_value`
writes a pair, `maybe_flush` flushes. What these two keep, every run of the program keeps,
whatever payloads the broker delivers (`Keeps.run`).
-/

namespace Libtimeseries

open ByteLib RunLib

namespace TskProxy

variable {W V : Type}

/-- A property of the data package and its environment that writing a pair and
flushing keep. -/
structure Keeps (p : Proxy W) (I : Kp → Env W → Prop) : Prop where
  write : ∀ {kp : Kp} {e : Env W} (key : CString) (value : UInt64),
    I kp e → I (writeKeyValue kp key value).2 e
  flush : ∀ {kp : Kp} {e : Env W} (time : UInt32),
    I kp e → I (kp.flush p.timeseries time e).2.1 (kp.flush p.timeseries time e).2.2

section Functions

variable {p : Proxy W} {I : Kp → Env W → Prop} (h : Keeps p I) {s : State W}

/-- What holds before two statements and is kept by the second. -/
theorem keeps_andThen {r : Ret × State W} {next : State W → Ret × State W}
    (hr : I r.2.kp r.2.env)
    (hnext : ∀ s : State W, I s.kp s.env → I (next s).2.kp (next s).2.env) :
    I (andThen r next).2.kp (andThen r next).2.env := by
  obtain ⟨r, s⟩ := r
  cases r with
  | ok => exact hnext s hr
  | fail => exact hr
  | stop why => exact hr

include h

theorem Keeps.flushGroup (hs : I s.kp s.env) :
    I (p.flushGroup s).2.kp (p.flushGroup s).2.env := by
  unfold Proxy.flushGroup
  split
  · -- the statistics are elsewhere
    refine keeps_andThen (r := p.incStat "flush_cnt" 1 s) hs fun s hs => ?_
    refine keeps_andThen (r := p.incStat "flushed_key_cnt" s.kp.enabledSize s) hs fun s hs => ?_
    exact keeps_andThen (r := p.kpFlush s) (h.flush _ hs) fun s hs => hs
  · exact hs

theorem Keeps.maybeFlush (flushTime : Int32) (hs : I s.kp s.env) :
    I (p.maybeFlush flushTime s).2.kp (p.maybeFlush flushTime s).2.env := by
  unfold Proxy.maybeFlush
  dsimp only
  split_ifs
  · exact hs
  · exact hs
  · exact keeps_andThen (h.flushGroup (s := s.log (.maybeFlush flushTime)) hs) fun s hs => hs
  · exact hs

theorem Keeps.parseKeyValue (payload : Bytes) (c : Cursor) (hs : I s.kp s.env) :
    I (parseKeyValue p.cfg payload c s).2.2.kp (parseKeyValue p.cfg payload c s).2.2.env := by
  unfold TskProxy.parseKeyValue
  split
  · exact hs
  · exact hs
  · exact hs
  · split
    · exact h.write _ _ hs
    · exact hs

theorem Keeps.recordLoop (payload : Bytes) (fuel : Nat) (c : Cursor) (hs : I s.kp s.env) :
    I (recordLoop p.cfg payload fuel c s).2.kp (recordLoop p.cfg payload fuel c s).2.env := by
  induction fuel generalizing c s with
  | zero => exact hs
  | succ fuel ih =>
    have hparse := h.parseKeyValue payload c hs
    rw [TskProxy.recordLoop]
    split
    · generalize TskProxy.parseKeyValue p.cfg payload c s = r at hparse ⊢
      obtain ⟨r, c', s'⟩ := r
      cases r with
      | ok => exact ih c' hparse
      | fail => exact hparse
      | stop why => exact hparse
    · exact hs

theorem Keeps.handleMessage (payload : Bytes) (hs : I s.kp s.env) :
    I (p.handleMessage payload s).2.kp (p.handleMessage payload s).2.env := by
  rw [handleMessage_eq]
  split
  · refine keeps_andThen ?_ fun s hs => h.recordLoop _ _ _ hs
    refine keeps_andThen (h.maybeFlush _ hs) fun s hs => ?_
    exact keeps_andThen (r := p.incStat "messages_cnt" 1 s) hs fun s hs => hs
  · exact hs

end Functions

/-- A property of the proxy and of the statistics' environment and time that each of the
functions `run` calls keeps. -/
structure KeptBy (m : Program W V) (I : State W → Env V → Int32 → Prop) : Prop where
  maybeFlush : ∀ {s : State W} {e : Env V} {t : Int32} (flushTime : Int32), I s e t →
    I (m.proxy.maybeFlush flushTime s).2 e t
  handleMessage : ∀ {s : State W} {e : Env V} {t : Int32} (payload : Bytes), I s e t →
    I (m.proxy.handleMessage payload s).2 e t
  maybeFlushStats : ∀ {s : Main W V} (now : Int), I s.proxy s.statsEnv s.statsTime →
    I (m.maybeFlushStats now s).2.proxy (m.maybeFlushStats now s).2.statsEnv
      (m.maybeFlushStats now s).2.statsTime

/-- The property, of the variables of the program. -/
def Main.Has (I : State W → Env V → Int32 → Prop) (s : Main W V) : Prop :=
  I s.proxy s.statsEnv s.statsTime

namespace KeptBy

variable {m : Program W V} {I : State W → Env V → Int32 → Prop} (h : KeptBy m I) {s : Main W V}

theorem burst (eofSinceData : Nat) (poll : Option Polled) (hs : s.Has I) :
    (Program.burst eofSinceData poll s).Has I := by
  cases poll <;> exact hs

include h

/-- The statistics, and what follows them. -/
theorem afterStats (now : Int) {next : Main W V → Main W V}
    (hnext : ∀ s : Main W V, s.Has I → (next s).Has I) (hs : s.Has I) :
    (m.afterStats now next s).Has I := by
  have hstats : (m.maybeFlushStats now s).2.Has I := h.maybeFlushStats now hs
  unfold Program.afterStats
  generalize m.maybeFlushStats now s = r at hstats ⊢
  obtain ⟨r, t⟩ := r
  cases r with
  | ok => exact hnext t hstats
  | fail => exact hnext t hstats
  | stop why => exact hstats

theorem cleanup (rc : Int) (hs : s.Has I) : (m.cleanup rc s).Has I := by
  obtain ⟨place, heq, -⟩ := cleanup_eq m s rc
  rw [heq]
  exact h.maybeFlush TskProxy.forceFlush hs

theorem top (now : Int) (hs : s.Has I) : (m.top now s).Has I := by
  have hflush : (s.setProxy (m.proxy.maybeFlush TskProxy.forceFlush s.proxy).2).Has I :=
    h.maybeFlush TskProxy.forceFlush hs
  unfold Program.top
  generalize m.proxy.maybeFlush TskProxy.forceFlush s.proxy = r at hflush ⊢
  obtain ⟨r, t⟩ := r
  cases r with
  | ok => exact h.afterStats now (fun s hs => hs) hflush
  | fail => exact h.cleanup (-1) hflush
  | stop why => exact hflush

theorem process (eofSinceData : Nat) (rkmessage : Polled) (hs : s.Has I) :
    (m.process eofSinceData rkmessage s).Has I := by
  cases rkmessage with
  | data payload =>
    have hhandle : (Main.setProxy { s with handled := s.handled ++ [payload] }
        (m.proxy.handleMessage payload s.proxy).2).Has I := h.handleMessage payload hs
    unfold Program.process
    dsimp only
    generalize m.proxy.handleMessage payload s.proxy = r at hhandle ⊢
    obtain ⟨r, t⟩ := r
    cases r with
    | ok => exact hhandle
    | stop why => exact hhandle
    | fail => exact h.cleanup (-1) hhandle
  | partitionEof =>
    rw [process_eof]
    exact hs
  | error => exact hs

/-- One step of the program. -/
theorem step (tick : Tick) (hs : s.Has I) : (m.step s tick).Has I := by
  by_cases hfinal : s.place.isFinal = true
  · rw [step_final m s hfinal]
    exact hs
  cases tick with
  | sigint =>
    rw [step_sigint m s (by simpa using hfinal)]
    unfold Main.catchSigint
    dsimp only
    split <;> exact hs
  | go now poll =>
    rw [step_go]
    cases s.place with
    | top => exact h.top now hs
    | outerTest =>
      show (m.outerTest poll s).Has I
      unfold Program.outerTest
      split
      · exact h.cleanup 0 hs
      · exact burst 0 poll hs
    | process eofSinceData rkmessage => exact h.process eofSinceData rkmessage hs
    | innerTest eofSinceData =>
      show (m.innerTest eofSinceData now poll s).Has I
      unfold Program.innerTest
      split
      · exact hs
      · exact h.afterStats now (fun s hs => burst eofSinceData poll hs) hs
    | returned rc => exact hs
    | exited status => exact hs
    | stopped why => exact hs

/-- **What the functions keep, every run keeps.** -/
theorem run (w : W) (v : V) (statsTime : Int32) (hinit : I (State.init w) ⟨v, []⟩ statsTime)
    (ticks : List Tick) : (RunLib.run m.step (Main.init w v statsTime) ticks).Has I := by
  have hstart : (Main.init w v statsTime).Has I := hinit
  exact run_always (fun s : Main W V => s.Has I) (fun _ tick hs => h.step tick hs) hstart ticks

end KeptBy

/-- What writing and flushing keep, every run keeps. -/
theorem Keeps.run {m : Program W V} {I : Kp → Env W → Prop} (h : Keeps m.proxy I) (w : W) (v : V)
    (statsTime : Int32) (hinit : I (Kp.init 2) ⟨w, []⟩) (ticks : List Tick) :
    I (RunLib.run m.step (Main.init w v statsTime) ticks).proxy.kp
      (RunLib.run m.step (Main.init w v statsTime) ticks).proxy.env := by
  -- the statistics are elsewhere
  have hkept : KeptBy m fun s _ _ => I s.kp s.env :=
    ⟨fun flushTime hs => h.maybeFlush flushTime hs, fun payload hs => h.handleMessage payload hs,
      fun _ hs => hs⟩
  exact hkept.run w v statsTime hinit ticks

end TskProxy

end Libtimeseries
