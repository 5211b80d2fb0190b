import Libtimeseries.TskChannel
import Libtimeseries.TskRunInvariants

/-!
# What ends the proxy

`run` returns when it is told to, or when a flush fails. Everything else that ends the
process, or keeps it busy for ever, is here.

- `Deadly`: what in a message does so, and how; `handleMessage_stops_iff` says that it is
  nothing else, in whatever state the message is handled;
- `StoppedBy`, `stopped_by`: the process only stops by the last message, in a callback of a
  backend, or by a statistics interval of 0;
- `deadly_run`: no run survives a deadly message.
-/

namespace Libtimeseries

open ByteLib RunLib

namespace TskProxy

variable {W V : Type}

/-! ## Messages -/

/-- What in the records of a message keeps `parse_key_value` from coming to their end. -/
inductive DeadlyRecords (body : Bytes) : Stop → Prop
  /-- a single byte is left over, and nothing consumes it -/
  | strayByte {rest : Bytes} (arrives : Arrives body rest) (one : rest.length = 1) :
      DeadlyRecords body .noReturn
  /-- a key is longer than the local array -/
  | longKey {bytes rest : Bytes} (arrives : Arrives body bytes) (finds : Finds bytes .longKey rest) :
      DeadlyRecords body .overflow

/-- What in a message ends the process. -/
inductive Deadly (cfg : Config) (payload : Bytes) : Stop → Prop
  /-- the `LOG_ERROR` about the channel -/
  | channel (unknown : UnknownChannel cfg payload) (level : logLevelError ≤ cfg.logLevel) :
      Deadly cfg payload .badPointer
  /-- `inc_stat` asserts that the length, as an `int`, is positive -/
  | size (accepts : Accepts cfg payload) (size : ¬ 0 < (Int32.ofNat payload.length).toInt) :
      Deadly cfg payload .assertFailed
  | records {why : Stop} (accepts : Accepts cfg payload)
      (size : 0 < (Int32.ofNat payload.length).toInt)
      (records : DeadlyRecords (recordBytes payload) why) : Deadly cfg payload why

section Loop

variable {cfg : Config} {c : Cursor} {payload bytes : Bytes} {s : State W}

/-- A loop that arrives at a long key writes it behind the array. -/
theorem recordLoop_overflows (hat : c.At payload bytes) (hwf : s.WellFormed) {target rest : Bytes}
    (harr : Arrives bytes target) (hlong : Finds target .longKey rest) {fuel : Nat}
    (hfuel : bytes.length < fuel) : (recordLoop cfg payload fuel c s).1 = .stop .overflow := by
  induction harr using Arrives.rec_finds generalizing c s fuel with
  | here =>
    cases fuel with
    | zero => omega
    | succ fuel =>
      have hremain := hat.remain
      have hpos : 0 < target.length := by
        cases hlong with
        | longKey hlen =>
          rw [List.length_append]
          omega
      obtain ⟨c', s', hparse, -, -⟩ := parseKeyValue_spec cfg hat hlong hwf
      rw [recordLoop, if_pos (by omega), hparse]
      rfl
  | next hfinds hret htwo _ ih =>
    cases fuel with
    | zero => omega
    | succ fuel =>
      have hremain := hat.remain
      obtain ⟨c', s', hparse, hat', hwf'⟩ := parseKeyValue_spec cfg hat hfinds hwf
      have hlt := (hfinds.advance hret htwo).1
      rw [recordLoop, if_pos (by omega), hparse, hret]
      exact ih hat' hwf' (by omega)

variable (cfg) in
/-- The loop returns 0, or stops at something deadly. -/
theorem recordLoop_cases (hat : c.At payload bytes) (hwf : s.WellFormed) {fuel : Nat}
    (hfuel : bytes.length < fuel) :
    (recordLoop cfg payload fuel c s).1 = .ok ∨
      ∃ why, (recordLoop cfg payload fuel c s).1 = .stop why ∧ DeadlyRecords bytes why := by
  induction fuel generalizing c s bytes with
  | zero => exact absurd hfuel (Nat.not_lt_zero _)
  | succ fuel ih =>
    have hremain := hat.remain
    by_cases hone : bytes.length = 1
    · exact .inr ⟨.noReturn, recordLoop_stray hat hwf hone _, .strayByte (.here bytes) hone⟩
    rw [recordLoop]
    split
    · next hpos =>
      have htwo : 2 ≤ bytes.length := by omega
      obtain ⟨x, rest, hfinds⟩ := exists_finds bytes
      obtain ⟨c', s', hparse, hat', hwf'⟩ := parseKeyValue_spec cfg hat hfinds hwf
      rw [hparse]
      cases hret : x.ret with
      | ok =>
        obtain ⟨hlt, harr⟩ := hfinds.advance hret htwo
        rcases ih hat' hwf' (show rest.length < fuel by omega) with hok | ⟨why, hstop, hdeadly⟩
        · exact .inl hok
        · refine .inr ⟨why, hstop, ?_⟩
          cases hdeadly with
          | strayByte arrives one => exact .strayByte (harr _ arrives) one
          | longKey arrives finds => exact .longKey (harr _ arrives) finds
      | fail => exact .inl rfl
      | stop why =>
        cases x with
        | longKey =>
          obtain rfl : Stop.overflow = why := Ret.stop.inj hret
          exact .inr ⟨_, rfl, .longKey (.here bytes) hfinds⟩
        | _ => cases hret
    · exact .inl rfl

/-- The loop stops at what is deadly, and at nothing else. -/
theorem recordLoop_stops_iff (hat : c.At payload bytes) (hwf : s.WellFormed) {fuel : Nat}
    (hfuel : bytes.length < fuel) (why : Stop) :
    (recordLoop cfg payload fuel c s).1 = .stop why ↔ DeadlyRecords bytes why := by
  constructor
  · intro hstop
    rcases recordLoop_cases cfg hat hwf hfuel with hok | ⟨why', hstop', hdeadly⟩
    · rw [hok] at hstop
      cases hstop
    · rw [hstop'] at hstop
      exact Ret.stop.inj hstop ▸ hdeadly
  · intro hdeadly
    cases hdeadly with
    | strayByte arrives one => exact recordLoop_hangs hat hwf arrives one fuel
    | longKey arrives finds => exact recordLoop_overflows hat hwf arrives finds hfuel

end Loop

section Message

variable (p : Proxy W) {payload : Bytes} {s : State W}

/-- A rejected message ends the process if its channel is what is wrong with it, and that
is logged. -/
theorem rejected_stops_iff (hrejected : ¬ Accepts p.cfg payload) (why : Stop) :
    (p.handleMessage payload s).1 = .stop why ↔ Deadly p.cfg payload why := by
  rw [handleMessage_eq, if_neg hrejected]
  constructor
  · intro hstop
    unfold Config.rejects Config.logUnknownChannel at hstop
    split_ifs at hstop with hcomplete hlevel
    obtain rfl : Stop.badPointer = why := Ret.stop.inj hstop
    exact .channel ⟨hcomplete, hrejected⟩ hlevel
  · intro hdeadly
    cases hdeadly with
    | channel hunknown hlevel =>
      unfold Config.rejects Config.logUnknownChannel
      rw [if_pos hunknown.1, if_pos hlevel]
    | size haccepts => exact absurd haccepts hrejected
    | records haccepts => exact absurd haccepts hrejected

/-- An accepted message ends it by its length, or by its records. -/
theorem accepted_stops_iff (h : s.WellFormed) (haccepts : Accepts p.cfg payload)
    (hflush : (p.maybeFlush (headerTime payload).toInt32 s).1 = .ok) (why : Stop) :
    (p.handleMessage payload s).1 = .stop why ↔ Deadly p.cfg payload why := by
  have hwf := maybeFlush_wellFormed p (headerTime payload).toInt32 h
  rw [handleMessage_eq, if_pos haccepts]
  unfold Proxy.beginRecords
  generalize p.maybeFlush (headerTime payload).toInt32 s = r at hwf hflush ⊢
  obtain ⟨r, s₁⟩ := r
  obtain rfl : r = .ok := hflush
  obtain ⟨st₁, hinc₁, hst₁⟩ := incStat_spec p "messages_cnt" Int.one_pos hwf
  rw [andThen_ok, hinc₁, andThen_ok]
  by_cases hsize : 0 < (Int32.ofNat payload.length).toInt
  · obtain ⟨st₂, hinc₂, hst₂⟩ := incStat_spec p "messages_bytes" hsize (hwf.withStats hst₁)
    have hfuel : (recordBytes payload).length < payload.length + 1 := by
      rw [recordBytes, List.length_drop]
      omega
    rw [hinc₂, andThen_ok, recordLoop_stops_iff (recordCursor_at haccepts.1)
      ((hwf.withStats hst₁).withStats hst₂) hfuel]
    constructor
    · exact .records haccepts hsize
    · intro hdeadly
      cases hdeadly with
      | channel hunknown => exact absurd haccepts hunknown.2
      | size _ hnot => exact absurd hsize hnot
      | records _ _ hrecords => exact hrecords
  · have hassert : (p.incStat "messages_bytes" (Int32.ofNat payload.length).toInt
        { s₁ with statsKp := st₁ }) = (.stop .assertFailed, { s₁ with statsKp := st₁ }) := by
      unfold Proxy.incStat incStatKp
      rw [if_neg hsize]
    rw [hassert, andThen_of_ne (by rintro ⟨⟩)]
    constructor
    · intro hstop
      obtain rfl : Stop.assertFailed = why := Ret.stop.inj hstop
      exact .size haccepts hsize
    · intro hdeadly
      cases hdeadly with
      | channel hunknown => exact absurd haccepts hunknown.2
      | size => rfl
      | records _ hpos => exact absurd hpos hsize

/-- **Which messages end the process**: if the flush before its records succeeds, a message
does so if and only if something in it is deadly. -/
theorem handleMessage_stops_iff (h : s.WellFormed)
    (hflush : Accepts p.cfg payload → (p.maybeFlush (headerTime payload).toInt32 s).1 = .ok)
    (why : Stop) : (p.handleMessage payload s).1 = .stop why ↔ Deadly p.cfg payload why := by
  by_cases haccepts : Accepts p.cfg payload
  · exact accepted_stops_iff p h haccepts (hflush haccepts) why
  · exact rejected_stops_iff p haccepts why

/-- A flush ends the process in a callback. -/
theorem maybeFlush_stop (flushTime : Int32) (h : s.WellFormed) (why : Stop)
    (hstop : (p.maybeFlush flushTime s).1 = .stop why) :
    ∃ c ∈ (p.maybeFlush flushTime s).2.env.calls, c.ret = .stop why := by
  obtain ⟨new, hext, hflush⟩ := maybeFlush_spec p flushTime h
  rw [hstop] at hflush
  cases hflush with
  | fails _ _ _ hcall =>
    obtain ⟨c, hc, hret⟩ := hcall
    exact ⟨c, hext.calls ▸ List.mem_append_right _ hc, hret⟩

/-- If the flush does not succeed, that is what the message does. -/
theorem handleMessage_of_flush (haccepts : Accepts p.cfg payload)
    (hflush : (p.maybeFlush (headerTime payload).toInt32 s).1 ≠ .ok) :
    p.handleMessage payload s = p.maybeFlush (headerTime payload).toInt32 s := by
  rw [handleMessage_eq, if_pos haccepts, Proxy.beginRecords, andThen_of_ne hflush,
    andThen_of_ne hflush]

/-- A message ends the process by itself or in a callback. -/
theorem handleMessage_stop (payload : Bytes) (h : s.WellFormed) (why : Stop)
    (hstop : (p.handleMessage payload s).1 = .stop why) :
    Deadly p.cfg payload why ∨
      ∃ c ∈ (p.handleMessage payload s).2.env.calls, c.ret = .stop why := by
  by_cases hflush : Accepts p.cfg payload →
      (p.maybeFlush (headerTime payload).toInt32 s).1 = .ok
  · exact .inl ((handleMessage_stops_iff p h hflush why).mp hstop)
  · obtain ⟨haccepts, hne⟩ := Classical.not_imp.mp hflush
    rw [handleMessage_of_flush p haccepts hne] at hstop ⊢
    exact .inr (maybeFlush_stop p (headerTime payload).toInt32 h why hstop)

end Message

/-! ## Runs -/

/-- What has ended the process. -/
inductive StoppedBy (m : Program W V) (s : Main W V) (why : Stop) : Prop
  | message {payload : Bytes} (last : s.handled.getLast? = some payload)
      (deadly : Deadly m.proxy.cfg payload why)
  | callback (call : ∃ c ∈ s.proxy.env.calls, c.ret = .stop why)
  | statsCallback (call : ∃ c ∈ s.statsEnv.calls, c.ret = .stop why)
  | interval (zero : m.stats.statsInterval = 0) (division : why = .divByZero)

section Steps

variable (m : Program W V) {s : Main W V} {why : Stop}

theorem cleanup_stopped (h : s.proxy.WellFormed) {rc : Int}
    (hplace : (m.cleanup rc s).place = .stopped why) : StoppedBy m (m.cleanup rc s) why := by
  have hcall := maybeFlush_stop m.proxy forceFlush h why
  unfold Program.cleanup at hplace ⊢
  generalize m.proxy.maybeFlush forceFlush s.proxy = r at hcall hplace ⊢
  obtain ⟨r, t⟩ := r
  cases r with
  | ok => cases hplace
  | fail => cases hplace
  | stop why' =>
    obtain rfl : why' = why := Place.stopped.inj hplace
    exact .callback (hcall rfl)

theorem afterStats_stopped (now : Int) {next : Main W V → Main W V}
    (hnext : ∀ s, (next s).place ≠ .stopped why)
    (hplace : (m.afterStats now next s).place = .stopped why) :
    StoppedBy m (m.afterStats now next s) why := by
  obtain ⟨new, hcalls, -, hstop⟩ :=
    m.stats.maybeFlushStats_calls now ⟨s.proxy.statsKp, s.statsEnv, s.statsTime⟩
  have hcalls' : (m.maybeFlushStats now s).2.statsEnv.calls = s.statsEnv.calls ++ new := hcalls
  have hstop' : (m.maybeFlushStats now s).1 = .stop why →
    (why = .divByZero ∧ m.stats.statsInterval = 0) ∨ ∃ c ∈ new, c.ret = .stop why := hstop why
  unfold Program.afterStats at hplace ⊢
  generalize m.maybeFlushStats now s = r at hcalls' hstop' hplace ⊢
  obtain ⟨r, t⟩ := r
  cases r with
  | ok => exact absurd hplace (hnext t)
  | fail => exact absurd hplace (hnext t)
  | stop why' =>
    obtain rfl : why' = why := Place.stopped.inj hplace
    rcases hstop' rfl with ⟨hdivision, hzero⟩ | ⟨c, hc, hret⟩
    · exact .interval hzero hdivision
    · refine .statsCallback ⟨c, ?_, hret⟩
      show c ∈ t.statsEnv.calls
      rw [show t.statsEnv.calls = _ from hcalls']
      exact List.mem_append_right _ hc

theorem top_stopped (h : s.proxy.WellFormed) (now : Int)
    (hplace : (m.top now s).place = .stopped why) : StoppedBy m (m.top now s) why := by
  have hwf := maybeFlush_wellFormed m.proxy forceFlush h
  have hcall := maybeFlush_stop m.proxy forceFlush h why
  unfold Program.top at hplace ⊢
  generalize m.proxy.maybeFlush forceFlush s.proxy = r at hwf hcall hplace ⊢
  obtain ⟨r, t⟩ := r
  cases r with
  | ok => exact afterStats_stopped m now (fun _ => by rintro ⟨⟩) hplace
  | fail => exact cleanup_stopped m (s := s.setProxy t) hwf hplace
  | stop why' =>
    obtain rfl : why' = why := Place.stopped.inj hplace
    exact .callback (hcall rfl)

theorem burst_not_stopped (eofSinceData : Nat) (poll : Option Polled) (s : Main W V) :
    (Program.burst eofSinceData poll s).place ≠ .stopped why := by
  cases poll <;> rintro ⟨⟩

theorem process_stopped (h : s.proxy.WellFormed) (eofSinceData : Nat) (rkmessage : Polled)
    (hplace : (m.process eofSinceData rkmessage s).place = .stopped why) :
    StoppedBy m (m.process eofSinceData rkmessage s) why := by
  cases rkmessage with
  | data payload =>
    have hwf := handleMessage_wellFormed m.proxy payload h
    have hstop := handleMessage_stop m.proxy payload h why
    unfold Program.process at hplace ⊢
    dsimp only at hplace ⊢
    generalize m.proxy.handleMessage payload s.proxy = r at hwf hstop hplace ⊢
    obtain ⟨r, t⟩ := r
    cases r with
    | ok => cases hplace
    | fail => exact cleanup_stopped m (s := Main.setProxy _ t) hwf hplace
    | stop why' =>
      obtain rfl : why' = why := Place.stopped.inj hplace
      rcases hstop rfl with hdeadly | hcall
      · exact .message List.getLast?_concat hdeadly
      · exact .callback hcall
  | partitionEof =>
    rw [process_eof] at hplace
    have hplace' : (if s.shutdownProxy ≠ 0 ∨ 10 ≤ eofSinceData + 1 then Place.top
      else .innerTest (eofSinceData + 1)) = .stopped why := hplace
    split_ifs at hplace'
  | error => cases hplace

/-- One step. -/
theorem step_stopped (h : s.proxy.WellFormed)
    (hs : ∀ why, s.place = .stopped why → StoppedBy m s why) (tick : Tick) (why : Stop)
    (hplace : (m.step s tick).place = .stopped why) : StoppedBy m (m.step s tick) why := by
  by_cases hfinal : s.place.isFinal = true
  · rw [step_final m s hfinal] at hplace ⊢
    exact hs why hplace
  cases tick with
  | sigint =>
    rw [step_sigint m s (by simpa using hfinal)] at hplace
    unfold Main.catchSigint at hplace
    dsimp only at hplace
    split at hplace
    · cases hplace
    · exact absurd (congrArg Place.isFinal hplace) hfinal
  | go now poll =>
    rw [step_go] at hplace ⊢
    cases hat : s.place with
    | top =>
      rw [hat] at hplace
      exact top_stopped m h now hplace
    | outerTest =>
      rw [hat] at hplace
      dsimp only at hplace ⊢
      unfold Program.outerTest at hplace ⊢
      split at hplace
      · next hsig =>
        rw [if_pos hsig]
        exact cleanup_stopped m h hplace
      · exact absurd hplace (burst_not_stopped 0 poll s)
    | process eofSinceData rkmessage =>
      rw [hat] at hplace
      exact process_stopped m h eofSinceData rkmessage hplace
    | innerTest eofSinceData =>
      rw [hat] at hplace
      dsimp only at hplace ⊢
      unfold Program.innerTest at hplace ⊢
      split at hplace
      · cases hplace
      · next hsig =>
        rw [if_neg hsig]
        exact afterStats_stopped m now (burst_not_stopped eofSinceData poll) hplace
    | returned rc => exact absurd (congrArg Place.isFinal hat) hfinal
    | exited status => exact absurd (congrArg Place.isFinal hat) hfinal
    | stopped why => exact absurd (congrArg Place.isFinal hat) hfinal

end Steps

section Run

variable (m : Program W V)

theorem keptBy_wellFormed : KeptBy m fun s _ _ => s.WellFormed :=
  ⟨fun flushTime h => maybeFlush_wellFormed m.proxy flushTime h,
    fun payload h => handleMessage_wellFormed m.proxy payload h,
    fun now h => h.withStats (m.stats.maybeFlushStats_wellFormed now h.statsKp)⟩

/-- **What ends the process**, wherever it is: the last message, a callback of one of the
two backends, or a statistics interval of 0. -/
theorem stopped_by (w : W) (v : V) (statsTime : Int32) (ticks : List Tick) {why : Stop} :
    let s := run m.step (Main.init w v statsTime) ticks
    s.place = .stopped why → StoppedBy m s why := by
  intro s hplace
  have hinv := run_always
    (fun s : Main W V => s.proxy.WellFormed ∧ ∀ why, s.place = .stopped why → StoppedBy m s why)
    (fun s tick h => ⟨(keptBy_wellFormed m).step tick h.1, step_stopped m h.1 h.2 tick⟩)
    (s := Main.init w v statsTime) ⟨State.wellFormed_init w, by rintro why ⟨⟩⟩ ticks
  exact hinv.2 why hplace

variable {m} {D : Bytes → Prop} {Q : Place → Prop}

/-- A message that ends `run` wherever it is handled is the last one. -/
theorem fatal_step {s : Main W V} (hfinal : ∀ place, Q place → place.isFinal = true)
    (hprocess : ∀ (s : Main W V) n payload, s.proxy.WellFormed → D payload →
      Q (m.process n (.data payload) s).place)
    (hwf : s.proxy.WellFormed) (h : ∀ payload ∈ s.handled, D payload → Q s.place) (tick : Tick) :
    ∀ payload ∈ (m.step s tick).handled, D payload → Q (m.step s tick).place := by
  by_cases hover : s.place.isFinal = true
  · rw [step_final m s hover]
    exact h
  -- there was none so far
  have hnone : ∀ payload ∈ s.handled, ¬ D payload := fun payload hmem hD =>
    hover (hfinal s.place (h payload hmem hD))
  rcases step_handled_cases m s tick with hsame | ⟨n, new, hstep, hnew⟩
  · intro payload hmem hD
    exact absurd hD (hnone payload (hsame ▸ hmem))
  · intro payload hmem hD
    rw [hnew, List.mem_append, List.mem_singleton] at hmem
    rw [hstep]
    rcases hmem with hmem | rfl
    · exact absurd hD (hnone payload hmem)
    · exact hprocess s n payload hwf hD

theorem fatal_run (hfinal : ∀ place, Q place → place.isFinal = true)
    (hprocess : ∀ (s : Main W V) n payload, s.proxy.WellFormed → D payload →
      Q (m.process n (.data payload) s).place)
    (w : W) (v : V) (statsTime : Int32) (ticks : List Tick) :
    let s := run m.step (Main.init w v statsTime) ticks
    ∀ payload ∈ s.handled, D payload → Q s.place := by
  have hinv := run_always
    (fun s : Main W V => s.proxy.WellFormed ∧ ∀ payload ∈ s.handled, D payload → Q s.place)
    (fun s tick h =>
      ⟨(keptBy_wellFormed m).step tick h.1, fatal_step hfinal hprocess h.1 h.2 tick⟩)
    (s := Main.init w v statsTime) ⟨State.wellFormed_init w, by rintro payload ⟨⟩⟩ ticks
  exact hinv.2

/-- Nor does it survive a message of an unknown channel, if errors are logged. -/
theorem unknown_run (m : Program W V) (hlevel : logLevelError ≤ m.proxy.cfg.logLevel) (w : W)
    (v : V) (statsTime : Int32) (ticks : List Tick) :
    let s := run m.step (Main.init w v statsTime) ticks
    ∀ payload ∈ s.handled, UnknownChannel m.proxy.cfg payload → s.place = .stopped .badPointer := by
  refine fatal_run (Q := fun place => place = .stopped .badPointer) (fun _ h => congrArg _ h) ?_ w v
    statsTime ticks
  intro s n payload _ hunknown
  unfold Program.process
  dsimp only
  rw [handleMessage_unknown m.proxy hunknown hlevel]
  rfl

end Run

end TskProxy

end Libtimeseries
