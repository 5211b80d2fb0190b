import Libtimeseries.TskRunInvariants

/-!
# What the statistics cannot change

Nothing but `maybe_flush_stats` looks at the statistics, and it leaves the data.

- `SameData`: what the statistics have nothing to do with. No function of the data path
  tells states apart that agree in it (`handleMessage_same`, `maybeFlush_sameData`);
- `Stats.GoesOn`: the statistics have not ended the process so far;
- `data_unaffected`: until they do, their clock, interval and backend have no influence
  on the data.
-/

namespace Libtimeseries

open ByteLib RunLib

namespace TskProxy

variable {W V : Type}

/-! ## The functions -/

/-- The states agree but for the statistics, which are well formed. -/
structure SameData (s s' : State W) : Prop where
  kp : s.kp = s'.kp
  env : s.env = s'.env
  currentTime : s.currentTime = s'.currentTime
  trace : s.trace = s'.trace
  statsKp : s.statsKp.WellFormed
  statsKp' : s'.statsKp.WellFormed

theorem SameData.refl {s : State W} (h : s.statsKp.WellFormed) : SameData s s :=
  ⟨rfl, rfl, rfl, rfl, h, h⟩

theorem SameData.log {s s' : State W} (h : SameData s s') (e : Event) :
    SameData (s.log e) (s'.log e) :=
  ⟨h.kp, h.env, h.currentTime, congrArg (· ++ [e]) h.trace, h.statsKp, h.statsKp'⟩

/-- Functions that return the same on states that agree. -/
def SameResult (r r' : Ret × State W) : Prop := r.1 = r'.1 ∧ SameData r.2 r'.2

theorem SameResult.andThen {r r' : Ret × State W} (h : SameResult r r')
    {next next' : State W → Ret × State W}
    (hnext : ∀ s s', SameData s s' → SameResult (next s) (next' s')) :
    SameResult (andThen r next) (andThen r' next') := by
  obtain ⟨r, s⟩ := r
  obtain ⟨r', s'⟩ := r'
  obtain ⟨hret, hsame⟩ := h
  obtain rfl : r = r' := hret
  cases r with
  | ok => exact hnext s s' hsame
  | fail => exact ⟨rfl, hsame⟩
  | stop why => exact ⟨rfl, hsame⟩

section Same

variable (p : Proxy W) {s s' : State W}

/-- `inc_stat` succeeds or not whatever the counters are. -/
theorem incStat_same (suffix : String) (value : Int) (h : SameData s s') :
    SameResult (p.incStat suffix value s) (p.incStat suffix value s') := by
  by_cases hvalue : 0 < value
  · have hspec := incStatKp_spec h.statsKp (statsKey p.statsKeyPrefix (CString.ofAscii suffix))
      hvalue
    have hspec' := incStatKp_spec h.statsKp' (statsKey p.statsKeyPrefix (CString.ofAscii suffix))
      hvalue
    exact ⟨hspec.1.trans hspec'.1.symm, h.kp, h.env, h.currentTime, h.trace, hspec.2, hspec'.2⟩
  · unfold Proxy.incStat incStatKp
    rw [if_neg hvalue, if_neg hvalue]
    exact ⟨rfl, h⟩

theorem kpFlush_same (h : SameData s s') : SameResult (p.kpFlush s) (p.kpFlush s') := by
  unfold Proxy.kpFlush
  rw [h.kp, h.env, h.currentTime]
  exact ⟨rfl, rfl, rfl, rfl, h.trace, h.statsKp, h.statsKp'⟩

theorem flushGroup_same (h : SameData s s') : SameResult (p.flushGroup s) (p.flushGroup s') := by
  unfold Proxy.flushGroup
  rw [h.kp]
  split
  · refine (incStat_same p _ _ h).andThen fun s s' h => ?_
    rw [h.kp]
    refine (incStat_same p _ _ h).andThen fun s s' h => ?_
    refine (kpFlush_same p h).andThen fun s s' h => ?_
    rw [h.kp]
    exact ⟨rfl, h⟩
  · exact ⟨rfl, h⟩

theorem maybeFlush_sameData (flushTime : Int32) (h : SameData s s') :
    SameResult (p.maybeFlush flushTime s) (p.maybeFlush flushTime s') := by
  have hlog := h.log (.maybeFlush flushTime)
  unfold Proxy.maybeFlush
  dsimp only
  rw [hlog.currentTime]
  split_ifs
  · exact ⟨rfl, hlog.kp, hlog.env, rfl, hlog.trace, hlog.statsKp, hlog.statsKp'⟩
  · exact ⟨rfl, hlog⟩
  · refine (flushGroup_same p hlog).andThen fun s s' h => ?_
    exact ⟨rfl, h.kp, h.env, rfl, h.trace, h.statsKp, h.statsKp'⟩
  · exact ⟨rfl, hlog⟩

theorem parseKeyValue_same (cfg : Config) (payload : Bytes) (c : Cursor) (h : SameData s s') :
    let r := parseKeyValue cfg payload c s
    let r' := parseKeyValue cfg payload c s'
    r.1 = r'.1 ∧ r.2.1 = r'.2.1 ∧ SameData r.2.2 r'.2.2 := by
  unfold parseKeyValue
  split
  · exact ⟨rfl, rfl, h.log _⟩
  · exact ⟨rfl, rfl, h.log _⟩
  · exact ⟨rfl, rfl, h⟩
  · split
    · rw [h.kp]
      refine ⟨rfl, rfl, SameData.log ?_ _⟩
      exact ⟨rfl, h.env, h.currentTime, h.trace, h.statsKp, h.statsKp'⟩
    · exact ⟨rfl, rfl, h⟩

theorem recordLoop_same (cfg : Config) (payload : Bytes) (fuel : Nat) (c : Cursor)
    (h : SameData s s') :
    SameResult (recordLoop cfg payload fuel c s) (recordLoop cfg payload fuel c s') := by
  induction fuel generalizing c s s' with
  | zero => exact ⟨rfl, h⟩
  | succ fuel ih =>
    obtain ⟨hret, hcur, hsame⟩ := parseKeyValue_same cfg payload c h
    rw [recordLoop, recordLoop]
    split
    · generalize parseKeyValue cfg payload c s = r at hret hcur hsame ⊢
      generalize parseKeyValue cfg payload c s' = r' at hret hcur hsame ⊢
      obtain ⟨r, c₁, s₁⟩ := r
      obtain ⟨r', c₁', s₁'⟩ := r'
      obtain rfl : r = r' := hret
      obtain rfl : c₁ = c₁' := hcur
      cases r with
      | ok => exact ih c₁ hsame
      | fail => exact ⟨rfl, hsame⟩
      | stop why => exact ⟨rfl, hsame⟩
    · exact ⟨rfl, h⟩

theorem handleMessage_same (payload : Bytes) (h : SameData s s') :
    SameResult (p.handleMessage payload s) (p.handleMessage payload s') := by
  rw [handleMessage_eq, handleMessage_eq]
  split
  · refine SameResult.andThen ?_ fun s s' h => recordLoop_same p.cfg payload _ _ h
    refine (maybeFlush_sameData p _ h).andThen fun s s' h => ?_
    exact (incStat_same p _ _ h).andThen fun s s' h => incStat_same p _ _ h
  · exact ⟨rfl, h.log _⟩

end Same

/-! ## The program -/

/-- The statistics have not ended the process: their interval is not 0, and all callbacks
have returned. -/
structure Stats.GoesOn (st : Stats V) (e : Env V) : Prop where
  interval : st.statsInterval ≠ 0
  calls : ∀ c ∈ e.calls, c.ret = .ok ∨ c.ret = .fail

theorem Stats.GoesOn.of_append {st : Stats V} {e e' : Env V} (h : st.GoesOn e')
    {new : List (Call V)} (hcalls : e'.calls = e.calls ++ new) : st.GoesOn e :=
  ⟨h.interval, fun c hc => h.calls c (hcalls ▸ List.mem_append_left new hc)⟩

/-- Then `maybe_flush_stats` returns. -/
theorem Stats.GoesOn.maybeFlushStats {st : Stats V} {now : Int} {s : StatsState V}
    (h : st.GoesOn (st.maybeFlushStats now s).2.env) : (st.maybeFlushStats now s).1 = .ok := by
  obtain ⟨new, hcalls, hfail, hstop⟩ := st.maybeFlushStats_calls now s
  cases hret : (st.maybeFlushStats now s).1 with
  | ok => rfl
  | fail => exact absurd hret hfail
  | stop why =>
    rcases hstop why hret with ⟨-, hzero⟩ | ⟨c, hc, hcstop⟩
    · exact absurd hzero h.interval
    · have hreturned := h.calls c (hcalls ▸ List.mem_append_right _ hc)
      rw [hcstop] at hreturned
      rcases hreturned with hok | hfail
      · cases hok
      · cases hfail

/-- The callbacks of the statistics only grow. -/
theorem step_statsCalls (m : Program W V) (s : Main W V) (tick : Tick) :
    ∃ new, (m.step s tick).statsEnv.calls = s.statsEnv.calls ++ new := by
  have hkept : KeptBy m fun _ e _ => ∃ new, e.calls = s.statsEnv.calls ++ new := by
    refine ⟨fun _ h => h, fun _ h => h, fun {s'} now h => ?_⟩
    obtain ⟨new, hnew⟩ := h
    obtain ⟨new', hnew', -⟩ := m.stats.maybeFlushStats_calls now
      ⟨s'.proxy.statsKp, s'.statsEnv, s'.statsTime⟩
    exact ⟨new ++ new', hnew'.trans (by rw [hnew, List.append_assoc])⟩
  exact hkept.step tick ⟨[], (List.append_nil _).symm⟩

/-- The programs agree but for the statistics. -/
structure SameMain {V' : Type} (s : Main W V) (s' : Main W V') : Prop where
  proxy : SameData s.proxy s'.proxy
  shutdownProxy : s.shutdownProxy = s'.shutdownProxy
  place : s.place = s'.place
  handled : s.handled = s'.handled

/-- A tick without the clock. -/
def Tick.timeless : Tick → Option (Option Polled)
  | go _ poll => some poll
  | sigint => none

section SameMain

variable {V' : Type} {s : Main W V} {s' : Main W V'}

theorem SameMain.goto (h : SameMain s s') (place : Place) :
    SameMain (s.goto place) (s'.goto place) :=
  ⟨h.proxy, h.shutdownProxy, rfl, h.handled⟩

theorem SameMain.setProxy (h : SameMain s s') {t t' : State W} (ht : SameData t t') :
    SameMain (s.setProxy t) (s'.setProxy t') :=
  ⟨ht, h.shutdownProxy, h.place, h.handled⟩

theorem SameMain.burst (h : SameMain s s') (eofSinceData : Nat) (poll : Option Polled) :
    SameMain (Program.burst eofSinceData poll s) (Program.burst eofSinceData poll s') := by
  cases poll with
  | none => exact h.goto _
  | some rkmessage => exact h.goto _

theorem SameMain.cleanup (h : SameMain s s') {m : Program W V} {m' : Program W V'}
    (hproxy : m.proxy = m'.proxy) (rc : Int) : SameMain (m.cleanup rc s) (m'.cleanup rc s') := by
  obtain ⟨hret, hsame⟩ := maybeFlush_sameData m.proxy forceFlush h.proxy
  unfold Program.cleanup
  rw [← hproxy]
  generalize m.proxy.maybeFlush forceFlush s.proxy = r at hret hsame ⊢
  generalize m.proxy.maybeFlush forceFlush s'.proxy = r' at hret hsame ⊢
  obtain ⟨r, t⟩ := r
  obtain ⟨r', t'⟩ := r'
  obtain rfl : r = r' := hret
  cases r with
  | ok => exact (h.setProxy hsame).goto _
  | fail => exact (h.setProxy hsame).goto _
  | stop why => exact (h.setProxy hsame).goto _

/-- `maybe_flush_stats` neither fails nor touches the data. -/
theorem SameMain.maybeFlushStats (h : SameMain s s') {m : Program W V} {m' : Program W V'}
    {now now' : Int} (hst : m.stats.GoesOn (m.maybeFlushStats now s).2.statsEnv)
    (hst' : m'.stats.GoesOn (m'.maybeFlushStats now' s').2.statsEnv) :
    (m.maybeFlushStats now s).1 = .ok ∧ (m'.maybeFlushStats now' s').1 = .ok ∧
      SameMain (m.maybeFlushStats now s).2 (m'.maybeFlushStats now' s').2 := by
  refine ⟨hst.maybeFlushStats, hst'.maybeFlushStats, ⟨?_, ?_, ?_, ?_, ?_, ?_⟩, h.shutdownProxy,
    h.place, h.handled⟩
  · exact h.proxy.kp
  · exact h.proxy.env
  · exact h.proxy.currentTime
  · exact h.proxy.trace
  · exact m.stats.maybeFlushStats_wellFormed now h.proxy.statsKp
  · exact m'.stats.maybeFlushStats_wellFormed now' h.proxy.statsKp'

theorem afterStats_statsEnv (m : Program W V) (now : Int) {next : Main W V → Main W V}
    (hnext : ∀ s, (next s).statsEnv = s.statsEnv) (s : Main W V) :
    (m.afterStats now next s).statsEnv = (m.maybeFlushStats now s).2.statsEnv := by
  unfold Program.afterStats
  generalize m.maybeFlushStats now s = r
  obtain ⟨r, t⟩ := r
  cases r with
  | ok => exact hnext t
  | fail => exact hnext t
  | stop why => rfl

/-- What follows `maybe_flush_stats`. -/
theorem SameMain.afterStats (h : SameMain s s') {m : Program W V} {m' : Program W V'}
    {now now' : Int} {next : Main W V → Main W V} {next' : Main W V' → Main W V'}
    (hnext : ∀ s s', SameMain s s' → SameMain (next s) (next' s'))
    (hnextEnv : ∀ s, (next s).statsEnv = s.statsEnv)
    (hnextEnv' : ∀ s, (next' s).statsEnv = s.statsEnv)
    (hst : m.stats.GoesOn (m.afterStats now next s).statsEnv)
    (hst' : m'.stats.GoesOn (m'.afterStats now' next' s').statsEnv) :
    SameMain (m.afterStats now next s) (m'.afterStats now' next' s') := by
  rw [afterStats_statsEnv m now hnextEnv] at hst
  rw [afterStats_statsEnv m' now' hnextEnv'] at hst'
  obtain ⟨hok, hok', hsame⟩ := h.maybeFlushStats hst hst'
  unfold Program.afterStats
  generalize m.maybeFlushStats now s = r at hok hsame ⊢
  generalize m'.maybeFlushStats now' s' = r' at hok' hsame ⊢
  obtain ⟨r, t⟩ := r
  obtain ⟨r', t'⟩ := r'
  obtain rfl : r = .ok := hok
  obtain rfl : r' = .ok := hok'
  exact hnext t t' hsame

theorem burst_statsEnv (eofSinceData : Nat) (poll : Option Polled) (s : Main W V) :
    (Program.burst eofSinceData poll s).statsEnv = s.statsEnv := by
  cases poll <;> rfl

theorem SameMain.top (h : SameMain s s') {m : Program W V} {m' : Program W V'}
    (hproxy : m.proxy = m'.proxy) {now now' : Int} (hst : m.stats.GoesOn (m.top now s).statsEnv)
    (hst' : m'.stats.GoesOn (m'.top now' s').statsEnv) :
    SameMain (m.top now s) (m'.top now' s') := by
  obtain ⟨hret, hsame⟩ := maybeFlush_sameData m.proxy forceFlush h.proxy
  unfold Program.top at hst hst' ⊢
  rw [← hproxy] at hst' ⊢
  generalize m.proxy.maybeFlush forceFlush s.proxy = r at hret hsame hst ⊢
  generalize m.proxy.maybeFlush forceFlush s'.proxy = r' at hret hsame hst' ⊢
  obtain ⟨r, t⟩ := r
  obtain ⟨r', t'⟩ := r'
  obtain rfl : r = r' := hret
  cases r with
  | ok =>
    exact (h.setProxy hsame).afterStats (fun s s' h => h.goto _) (fun _ => rfl) (fun _ => rfl) hst
      hst'
  | fail => exact (h.setProxy hsame).cleanup hproxy _
  | stop why => exact (h.setProxy hsame).goto _

theorem SameMain.process (h : SameMain s s') {m : Program W V} {m' : Program W V'}
    (hproxy : m.proxy = m'.proxy) (eofSinceData : Nat) (rkmessage : Polled) :
    SameMain (m.process eofSinceData rkmessage s) (m'.process eofSinceData rkmessage s') := by
  cases rkmessage with
  | data payload =>
    obtain ⟨hret, hsame⟩ := handleMessage_same m.proxy payload h.proxy
    have hhandled : SameMain { s with handled := s.handled ++ [payload] }
        { s' with handled := s'.handled ++ [payload] } :=
      ⟨h.proxy, h.shutdownProxy, h.place, congrArg (· ++ [payload]) h.handled⟩
    unfold Program.process
    dsimp only
    rw [← hproxy]
    generalize m.proxy.handleMessage payload s.proxy = r at hret hsame ⊢
    generalize m.proxy.handleMessage payload s'.proxy = r' at hret hsame ⊢
    obtain ⟨r, t⟩ := r
    obtain ⟨r', t'⟩ := r'
    obtain rfl : r = r' := hret
    cases r with
    | ok => exact (hhandled.setProxy hsame).goto _
    | fail => exact (hhandled.setProxy hsame).cleanup hproxy _
    | stop why => exact (hhandled.setProxy hsame).goto _
  | partitionEof =>
    unfold Program.process
    dsimp only
    rw [← h.shutdownProxy]
    split
    · exact h.goto _
    · exact h.goto _
  | error => exact h.goto _

/-- One step, with whatever clocks. -/
theorem SameMain.step (h : SameMain s s') {m : Program W V} {m' : Program W V'}
    (hproxy : m.proxy = m'.proxy) {tick tick' : Tick} (htick : tick.timeless = tick'.timeless)
    (hst : m.stats.GoesOn (m.step s tick).statsEnv)
    (hst' : m'.stats.GoesOn (m'.step s' tick').statsEnv) :
    SameMain (m.step s tick) (m'.step s' tick') := by
  cases tick with
  | sigint =>
    cases tick' with
    | go => cases htick
    | sigint =>
      unfold Program.step
      dsimp only
      rw [← h.place]
      split
      · exact h
      · unfold Main.catchSigint
        dsimp only
        rw [h.shutdownProxy]
        split
        · exact ⟨h.proxy, rfl, rfl, h.handled⟩
        · exact ⟨h.proxy, rfl, h.place, h.handled⟩
  | go now poll =>
    cases tick' with
    | sigint => cases htick
    | go now' poll' =>
      obtain rfl : poll = poll' := Option.some.inj htick
      rw [step_go] at hst
      rw [step_go, ← h.place] at hst'
      rw [step_go, step_go, ← h.place]
      cases hplace : s.place with
      | top =>
        rw [hplace] at hst hst'
        exact h.top hproxy hst hst'
      | outerTest =>
        show SameMain (m.outerTest poll s) (m'.outerTest poll s')
        unfold Program.outerTest
        rw [← h.shutdownProxy]
        split
        · exact h.cleanup hproxy 0
        · exact h.burst 0 poll
      | process eofSinceData rkmessage => exact h.process hproxy eofSinceData rkmessage
      | innerTest eofSinceData =>
        rw [hplace] at hst hst'
        dsimp only [Program.innerTest] at hst hst' ⊢
        rw [← h.shutdownProxy] at hst' ⊢
        split
        · exact h.goto _
        · next hsig =>
          rw [if_neg hsig] at hst hst'
          exact h.afterStats (fun s s' h => h.burst eofSinceData poll)
            (burst_statsEnv eofSinceData poll) (burst_statsEnv eofSinceData poll) hst hst'
      | returned rc => exact h
      | exited status => exact h
      | stopped why => exact h

end SameMain

/-- **Statistics have no influence on the data**: two programs with the same proxy, whose
statistics have any intervals, backends and clocks, do the same to their data on the same
messages and signals, and are at the same place, unless the statistics of one of them
have ended the process. -/
theorem data_unaffected {V' : Type} (p : Proxy W) (st : Stats V) (st' : Stats V') (w : W) (v : V)
    (v' : V') (statsTime statsTime' : Int32) (ticks ticks' : List Tick)
    (hticks : ticks.map Tick.timeless = ticks'.map Tick.timeless) :
    let s := run (Program.step ⟨p, st⟩) (Main.init w v statsTime) ticks
    let s' := run (Program.step ⟨p, st'⟩) (Main.init w v' statsTime') ticks'
    st.GoesOn s.statsEnv → st'.GoesOn s'.statsEnv →
      s.place = s'.place ∧ s.handled = s'.handled ∧ s.proxy.kp = s'.proxy.kp ∧
        s.proxy.env = s'.proxy.env ∧ s.proxy.trace = s'.proxy.trace := by
  intro s s' hst hst'
  have hinit : SameMain (Main.init w v statsTime) (Main.init w v' statsTime') :=
    ⟨.refl (Kp.wellFormed_init 1), rfl, rfl, rfl⟩
  have hrel : List.Forall₂ (fun t t' : Tick => t.timeless = t'.timeless) ticks ticks' := by
    rw [← List.forall₂_map_left_iff (R := fun x t' => x = Tick.timeless t'),
      ← List.forall₂_map_right_iff (R := fun x y => x = y), hticks, List.forall₂_same]
    intro x _
    rfl
  have hstep : ∀ (s : Main W V) (s' : Main W V') (t t' : Tick),
      (st.GoesOn s.statsEnv → st'.GoesOn s'.statsEnv → SameMain s s') →
      t.timeless = t'.timeless →
      st.GoesOn (Program.step ⟨p, st⟩ s t).statsEnv →
      st'.GoesOn (Program.step ⟨p, st'⟩ s' t').statsEnv →
      SameMain (Program.step ⟨p, st⟩ s t) (Program.step ⟨p, st'⟩ s' t') := by
    intro s s' t t' h ht hst hst'
    obtain ⟨new, hcalls⟩ := step_statsCalls ⟨p, st⟩ s t
    obtain ⟨new', hcalls'⟩ := step_statsCalls ⟨p, st'⟩ s' t'
    exact (h (hst.of_append hcalls) (hst'.of_append hcalls')).step rfl ht hst hst'
  have hsame := run_simulates
    (fun (s : Main W V) (s' : Main W V') =>
      st.GoesOn s.statsEnv → st'.GoesOn s'.statsEnv → SameMain s s')
    _ hstep (fun _ _ => hinit) hrel hst hst'
  exact ⟨hsame.place, hsame.handled, hsame.proxy.kp, hsame.proxy.env, hsame.proxy.trace⟩

/-- The same messages with two clocks, two intervals and two backends. -/
theorem data_unaffected_twoIntervals :
    let ticks (now : Int) : List Tick :=
      [.go now none, .go now (some (.data (messageA 60 1).payload)), .go now none, .sigint,
        .go now none, .go now none]
    let s := run (Program.step ⟨idleProxy, printedStats⟩) (Main.init () ⟨[]⟩ 0) (ticks 7)
    let s' := run (Program.step ⟨idleProxy, idleStats 1⟩) (Main.init () () 5) (ticks 600)
    s.place = s'.place ∧ s.handled = s'.handled ∧ s.proxy.kp = s'.proxy.kp ∧
      s.proxy.env = s'.proxy.env ∧ s.proxy.trace = s'.proxy.trace :=
  data_unaffected idleProxy printedStats (idleStats 1) () ⟨[]⟩ () 0 5 _ _ rfl
    ⟨by decide, by decide +kernel⟩ ⟨by decide, by decide +kernel⟩

end TskProxy

end Libtimeseries
