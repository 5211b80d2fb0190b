import Libtimeseries.TskRunFlushes
import Libtimeseries.TskStops

/-!
# How the main loop comes to rest

- `run_shutsDown`: a `SIGINT` ends `run` within four steps, and at most one more
  message is handled, unless one of the steps itself never ends;
- `idle_delivered`: while no message comes, ten reports of the end of a partition,
  or one poll that gets nothing, are enough for everything to be delivered.
-/

namespace Libtimeseries

open ByteLib GroupLib LastWrite RunLib

namespace TskProxy

variable {W V : Type}

/-! ## Shutting down -/

/-- How many steps `run` needs at most, once `shutdown_proxy` is set. -/
def Place.stepsLeft : Place → Nat
  | process _ _ => 4
  | innerTest _ => 3
  | top => 2
  | outerTest => 1
  | returned _ | exited _ | stopped _ => 0

/-- `run` has returned, or the process has ended. It does neither in a loop that never ends. -/
def Place.isOver : Place → Bool
  | returned _ | exited _ => true
  | stopped why => why ≠ .noReturn
  | _ => false

/-- The message that is about to be handled. -/
def Place.pending : Place → Nat
  | process _ (.data _) => 1
  | _ => 0

def Tick.isGo : Tick → Bool
  | go _ _ => true
  | sigint => false

theorem stepsLeft_eq_zero {place : Place} : place.stepsLeft = 0 ↔ place.isFinal = true := by
  cases place <;> simp [Place.stepsLeft, Place.isFinal]

section Shutdown

variable (m : Program W V) {s : Main W V}

theorem cleanup_place (rc : Int) (s : Main W V) : (m.cleanup rc s).place.isFinal = true := by
  obtain ⟨place, heq, rfl | ⟨why, rfl⟩⟩ := cleanup_eq m s rc
  · rw [heq]
    rfl
  · rw [heq]
    rfl

theorem cleanup_shutdownProxy (rc : Int) (s : Main W V) :
    (m.cleanup rc s).shutdownProxy = s.shutdownProxy := by
  obtain ⟨place, heq, -⟩ := cleanup_eq m s rc
  rw [heq]
  rfl

/-- After the flushes at the top comes the test, or the end. -/
theorem top_place (now : Int) (s : Main W V) :
    (m.top now s).shutdownProxy = s.shutdownProxy ∧
      ((m.top now s).place = .outerTest ∨ (m.top now s).place.isFinal = true) := by
  unfold Program.top
  generalize m.proxy.maybeFlush forceFlush s.proxy = r
  obtain ⟨r, t⟩ := r
  cases r with
  | fail => exact ⟨cleanup_shutdownProxy m (-1) (s.setProxy t), .inr (cleanup_place m (-1) _)⟩
  | stop why => exact ⟨rfl, .inr rfl⟩
  | ok =>
    have hstats : (m.maybeFlushStats now (s.setProxy t)).2.shutdownProxy = s.shutdownProxy := rfl
    dsimp only
    unfold Program.afterStats
    generalize m.maybeFlushStats now (s.setProxy t) = r at hstats ⊢
    obtain ⟨r, s'⟩ := r
    cases r with
    | ok => exact ⟨hstats, .inl rfl⟩
    | fail => exact ⟨hstats, .inl rfl⟩
    | stop why => exact ⟨hstats, .inr rfl⟩

/-- A message is followed by the test behind it, by the top of the outer loop, or by the
end. -/
theorem process_place (eofSinceData : Nat) (rkmessage : Polled) (s : Main W V) :
    let s' := m.process eofSinceData rkmessage s
    s'.shutdownProxy = s.shutdownProxy ∧
      (s'.place = .top ∨ (∃ n, s'.place = .innerTest n) ∨ s'.place.isFinal = true) := by
  cases rkmessage with
  | data payload =>
    unfold Program.process
    dsimp only
    generalize m.proxy.handleMessage payload s.proxy = r
    obtain ⟨r, t⟩ := r
    cases r with
    | ok => exact ⟨rfl, .inr (.inl ⟨0, rfl⟩)⟩
    | fail => exact ⟨cleanup_shutdownProxy m (-1) _, .inr (.inr (cleanup_place m (-1) _))⟩
    | stop why => exact ⟨rfl, .inr (.inr rfl)⟩
  | partitionEof =>
    dsimp only
    rw [process_eof]
    refine ⟨rfl, ?_⟩
    split
    · exact .inl rfl
    · exact .inr (.inl ⟨_, rfl⟩)
  | error => exact ⟨rfl, .inr (.inl ⟨_, rfl⟩)⟩

theorem catchSigint_shutdownProxy (s : Main W V) :
    s.catchSigint.shutdownProxy = s.shutdownProxy + 1 := by
  unfold Main.catchSigint
  dsimp only
  split <;> rfl

/-- One step towards the end. -/
theorem step_shutsDown (h : s.shutdownProxy ≠ 0) (tick : Tick) :
    (m.step s tick).shutdownProxy ≠ 0 ∧
      (m.step s tick).place.stepsLeft ≤ s.place.stepsLeft - (if tick.isGo then 1 else 0) ∧
      (m.step s tick).handled.length + (m.step s tick).place.pending
        ≤ s.handled.length + s.place.pending := by
  by_cases hfinal : s.place.isFinal = true
  · rw [step_final m s hfinal, stepsLeft_eq_zero.mpr hfinal]
    exact ⟨h, Nat.zero_le _, Nat.le_refl _⟩
  have hend : ∀ {place : Place}, place.isFinal = true → place.stepsLeft = 0 ∧ place.pending = 0 := by
    intro place hplace
    cases place <;> first | exact ⟨rfl, rfl⟩ | cases hplace
  cases tick with
  | sigint =>
    rw [step_sigint m s (by simpa using hfinal)]
    refine ⟨by rw [catchSigint_shutdownProxy]; exact Nat.succ_ne_zero _, ?_⟩
    unfold Main.catchSigint
    dsimp only
    split
    · exact ⟨Nat.zero_le _, Nat.le_add_right _ _⟩
    · exact ⟨Nat.le_refl _, Nat.le_refl _⟩
  | go now poll =>
    rw [step_go]
    cases hplace : s.place with
    | top =>
      obtain ⟨hsig, hnext⟩ := top_place m now s
      dsimp only
      rw [hsig, top_handled]
      refine ⟨h, ?_⟩
      rcases hnext with hnext | hnext
      · rw [hnext]
        exact ⟨Nat.le_refl _, Nat.le_refl _⟩
      · rw [(hend hnext).1, (hend hnext).2]
        exact ⟨Nat.zero_le _, Nat.le_refl _⟩
    | outerTest =>
      have heq : m.outerTest poll s = m.cleanup 0 s := if_pos h
      dsimp only
      rw [heq, cleanup_shutdownProxy, cleanup_handled, (hend (cleanup_place m 0 s)).1,
        (hend (cleanup_place m 0 s)).2]
      exact ⟨h, Nat.zero_le _, Nat.le_refl _⟩
    | process eofSinceData rkmessage =>
      obtain ⟨hsig, hnext⟩ := process_place m eofSinceData rkmessage s
      have hhandled : (m.process eofSinceData rkmessage s).handled.length
          = s.handled.length + (Place.process eofSinceData rkmessage).pending := by
        cases rkmessage with
        | data payload =>
          rw [process_data_handled, List.length_append]
          rfl
        | partitionEof =>
          rw [process_eof]
          rfl
        | error => rfl
      dsimp only at hsig hnext ⊢
      rw [hsig, hhandled]
      refine ⟨h, ?_⟩
      rcases hnext with hnext | ⟨n, hnext⟩ | hnext
      · rw [hnext]
        exact ⟨Nat.le_succ 2, Nat.le_refl _⟩
      · rw [hnext]
        exact ⟨Nat.le_refl _, Nat.le_refl _⟩
      · rw [(hend hnext).1, (hend hnext).2]
        exact ⟨Nat.zero_le _, Nat.le_refl _⟩
    | innerTest eofSinceData =>
      have heq : m.innerTest eofSinceData now poll s = s.goto .top := if_pos h
      dsimp only
      rw [heq]
      exact ⟨h, Nat.le_refl _, Nat.le_refl _⟩
    | returned rc => exact absurd (congrArg Place.isFinal hplace) hfinal
    | exited status => exact absurd (congrArg Place.isFinal hplace) hfinal
    | stopped why => exact absurd (congrArg Place.isFinal hplace) hfinal

/-- Four steps after the signal `run` goes no further, and at most one more message has
been handled. -/
theorem run_goesNoFurther (h : s.shutdownProxy ≠ 0) {ticks : List Tick}
    (hgo : 4 ≤ ticks.countP Tick.isGo) :
    (run m.step s ticks).place.isFinal = true ∧
      (run m.step s ticks).handled.length ≤ s.handled.length + 1 := by
  have hinv : ∀ (s : Main W V) tick, s.shutdownProxy ≠ 0 → (m.step s tick).shutdownProxy ≠ 0 :=
    fun s tick hs => (step_shutsDown m hs tick).1
  have hsteps := run_measure (fun s : Main W V => s.shutdownProxy ≠ 0)
    (fun s => s.place.stepsLeft) Tick.isGo hinv
    (fun s tick hs => (step_shutsDown m hs tick).2.1) h ticks
  have hhandled := run_measure (fun s : Main W V => s.shutdownProxy ≠ 0)
    (fun s => s.handled.length + s.place.pending) (fun _ => false) hinv
    (fun s tick hs => (step_shutsDown m hs tick).2.2) h ticks
  constructor
  · refine stepsLeft_eq_zero.mp ?_
    have hle : s.place.stepsLeft ≤ 4 := by cases s.place <;> simp [Place.stepsLeft]
    omega
  · have hle : s.place.pending ≤ 1 := by
      cases s.place with
      | process eofSinceData rkmessage => cases rkmessage <;> simp [Place.pending]
      | _ => simp [Place.pending]
    omega

/-- **Shutting down**: wherever the signal arrives, at most one more message is handled, and
four steps later `run` is over, unless it hangs: in a callback of one of the backends, or in
the record loop, over the last message. -/
theorem run_shutsDown (w : W) (v : V) (statsTime : Int32) (ticks ticks' : List Tick) :
    let s := run m.step (Main.init w v statsTime) ticks
    let s' := run m.step s ticks'
    s.shutdownProxy ≠ 0 → 4 ≤ ticks'.countP Tick.isGo →
      s'.handled.length ≤ s.handled.length + 1 ∧
        (s'.place.isOver = true ∨ s'.place = .stopped .noReturn ∧ StoppedBy m s' .noReturn) := by
  intro s s' h hgo
  obtain ⟨hfinal, hhandled⟩ := run_goesNoFurther m h hgo
  refine ⟨hhandled, ?_⟩
  have hfinal' : s'.place.isFinal = true := hfinal
  cases hplace : s'.place with
  | returned rc => exact .inl rfl
  | exited status => exact .inl rfl
  | stopped why =>
    by_cases hhangs : why = .noReturn
    · subst hhangs
      have hrun : s' = run m.step (Main.init w v statsTime) (ticks ++ ticks') :=
        (run_append m.step _ ticks ticks').symm
      refine .inr ⟨rfl, ?_⟩
      rw [hrun] at hplace ⊢
      exact stopped_by m w v statsTime _ hplace
    · exact .inl (decide_eq_true hhangs)
  | _ => rw [hplace] at hfinal'; cases hfinal'

end Shutdown

/-- The signal arrives behind the first message of a burst. -/
theorem run_shutsDown_burstOfTwo :
    let s := run (Program.step ⟨idleProxy, idleStats 60⟩) (Main.init () () 0) (burstOfTwo.take 5)
    let s' := run (Program.step ⟨idleProxy, idleStats 60⟩) s (burstOfTwo.drop 5)
    s'.handled.length ≤ s.handled.length + 1 ∧
      (s'.place.isOver = true ∨
        s'.place = .stopped .noReturn ∧ StoppedBy ⟨idleProxy, idleStats 60⟩ s' .noReturn) :=
  run_shutsDown ⟨idleProxy, idleStats 60⟩ () () 0 (burstOfTwo.take 5) (burstOfTwo.drop 5)
    (by decide +kernel) (by decide +kernel)

/-! ## Idling -/

/-- The step processes the report of the end of a partition. -/
def eofAt (s : Main W V) : Tick → Bool
  | .go _ _ =>
    match s.place with
    | .process _ .partitionEof => true
    | _ => false
  | .sigint => false

/-- The step polls and gets nothing. -/
def emptyAt (s : Main W V) : Tick → Bool
  | .go _ none =>
    match s.place with
    | .outerTest | .innerTest _ => decide (s.shutdownProxy = 0)
    | _ => false
  | _ => false

/-- How many reports of the end of a partition a run processes. -/
def eofs (m : Program W V) (s : Main W V) (ticks : List Tick) : Nat :=
  (outputs m.step eofAt s ticks).count true

/-- `eof_since_data` -/
def Place.eofSinceData? : Place → Option Nat
  | process eofSinceData _ | innerTest eofSinceData => some eofSinceData
  | _ => none

/-- A step adds the message it handles, if any. -/
theorem step_handled (m : Program W V) (s : Main W V) (tick : Tick) :
    ∃ new, (m.step s tick).handled = s.handled ++ new := by
  rcases step_handled_cases m s tick with hsame | ⟨_, payload, -, hnew⟩
  · exact ⟨[], by rw [hsame, List.append_nil]⟩
  · exact ⟨[payload], hnew⟩

/-- In a run that handles no message no step does. -/
theorem handled_step_of_run (m : Program W V) {s : Main W V} {tick : Tick} {ticks : List Tick}
    (h : (run m.step s (tick :: ticks)).handled = s.handled) :
    (m.step s tick).handled = s.handled := by
  have hle := run_rel (fun s s' : Main W V => s.handled.length ≤ s'.handled.length)
    (fun _ => Nat.le_refl _) (fun _ _ _ => Nat.le_trans)
    (fun s tick => by
      obtain ⟨new, heq⟩ := step_handled m s tick
      rw [heq, List.length_append]
      exact Nat.le_add_right _ _)
    (m.step s tick) ticks
  obtain ⟨new, heq⟩ := step_handled m s tick
  rw [← run_cons, h, heq, List.length_append] at hle
  obtain rfl : new = [] := List.eq_nil_of_length_eq_zero (by omega)
  rw [heq, List.append_nil]

/-- Everything is delivered, or about to be, or `run` is over. -/
def Rests (cfg : Config) (ms : List (Message cfg)) (s : Main W V) : Prop :=
  s.place = .top ∨ s.place.isFinal = true ∨ AtRest cfg ms s.proxy

/-- Otherwise at least `n` reports of the end of a partition have been counted. -/
def Idles (cfg : Config) (ms : List (Message cfg)) (n : Nat) (s : Main W V) : Prop :=
  Rests cfg ms s ∨ ∃ k, s.place.eofSinceData? = some k ∧ n ≤ k ∧ k < 10

section Idle

variable {m : Program W V} {s : Main W V} {ms : List (Message m.proxy.cfg)}

theorem AtRest.withStats {cfg : Config} {ms : List (Message cfg)} {s : State W}
    (h : AtRest cfg ms s) {statsKp : Kp} (hstats : statsKp.WellFormed) :
    AtRest cfg ms { s with statsKp := statsKp } := by
  obtain ⟨items, hrun, hnone⟩ := h
  exact ⟨items, hrun.withStats hstats, hnone⟩

theorem AtRest.wellFormed {cfg : Config} {ms : List (Message cfg)} {s : State W}
    (h : AtRest cfg ms s) : s.WellFormed := by
  obtain ⟨items, hrun, -⟩ := h
  exact hrun.follows.collects.wf

theorem Progress.wellFormed {cfg : Config} {ms : List (Message cfg)} {s : State W} {place : Place}
    (h : Progress cfg ms s place) (hplace : place.isFinal = false) : s.WellFormed := by
  obtain ⟨items, hrun⟩ := h.running hplace
  exact hrun.follows.collects.wf

theorem rests_burst (h : AtRest m.proxy.cfg ms s.proxy) (eofSinceData : Nat)
    (poll : Option Polled) : Rests m.proxy.cfg ms (Program.burst eofSinceData poll s) := by
  cases poll with
  | none => exact .inl rfl
  | some rkmessage => exact .inr (.inr h)

/-- The next place of the inner loop. -/
theorem innerTest_cases (hwf : s.proxy.WellFormed) (eofSinceData : Nat) (now : Int)
    (poll : Option Polled) :
    let s' := m.innerTest eofSinceData now poll s
    s'.place = .top ∨ s'.place.isFinal = true ∨
      ∃ (t : Main W V) (statsKp : Kp) (rkmessage : Polled), statsKp.WellFormed ∧
        t.proxy = { s.proxy with statsKp := statsKp } ∧ poll = some rkmessage ∧
          s' = t.goto (.process eofSinceData rkmessage) := by
  unfold Program.innerTest
  split
  · exact .inl rfl
  · obtain ⟨t, statsKp, hstats, hproxy, -, ⟨why, heq⟩ | heq⟩ := afterStats_cases m now
      hwf.statsKp fun s => Program.burst eofSinceData poll s
    · rw [heq]
      exact .inr (.inl rfl)
    · rw [heq]
      cases poll with
      | none => exact .inl rfl
      | some rkmessage => exact .inr (.inr ⟨t, statsKp, rkmessage, hstats, hproxy, rfl, rfl⟩)

theorem Rests.atRest (h : Rests m.proxy.cfg ms s) (hfinal : ¬ s.place.isFinal = true)
    (htop : s.place ≠ .top) : AtRest m.proxy.cfg ms s.proxy :=
  (h.resolve_left htop).resolve_left hfinal

/-- What has come to rest stays so while no message is handled. -/
theorem Rests.step (h : Rests m.proxy.cfg ms s) (tick : Tick)
    (hnext : Progress m.proxy.cfg ms (m.step s tick).proxy (m.step s tick).place)
    (hhandled : (m.step s tick).handled = s.handled) : Rests m.proxy.cfg ms (m.step s tick) := by
  by_cases hfinal : s.place.isFinal = true
  · rw [step_final m s hfinal]
    exact .inr (.inl hfinal)
  cases tick with
  | sigint =>
    rw [step_sigint m s (by simpa using hfinal)]
    unfold Main.catchSigint
    dsimp only
    split
    · exact .inr (.inl rfl)
    · exact h
  | go now poll =>
    rw [step_go] at hnext hhandled ⊢
    cases hplace : s.place with
    | top =>
      -- the forced flush
      rw [hplace] at hnext
      obtain ⟨-, hnext' | hnext'⟩ := top_place m now s
      · dsimp only at hnext
        rw [hnext'] at hnext
        exact .inr (.inr hnext)
      · exact .inr (.inl hnext')
    | outerTest =>
      rw [hplace] at hnext
      dsimp only at hnext ⊢
      have hrest := h.atRest hfinal (by rw [hplace]; rintro ⟨⟩)
      unfold Program.outerTest
      split
      · exact .inr (.inl (cleanup_place m 0 s))
      · exact rests_burst hrest 0 poll
    | process eofSinceData rkmessage =>
      rw [hplace] at hhandled
      have hrest := h.atRest hfinal (by rw [hplace]; rintro ⟨⟩)
      cases rkmessage with
      | data payload =>
        dsimp only at hhandled
        rw [process_data_handled] at hhandled
        simpa using congrArg List.length hhandled
      | partitionEof =>
        dsimp only
        rw [process_eof]
        exact .inr (.inr hrest)
      | error => exact .inr (.inr hrest)
    | innerTest eofSinceData =>
      have hrest := h.atRest hfinal (by rw [hplace]; rintro ⟨⟩)
      dsimp only
      obtain htop | hend | ⟨t, statsKp, rkmessage, hstats, hproxy, -, heq⟩ :=
        innerTest_cases (m := m) hrest.wellFormed eofSinceData now poll
      · exact .inl htop
      · exact .inr (.inl hend)
      · rw [heq]
        refine .inr (.inr ?_)
        show AtRest m.proxy.cfg ms t.proxy
        rw [hproxy]
        exact hrest.withStats hstats
    | returned rc => exact absurd (congrArg Place.isFinal hplace) hfinal
    | exited status => exact absurd (congrArg Place.isFinal hplace) hfinal
    | stopped why => exact absurd (congrArg Place.isFinal hplace) hfinal

/-- A step that handles no message, with the reports counted. -/
theorem Idles.step {n : Nat} (h : Idles m.proxy.cfg ms n s) (tick : Tick)
    (hprogress : Progress m.proxy.cfg ms s.proxy s.place)
    (hnext : Progress m.proxy.cfg ms (m.step s tick).proxy (m.step s tick).place)
    (hhandled : (m.step s tick).handled = s.handled) :
    Idles m.proxy.cfg ms (n + if eofAt s tick then 1 else 0) (m.step s tick) := by
  rcases h with h | ⟨k, hk, hn, hlt⟩
  · exact .inl (h.step tick hnext hhandled)
  have hfinal : s.place.isFinal = false := by
    cases hplace : s.place <;> rw [hplace] at hk <;> first | rfl | cases hk
  cases tick with
  | sigint =>
    rw [step_sigint m s hfinal, show eofAt s .sigint = false from rfl, if_neg Bool.false_ne_true]
    unfold Main.catchSigint
    dsimp only
    split
    · exact .inl (.inr (.inl rfl))
    · exact .inr ⟨k, hk, hn, hlt⟩
  | go now poll =>
    rw [step_go] at hhandled ⊢
    cases hplace : s.place with
    | process eofSinceData rkmessage =>
      rw [hplace] at hk hhandled
      obtain rfl : eofSinceData = k := Option.some.inj hk
      cases rkmessage with
      | data payload =>
        dsimp only at hhandled
        rw [process_data_handled] at hhandled
        simpa using congrArg List.length hhandled
      | partitionEof =>
        have heof : eofAt s (.go now poll) = true := by
          unfold eofAt
          rw [hplace]
        dsimp only
        rw [process_eof, heof, if_pos rfl]
        split
        · exact .inl (.inl rfl)
        · next hnot => exact .inr ⟨eofSinceData + 1, rfl, by omega, by omega⟩
      | error =>
        have heof : eofAt s (.go now poll) = false := by
          unfold eofAt
          rw [hplace]
        rw [heof, if_neg Bool.false_ne_true]
        exact .inr ⟨eofSinceData, rfl, hn, hlt⟩
    | innerTest eofSinceData =>
      have heof : eofAt s (.go now poll) = false := by
        unfold eofAt
        rw [hplace]
      rw [hplace] at hk
      obtain rfl : eofSinceData = k := Option.some.inj hk
      rw [heof, if_neg Bool.false_ne_true]
      dsimp only
      obtain htop | hend | ⟨t, statsKp, rkmessage, -, -, -, heq⟩ :=
        innerTest_cases (m := m) (hprogress.wellFormed hfinal) eofSinceData now poll
      · exact .inl (.inl htop)
      · exact .inl (.inr (.inl hend))
      · rw [heq]
        exact .inr ⟨eofSinceData, rfl, hn, hlt⟩
    | top => rw [hplace] at hk; cases hk
    | outerTest => rw [hplace] at hk; cases hk
    | returned rc => rw [hplace] at hk; cases hk
    | exited status => rw [hplace] at hk; cases hk
    | stopped why => rw [hplace] at hk; cases hk

/-- A poll that gets nothing leads to the top of the outer loop. -/
theorem rests_of_empty (hprogress : Progress m.proxy.cfg ms s.proxy s.place) {tick : Tick}
    (hempty : emptyAt s tick = true) : Rests m.proxy.cfg ms (m.step s tick) := by
  unfold emptyAt at hempty
  split at hempty
  · next now =>
    rw [step_go]
    cases hplace : s.place with
    | outerTest =>
      rw [hplace] at hempty
      have hsig : s.shutdownProxy = 0 := of_decide_eq_true hempty
      exact .inl (congrArg Main.place (if_neg (not_not.mpr hsig)))
    | innerTest eofSinceData =>
      dsimp only
      obtain htop | hend | ⟨t, statsKp, rkmessage, -, -, hpoll, -⟩ :=
        innerTest_cases (m := m) (hprogress.wellFormed (by rw [hplace]; rfl)) eofSinceData now none
      · exact .inl htop
      · exact .inr (.inl hend)
      · cases hpoll
    | top => rw [hplace] at hempty; cases hempty
    | process eofSinceData rkmessage => rw [hplace] at hempty; cases hempty
    | returned rc => rw [hplace] at hempty; cases hempty
    | exited status => rw [hplace] at hempty; cases hempty
    | stopped why => rw [hplace] at hempty; cases hempty
  · cases hempty

/-- `eof_since_data` stays below 10. -/
theorem eofSinceData_step (h : ∀ k, s.place.eofSinceData? = some k → k < 10) (tick : Tick) (k : Nat)
    (hk : (m.step s tick).place.eofSinceData? = some k) : k < 10 := by
  by_cases hfinal : s.place.isFinal = true
  · rw [step_final m s hfinal] at hk
    exact h k hk
  have hend : ∀ {place : Place}, place.isFinal = true → place.eofSinceData? = none := by
    intro place hplace
    cases place <;> first | rfl | cases hplace
  have hburst : ∀ (s : Main W V) n poll, (Program.burst n poll s).place.eofSinceData? = some k →
      k = n := by
    intro s n poll hk
    cases poll with
    | none => cases hk
    | some rkmessage => exact (Option.some.inj hk).symm
  cases tick with
  | sigint =>
    rw [step_sigint m s (by simpa using hfinal)] at hk
    unfold Main.catchSigint at hk
    dsimp only at hk
    split at hk
    · cases hk
    · exact h k hk
  | go now poll =>
    rw [step_go] at hk
    cases hplace : s.place with
    | top =>
      rw [hplace] at hk
      obtain ⟨-, hnext | hnext⟩ := top_place m now s
      · dsimp only at hk
        rw [hnext] at hk
        cases hk
      · dsimp only at hk
        rw [hend hnext] at hk
        cases hk
    | outerTest =>
      rw [hplace] at hk
      dsimp only at hk
      unfold Program.outerTest at hk
      split at hk
      · rw [hend (cleanup_place m 0 s)] at hk
        cases hk
      · rw [hburst s 0 poll hk]
        exact Nat.succ_pos 9
    | process eofSinceData rkmessage =>
      rw [hplace] at h hk
      cases rkmessage with
      | data payload =>
        dsimp only [Program.process] at hk
        generalize m.proxy.handleMessage payload s.proxy = r at hk
        obtain ⟨r, t⟩ := r
        cases r with
        | ok =>
          obtain rfl : 0 = k := Option.some.inj hk
          exact Nat.succ_pos 9
        | fail =>
          dsimp only at hk
          rw [hend (cleanup_place m (-1) _)] at hk
          cases hk
        | stop why => cases hk
      | partitionEof =>
        dsimp only at hk
        rw [process_eof] at hk
        split at hk
        · cases hk
        · next hnot =>
          obtain rfl : eofSinceData + 1 = k := Option.some.inj hk
          omega
      | error => exact h k hk
    | innerTest eofSinceData =>
      rw [hplace] at h hk
      dsimp only [Program.innerTest] at hk
      split at hk
      · cases hk
      · unfold Program.afterStats at hk
        generalize m.maybeFlushStats now s = r at hk
        obtain ⟨r, t⟩ := r
        cases r with
        | ok => exact hburst t eofSinceData poll hk ▸ h eofSinceData rfl
        | fail => exact hburst t eofSinceData poll hk ▸ h eofSinceData rfl
        | stop why => cases hk
    | returned rc => exact absurd (congrArg Place.isFinal hplace) hfinal
    | exited status => exact absurd (congrArg Place.isFinal hplace) hfinal
    | stopped why => exact absurd (congrArg Place.isFinal hplace) hfinal

end Idle

/-- What is known of the program at any time. -/
def Sound (m : Program W V) (s : Main W V) : Prop :=
  ∀ ms, Carries m.proxy.cfg s.handled ms → Progress m.proxy.cfg ms s.proxy s.place

section IdleRuns

variable {m : Program W V} {s : Main W V} {ms : List (Message m.proxy.cfg)}
  (hms : Carries m.proxy.cfg s.handled ms) (hsound : Sound m s)

include hms hsound

theorem Rests.run (h : Rests m.proxy.cfg ms s) {ticks : List Tick}
    (hhandled : (run m.step s ticks).handled = s.handled) :
    Rests m.proxy.cfg ms (RunLib.run m.step s ticks) := by
  induction ticks generalizing s with
  | nil => exact h
  | cons tick ticks ih =>
    have hstep := handled_step_of_run m hhandled
    have hms' : Carries m.proxy.cfg (m.step s tick).handled ms := hstep.symm ▸ hms
    have hsound' : Sound m (m.step s tick) := fun ms hms => progress_step m hsound tick hms
    exact ih hms' hsound' (h.step tick (hsound' ms hms') hstep) (hhandled.trans hstep.symm)

theorem Idles.run {n : Nat} (h : Idles m.proxy.cfg ms n s) {ticks : List Tick}
    (hhandled : (run m.step s ticks).handled = s.handled) :
    Idles m.proxy.cfg ms (n + eofs m s ticks) (RunLib.run m.step s ticks) := by
  induction ticks generalizing s n with
  | nil => exact h
  | cons tick ticks ih =>
    have hstep := handled_step_of_run m hhandled
    have hms' : Carries m.proxy.cfg (m.step s tick).handled ms := hstep.symm ▸ hms
    have hsound' : Sound m (m.step s tick) := fun ms hms => progress_step m hsound tick hms
    have hfirst := h.step tick (hsound ms hms) (hsound' ms hms') hstep
    have hrest := ih hms' hsound' hfirst (hhandled.trans hstep.symm)
    have hcount : eofs m s (tick :: ticks)
        = (if eofAt s tick then 1 else 0) + eofs m (m.step s tick) ticks := by
      unfold eofs
      rw [outputs, List.count_cons, Nat.add_comm]
      simp only [beq_iff_eq]
    rw [hcount, ← Nat.add_assoc]
    exact hrest

/-- After a poll that gets nothing. -/
theorem rests_of_emptyPoll {ticks : List Tick} (hempty : true ∈ outputs m.step emptyAt s ticks)
    (hhandled : (run m.step s ticks).handled = s.handled) :
    Rests m.proxy.cfg ms (RunLib.run m.step s ticks) := by
  induction ticks generalizing s with
  | nil => cases hempty
  | cons tick ticks ih =>
    have hstep := handled_step_of_run m hhandled
    have hms' : Carries m.proxy.cfg (m.step s tick).handled ms := hstep.symm ▸ hms
    have hsound' : Sound m (m.step s tick) := fun ms hms => progress_step m hsound tick hms
    rcases List.mem_cons.mp hempty with hfirst | hrest
    · exact (rests_of_empty (hsound ms hms) hfirst.symm).run hms' hsound'
        (hhandled.trans hstep.symm)
    · exact ih hms' hsound' hrest (hhandled.trans hstep.symm)

end IdleRuns

/-- **Idling**: while no message is handled, ten reports of the end of a partition, or one
poll that gets nothing, are enough: everything has been delivered, or the forced flush
comes next, or `run` is over. -/
theorem idle_delivered (m : Program W V) (w : W) (v : V) (statsTime : Int32)
    (ticks ticks' : List Tick) {ms : List (Message m.proxy.cfg)} :
    let s := run m.step (Main.init w v statsTime) ticks
    let s' := run m.step s ticks'
    Carries m.proxy.cfg s.handled ms → s'.handled = s.handled →
      10 ≤ eofs m s ticks' ∨ true ∈ outputs m.step emptyAt s ticks' →
      s'.place = .top ∨ s'.place.isFinal = true ∨ AtRest m.proxy.cfg ms s'.proxy := by
  intro s s' hms hhandled hidle
  have hsound : Sound m s := fun ms hms => progress_run m w v statsTime ticks hms
  rcases hidle with heofs | hempty
  · have hbelow := run_always (fun s : Main W V => ∀ k, s.place.eofSinceData? = some k → k < 10)
      (fun s tick h k hk => eofSinceData_step (m := m) h tick k hk)
      (s := Main.init w v statsTime) (by rintro k ⟨⟩) ticks
    have hstart : Idles m.proxy.cfg ms 0 s := by
      have hprogress := hsound ms hms
      cases hplace : s.place with
      | top => exact .inl (.inl hplace)
      | outerTest =>
        rw [hplace] at hprogress
        exact .inl (.inr (.inr hprogress))
      | process k rkmessage =>
        have hk : s.place.eofSinceData? = some k := congrArg Place.eofSinceData? hplace
        exact .inr ⟨k, hk, Nat.zero_le k, hbelow k hk⟩
      | innerTest k =>
        have hk : s.place.eofSinceData? = some k := congrArg Place.eofSinceData? hplace
        exact .inr ⟨k, hk, Nat.zero_le k, hbelow k hk⟩
      | returned rc => exact .inl (.inr (.inl (congrArg Place.isFinal hplace)))
      | exited status => exact .inl (.inr (.inl (congrArg Place.isFinal hplace)))
      | stopped why => exact .inl (.inr (.inl (congrArg Place.isFinal hplace)))
    rcases hstart.run hms hsound hhandled with hrests | ⟨k, -, hle, hlt⟩
    · exact hrests
    · omega
  · exact rests_of_emptyPoll hms hsound hempty hhandled

/-- A message, and then the end of its partition again and again. -/
theorem idle_delivered_tenEofs :
    let s := run (Program.step ⟨idleProxy, idleStats 60⟩) (Main.init () () 0) (burstOfTwo.take 3)
    let s' := run (Program.step ⟨idleProxy, idleStats 60⟩) s
      (List.replicate 22 (.go 0 (some .partitionEof)))
    s'.place = .top ∨ s'.place.isFinal = true ∨
      AtRest idleProxy.cfg [messageA 60 1] s'.proxy := by
  refine idle_delivered ⟨idleProxy, idleStats 60⟩ () () 0 _ _ ?_ (by decide +kernel)
    (.inl (by decide +kernel))
  have hhandled : (run (Program.step ⟨idleProxy, idleStats 60⟩) (Main.init () () 0)
      (burstOfTwo.take 3)).handled = [(messageA 60 1).payload] := by
    decide +kernel
  rw [hhandled]
  exact ⟨[some (messageA 60 1)], .cons ⟨rfl, by decide⟩ .nil, rfl⟩

end TskProxy

end Libtimeseries
