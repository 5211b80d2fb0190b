import Libtimeseries.TskStats

/-!
# The timeline of the statistics

`maybe_flush_stats` flushes at the start of the interval that `stats_time` holds,
once the clock has reached a later interval. The times are `time_t`, the
supported ones are those of `uint32_t`, and `stats_time` is an `int`. The
comparison `now >= stats_time + stats_interval` is the one of the times if and
only if the end of the current interval and the start of the interval of the
reading lie on one side of 2^31 (`Straight`), or both times are beyond it: if
only the end is beyond, the sum wraps around and every reading flushes, and if
only the reading is beyond, it turns negative and no reading flushes.

- `StatsState.flushTimes`: the times of the successful flushes;
- `Stats.OnTime`: what one reading of the clock does to the timeline;
- `Timeline`: the invariant, all flushes are at multiples of the interval below
  `stats_time`, in increasing order.
-/

namespace Libtimeseries

open ByteLib RunLib WordLib

namespace TskProxy

variable {W : Type}

/-- `stats_time`, as the time it stands for. -/
def StatsState.time (s : StatsState W) : Int := s.statsTime.toUInt32.toNat

/-- The times of the successful flushes. -/
def StatsState.flushTimes (s : StatsState W) : List Int := s.flushes.map fun f => f.1.toNat

/-- The reading of the clock of a call, if any. -/
def StatsOp.reading? : StatsOp → Option Int
  | .incStat _ _ => none
  | .maybeFlushStats now => some now

/-- The readings of the clock in a run. -/
def readings (ops : List StatsOp) : List Int := ops.filterMap StatsOp.reading?

namespace Stats

variable (st : Stats W)

/-- The start of the interval of a time. -/
def intervalStart (now : Int) : Int := now / st.statsInterval.toInt * st.statsInterval.toInt

/-- The flush of a call, if the code makes one, succeeds. -/
def FlushOk (s : StatsState W) : StatsOp → Prop
  | .incStat _ _ => True
  | .maybeFlushStats now => s.statsTime + st.statsInterval ≤ Int32.ofInt (st.intervalStart now) →
      (st.kpFlush s).1 = .ok

/-- The current interval began at or after 2^31, or its end and the start of the
interval of the reading are both before 2^31 or both not. -/
def Straight (s : StatsState W) : StatsOp → Prop
  | .incStat _ _ => True
  | .maybeFlushStats now => 2 ^ 31 ≤ s.time ∨
      (s.time + st.statsInterval.toInt < 2 ^ 31 ↔ st.intervalStart now < 2 ^ 31)

/-- A reading makes flushes at times it has reached only, and makes one if its
interval starts at least `stats_interval` after `stats_time`. -/
def OnTime (s : StatsState W) (op : StatsOp) : Prop :=
  ∃ new, (st.step s op).flushTimes = s.flushTimes ++ new ∧
    (∀ now, op.reading? = some now → ∀ t ∈ new, t ≤ now) ∧
    (∀ now, op.reading? = some now →
      s.time + st.statsInterval.toInt ≤ st.intervalStart now → new.length = 1)

/-- The invariant, after a reading `last`. -/
structure Timeline (last : Int) (s : StatsState W) : Prop where
  statsKp : StatsKp s.statsKp
  aligned : st.statsInterval.toInt ∣ s.time
  reached : s.time ≤ last
  increasing : s.flushTimes.Pairwise (· < ·)
  multiples : ∀ t ∈ s.flushTimes, st.statsInterval.toInt ∣ t
  past : ∀ t ∈ s.flushTimes, t < s.time

end Stats

/-! ## One reading -/

section Reading

variable {st : Stats W} {now : Int}

theorem intervalStart_le (hpos : 1 ≤ st.statsInterval.toInt) (now : Int) :
    st.intervalStart now ≤ now :=
  Int.ediv_mul_le now (by omega)

theorem intervalStart_nonneg (hpos : 1 ≤ st.statsInterval.toInt) (hnow : 0 ≤ now) :
    0 ≤ st.intervalStart now :=
  Int.mul_nonneg (Int.ediv_nonneg hnow (by omega)) (by omega)

theorem dvd_intervalStart (now : Int) : st.statsInterval.toInt ∣ st.intervalStart now :=
  Int.dvd_mul_left _ _

/-- The interval of a later reading does not start earlier. -/
theorem le_intervalStart {t : Int} (hpos : 1 ≤ st.statsInterval.toInt)
    (hdvd : st.statsInterval.toInt ∣ t) (h : t ≤ now) : t ≤ st.intervalStart now := by
  obtain ⟨k, rfl⟩ := hdvd
  rw [Stats.intervalStart, Int.mul_comm]
  refine Int.mul_le_mul_of_nonneg_right ?_ (by omega)
  rw [Int.le_ediv_iff_mul_le (by omega), Int.mul_comm]
  exact h

theorem statsIntervalNow_eq (hpos : 1 ≤ st.statsInterval.toInt) (hnow : 0 ≤ now) :
    statsIntervalNow st.statsInterval now = some (st.intervalStart now) := by
  have hne : st.statsInterval ≠ 0 := by
    intro h
    rw [h] at hpos
    exact absurd hpos (by decide)
  rw [statsIntervalNow, if_neg hne, Int.tdiv_eq_ediv_of_nonneg hnow]
  rfl

/-- A time in the supported range that was stored in `stats_time`. -/
theorem time_ofInt {n : Int} (h₀ : 0 ≤ n) (h : n < 2 ^ 32) :
    ((Int32.ofInt n).toUInt32.toNat : Int) = n := by
  rw [toNat_ofInt]
  omega

/-- **The comparison of the code**: it is that of the times if and only if the
step is straight. -/
theorem due_iff (s : StatsState W) (hpos : 1 ≤ st.statsInterval.toInt)
    (htime : s.time ≤ st.intervalStart now) (hlt : st.intervalStart now < 2 ^ 32) :
    (s.statsTime + st.statsInterval ≤ Int32.ofInt (st.intervalStart now) ↔
        s.time + st.statsInterval.toInt ≤ st.intervalStart now) ↔
      st.Straight s (.maybeFlushStats now) := by
  have hint := st.statsInterval.toInt_lt
  have hnat := s.statsTime.toUInt32.toNat_lt
  rw [Int32.le_iff_toInt_le, Int32.toInt_add, Int32.toInt_ofInt, toInt_eq_bmod s.statsTime,
    show Int32.size = 2 ^ 32 from rfl, Stats.Straight]
  unfold StatsState.time at *
  generalize st.intervalStart now = n at *
  generalize st.statsInterval.toInt = i at *
  generalize s.statsTime.toUInt32.toNat = t at *
  simp only [Int.bmod_eq_emod]
  split <;> split <;> split <;> omega

end Reading

namespace Stats

variable {st : Stats W} {last : Int} {s : StatsState W}

/-- What `maybe_flush_stats` does if the flush it may make succeeds. -/
theorem maybeFlushStats_spec (hpos : 1 ≤ st.statsInterval.toInt) (h : StatsKp s.statsKp)
    {now : Int} (hnow : 0 ≤ now) (hok : st.FlushOk s (.maybeFlushStats now)) :
    let s' := st.step s (.maybeFlushStats now)
    StatsKp s'.statsKp ∧
      ((s.statsTime + st.statsInterval ≤ Int32.ofInt (st.intervalStart now) ∧
          s'.flushTimes = s.flushTimes ++ [s.time] ∧
          s'.statsTime = Int32.ofInt (st.intervalStart now)) ∨
        (¬s.statsTime + st.statsInterval ≤ Int32.ofInt (st.intervalStart now) ∧ s' = s)) := by
  obtain ⟨hkp, -, hcases⟩ := st.kpFlush_spec h
  show StatsKp (st.maybeFlushStats now s).2.statsKp ∧ _
  rw [Stats.step, Stats.act, maybeFlushStats, statsIntervalNow_eq hpos hnow]
  dsimp only
  by_cases hdue : s.statsTime + st.statsInterval ≤ Int32.ofInt (st.intervalStart now)
  · rw [if_pos hdue]
    rcases hcases with ⟨-, hflushes, -⟩ | ⟨hnot, -⟩
    · rcases hfl : st.kpFlush s with ⟨r, s₁⟩
      obtain rfl : r = .ok := by
        have := hok hdue
        rwa [hfl] at this
      rw [hfl] at hkp hflushes
      refine ⟨hkp, .inl ⟨hdue, ?_, rfl⟩⟩
      show (s₁.flushes.map _) = _
      rw [show s₁.flushes = _ from hflushes, List.map_append]
      rfl
    · exact absurd (hok hdue) hnot
  · rw [if_neg hdue]
    exact ⟨h, .inr ⟨hdue, rfl⟩⟩

/-- **One reading** keeps the timeline, if it is straight. -/
theorem maybeFlushStats_timeline (hpos : 1 ≤ st.statsInterval.toInt) (h : st.Timeline last s)
    {now : Int} (hlast : 0 ≤ last) (hnow : last ≤ now) (hlt : now < 2 ^ 32)
    (hok : st.FlushOk s (.maybeFlushStats now)) (hstraight : st.Straight s (.maybeFlushStats now)) :
    st.Timeline now (st.step s (.maybeFlushStats now)) ∧ st.OnTime s (.maybeFlushStats now) := by
  have hnow₀ := Int.le_trans hlast hnow
  have hstart := intervalStart_le hpos now
  have htime := le_intervalStart hpos h.aligned (Int.le_trans h.reached hnow)
  have hdue := (due_iff s hpos htime (Int.lt_of_le_of_lt hstart hlt)).mpr hstraight
  obtain ⟨hkp, ⟨hif, hflushes, hstatsTime⟩ | ⟨hif, hsame⟩⟩ :=
    maybeFlushStats_spec hpos h.statsKp hnow₀ hok
  · have htime' : (st.step s (.maybeFlushStats now)).time = st.intervalStart now := by
      rw [StatsState.time, hstatsTime]
      exact time_ofInt (intervalStart_nonneg hpos hnow₀) (Int.lt_of_le_of_lt hstart hlt)
    have hnext := hdue.mp hif
    refine ⟨⟨hkp, ?_, ?_, ?_, ?_, ?_⟩, [s.time], hflushes, ?_, fun _ _ _ => rfl⟩
    · rw [htime']
      exact dvd_intervalStart now
    · rw [htime']
      exact hstart
    · rw [hflushes, List.pairwise_append]
      refine ⟨h.increasing, List.pairwise_singleton _ _, fun t ht t' ht' => ?_⟩
      rw [List.mem_singleton.mp ht']
      exact h.past t ht
    · rw [hflushes]
      intro t ht
      rcases List.mem_append.mp ht with ht | ht
      · exact h.multiples t ht
      · rw [List.mem_singleton.mp ht]
        exact h.aligned
    · rw [hflushes, htime']
      intro t ht
      rcases List.mem_append.mp ht with ht | ht
      · have := h.past t ht
        omega
      · rw [List.mem_singleton.mp ht]
        omega
    · rintro _ ⟨⟩ t ht
      rw [List.mem_singleton.mp ht]
      exact Int.le_trans h.reached hnow
  · constructor
    · rw [hsame]
      exact { h with reached := Int.le_trans h.reached hnow }
    · refine ⟨[], ?_, ?_, ?_⟩
      · rw [hsame, List.append_nil]
      · rintro _ - t ht
        cases ht
      · rintro _ ⟨⟩ hle
        exact absurd (hdue.mpr hle) hif

/-- `inc_stat` does not touch the timeline. -/
theorem incStat_timeline (h : st.Timeline last s) (suffix : CString) (value : Int) :
    st.Timeline last (st.step s (.incStat suffix value)) ∧
      st.OnTime s (.incStat suffix value) := by
  constructor
  · exact ⟨h.statsKp.incStatKp _ _, h.aligned, h.reached, h.increasing, h.multiples, h.past⟩
  · refine ⟨[], (List.append_nil _).symm, ?_, ?_⟩
    · rintro _ ⟨⟩
    · rintro _ ⟨⟩

/-- After `init_stats_timeseries` the timeline is empty. -/
theorem timeline_init (hpos : 1 ≤ st.statsInterval.toInt) {now : Int} {w : W}
    (hinit : st.initStatsTimeseries true now w = (.ok, s)) (hnow : 0 ≤ now) (hlt : now < 2 ^ 32) :
    st.Timeline now s := by
  rw [initStatsTimeseries, if_pos rfl, statsIntervalNow_eq hpos hnow] at hinit
  cases hinit
  have hstart := intervalStart_le hpos now
  have htime : ((Int32.ofInt (st.intervalStart now)).toUInt32.toNat : Int) = st.intervalStart now :=
    time_ofInt (intervalStart_nonneg hpos hnow) (Int.lt_of_le_of_lt hstart hlt)
  constructor
  · exact statsKp_init
  · show _ ∣ ((Int32.ofInt (st.intervalStart now)).toUInt32.toNat : Int)
    rw [htime]
    exact dvd_intervalStart now
  · show ((Int32.ofInt (st.intervalStart now)).toUInt32.toNat : Int) ≤ now
    rw [htime]
    exact hstart
  · exact List.Pairwise.nil
  · rintro _ ⟨⟩
  · rintro _ ⟨⟩

/-- A run whose readings are straight keeps the timeline. -/
theorem run_timeline (hpos : 1 ≤ st.statsInterval.toInt) (h : st.Timeline last s)
    (hlast : 0 ≤ last) {ops : List StatsOp} (hclock : (last :: readings ops).Pairwise (· ≤ ·))
    (hrange : ∀ now ∈ readings ops, now < 2 ^ 32) (hok : Along st.step st.FlushOk s ops)
    (hstraight : Along st.step st.Straight s ops) :
    Along st.step st.OnTime s ops ∧ ∃ last', st.Timeline last' (run st.step s ops) := by
  induction ops generalizing s last with
  | nil => exact ⟨trivial, last, h⟩
  | cons op ops ih =>
    cases op with
    | incStat suffix value =>
      obtain ⟨h', hon⟩ := incStat_timeline h suffix value
      obtain ⟨honTime, hend⟩ := ih h' hlast hclock hrange hok.2 hstraight.2
      exact ⟨⟨hon, honTime⟩, hend⟩
    | maybeFlushStats now =>
      obtain ⟨hle, hclock'⟩ := List.pairwise_cons.mp hclock
      have hnow : last ≤ now := hle now List.mem_cons_self
      obtain ⟨h', hon⟩ := maybeFlushStats_timeline hpos h hlast hnow
        (hrange now List.mem_cons_self) hok.1 hstraight.1
      obtain ⟨honTime, hend⟩ := ih h' (Int.le_trans hlast hnow) hclock'
        (fun t ht => hrange t (List.mem_cons_of_mem now ht)) hok.2 hstraight.2
      exact ⟨⟨hon, honTime⟩, hend⟩

end Stats

/-- **The statistics timeline**: with a clock that does not run backwards and
flushes that succeed, a run all of whose readings are straight flushes at
strictly increasing multiples of the interval, never before their time, and at
every reading that is due. -/
theorem statsTimeline (st : Stats W) (hpos : 1 ≤ st.statsInterval.toInt) {now : Int} {w : W}
    {s : StatsState W} (hinit : st.initStatsTimeseries true now w = (.ok, s)) {ops : List StatsOp}
    (hclock : (now :: readings ops).Pairwise (· ≤ ·))
    (hrange : ∀ t ∈ now :: readings ops, 0 ≤ t ∧ t < 2 ^ 32)
    (hok : Along st.step st.FlushOk s ops) (hstraight : Along st.step st.Straight s ops) :
    Along st.step st.OnTime s ops ∧
      (run st.step s ops).flushTimes.Pairwise (· < ·) ∧
      ∀ t ∈ (run st.step s ops).flushTimes, st.statsInterval.toInt ∣ t := by
  obtain ⟨hnow, hlt⟩ := hrange now List.mem_cons_self
  obtain ⟨hon, last, hend⟩ := Stats.run_timeline hpos
    (Stats.timeline_init hpos hinit hnow hlt) hnow hclock
    (fun t ht => (hrange t (List.mem_cons_of_mem now ht)).2) hok hstraight
  exact ⟨hon, hend.increasing, hend.multiples⟩

def earlyStart : StatsState Ascii.State := (printedStats.initStatsTimeseries true 10 ⟨[]⟩).2

/-- Three readings, the second one two intervals after the first. -/
def earlyReadings : List StatsOp :=
  [.maybeFlushStats 50, .incStat (CString.ofAscii "messages_cnt") 1, .maybeFlushStats 130,
    .maybeFlushStats 130]

theorem statsTimeline_earlyReadings :
    Along printedStats.step printedStats.OnTime earlyStart earlyReadings ∧
      (run printedStats.step earlyStart earlyReadings).flushTimes.Pairwise (· < ·) ∧
      ∀ t ∈ (run printedStats.step earlyStart earlyReadings).flushTimes,
        printedStats.statsInterval.toInt ∣ t :=
  statsTimeline printedStats (by decide)
    (show printedStats.initStatsTimeseries true 10 ⟨[]⟩ = (.ok, earlyStart) from rfl)
    (by decide) (by decide)
    ⟨fun _ => by decide +kernel, trivial, fun _ => by decide +kernel, fun _ => by decide +kernel,
      trivial⟩
    ⟨.inr (by decide +kernel), trivial, .inr (by decide +kernel), .inr (by decide +kernel), trivial⟩

/-- The last minute that starts before 2^31. -/
def lateStart : StatsState Ascii.State :=
  (printedStats.initStatsTimeseries true 2147483640 ⟨[]⟩).2

/-- Two readings within that minute. -/
def lateReadings : List StatsOp := [.maybeFlushStats 2147483641, .maybeFlushStats 2147483642]

/-- `stats_time + stats_interval` wraps around, so both readings flush, at the
same time. -/
theorem lateReadings_not_increasing :
    printedStats.initStatsTimeseries true 2147483640 ⟨[]⟩ = (.ok, lateStart) ∧
      (2147483640 :: readings lateReadings).Pairwise (· ≤ ·) ∧
      (∀ t ∈ 2147483640 :: readings lateReadings, 0 ≤ t ∧ t < 2 ^ 32) ∧
      Along printedStats.step printedStats.FlushOk lateStart lateReadings ∧
      ¬(run printedStats.step lateStart lateReadings).flushTimes.Pairwise (· < ·) := by
  refine ⟨rfl, by decide, by decide, ⟨?_, ?_, trivial⟩, ?_⟩
  · intro _
    decide +kernel
  · intro _
    decide +kernel
  · decide +kernel

end TskProxy

end Libtimeseries
