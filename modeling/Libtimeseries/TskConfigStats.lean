import Libtimeseries.TskConfigValues
import Libtimeseries.TskStats

/-!
# The divisor of the statistics

`STATS_INTERVAL_NOW` divides by `stats_interval`, a static variable that is 0
until the configuration sets it. `is_valid_config` only looks at strings, so a
file without `stats-interval`, or with one that `atoi` reads as 0, is accepted,
and `init_stats_timeseries` divides by zero.
-/

namespace Libtimeseries

open ByteLib RunLib

namespace TskProxy

variable {W : Type}

/-- `init_stats_timeseries` and every later call of `maybe_flush_stats` divide by
a number other than 0, whatever the clock shows. -/
def Stats.DividesByNonzero (st : Stats W) (w : W) : Prop :=
  ∀ now, (st.initStatsTimeseries true now w).1 ≠ .stop .divByZero ∧
    ∀ ops, Along st.step
      (fun _ op => ∀ t, op = .maybeFlushStats t → statsIntervalNow st.statsInterval t ≠ none)
      (st.initStatsTimeseries true now w).2 ops

/-- `main` goes on with a configuration: it was parsed and found valid. -/
structure Accepted (tokens : List Token) (s : ParseState) : Prop where
  parsed : ∃ fuel, parseConfigFile true fuel tokens (fun _ => 0) = (.ok, s)
  valid : isValidConfig s.tskCfg = true

theorem Stats.dividesByNonzero_iff (st : Stats W) (w : W) :
    st.DividesByNonzero w ↔ st.statsInterval ≠ 0 := by
  constructor
  · intro h hzero
    obtain ⟨hinit, -⟩ := h 0
    refine hinit ?_
    unfold initStatsTimeseries statsIntervalNow
    rw [if_pos rfl, if_pos hzero]
  · intro hne now
    have hnow : ∀ t, statsIntervalNow st.statsInterval t ≠ none := by
      intro t
      rw [statsIntervalNow, if_neg hne]
      rintro ⟨⟩
    constructor
    · unfold initStatsTimeseries
      rw [if_pos rfl]
      cases hstart : statsIntervalNow st.statsInterval now with
      | none => exact absurd hstart (hnow now)
      | some start =>
        rintro ⟨⟩
    · intro ops
      generalize (st.initStatsTimeseries true now w).2 = s
      induction ops generalizing s with
      | nil => trivial
      | cons op ops ih => exact ⟨fun t _ => hnow t, ih (st.step s op)⟩

/-- The tokens before the end of the stream are read, and then the lengths. -/
theorem parsed_reads {fuel : Nat} {tokens : List Token} {ints : IntOption → Int32} {s : ParseState}
    (h : parseConfigFile true fuel tokens ints = (.ok, s)) :
    ∃ s', Reads ints (run Seen.next ⟨false, []⟩ (upToEnd tokens)) s' ∧ s'.lengths = (.ok, s) := by
  rw [parseConfigFile, if_pos rfl] at h
  have hloop : (tokenLoop fuel tokens (.init ints)).1 = .ok := by
    by_contra hne
    rw [andThen_of_ne hne] at h
    exact hne (congrArg Prod.fst h)
  obtain ⟨body, rest, rfl, hbody, hall⟩ := tokenLoop_exits hloop
  rw [hall] at hloop h
  obtain ⟨-, hreads⟩ := (switchAll_reads (reads_init ints) body).resolve_right fun hstop => by
    rw [hloop] at hstop
    cases hstop.1
  rw [upToEnd_append hbody]
  generalize (ParseState.init ints).switchAll body = r at h hloop hreads
  obtain ⟨r, s'⟩ := r
  obtain rfl : r = .ok := hloop
  exact ⟨s', hreads, h⟩

/-- The numbers a file sets. -/
theorem parsed_ints {fuel : Nat} {tokens : List Token} {ints : IntOption → Int32} {s : ParseState}
    (h : parseConfigFile true fuel tokens ints = (.ok, s)) (o : IntOption) :
    s.ints o = ((lastInt o (scalarsIn (upToEnd tokens))).map fun tk => atoi tk.bytes).getD
      (ints o) := by
  obtain ⟨s', hreads, hlengths⟩ := parsed_reads h
  obtain ⟨-, -, hints, -, -⟩ := lengths_of_all (lengths_ok (congrArg Prod.fst hlengths))
  rw [← show s'.lengths.2 = s from congrArg Prod.snd hlengths, hints]
  exact hreads.ints o

/-- What messages are checked against: an accepted configuration has a channel and
filters that are strings, and the lengths it stores are theirs. -/
theorem Accepted.config {tokens : List Token} {s : ParseState} (h : Accepted tokens s) :
    ∃ cfg : Config, s.tskCfg.text .kafkaChannel = some cfg.kafkaChannel ∧
      s.tskCfg.filters = cfg.filters.map some ∧ s.ints .logLevel = cfg.logLevel ∧
      s.tskCfg.kafkaChanlen = cfg.kafkaChannel.strlen ∧
      s.tskCfg.filterLens = cfg.filters.map CString.strlen := by
  obtain ⟨fuel, hparsed⟩ := h.parsed
  obtain ⟨s', -, hlengths⟩ := parsed_reads hparsed
  obtain ⟨channel, hchannel⟩ :=
    Option.ne_none_iff_exists'.mp ((isValidConfig_iff s.tskCfg).mp h.valid .kafkaChannel)
  have hall := lengths_ok (congrArg Prod.fst hlengths)
  obtain ⟨filters, hfilters⟩ : ∃ filters : List CString, s'.tskCfg.filters = filters.map some := by
    refine ⟨s'.tskCfg.filters.filterMap id, ?_⟩
    generalize s'.tskCfg.filters = fs at hall
    induction fs with
    | nil => rfl
    | cons f fs ih =>
      obtain ⟨hf, hfs⟩ := Bool.and_eq_true_iff.mp (List.all_cons ▸ hall)
      obtain ⟨tk, rfl⟩ := Option.isSome_iff_exists.mp hf
      exact congrArg (some tk :: ·) (ih hfs)
  unfold ParseState.lengths at hlengths
  dsimp only at hlengths
  rw [if_pos hall] at hlengths
  cases hlengths
  refine ⟨⟨filters, channel, s'.ints .logLevel⟩, hchannel, hfilters, rfl, ?_, ?_⟩
  · show ((s'.tskCfg.text .kafkaChannel).map CString.strlen).getD _ = _
    rw [show s'.tskCfg.text .kafkaChannel = some channel from hchannel]
    rfl
  · show s'.tskCfg.filters.map _ = _
    rw [hfilters, List.map_map]
    rfl

/-- **The divisor is not zero** if and only if the file gives `stats-interval` a
value, and the last one is not read as 0. -/
theorem accepted_dividesByNonzero_iff {tokens : List Token} {s : ParseState}
    (h : Accepted tokens s) (st : Stats W) (hst : st.statsInterval = s.ints .statsInterval) (w : W) :
    st.DividesByNonzero w ↔
      ∃ tk, lastInt .statsInterval (scalarsIn (upToEnd tokens)) = some tk ∧ atoi tk.bytes ≠ 0 := by
  obtain ⟨fuel, hparsed⟩ := h.parsed
  rw [st.dividesByNonzero_iff, hst, parsed_ints hparsed]
  cases lastInt .statsInterval (scalarsIn (upToEnd tokens)) with
  | none => simp
  | some tk => simp

/-- The strings the proxy requires. -/
def requiredEntries : List Entry :=
  requiredOptions.map fun o => (o.name, some (CString.ofAscii "x"))

/-- Those, and an interval of a minute. -/
def minuteEntries : List Entry :=
  (CString.ofAscii "stats-interval", some (CString.ofAscii "60")) :: requiredEntries

/-- What the proxy reads from a file. -/
def parsed (entries : List Entry) : ParseState :=
  (parseConfigFile true (fileTokens entries).length (fileTokens entries) fun _ => 0).2

theorem accepted_minuteEntries : Accepted (fileTokens minuteEntries) (parsed minuteEntries) where
  parsed := ⟨(fileTokens minuteEntries).length, Prod.ext (by decide +kernel) rfl⟩
  valid := by decide +kernel

theorem accepted_dividesByNonzero_iff_minute :
    ({ printedStats with statsInterval := (parsed minuteEntries).ints .statsInterval } :
        Stats Ascii.State).DividesByNonzero ⟨[]⟩ ↔
      ∃ tk, lastInt .statsInterval (scalarsIn (upToEnd (fileTokens minuteEntries))) = some tk ∧
        atoi tk.bytes ≠ 0 :=
  accepted_dividesByNonzero_iff accepted_minuteEntries _ rfl _

/-- The configuration without an interval is accepted, and its statistics divide by
zero. -/
theorem requiredEntries_divides :
    Accepted (fileTokens requiredEntries) (parsed requiredEntries) ∧
      ¬({ printedStats with statsInterval := (parsed requiredEntries).ints .statsInterval } :
        Stats Ascii.State).DividesByNonzero ⟨[]⟩ := by
  refine ⟨⟨⟨(fileTokens requiredEntries).length, Prod.ext (by decide +kernel) rfl⟩,
    by decide +kernel⟩, ?_⟩
  rw [Stats.dividesByNonzero_iff]
  exact not_not.mpr (by decide +kernel)

end TskProxy

end Libtimeseries
