import Libtimeseries.TskChannel
import Libtimeseries.TskRunFlushes
import Libtimeseries.TskStatsCounts

/-!
# The statistics of a run

What the proxy reports about itself in a whole run: the values its statistics flushes
have written and those that wait for the next one.

- `Counter`: what such a counter says of a count, when every addition goes through an
  `int`;
- `messageCounts`, `flushCounts`: what there is to count, additive in the messages and
  the flushes;
- `Counts`: from one state to another a function of the proxy counts what it does;
- `Counted`: the invariant of the run, for every statistic at once.

A flush that fails is counted as well, so the invariant holds as long as none has
failed.
-/

namespace Libtimeseries

open ByteLib RunLib WordLib

namespace TskProxy

variable {W V : Type}

/-! ## Counters -/

/-- A counter is right modulo 2^32, and right while the count is an `int`. -/
structure Counter (value count : Nat) : Prop where
  modEq : value ≡ count [MOD 2 ^ 32]
  eq : count < 2 ^ 31 → value = count

/-- What `inc_stat` is called with: the `int` that stands for a number. -/
structure AsInt (n : Nat) (value : Int) : Prop where
  pos : 0 < value
  modEq : value ≡ n [ZMOD 2 ^ 32]
  eq : n < 2 ^ 31 → value = n

theorem asInt_natCast {n : Nat} (h : 0 < n) : AsInt n (n : Int) :=
  ⟨by exact_mod_cast h, .rfl, fun _ => rfl⟩

/-- The length of a message. -/
theorem asInt_ofNat {n : Nat} (h : 0 < (Int32.ofNat n).toInt) : AsInt n (Int32.ofNat n).toInt := by
  have hvalue : (Int32.ofNat n).toInt = (n : Int).bmod (2 ^ 32) := Int32.toInt_ofNat ..
  refine ⟨h, ?_, fun hlt => ?_⟩
  · rw [hvalue, Int.ModEq, Int.bmod_eq_emod]
    split <;> omega
  · rw [hvalue, Int.bmod_eq_emod]
    split <;> omega

/-- An addition in `int`. -/
theorem Counter.add {written count n : Nat} {old : UInt64} {value : Int}
    (h : Counter (written + old.toNat) count) (hn : AsInt n value) :
    Counter (written + (addToStat value old).toNat) (count + n) := by
  obtain ⟨hmod, heq⟩ := h
  obtain ⟨hpos, hnmod, hneq⟩ := hn
  constructor
  · have hnew := addToStat_toNat value old
    rw [Nat.ModEq] at hmod ⊢
    rw [Int.ModEq] at hnmod
    rw [Int.bmod_eq_emod, Int.bmod_eq_emod] at hnew
    split at hnew <;> split at hnew <;> omega
  · intro hlt
    have hcount := heq (by omega)
    have hvalue := hneq (by omega)
    have hfits : (old.toNat : Int) + value < 2 ^ 31 := by omega
    have hnew := addToStat_of_fits hpos hfits
    omega

/-! ## What there is to count -/

/-- Only one statistic is counted. -/
def only (suffix : String) (n : Nat) (statistic : CString) : Nat :=
  if CString.ofAscii suffix = statistic then n else 0

/-- What the messages among some payloads count. -/
def messageCounts (cfg : Config) (payloads : List Bytes) (statistic : CString) : Nat :=
  only "messages_cnt" (payloads.filter (Accepts cfg ·)).length statistic +
    only "messages_bytes" ((payloads.filter (Accepts cfg ·)).map List.length).sum statistic

/-- What flushes count. -/
def flushCounts (flushes : List (UInt32 × List (Bytes × UInt64))) (statistic : CString) : Nat :=
  only "flush_cnt" flushes.length statistic +
    only "flushed_key_cnt" (flushes.map fun f => f.2.length).sum statistic

theorem only_self (suffix : String) (n : Nat) : only suffix n (CString.ofAscii suffix) = n := if_pos rfl

theorem only_other {suffix suffix' : String} (h : CString.ofAscii suffix ≠ CString.ofAscii suffix')
    (n : Nat) : only suffix n (CString.ofAscii suffix') = 0 := if_neg h

theorem only_add (suffix : String) (n n' : Nat) (statistic : CString) :
    only suffix (n + n') statistic = only suffix n statistic + only suffix n' statistic := by
  unfold only
  split <;> rfl

theorem only_zero (suffix : String) (statistic : CString) : only suffix 0 statistic = 0 := by
  unfold only
  split <;> rfl

theorem messageCounts_append (cfg : Config) (payloads payloads' : List Bytes) (statistic : CString) :
    messageCounts cfg (payloads ++ payloads') statistic
      = messageCounts cfg payloads statistic + messageCounts cfg payloads' statistic := by
  unfold messageCounts
  rw [List.filter_append, List.length_append, List.map_append, List.sum_append, only_add, only_add]
  omega

theorem flushCounts_append (flushes flushes' : List (UInt32 × List (Bytes × UInt64)))
    (statistic : CString) :
    flushCounts (flushes ++ flushes') statistic
      = flushCounts flushes statistic + flushCounts flushes' statistic := by
  unfold flushCounts
  rw [List.length_append, List.map_append, List.sum_append, only_add, only_add]
  omega

theorem flushCounts_nil (statistic : CString) : flushCounts [] statistic = 0 := by
  rw [flushCounts, List.map_nil, List.sum_nil, List.length_nil, only_zero, only_zero]

theorem messageCounts_nil (cfg : Config) : messageCounts cfg [] = fun _ => 0 := by
  funext statistic
  rw [messageCounts, List.filter_nil, List.map_nil, List.sum_nil, List.length_nil, only_zero,
    only_zero]

theorem messageCounts_rejected {cfg : Config} {payload : Bytes} (h : ¬ Accepts cfg payload)
    (statistic : CString) : messageCounts cfg [payload] statistic = 0 := by
  rw [messageCounts, List.filter_cons_of_neg (by simpa using h), List.filter_nil, List.map_nil,
    List.sum_nil, List.length_nil, only_zero, only_zero]

/-! ## What the functions count -/

/-- The value a statistic holds. -/
def Proxy.held (p : Proxy W) (statsKp : Kp) (statistic : CString) : Nat :=
  (statValue statsKp (statsKey p.statsKeyPrefix statistic)).toNat

/-- From one package to another the counts grow by `counts`. -/
structure Counts (p : Proxy W) (statsKp statsKp' : Kp) (counts : CString → Nat) : Prop where
  package : StatsKp statsKp'
  counter : ∀ statistic written count, Counter (written + p.held statsKp statistic) count →
    Counter (written + p.held statsKp' statistic) (count + counts statistic)

section Functions

variable (p : Proxy W) {s : State W}

theorem Counts.refl {statsKp : Kp} (h : StatsKp statsKp) : Counts p statsKp statsKp fun _ => 0 :=
  ⟨h, fun _ _ _ hcounter => hcounter⟩

theorem Counts.trans {a b c : Kp} {counts counts' : CString → Nat} (h : Counts p a b counts)
    (h' : Counts p b c counts') : Counts p a c fun statistic => counts statistic + counts' statistic := by
  refine ⟨h'.package, fun statistic written count hcounter => ?_⟩
  rw [← Nat.add_assoc]
  exact h'.counter _ _ _ (h.counter _ _ _ hcounter)

theorem Counts.of_eq {a b : Kp} {counts counts' : CString → Nat} (h : Counts p a b counts)
    (heq : ∀ statistic, counts' statistic = counts statistic) : Counts p a b counts' := by
  rw [funext heq]
  exact h

/-- `inc_stat` -/
theorem incStat_counts (h : StatsKp s.statsKp) (suffix : String) {n : Nat} {value : Int}
    (hn : AsInt n value) :
    ∃ statsKp, p.incStat suffix value s = (.ok, { s with statsKp := statsKp }) ∧
      Counts p s.statsKp statsKp (only suffix n) := by
  have hok := (incStatKp_spec h.wf (statsKey p.statsKeyPrefix (CString.ofAscii suffix)) hn.pos).1
  refine ⟨(incStatKp s.statsKp (statsKey p.statsKeyPrefix (CString.ofAscii suffix)) value).2, ?_,
    h.incStatKp _ _, ?_⟩
  · rw [← hok]
    rfl
  · intro statistic written count hcounter
    rw [Proxy.held, incStatKp_statValue h.wf _ _ hn.pos, only]
    by_cases hsuffix : CString.ofAscii suffix = statistic
    · subst hsuffix
      rw [if_pos rfl, if_pos rfl]
      exact hcounter.add hn
    · rw [if_neg fun hkey => hsuffix (statsKey_injective hkey), if_neg hsuffix]
      exact hcounter

/-- From `s` on a function made callbacks and returned `r`. If all of them succeeded, and
the process was not stopped, it counted the flushes among them, and `counts`. -/
structure Accounts (s : State W) (counts : CString → Nat) (r : Ret × State W) : Prop where
  wf : r.2.WellFormed
  calls : ∃ new, r.2.env.calls = s.env.calls ++ new ∧
    ((∀ c ∈ new, c.ret = .ok) → (∀ why, r.1 ≠ .stop why) → Counts p s.statsKp r.2.statsKp
      fun statistic => counts statistic + flushCounts (new.filterMap Call.flush?) statistic)

theorem counts_none (hstats : StatsKp s.statsKp) :
    Counts p s.statsKp s.statsKp fun statistic => 0 + flushCounts [] statistic :=
  (Counts.refl p hstats).of_eq p fun statistic => by rw [flushCounts_nil]

/-- The end of a group. -/
theorem flushGroup_accounts (h : s.WellFormed) (hstats : StatsKp s.statsKp) :
    Accounts p s (fun _ => 0) (p.flushGroup s) := by
  obtain ⟨new, hext, -, hres⟩ := flushGroup_spec p h
  refine ⟨hext.wf, new, hext.calls, fun hall _ => ?_⟩
  rcases hres with ⟨-, -, hflushes⟩ | ⟨hne, -, ⟨c, hc, hret⟩, -⟩
  · rw [hflushes]
    have hsize := h.kp.enabledSize_eq
    unfold Proxy.flushGroup
    split
    · next hpos =>
      obtain ⟨st₁, hinc₁, hcounts₁⟩ :=
        incStat_counts p hstats "flush_cnt" (show AsInt 1 1 from asInt_natCast Nat.one_pos)
      obtain ⟨st₂, hinc₂, hcounts₂⟩ := incStat_counts p (s := { s with statsKp := st₁ })
        hcounts₁.package "flushed_key_cnt" (asInt_natCast hpos)
      rw [hinc₁, andThen_ok, hinc₂, andThen_ok, if_neg (List.ne_nil_of_length_pos (hsize ▸ hpos))]
      -- the statistics are not flushed here
      have hkeeps : (p.kpFlush { s with statsKp := st₂ }).2.statsKp = st₂ := rfl
      have hcounts : Counts p s.statsKp st₂ fun statistic =>
          0 + flushCounts [(s.currentTime.toUInt32, s.kp.enabledPairs)] statistic := by
        refine (hcounts₁.trans p hcounts₂).of_eq p fun statistic => ?_
        rw [Nat.zero_add, flushCounts, List.map_singleton, List.sum_singleton, hsize]
        rfl
      generalize p.kpFlush { s with statsKp := st₂ } = r at hkeeps ⊢
      obtain ⟨r, s'⟩ := r
      rw [← show s'.statsKp = st₂ from hkeeps] at hcounts
      cases r with
      | ok => exact hcounts
      | fail => exact hcounts
      | stop why => exact hcounts
    · next hpos =>
      rw [if_pos (List.eq_nil_of_length_eq_zero (by omega))]
      exact counts_none p hstats
  · exact absurd (hret.symm.trans (hall c hc)) hne

theorem Accounts.of_state {s t : State W} {counts : CString → Nat} {r r' : Ret × State W}
    (h : Accounts p s counts r) (hs : t.env = s.env ∧ t.statsKp = s.statsKp)
    (hr : r'.1 = r.1 ∧ r'.2.env = r.2.env ∧ r'.2.statsKp = r.2.statsKp) (hwf : r'.2.WellFormed) :
    Accounts p t counts r' := by
  obtain ⟨-, new, hcalls, hcounts⟩ := h
  refine ⟨hwf, new, ?_, ?_⟩
  · rw [hr.2.1, hs.1, hcalls]
  · rw [hr.1, hr.2.2, hs.2]
    exact hcounts

theorem maybeFlush_accounts (flushTime : Int32) (h : s.WellFormed) (hstats : StatsKp s.statsKp) :
    Accounts p s (fun _ => 0) (p.maybeFlush flushTime s) := by
  have hwf := maybeFlush_wellFormed p flushTime h
  have hnone : ∀ s' : State W, s'.WellFormed → s'.env = s.env → s'.statsKp = s.statsKp →
      Accounts p s (fun _ => 0) (.ok, s') := by
    intro s' hwf henv hkp
    refine ⟨hwf, [], by rw [henv, List.append_nil], fun _ _ => ?_⟩
    show Counts p s.statsKp s'.statsKp _
    rw [hkp]
    exact counts_none p hstats
  by_cases hzero : s.currentTime = 0
  · rw [maybeFlush_idle p flushTime hzero] at hwf ⊢
    exact hnone _ hwf rfl rfl
  by_cases hsame : flushTime = s.currentTime
  · rw [maybeFlush_same p flushTime hzero hsame] at hwf ⊢
    exact hnone _ hwf rfl rfl
  · rw [maybeFlush_other p flushTime hzero hsame] at hwf ⊢
    have hgroup := flushGroup_accounts p (h.log (.maybeFlush flushTime)) hstats
    refine hgroup.of_state p ⟨rfl, rfl⟩ ?_ hwf
    generalize p.flushGroup _ = r
    obtain ⟨r, s'⟩ := r
    cases r with
    | ok => exact ⟨rfl, rfl, rfl⟩
    | fail => exact ⟨rfl, rfl, rfl⟩
    | stop why => exact ⟨rfl, rfl, rfl⟩

/-- Callbacks are added. -/
theorem handleMessage_calls (payload : Bytes) (h : s.WellFormed) :
    ∃ new, (p.handleMessage payload s).2.env.calls = s.env.calls ++ new := by
  rw [handleMessage_eq]
  split
  · obtain ⟨new, hext, -⟩ := maybeFlush_spec p (headerTime payload).toInt32 h
    refine ⟨new, ?_⟩
    rw [andThen_env fun _ => recordLoop_env _ _ _ _ _]
    unfold Proxy.beginRecords
    rw [andThen_env fun _ => andThen_env fun _ => rfl, hext.calls]
  · exact ⟨[], (List.append_nil _).symm⟩

/-- A message, accepted or not. -/
theorem handleMessage_accounts (payload : Bytes) (h : s.WellFormed) (hstats : StatsKp s.statsKp) :
    Accounts p s (messageCounts p.cfg [payload]) (p.handleMessage payload s) := by
  have hwf := handleMessage_wellFormed p payload h
  rw [handleMessage_eq] at hwf ⊢
  by_cases haccepts : Accepts p.cfg payload
  · rw [if_pos haccepts] at hwf ⊢
    obtain ⟨-, new, hcalls, hcounts⟩ := maybeFlush_accounts p (headerTime payload).toInt32 h hstats
    obtain ⟨new', hext, hflush⟩ := maybeFlush_spec p (headerTime payload).toInt32 h
    obtain rfl : new' = new := List.append_cancel_left (hext.calls.symm.trans hcalls)
    have hok : (∀ c ∈ new', c.ret = .ok) → (p.maybeFlush (headerTime payload).toInt32 s).1 = .ok := by
      intro hall
      generalize p.maybeFlush (headerTime payload).toInt32 s = r at hflush ⊢
      obtain ⟨r, s'⟩ := r
      cases hflush with
      | stays => rfl
      | ends => rfl
      | fails hne _ _ hcall =>
        obtain ⟨c, hc, hret⟩ := hcall
        exact absurd (hret.symm.trans (hall c hc)) hne
    have hbegin : (p.beginRecords payload (headerTime payload) s).2.env
        = (p.maybeFlush (headerTime payload).toInt32 s).2.env :=
      andThen_env fun _ => andThen_env fun _ => rfl
    refine ⟨hwf, new', ?_, fun hall hstop => ?_⟩
    · rw [andThen_env fun _ => recordLoop_env _ _ _ _ _, hbegin, hcalls]
    specialize hok hall
    unfold Proxy.beginRecords at hstop ⊢
    generalize p.maybeFlush (headerTime payload).toInt32 s = r at hok hcounts hstop ⊢
    obtain ⟨r, s₁⟩ := r
    obtain rfl : r = .ok := hok
    have hcounts₀ := hcounts hall (by rintro why ⟨⟩)
    obtain ⟨st₁, hinc₁, hcounts₁⟩ := incStat_counts p (s := s₁) hcounts₀.package "messages_cnt"
      (show AsInt 1 1 from asInt_natCast Nat.one_pos)
    rw [andThen_ok, hinc₁, andThen_ok] at hstop ⊢
    by_cases hlen : 0 < (Int32.ofNat payload.length).toInt
    · obtain ⟨st₂, hinc₂, hcounts₂⟩ := incStat_counts p (s := { s₁ with statsKp := st₁ })
        hcounts₁.package "messages_bytes" (asInt_ofNat hlen)
      rw [hinc₂, andThen_ok, recordLoop_stats]
      refine (hcounts₀.trans p (hcounts₁.trans p hcounts₂)).of_eq p fun statistic => ?_
      rw [messageCounts, List.filter_cons_of_pos (by simpa using haccepts), List.filter_nil,
        List.map_singleton, List.sum_singleton, List.length_singleton]
      omega
    · refine absurd ?_ (hstop .assertFailed)
      unfold Proxy.incStat incStatKp
      rw [if_neg hlen]
      rfl
  · rw [if_neg haccepts] at hwf ⊢
    refine ⟨hwf, [], (List.append_nil _).symm, fun _ _ => ?_⟩
    refine (Counts.refl p hstats).of_eq p fun statistic => ?_
    rw [messageCounts_rejected haccepts, List.filterMap_nil, flushCounts_nil]

end Functions

/-! ## Runs -/

namespace Main

/-- The statistics of the program. -/
def statsState (s : Main W V) : StatsState V := ⟨s.proxy.statsKp, s.statsEnv, s.statsTime⟩

/-- What was written for a statistic, and what waits to be written. -/
def reported (s : Main W V) (statsKeyPrefix statistic : CString) : Nat :=
  s.statsState.written (statsKey statsKeyPrefix statistic) +
    (statValue s.proxy.statsKp (statsKey statsKeyPrefix statistic)).toNat

end Main

/-- What is reported is what the run did. -/
structure Reports (p : Proxy W) (s : Main W V) : Prop where
  package : StatsKp s.proxy.statsKp
  counter : ∀ statistic, Counter (s.reported p.statsKeyPrefix statistic)
    (messageCounts p.cfg s.handled statistic + flushCounts s.proxy.env.flushes statistic)

/-- The invariant of a run: it reports what it did as long as no callback fails. -/
structure Counted (p : Proxy W) (s : Main W V) : Prop where
  wf : s.proxy.WellFormed
  reports : (∀ c ∈ s.proxy.env.calls, c.ret = .ok) → Reports p s

/-- A statistics flush moves what waits to what is written. -/
theorem Stats.kpFlush_reported (st : Stats V) {s : StatsState V} (h : StatsKp s.statsKp)
    (key : CString) :
    (st.kpFlush s).2.written key + (statValue (st.kpFlush s).2.statsKp key).toNat
      = s.written key + (statValue s.statsKp key).toNat := by
  obtain ⟨-, -, ⟨-, hflushes, hheld⟩ | ⟨-, hflushes, hheld⟩⟩ := st.kpFlush_spec h
  · rw [hheld, StatsState.written, hflushes, List.map_append, List.sum_append, List.map_singleton,
      List.sum_singleton, h.pairsSum_enabledPairs]
    rfl
  · rw [hheld, StatsState.written, hflushes]
    rfl

theorem Stats.maybeFlushStats_reported (st : Stats V) (now : Int) {s : StatsState V}
    (h : StatsKp s.statsKp) :
    let s' := (st.maybeFlushStats now s).2
    StatsKp s'.statsKp ∧ ∀ key, s'.written key + (statValue s'.statsKp key).toNat
      = s.written key + (statValue s.statsKp key).toNat := by
  have hkp := (st.kpFlush_spec h).1
  have hreported := st.kpFlush_reported h
  unfold Stats.maybeFlushStats
  split
  · exact ⟨h, fun _ => rfl⟩
  · dsimp only
    split
    · generalize st.kpFlush s = r at hkp hreported ⊢
      obtain ⟨r, s'⟩ := r
      cases r with
      | ok => exact ⟨hkp, hreported⟩
      | fail => exact ⟨hkp, hreported⟩
      | stop why => exact ⟨hkp, hreported⟩
    · exact ⟨h, fun _ => rfl⟩

section Steps

variable {m : Program W V} {s : Main W V}

/-- The place does not matter. -/
theorem Counted.goto (h : Counted m.proxy s) (place : Place) : Counted m.proxy (s.goto place) :=
  ⟨h.wf, fun hcalls => ⟨(h.reports hcalls).package, (h.reports hcalls).counter⟩⟩

/-- A function of the proxy. -/
theorem Counted.accounts (h : Counted m.proxy s) {payloads : List Bytes} {r : Ret × State W}
    (haccounts : StatsKp s.proxy.statsKp →
      Accounts m.proxy s.proxy (messageCounts m.proxy.cfg payloads) r)
    (hwf : r.2.WellFormed) (hext : ∃ new, r.2.env.calls = s.proxy.env.calls ++ new)
    (hstop : ∀ why, r.1 ≠ .stop why) :
    Counted m.proxy (Main.setProxy { s with handled := s.handled ++ payloads } r.2) := by
  refine ⟨hwf, fun hall => ?_⟩
  have hall' : ∀ c ∈ r.2.env.calls, c.ret = .ok := hall
  obtain ⟨new₀, hnew₀⟩ := hext
  have hreports := h.reports fun c hc => hall' c (hnew₀ ▸ List.mem_append_left _ hc)
  obtain ⟨-, new, hcalls, hcounts⟩ := haccounts hreports.package
  have hcounts := hcounts (fun c hc => hall' c (hcalls ▸ List.mem_append_right _ hc)) hstop
  refine ⟨hcounts.package, fun statistic => ?_⟩
  have hcounter := hcounts.counter statistic _ _ (hreports.counter statistic)
  show Counter _ (messageCounts m.proxy.cfg (s.handled ++ payloads) statistic
    + flushCounts r.2.env.flushes statistic)
  rw [messageCounts_append, Env.flushes_of_calls hcalls, flushCounts_append]
  rw [show ∀ a b c d : Nat, a + b + (c + d) = a + c + (b + d) by omega]
  exact hcounter

/-- `maybe_flush_stats` -/
theorem Counted.maybeFlushStats (h : Counted m.proxy s) (now : Int) :
    Counted m.proxy (m.maybeFlushStats now s).2 := by
  refine ⟨h.wf.withStats (m.stats.maybeFlushStats_wellFormed now h.wf.statsKp), fun hall => ?_⟩
  have hreports := h.reports hall
  obtain ⟨hkp, hreported⟩ := m.stats.maybeFlushStats_reported now (s := s.statsState) hreports.package
  refine ⟨hkp, fun statistic => ?_⟩
  have hsame : (m.maybeFlushStats now s).2.reported m.proxy.statsKeyPrefix statistic
      = s.reported m.proxy.statsKeyPrefix statistic := hreported _
  rw [hsame]
  exact hreports.counter statistic

theorem Counted.afterStats (h : Counted m.proxy s) (now : Int) {next : Main W V → Main W V}
    (hnext : ∀ s, Counted m.proxy s → Counted m.proxy (next s)) :
    Counted m.proxy (m.afterStats now next s) := by
  have hstats := h.maybeFlushStats now
  unfold Program.afterStats
  generalize m.maybeFlushStats now s = r at hstats ⊢
  obtain ⟨r, t⟩ := r
  cases r with
  | ok => exact hnext t hstats
  | fail => exact hnext t hstats
  | stop why => exact hstats.goto _

/-- A forced flush. -/
theorem Counted.forceFlush (h : Counted m.proxy s)
    (hstop : ∀ why, (m.proxy.maybeFlush TskProxy.forceFlush s.proxy).1 ≠ .stop why) :
    Counted m.proxy (s.setProxy (m.proxy.maybeFlush TskProxy.forceFlush s.proxy).2) := by
  obtain ⟨new, hext, -⟩ := maybeFlush_spec m.proxy TskProxy.forceFlush h.wf
  have haccounts : StatsKp s.proxy.statsKp → Accounts m.proxy s.proxy (messageCounts m.proxy.cfg [])
      (m.proxy.maybeFlush TskProxy.forceFlush s.proxy) := by
    rw [messageCounts_nil]
    exact maybeFlush_accounts m.proxy TskProxy.forceFlush h.wf
  have hcounted := h.accounts haccounts hext.wf ⟨new, hext.calls⟩ hstop
  rwa [List.append_nil] at hcounted

theorem Counted.cleanup (h : Counted m.proxy s) (rc : Int)
    (hplace : ∀ why, (m.cleanup rc s).place ≠ .stopped why) : Counted m.proxy (m.cleanup rc s) := by
  have hflush := h.forceFlush
  unfold Program.cleanup at hplace ⊢
  generalize m.proxy.maybeFlush TskProxy.forceFlush s.proxy = r at hflush hplace ⊢
  obtain ⟨r, t⟩ := r
  cases r with
  | ok => exact (hflush (by rintro why ⟨⟩)).goto _
  | fail => exact (hflush (by rintro why ⟨⟩)).goto _
  | stop why => exact absurd rfl (hplace why)

theorem Counted.top (h : Counted m.proxy s) (now : Int)
    (hplace : ∀ why, (m.top now s).place ≠ .stopped why) : Counted m.proxy (m.top now s) := by
  have hflush := h.forceFlush
  unfold Program.top at hplace ⊢
  generalize m.proxy.maybeFlush TskProxy.forceFlush s.proxy = r at hflush hplace ⊢
  obtain ⟨r, t⟩ := r
  cases r with
  | ok => exact (hflush (by rintro why ⟨⟩)).afterStats now fun s hs => hs.goto _
  | fail => exact (hflush (by rintro why ⟨⟩)).cleanup (-1) hplace
  | stop why => exact absurd rfl (hplace why)

theorem Counted.burst (h : Counted m.proxy s) (eofSinceData : Nat) (poll : Option Polled) :
    Counted m.proxy (Program.burst eofSinceData poll s) := by
  cases poll with
  | none => exact h.goto _
  | some rkmessage => exact h.goto _

theorem Counted.process (h : Counted m.proxy s) (eofSinceData : Nat) (rkmessage : Polled)
    (hplace : ∀ why, (m.process eofSinceData rkmessage s).place ≠ .stopped why) :
    Counted m.proxy (m.process eofSinceData rkmessage s) := by
  cases rkmessage with
  | data payload =>
    obtain ⟨new, hcalls⟩ := handleMessage_calls m.proxy payload h.wf
    have hhandle := h.accounts (fun hstats => handleMessage_accounts m.proxy payload h.wf hstats)
      (handleMessage_wellFormed m.proxy payload h.wf) ⟨new, hcalls⟩
    unfold Program.process at hplace ⊢
    dsimp only at hplace ⊢
    generalize m.proxy.handleMessage payload s.proxy = r at hhandle hplace ⊢
    obtain ⟨r, t⟩ := r
    cases r with
    | ok => exact (hhandle (by rintro why ⟨⟩)).goto _
    | stop why => exact absurd rfl (hplace why)
    | fail => exact (hhandle (by rintro why ⟨⟩)).cleanup (-1) hplace
  | partitionEof =>
    rw [process_eof]
    exact h.goto _
  | error => exact h.goto _

/-- One step of the program. -/
theorem Counted.step (h : (∀ why, s.place ≠ .stopped why) → Counted m.proxy s) (tick : Tick)
    (hplace : ∀ why, (m.step s tick).place ≠ .stopped why) : Counted m.proxy (m.step s tick) := by
  by_cases hfinal : s.place.isFinal = true
  · rw [step_final m s hfinal] at hplace ⊢
    exact h hplace
  have hs : Counted m.proxy s := h fun why hstopped => hfinal (by rw [hstopped]; rfl)
  cases tick with
  | sigint =>
    rw [step_sigint m s (by simpa using hfinal)]
    unfold Main.catchSigint
    dsimp only
    split
    · exact ⟨hs.wf, fun hall => ⟨(hs.reports hall).package, (hs.reports hall).counter⟩⟩
    · exact ⟨hs.wf, fun hall => ⟨(hs.reports hall).package, (hs.reports hall).counter⟩⟩
  | go now poll =>
    rw [step_go] at hplace ⊢
    revert hplace
    cases s.place with
    | top => exact hs.top now
    | outerTest =>
      intro hplace
      have houter : ∀ why, (m.outerTest poll s).place ≠ .stopped why := hplace
      show Counted m.proxy (m.outerTest poll s)
      unfold Program.outerTest at houter ⊢
      split at houter
      · rw [if_pos ‹_›]
        exact hs.cleanup 0 houter
      · rw [if_neg ‹_›]
        exact hs.burst 0 poll
    | process eofSinceData rkmessage => exact hs.process eofSinceData rkmessage
    | innerTest eofSinceData =>
      intro _
      show Counted m.proxy (m.innerTest eofSinceData now poll s)
      unfold Program.innerTest
      split
      · exact hs.goto _
      · exact hs.afterStats now fun s hs => hs.burst eofSinceData poll
    | returned rc => exact fun _ => hs
    | exited status => exact fun _ => hs
    | stopped why => exact fun _ => hs

end Steps

theorem counted_init (p : Proxy W) (w : W) (v : V) (statsTime : Int32) :
    Counted p (Main.init w v statsTime) := by
  refine ⟨State.wellFormed_init w, fun _ => ⟨statsKp_init, fun statistic => ?_⟩⟩
  have hcount : messageCounts p.cfg [] statistic + flushCounts [] statistic = 0 := by
    rw [messageCounts_nil, flushCounts_nil]
  show Counter 0 (messageCounts p.cfg [] statistic + flushCounts [] statistic)
  rw [hcount]
  exact ⟨.rfl, fun _ => rfl⟩

/-- **The statistics tell the truth**: wherever a run is, and whatever the clock, the
interval and the backend of the statistics do, as long as no flush of the data failed and
nothing stopped the process, what was written for each statistic and what waits to be
written add up to the accepted messages, their bytes, the flushes of the data, and the
keys in them: modulo 2^32, and exactly while they are less than 2^31. -/
theorem statistics_true (m : Program W V) (w : W) (v : V) (statsTime : Int32) (ticks : List Tick) :
    let s := run m.step (Main.init w v statsTime) ticks
    let reported := fun statistic => s.reported m.proxy.statsKeyPrefix (CString.ofAscii statistic)
    let accepted := s.handled.filter (Accepts m.proxy.cfg ·)
    (∀ c ∈ s.proxy.env.calls, c.ret = .ok) → (∀ why, s.place ≠ .stopped why) →
      Counter (reported "messages_cnt") accepted.length ∧
        Counter (reported "messages_bytes") (accepted.map List.length).sum ∧
        Counter (reported "flush_cnt") s.proxy.env.flushes.length ∧
        Counter (reported "flushed_key_cnt") (s.proxy.env.flushes.map fun f => f.2.length).sum := by
  intro s reported accepted hcalls hplace
  have hcounted : (∀ why, s.place ≠ .stopped why) → Counted m.proxy s :=
    run_always (fun s : Main W V => (∀ why, s.place ≠ .stopped why) → Counted m.proxy s)
      (fun _ tick h => Counted.step h tick) (fun _ => counted_init m.proxy w v statsTime) ticks
  have hcounter := ((hcounted hplace).reports hcalls).counter
  refine ⟨?_, ?_, ?_, ?_⟩
  · have hcount := hcounter (CString.ofAscii "messages_cnt")
    rwa [messageCounts, flushCounts, only_self, only_other (by decide), only_other (by decide),
      only_other (by decide), Nat.add_zero] at hcount
  · have hcount := hcounter (CString.ofAscii "messages_bytes")
    rwa [messageCounts, flushCounts, only_self, only_other (by decide), only_other (by decide),
      only_other (by decide), Nat.zero_add] at hcount
  · have hcount := hcounter (CString.ofAscii "flush_cnt")
    rwa [messageCounts, flushCounts, only_self, only_other (by decide), only_other (by decide),
      only_other (by decide), Nat.zero_add] at hcount
  · have hcount := hcounter (CString.ofAscii "flushed_key_cnt")
    rwa [messageCounts, flushCounts, only_self, only_other (by decide), only_other (by decide),
      only_other (by decide), Nat.zero_add, Nat.zero_add] at hcount

/-- A message in one interval, one that is rejected and a signal in a later one. -/
def acrossIntervals : List Tick :=
  [.go 0 none, .go 0 (some (.data (messageA 60 1).payload)), .go 0 none,
    .go 125 (some (.data [])), .sigint, .go 125 none, .go 125 none, .go 125 none, .go 125 none]

theorem statistics_true_acrossIntervals :
    let s := run (Program.step ⟨idleProxy, printedStats⟩) (Main.init () ⟨[]⟩ 0) acrossIntervals
    let reported := fun statistic =>
      s.reported idleProxy.statsKeyPrefix (CString.ofAscii statistic)
    let accepted := s.handled.filter (Accepts idleProxy.cfg ·)
    Counter (reported "messages_cnt") accepted.length ∧
      Counter (reported "messages_bytes") (accepted.map List.length).sum ∧
      Counter (reported "flush_cnt") s.proxy.env.flushes.length ∧
      Counter (reported "flushed_key_cnt") (s.proxy.env.flushes.map fun f => f.2.length).sum := by
  have hplace : (run (Program.step ⟨idleProxy, printedStats⟩) (Main.init () ⟨[]⟩ 0)
      acrossIntervals).place = .returned 0 := by
    decide +kernel
  refine statistics_true ⟨idleProxy, printedStats⟩ () ⟨[]⟩ 0 acrossIntervals (by decide +kernel) ?_
  rw [hplace]
  rintro why ⟨⟩

/-- One message was counted before the statistics were flushed, and the flush of its group
behind it. -/
example :
    let s := run (Program.step ⟨idleProxy, printedStats⟩) (Main.init () ⟨[]⟩ 0) acrossIntervals
    s.statsState.written (statsKey idleProxy.statsKeyPrefix (CString.ofAscii "messages_cnt")) = 1 ∧
      s.statsState.written (statsKey idleProxy.statsKeyPrefix (CString.ofAscii "flush_cnt")) = 0 ∧
      s.reported idleProxy.statsKeyPrefix (CString.ofAscii "flush_cnt") = 1 := by
  decide +kernel

end TskProxy

end Libtimeseries
