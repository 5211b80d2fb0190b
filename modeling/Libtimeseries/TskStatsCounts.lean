import Mathlib.Data.Int.ModEq
import Libtimeseries.TskStats

/-!
# Conservation of the statistics

Every increment of a statistic is written by a successful flush or still held
in the package. The counter has 64 bits, but each `inc_stat` takes it through an
`int`, so this holds exactly as long as no addition passes `INT_MAX`: beyond it
the sum wraps around and the conversion back to `uint64_t` extends the sign.
What is lost is a multiple of 2^32 less than 2^64, and no later call makes up
for it: it is noticed right after the addition.

- `StatsState.written`: what the successful flushes wrote for a statistic;
- `Conserved`: written and held values make up the increments, modulo 2^64;
- `Fits`: the addition stays within `int`;
- `Exact`: the same as `Conserved` without a modulus, and the counter is an
  `int`: the invariant that additions which fit preserve.
-/

namespace Libtimeseries

open ByteLib RunLib WordLib

namespace TskProxy

variable {W : Type}

/-! ## Sums -/

/-- The sum of the values a list of pairs has for a key. -/
def pairsSum (key : Bytes) : List (Bytes × UInt64) → Nat
  | [] => 0
  | p :: pairs => (if p.1 = key then p.2.toNat else 0) + pairsSum key pairs

/-- What the successful flushes wrote for a statistic. -/
def StatsState.written (s : StatsState W) (key : CString) : Nat :=
  (s.flushes.map fun f => pairsSum key.bytes f.2).sum

/-- What a call adds to a statistic. -/
def Stats.increment (st : Stats W) (key : CString) : StatsOp → Int
  | .incStat suffix value => if statsKey st.statsKeyPrefix suffix = key then value else 0
  | .maybeFlushStats _ => 0

/-- The sum of all increments of a statistic. -/
def Stats.total (st : Stats W) (key : CString) (ops : List StatsOp) : Int :=
  (ops.map (st.increment key)).sum

/-- The sum of the values written by successful flushes and of the value held is
`total`, modulo 2^64. -/
def Conserved (key : CString) (total : Int) (s : StatsState W) : Prop :=
  (s.written key + (statValue s.statsKp key).toNat : Int) ≡ total [ZMOD 2 ^ 64]

/-- An increment is a positive `int`. -/
def StatsOp.Positive : StatsOp → Prop
  | .incStat _ value => 0 < value ∧ value < 2 ^ 31
  | .maybeFlushStats _ => True

/-- The value a statistic holds and the increment add up to at most `INT_MAX`. -/
def Stats.Fits (st : Stats W) (key : CString) (s : StatsState W) : StatsOp → Prop
  | .incStat suffix value => statsKey st.statsKeyPrefix suffix = key →
      ((statValue s.statsKp key).toNat : Int) + value < 2 ^ 31
  | .maybeFlushStats _ => True

theorem pairsSum_eq_zero {key : Bytes} {pairs : List (Bytes × UInt64)}
    (h : key ∉ pairs.map Prod.fst) : pairsSum key pairs = 0 := by
  induction pairs with
  | nil => rfl
  | cons p pairs ih =>
    rw [List.map_cons, List.mem_cons, not_or] at h
    rw [pairsSum, if_neg (Ne.symm h.1), ih h.2]

theorem pairsSum_of_mem {key : Bytes} {value : UInt64} {pairs : List (Bytes × UInt64)}
    (hnd : (pairs.map Prod.fst).Nodup) (h : (key, value) ∈ pairs) :
    pairsSum key pairs = value.toNat := by
  induction pairs with
  | nil => cases h
  | cons p pairs ih =>
    obtain ⟨hp, hnd'⟩ := List.nodup_cons.mp hnd
    rcases List.mem_cons.mp h with rfl | h
    · rw [pairsSum, if_pos rfl, pairsSum_eq_zero hp, Nat.add_zero]
    · have hne : p.1 ≠ key := by
        rintro rfl
        exact hp (List.mem_map.mpr ⟨_, h, rfl⟩)
      rw [pairsSum, if_neg hne, ih hnd' h, Nat.zero_add]

/-- A flush writes the value each statistic holds. -/
theorem StatsKp.pairsSum_enabledPairs {kp : Kp} (h : StatsKp kp) (key : CString) :
    pairsSum key.bytes kp.enabledPairs = (statValue kp key).toNat := by
  have hall : kp.enabledKis = kp.keyInfos := by
    refine List.filter_eq_self.mpr fun ki hki => ?_
    rw [h.enabled ki hki]
    rfl
  have hnames : kp.enabledPairs.map Prod.fst = kp.names := by
    rw [Kp.enabledPairs, hall, List.map_map]
    rfl
  rcases h.wf.getKey_cases key with ⟨hget, hnew⟩ | ⟨id, hget, hid, hname⟩
  · rw [pairsSum_eq_zero (hnames ▸ hnew), statValue, if_pos hget]
    rfl
  · have hne : kp.getKey key ≠ -1 := by
      rw [hget]
      rintro ⟨⟩
    rw [Kp.names, List.getElem?_map, Option.map_eq_some_iff] at hname
    obtain ⟨ki, hki, hkiname⟩ := hname
    have hmem : (key.bytes, ki.value) ∈ kp.enabledPairs := by
      rw [Kp.enabledPairs, hall, ← hkiname]
      exact List.mem_map_of_mem (List.mem_of_getElem? hki)
    rw [pairsSum_of_mem (hnames ▸ h.names) hmem, statValue, if_neg hne, hget,
      Int.ofNat_eq_natCast, Int.toNat_natCast, Kp.get, hki]
    rfl

/-! ## One addition -/

section Addition

variable {value : Int} {old : UInt64}

/-- An addition that fits is exact. -/
theorem addToStat_of_fits (hvalue : 0 < value) (hfits : (old.toNat : Int) + value < 2 ^ 31) :
    ((addToStat value old).toNat : Int) = old.toNat + value := by
  rw [addToStat_toNat, Int.bmod_eq_emod, Int.bmod_eq_emod]
  split <;> split <;> omega

/-- An addition that does not fit is wrong modulo 2^64. -/
theorem addToStat_of_not_fits (hvalue : value < 2 ^ 31) (hold : old.toNat < 2 ^ 31)
    (hfits : ¬(old.toNat : Int) + value < 2 ^ 31) :
    ((addToStat value old).toNat : Int) = old.toNat + value - 2 ^ 32 + 2 ^ 64 := by
  rw [addToStat_toNat, Int.bmod_eq_emod, Int.bmod_eq_emod]
  split <;> split <;> omega

end Addition

/-! ## Runs -/

/-- The invariant of additions that fit: `total` is the sum of what was written
and what is held, and the counter is an `int`. -/
structure Exact (key : CString) (total : Int) (s : StatsState W) : Prop where
  statsKp : StatsKp s.statsKp
  held : (statValue s.statsKp key).toNat < 2 ^ 31
  sum : (s.written key + (statValue s.statsKp key).toNat : Int) = total

theorem Exact.conserved {key : CString} {total : Int} {s : StatsState W}
    (h : Exact key total s) : Conserved key total s := by
  rw [Conserved, h.sum]

namespace Stats

variable (st : Stats W) {key : CString} {total : Int} {s : StatsState W}

/-- **One increment**: it keeps the invariant if it fits, and breaks
conservation if not. -/
theorem incStat_exact (h : Exact key total s) {suffix : CString} {value : Int}
    (hpos : StatsOp.Positive (.incStat suffix value)) :
    let op := StatsOp.incStat suffix value
    (st.Fits key s op → Exact key (total + st.increment key op) (st.step s op)) ∧
      (¬st.Fits key s op → ¬Conserved key (total + st.increment key op) (st.step s op)) := by
  obtain ⟨hpos, hint⟩ := hpos
  have hkp : StatsKp (st.step s (.incStat suffix value)).statsKp := h.statsKp.incStatKp _ _
  have hwritten : (st.step s (.incStat suffix value)).written key = s.written key := rfl
  have hheld : statValue (st.step s (.incStat suffix value)).statsKp key = _ :=
    incStatKp_statValue h.statsKp.wf (statsKey st.statsKeyPrefix suffix) key hpos
  have hsum := h.sum
  have hold := h.held
  by_cases hkey : statsKey st.statsKeyPrefix suffix = key
  · rw [if_pos hkey, hkey] at hheld
    dsimp only [increment]
    rw [if_pos hkey]
    constructor
    · intro hfits
      have hnew := addToStat_of_fits hpos (hfits hkey)
      refine ⟨hkp, ?_, ?_⟩
      · rw [hheld]
        have := hfits hkey
        omega
      · rw [hwritten, hheld]
        omega
    · intro hfits hcons
      have hnew := addToStat_of_not_fits hint hold fun hlt => hfits fun _ => hlt
      rw [Conserved, hwritten, hheld, hnew, Int.ModEq] at hcons
      omega
  · rw [if_neg hkey] at hheld
    dsimp only [increment]
    rw [if_neg hkey, Int.add_zero]
    refine ⟨fun _ => ⟨hkp, ?_, ?_⟩, fun hfits => absurd (fun hkey' => absurd hkey' hkey) hfits⟩
    · rw [hheld]
      exact hold
    · rw [hwritten, hheld]
      exact hsum

/-- A flush moves what is held to what is written. -/
theorem kpFlush_exact (h : Exact key total s) : Exact key total (st.kpFlush s).2 := by
  obtain ⟨hkp, -, ⟨-, hflushes, hheld⟩ | ⟨-, hflushes, hheld⟩⟩ := st.kpFlush_spec h.statsKp
  · refine ⟨hkp, ?_, ?_⟩
    · rw [hheld]
      decide
    · rw [hheld, StatsState.written, hflushes, List.map_append, List.sum_append, ← h.sum]
      show ((s.written key + (pairsSum key.bytes s.statsKp.enabledPairs + 0) : Nat) : Int) + 0 = _
      rw [h.statsKp.pairsSum_enabledPairs]
      omega
  · refine ⟨hkp, ?_, ?_⟩
    · rw [hheld]
      exact h.held
    · rw [hheld, StatsState.written, hflushes]
      exact h.sum

theorem maybeFlushStats_exact (h : Exact key total s) (now : Int) :
    Exact key total (st.step s (.maybeFlushStats now)) := by
  have hflush := st.kpFlush_exact h
  show Exact key total (st.maybeFlushStats now s).2
  unfold maybeFlushStats
  cases statsIntervalNow st.statsInterval now with
  | none => exact h
  | some start =>
    dsimp only
    split
    · rcases hfl : st.kpFlush s with ⟨r, s₁⟩
      rw [hfl] at hflush
      cases r with
      | ok => exact ⟨hflush.statsKp, hflush.held, hflush.sum⟩
      | fail => exact hflush
      | stop why => exact hflush
    · exact h

/-- Every call keeps the invariant if it fits, and breaks conservation if not. -/
theorem step_exact (h : Exact key total s) {op : StatsOp} (hpos : op.Positive) :
    (st.Fits key s op → Exact key (total + st.increment key op) (st.step s op)) ∧
      (¬st.Fits key s op → ¬Conserved key (total + st.increment key op) (st.step s op)) := by
  cases op with
  | incStat suffix value => exact st.incStat_exact h hpos
  | maybeFlushStats now =>
    refine ⟨fun _ => ?_, fun hfits => absurd trivial hfits⟩
    rw [show st.increment key (.maybeFlushStats now) = 0 from rfl, Int.add_zero]
    exact st.maybeFlushStats_exact h now

/-- Conservation from a state in which it holds exactly. -/
theorem conserved_from (h : Exact key total s) {ops : List StatsOp}
    (hpos : ∀ op ∈ ops, op.Positive) :
    (∀ done, done <+: ops → Conserved key (total + st.total key done) (run st.step s done)) ↔
      Along st.step (st.Fits key) s ops := by
  induction ops generalizing s total with
  | nil =>
    refine ⟨fun _ => trivial, fun _ done hdone => ?_⟩
    obtain rfl := List.prefix_nil.mp hdone
    rw [show st.total key [] = 0 from rfl, Int.add_zero]
    exact h.conserved
  | cons op ops ih =>
    have hpos' := fun op' hop' => hpos op' (List.mem_cons_of_mem op hop')
    obtain ⟨hfits, hnot⟩ := st.step_exact h (hpos op List.mem_cons_self)
    have htotal : ∀ done, total + st.total key (op :: done)
        = total + st.increment key op + st.total key done := by
      intro done
      rw [Stats.total, List.map_cons, List.sum_cons, Int.add_assoc]
      rfl
    constructor
    · intro hcons
      have hop : st.Fits key s op := by
        by_contra hop
        have := hcons [op] ⟨ops, rfl⟩
        rw [htotal, show st.total key [] = 0 from rfl, Int.add_zero] at this
        exact hnot hop this
      refine ⟨hop, (ih (hfits hop) hpos').mp fun done hdone => ?_⟩
      rw [← htotal]
      exact hcons (op :: done) (List.cons_prefix_cons.mpr ⟨rfl, hdone⟩)
    · rintro ⟨hop, halong⟩ done hdone
      cases done with
      | nil =>
        rw [show st.total key [] = 0 from rfl, Int.add_zero]
        exact h.conserved
      | cons op' done =>
        obtain ⟨rfl, hrest⟩ := List.cons_prefix_cons.mp hdone
        rw [htotal]
        exact (ih (hfits hop) hpos').mpr halong done hrest

end Stats

/-- After `init_stats_timeseries` nothing was counted. -/
theorem exact_init (st : Stats W) {now : Int} {w : W} {s : StatsState W}
    (hinit : st.initStatsTimeseries true now w = (.ok, s)) (key : CString) : Exact key 0 s := by
  unfold Stats.initStatsTimeseries at hinit
  rw [if_pos rfl] at hinit
  cases hnow : statsIntervalNow st.statsInterval now with
  | none =>
    rw [hnow] at hinit
    cases hinit
  | some start =>
    rw [hnow] at hinit
    cases hinit
    refine ⟨statsKp_init, ?_, rfl⟩
    show (0 : UInt64).toNat < 2 ^ 31
    decide

/-- **Conservation**: in a run of `inc_stat` and `maybe_flush_stats` calls, what
was written and what is held make up the increments of a statistic at all times
if and only if every addition to it stays within `int`. -/
theorem conserved_iff (st : Stats W) {now : Int} {w : W} {s : StatsState W}
    (hinit : st.initStatsTimeseries true now w = (.ok, s)) (key : CString) {ops : List StatsOp}
    (hpos : ∀ op ∈ ops, op.Positive) :
    (∀ done, done <+: ops → Conserved key (st.total key done) (run st.step s done)) ↔
      Along st.step (st.Fits key) s ops := by
  rw [← st.conserved_from (exact_init st hinit key) hpos]
  simp only [Int.zero_add]

def printedStart : StatsState Ascii.State := (printedStats.initStatsTimeseries true 0 ⟨[]⟩).2

/-- Messages of a million bytes before and after a flush. -/
def someMessages : List StatsOp :=
  [.incStat (CString.ofAscii "messages_bytes") 1000000, .maybeFlushStats 125,
    .incStat (CString.ofAscii "messages_bytes") 1000000]

theorem conserved_iff_someMessages :
    (∀ done, done <+: someMessages →
        Conserved (CString.ofAscii "tsk.messages_bytes")
          (printedStats.total (CString.ofAscii "tsk.messages_bytes") done)
          (run printedStats.step printedStart done)) ↔
      Along printedStats.step (printedStats.Fits (CString.ofAscii "tsk.messages_bytes"))
        printedStart someMessages :=
  conserved_iff printedStats
    (show printedStats.initStatsTimeseries true 0 ⟨[]⟩ = (.ok, printedStart) from rfl) _
    (by simp [someMessages, StatsOp.Positive])

/-- Three messages of 10^9 bytes within one interval. -/
def bigMessages : List StatsOp :=
  List.replicate 3 (.incStat (CString.ofAscii "messages_bytes") 1000000000)

/-- The third message takes the counter past `INT_MAX`, and the sign of the sum
is extended to 64 bits. -/
theorem bigMessages_not_conserved :
    printedStats.initStatsTimeseries true 0 ⟨[]⟩ = (.ok, printedStart) ∧
      (∀ op ∈ bigMessages, op.Positive) ∧
      ¬Conserved (CString.ofAscii "tsk.messages_bytes")
        (printedStats.total (CString.ofAscii "tsk.messages_bytes") bigMessages)
        (run printedStats.step printedStart bigMessages) := by
  refine ⟨rfl, by simp [bigMessages, StatsOp.Positive], ?_⟩
  unfold Conserved
  decide +kernel

end TskProxy

end Libtimeseries
