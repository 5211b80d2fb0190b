import Libtimeseries.Ascii
import Libtimeseries.Base.Words
import Libtimeseries.TskProxySpec

/-!
# The statistics of the proxy

The proxy counts what it does in a key package of its own, with a timeseries
object of its own: `inc_stat` adds to a counter, and `maybe_flush_stats` writes
all counters once per interval and sets them back to 0.

- the clock is a parameter: each call gets the `time(NULL)` it reads;
- `time_t` has 64 bits, and `int` has 32: `STATS_INTERVAL_NOW` is computed in the
  former and stored in the latter;
- a division by zero ends the process;
- in the loop of the proxy the two functions are called in any order
  (`StatsOp`).
-/

namespace Libtimeseries

open ByteLib LastWrite RunLib WordLib

namespace TskProxy

variable {W : Type}

/-- What the statistics are set up with. -/
structure Stats (W : Type) where
  statsInterval : Int32
  statsKeyPrefix : CString
  backendId : BackendId
  backend : Backend W

/-- The static variables of the statistics. -/
structure StatsState (W : Type) where
  statsKp : Kp
  /-- the world of the backend, and the callbacks so far -/
  env : Env W
  statsTime : Int32

/-- `STATS_INTERVAL_NOW`, at the time `now`: `none` if it divides by zero. -/
def statsIntervalNow (statsInterval : Int32) (now : Int) : Option Int :=
  if statsInterval = 0 then none
  else some (now.tdiv statsInterval.toInt * statsInterval.toInt)

namespace Stats

/-- The timeseries object `init_stats_timeseries` sets up. -/
def timeseries (st : Stats W) : Timeseries W := .single st.backendId st.backend

/-- `init_stats_timeseries`: `ready` tells if the backend and the key package can
be set up. -/
def initStatsTimeseries (st : Stats W) (ready : Bool) (now : Int) (w : W) :
    Ret × StatsState W :=
  let s : StatsState W := ⟨Kp.init 1, ⟨w, []⟩, 0⟩
  if ready then
    match statsIntervalNow st.statsInterval now with
    | none => (.stop .divByZero, s)
    | some now => (.ok, { s with statsTime := Int32.ofInt now })
  else
    (.fail, s)

/-- `inc_stat` -/
def incStat (st : Stats W) (suffix : CString) (value : Int) (s : StatsState W) :
    Ret × StatsState W :=
  let r := incStatKp s.statsKp (statsKey st.statsKeyPrefix suffix) value
  (r.1, { s with statsKp := r.2 })

/-- `timeseries_kp_flush(stats_kp, stats_time)` -/
def kpFlush (st : Stats W) (s : StatsState W) : Ret × StatsState W :=
  let r := s.statsKp.flush st.timeseries s.statsTime.toUInt32 s.env
  (r.1, { s with statsKp := r.2.1, env := r.2.2 })

/-- `maybe_flush_stats` -/
def maybeFlushStats (st : Stats W) (now : Int) (s : StatsState W) : Ret × StatsState W :=
  match statsIntervalNow st.statsInterval now with
  | none => (.stop .divByZero, s)
  | some now =>
    let now := Int32.ofInt now
    if s.statsTime + st.statsInterval ≤ now then
      match st.kpFlush s with
      | (.ok, s) => (.ok, { s with statsTime := now })
      -- could not flush stats key packages
      | (.fail, s) => (.ok, s)
      | (.stop why, s) => (.stop why, s)
    else
      (.ok, s)

end Stats

/-- The calls of the main loop that concern statistics. -/
inductive StatsOp where
  | incStat (suffix : CString) (value : Int)
  | maybeFlushStats (now : Int)

/-- One call, and what it returned. -/
def Stats.act (st : Stats W) (s : StatsState W) : StatsOp → Ret × StatsState W
  | .incStat suffix value => st.incStat suffix value s
  | .maybeFlushStats now => st.maybeFlushStats now s

/-- The state after a call. -/
def Stats.step (st : Stats W) (s : StatsState W) (op : StatsOp) : StatsState W := (st.act s op).2

/-- Statistics that are printed, once a minute. -/
def printedStats : Stats Ascii.State where
  statsInterval := 60
  statsKeyPrefix := CString.ofAscii "tsk"
  backendId := .ascii
  backend := Ascii.backend

/-! ## Counters -/

/-- The value of a statistic: that of its key, or 0 while there is none. -/
def statValue (kp : Kp) (key : CString) : UInt64 :=
  if kp.getKey key = -1 then 0 else kp.get (kp.getKey key).toNat

/-- What `inc_stat` makes of a value: it goes through an `int`. -/
def addToStat (value : Int) (old : UInt64) : UInt64 :=
  valueOfInt (Int32.ofInt (value + (intOfValue old).toInt))

theorem intOfValue_toInt (old : UInt64) :
    (intOfValue old).toInt = (old.toNat : Int).bmod (2 ^ 32) := by
  rw [intOfValue, toInt_toInt32, UInt64.toNat_toUInt32, Int.bmod_eq_emod, Int.bmod_eq_emod]
  split <;> split <;> omega

theorem addToStat_toNat (value : Int) (old : UInt64) :
    ((addToStat value old).toNat : Int)
      = (value + (old.toNat : Int).bmod (2 ^ 32)).bmod (2 ^ 32) % 2 ^ 64 := by
  rw [addToStat, valueOfInt, toNat_toUInt64, Int32.toInt_ofInt, intOfValue_toInt]
  rfl

/-- Adding 1 changes the low 32 bits. -/
theorem addToStat_one_ne (old : UInt64) : addToStat 1 old ≠ old := by
  intro h
  have hnat := addToStat_toNat 1 old
  rw [h, Int.bmod_eq_emod, Int.bmod_eq_emod] at hnat
  split at hnat <;> split at hnat <;> omega

section Counters

variable {kp kp' : Kp}

/-- Lookups depend on the names alone. -/
theorem getKey_congr (h : kp.WellFormed) (h' : kp'.WellFormed) (hnames : kp'.names = kp.names)
    (key : CString) : kp'.getKey key = kp.getKey key := by
  rw [Kp.getKey, Kp.getKey, h.lookup, h'.lookup, hnames]

theorem getKey_addKey (h : kp.WellFormed) (key k : CString) :
    (kp.addKey .success key).2.getKey k
      = if key = k then Int.ofNat kp.keyInfosCnt else kp.getKey k := by
  rw [Kp.getKey, Kp.getKey, (h.addKey key).lookup, h.lookup, Kp.addKey_names, List.zipIdx_append,
    Nat.zero_add, Kp.names_length, ← h.size]
  show _ = _
  rw [List.zipIdx_singleton, lastValue_concat]
  by_cases hk : key = k
  · rw [if_pos hk, if_pos (congrArg CString.bytes hk)]
    rfl
  · rw [if_neg hk, if_neg fun hbytes => hk (CString.ext_iff'.mpr hbytes)]

theorem get_modifyKi (kp : Kp) (id id' : Nat) (value : UInt64) (hid : id < kp.keyInfos.length) :
    (kp.modifyKi id (·.set value)).get id' = if id = id' then value else kp.get id' := by
  rw [Kp.get, Kp.modifyKi, List.getElem?_modify]
  by_cases h : id = id'
  · subst h
    simp [hid, Ki.set]
  · simp [h, Kp.get]

/-- `timeseries_kp_set` of a key that was looked up. -/
theorem statValue_set (h : kp.WellFormed) {key : CString} {id : Nat}
    (hget : kp.getKey key = Int.ofNat id) (hid : id < kp.keyInfosCnt)
    (hname : kp.names[id]? = some key.bytes) (value : UInt64) (k : CString) :
    statValue (kp.set id value).2 k = if key = k then value else statValue kp k := by
  have hlookup := getKey_congr h (h.set id value) (kp.set_names id value) k
  rw [statValue, hlookup, Kp.set_of_lt hid]
  dsimp only
  rcases h.getKey_cases k with ⟨hk, -⟩ | ⟨id', hk, -, hname'⟩
  · have hne : key ≠ k := by
      rintro rfl
      rw [hget] at hk
      cases hk
    rw [if_pos hk, if_neg hne, statValue, if_pos hk]
  · have hfound : kp.getKey k ≠ -1 := by
      rw [hk]
      rintro ⟨⟩
    rw [if_neg hfound, statValue, if_neg hfound, hk, Int.ofNat_eq_natCast, Int.toNat_natCast,
      get_modifyKi kp id id' value (h.size ▸ hid)]
    by_cases hkey : key = k
    · subst hkey
      rw [hget] at hk
      rw [if_pos (Int.ofNat.inj hk), if_pos rfl]
    · have hne : id ≠ id' := by
        rintro rfl
        rw [hname] at hname'
        exact hkey (CString.ext_iff'.mpr (Option.some.inj hname'))
      rw [if_neg hne, if_neg hkey]

/-- `timeseries_kp_add_key` of a new key. -/
theorem statValue_addKey (h : kp.WellFormed) {key : CString} (hnew : kp.getKey key = -1)
    (k : CString) : statValue (kp.addKey .success key).2 k = statValue kp k := by
  have hlen := h.size
  rw [statValue, getKey_addKey h]
  by_cases hkey : key = k
  · subst hkey
    rw [if_pos rfl, statValue, if_pos hnew, if_neg (by rintro ⟨⟩), Int.ofNat_eq_natCast,
      Int.toNat_natCast]
    show (((kp.keyInfos ++ [Ki.init key])[kp.keyInfosCnt]?).map Ki.value).getD 0 = 0
    rw [hlen, List.getElem?_concat_length]
    rfl
  · rw [if_neg hkey, statValue]
    rcases h.getKey_cases k with ⟨hk, -⟩ | ⟨id, hk, hid, -⟩
    · rw [if_pos hk, if_pos hk]
    · rw [hk, if_neg (by rintro ⟨⟩), if_neg (by rintro ⟨⟩), Int.ofNat_eq_natCast,
        Int.toNat_natCast]
      show (((kp.keyInfos ++ [Ki.init key])[id]?).map Ki.value).getD 0 = _
      rw [List.getElem?_append_left (hlen ▸ hid)]
      rfl

/-- `inc_stat` adds to its counter, through an `int`, and to no other. -/
theorem incStatKp_statValue (h : kp.WellFormed) (key k : CString) {value : Int}
    (hvalue : 0 < value) :
    statValue (incStatKp kp key value).2 k
      = if key = k then addToStat value (statValue kp key) else statValue kp k := by
  unfold incStatKp
  rw [if_pos hvalue]
  rcases h.getKey_cases key with ⟨hget, -⟩ | ⟨id, hget, hid, hname⟩
  · have h₁ := h.addKey key
    have hget₁ : (kp.addKey .success key).2.getKey key = Int.ofNat kp.keyInfosCnt := by
      rw [getKey_addKey h, if_pos rfl]
    have hlt : kp.keyInfosCnt < (kp.addKey .success key).2.keyInfosCnt := Nat.lt_succ_self _
    have hname₁ : (kp.addKey .success key).2.names[kp.keyInfosCnt]? = some key.bytes := by
      rw [Kp.addKey_names, h.size, ← Kp.names_length, List.getElem?_concat_length]
    have hold : (kp.addKey .success key).2.get kp.keyInfosCnt = statValue kp key := by
      rw [← statValue_addKey h hget, statValue, hget₁, if_neg (by rintro ⟨⟩)]
      rfl
    simp only [hget, if_true]
    rw [(Kp.addKey_success kp key).1, Int.toNat_natCast, hold, statValue_set h₁ hget₁ hlt hname₁,
      statValue_addKey h hget]
    rfl
  · have hne : kp.getKey key ≠ -1 := by
      rw [hget]
      rintro ⟨⟩
    have hold : kp.get id = statValue kp key := by
      rw [statValue, if_neg hne, hget]
      rfl
    simp only [hne, if_false]
    rw [hget, Int.ofNat_eq_natCast, Int.toNat_natCast, hold, statValue_set h hget hid hname]
    rfl

end Counters

/-! ## Flushes -/

/-- The flush a callback carried out: its time and the pairs written. -/
def doneFlush? (c : Call W) : Option (UInt32 × List (Bytes × UInt64)) :=
  if c.ret = .ok then c.flush? else none

/-- The flushes of the statistics that succeeded. -/
def StatsState.flushes (s : StatsState W) : List (UInt32 × List (Bytes × UInt64)) :=
  s.env.calls.filterMap doneFlush?

theorem doneFlush_of_not_ok {c : Call W} (h : c.ret ≠ .ok) : doneFlush? c = none := if_neg h

/-- A flush to one backend is carried out if and only if it returns 0. -/
theorem flush_single_done (id : BackendId) (b : Backend W) (kp : Kp) (time : UInt32) (e : Env W) :
    (kp.flush (.single id b) time e).2.2.calls.filterMap doneFlush?
      = e.calls.filterMap doneFlush? ++
        if (kp.flush (.single id b) time e).1 = .ok then [(time, kp.enabledPairs)] else [] := by
  have hfirst := Kp.callFirst_single id b kp e
  unfold Kp.flush
  rw [Timeseries.single_enabledIds, Kp.flushLoop]
  dsimp only at hfirst
  generalize (if kp.dirty then
      (Timeseries.single id b).callKpKiUpdate id { kp with dirty := false } e
    else (.ok, { kp with dirty := false }, e)) = r₁ at hfirst ⊢
  obtain ⟨r₁, kp₁, e₁⟩ := r₁
  obtain ⟨new, hnew, hnoflush, -, hcore⟩ := hfirst
  have hdone : e₁.calls.filterMap doneFlush? = e.calls.filterMap doneFlush? := by
    have hnone : new.filterMap doneFlush? = [] := by
      refine List.filterMap_eq_nil_iff.mpr fun c hc => ?_
      rw [doneFlush?, hnoflush c hc, ite_self]
    rw [show e₁.calls = e.calls ++ new from hnew, List.filterMap_append, hnone, List.append_nil]
  cases r₁ with
  | fail => exact hdone.trans (List.append_nil _).symm
  | stop why => exact hdone.trans (List.append_nil _).symm
  | ok =>
    obtain ⟨c, hcalls, hret, hflush, -⟩ := Kp.callKpFlush_single id b kp₁ time e₁
    rw [Kp.enabledPairs_of_core hcore] at hflush
    rcases hfl : (Timeseries.single id b).callKpFlush id kp₁ time e₁ with ⟨r₂, kp₂, e₂⟩
    rw [hfl] at hcalls hret
    simp only [hfl]
    have hdone₂ : e₂.calls.filterMap doneFlush?
        = e.calls.filterMap doneFlush? ++ (doneFlush? c).toList := by
      rw [← hdone, show e₂.calls = e₁.calls ++ [c] from hcalls, List.filterMap_append,
        List.filterMap_cons]
      cases doneFlush? c <;> rfl
    have hret' : c.ret = r₂ := hret
    cases r₂ with
    | ok =>
      rw [doneFlush?, if_pos hret', hflush] at hdone₂
      exact hdone₂
    | fail =>
      rw [doneFlush_of_not_ok (by rw [hret']; rintro ⟨⟩)] at hdone₂
      exact hdone₂
    | stop why =>
      rw [doneFlush_of_not_ok (by rw [hret']; rintro ⟨⟩)] at hdone₂
      exact hdone₂

/-- The statistics package: no key occurs twice, all are enabled, and a flush
sets them back to 0. -/
structure StatsKp (kp : Kp) : Prop where
  wf : kp.WellFormed
  names : kp.names.Nodup
  enabled : ∀ ki ∈ kp.keyInfos, ki.disabled = false
  reset : kp.reset = true
  disable : kp.disable = false

theorem statsKp_init : StatsKp (Kp.init 1) where
  wf := Kp.wellFormed_init 1
  names := List.nodup_nil
  enabled := by simp [Kp.init]
  reset := rfl
  disable := rfl

namespace StatsKp

variable {kp kp' : Kp}

theorem addKey (h : StatsKp kp) {key : CString} (hnew : key.bytes ∉ kp.names) :
    StatsKp (kp.addKey .success key).2 where
  wf := h.wf.addKey key
  names := by
    rw [Kp.addKey_names, List.nodup_append]
    refine ⟨h.names, by simp, ?_⟩
    rintro a ha b hb rfl
    exact hnew (List.mem_singleton.mp hb ▸ ha)
  enabled ki hki := by
    rcases List.mem_append.mp hki with hki | hki
    · exact h.enabled ki hki
    · rw [List.mem_singleton.mp hki]
      rfl
  reset := h.reset
  disable := h.disable

/-- Views of the package that a call leaves alone. -/
theorem of_views (h : StatsKp kp) (hwf : kp'.WellFormed) (hnames : kp'.names = kp.names)
    (hflags : kp'.keyInfos.map Ki.disabled = kp.keyInfos.map Ki.disabled)
    (hreset : kp'.reset = kp.reset) (hdisable : kp'.disable = kp.disable) : StatsKp kp' where
  wf := hwf
  names := hnames ▸ h.names
  enabled ki hki := by
    have hmem := List.mem_map_of_mem (f := Ki.disabled) hki
    rw [hflags] at hmem
    obtain ⟨ki', hki', heq⟩ := List.mem_map.mp hmem
    exact heq.symm.trans (h.enabled ki' hki')
  reset := hreset.trans h.reset
  disable := hdisable.trans h.disable

theorem set (h : StatsKp kp) (id : Nat) (value : UInt64) : StatsKp (kp.set id value).2 := by
  have hframe := Kp.set_frame kp id value
  refine h.of_views (h.wf.set id value) (kp.set_names id value) ?_ hframe.reset hframe.disable
  unfold Kp.set
  split
  · exact map_modify_of_eq Ki.disabled (·.set value) (fun _ => rfl) kp.keyInfos id
  · rfl

theorem incStatKp (h : StatsKp kp) (key : CString) (value : Int) :
    StatsKp (TskProxy.incStatKp kp key value).2 := by
  unfold TskProxy.incStatKp
  split
  · rcases h.wf.getKey_cases key with ⟨hget, hnew⟩ | ⟨id, hget, -⟩
    · simp only [hget, if_true]
      exact (h.addKey hnew).set _ _
    · have hne : kp.getKey key ≠ -1 := by
        rw [hget]
        rintro ⟨⟩
      simp only [hne, if_false]
      exact h.set _ _
  · exact h

/-- What the callbacks of a backend leave of the package. -/
theorem of_core (h : StatsKp kp) (hcore : kp'.core = kp.core) : StatsKp kp' := by
  refine h.of_views (h.wf.of_core hcore) (Kp.names_of_core hcore)
    (Kp.map_of_core hcore Ki.disabled fun _ => rfl) ?_ (Kp.disable_of_core hcore)
  show kp'.core.reset = kp.core.reset
  rw [hcore]

theorem resetDisable (h : StatsKp kp) : StatsKp kp.resetDisable := by
  have hframe := Kp.resetDisable_frame kp
  refine h.of_views h.wf.resetDisable h.wf.resetDisable_names ?_ hframe.reset hframe.disable
  rw [h.wf.resetDisable_keyInfos, h.disable, List.map_map]
  exact List.map_congr_left fun ki _ => Bool.or_false ki.disabled

/-- After the reset every counter is 0. -/
theorem statValue_resetDisable (h : StatsKp kp) (key : CString) :
    statValue kp.resetDisable key = 0 := by
  rw [statValue]
  split
  · rfl
  · rw [Kp.get, h.wf.resetDisable_keyInfos, h.reset, List.getElem?_map, Option.map_map]
    cases kp.keyInfos[(kp.resetDisable.getKey key).toNat]? with
    | none => rfl
    | some ki => rfl

end StatsKp

/-- The callbacks of a backend leave the counters alone. -/
theorem statValue_of_core {kp kp' : Kp} (h : kp'.core = kp.core) (key : CString) :
    statValue kp' key = statValue kp key := by
  have hvalue := Kp.map_of_core h Ki.value fun _ => rfl
  have hget : ∀ id, kp'.get id = kp.get id := by
    intro id
    rw [Kp.get, Kp.get, ← List.getElem?_map, ← List.getElem?_map, hvalue]
  rw [statValue, statValue, Kp.getKey, Kp.getKey, Kp.names_of_core h, Kp.keyIdHash_of_core h, hget]

/-- A flush writes all counters and sets them back, or fails and leaves them. -/
theorem Stats.kpFlush_spec (st : Stats W) {s : StatsState W} (h : StatsKp s.statsKp) :
    let r := st.kpFlush s
    StatsKp r.2.statsKp ∧ r.2.statsTime = s.statsTime ∧
      ((r.1 = .ok ∧ r.2.flushes = s.flushes ++ [(s.statsTime.toUInt32, s.statsKp.enabledPairs)] ∧
          ∀ key, statValue r.2.statsKp key = 0) ∨
        (r.1 ≠ .ok ∧ r.2.flushes = s.flushes ∧
          ∀ key, statValue r.2.statsKp key = statValue s.statsKp key)) := by
  obtain ⟨kp₁, hcalls, hkp⟩ := Kp.flush_spec st.timeseries s.statsKp s.statsTime.toUInt32 s.env
  have hdone := flush_single_done st.backendId st.backend s.statsKp s.statsTime.toUInt32 s.env
  have h₁ := h.of_core hcalls.core
  have hflushes : (st.kpFlush s).2.flushes = s.flushes ++
      if (st.kpFlush s).1 = .ok then [(s.statsTime.toUInt32, s.statsKp.enabledPairs)] else [] :=
    hdone
  have hkp' : (st.kpFlush s).2.statsKp
      = if (st.kpFlush s).1 = .ok then kp₁.resetDisable else kp₁ := hkp
  by_cases hok : (st.kpFlush s).1 = .ok
  · rw [if_pos hok] at hflushes hkp'
    refine ⟨?_, rfl, .inl ⟨hok, hflushes, ?_⟩⟩
    · rw [hkp']
      exact h₁.resetDisable
    · intro key
      rw [hkp', h₁.statValue_resetDisable]
  · rw [if_neg hok] at hkp'
    rw [if_neg hok, List.append_nil] at hflushes
    refine ⟨hkp' ▸ h₁, rfl, .inr ⟨hok, hflushes, ?_⟩⟩
    intro key
    rw [hkp', statValue_of_core hcalls.core]

end TskProxy

end Libtimeseries
