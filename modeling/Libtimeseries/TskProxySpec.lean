import Libtimeseries.Base.Runs
import Libtimeseries.KpStore
import Libtimeseries.TskProxy

/-!
# What the functions of the proxy do

One lemma per function, over states whose packages are well formed. No
assertion of the proxy can fail there, so a function that does not succeed has
seen a callback of the backend that did not.
-/

namespace Libtimeseries

open ByteLib LastWrite RunLib

namespace TskProxy

variable {W : Type}

/-- The static variables as every run leaves them. -/
structure State.WellFormed (s : State W) : Prop where
  kp : s.kp.WellFormed
  /-- keys are looked up before they are added -/
  names : s.kp.names.Nodup
  disable : s.kp.disable = true
  statsKp : s.statsKp.WellFormed

theorem State.wellFormed_init (w : W) : (State.init w).WellFormed :=
  ⟨Kp.wellFormed_init 2, List.nodup_nil, rfl, Kp.wellFormed_init 1⟩

@[simp] theorem andThen_ok {σ : Type} (s : σ) (next : σ → Ret × σ) :
    andThen (.ok, s) next = next s := rfl

theorem andThen_of_ne {σ : Type} {r : Ret × σ} (h : r.1 ≠ .ok) (next : σ → Ret × σ) :
    andThen r next = r := by
  obtain ⟨r, s⟩ := r
  cases r with
  | ok => exact absurd rfl h
  | fail => rfl
  | stop why => rfl

/-! ## Statistics -/

theorem incStatKp_spec {kp : Kp} (h : kp.WellFormed) (key : CString) {value : Int}
    (hvalue : 0 < value) :
    (incStatKp kp key value).1 = .ok ∧ (incStatKp kp key value).2.WellFormed := by
  unfold incStatKp
  rw [if_pos hvalue]
  rcases h.getKey_cases key with ⟨hget, -⟩ | ⟨id, hget, hid, -⟩
  · have hlt : kp.keyInfosCnt < (kp.addKey .success key).2.keyInfosCnt := Nat.lt_succ_self _
    simp only [hget, if_true]
    refine ⟨?_, (h.addKey key).set _ _⟩
    rw [(Kp.addKey_success kp key).1, Int.toNat_natCast, Kp.set_of_lt hlt]
  · have hne : kp.getKey key ≠ -1 := by
      rw [hget]
      rintro ⟨⟩
    simp only [hne, if_false]
    refine ⟨?_, h.set _ _⟩
    rw [hget, Int.ofNat_eq_natCast, Int.toNat_natCast, Kp.set_of_lt hid]

/-- `inc_stat` only changes the statistics package. -/
theorem incStat_spec (p : Proxy W) (suffix : String) {value : Int} (hvalue : 0 < value)
    {s : State W} (h : s.WellFormed) :
    ∃ statsKp, p.incStat suffix value s = (.ok, { s with statsKp := statsKp }) ∧
      statsKp.WellFormed := by
  obtain ⟨hok, hwf⟩ := incStatKp_spec h.statsKp
    (statsKey p.statsKeyPrefix (CString.ofAscii suffix)) hvalue
  exact ⟨_, by rw [← hok]; rfl, hwf⟩

/-- A change of the statistics package. -/
theorem State.WellFormed.withStats {s : State W} (h : s.WellFormed) {statsKp : Kp}
    (hstats : statsKp.WellFormed) : ({ s with statsKp := statsKp } : State W).WellFormed :=
  ⟨h.kp, h.names, h.disable, hstats⟩

theorem State.WellFormed.log {s : State W} (h : s.WellFormed) (e : Event) : (s.log e).WellFormed :=
  ⟨h.kp, h.names, h.disable, h.statsKp⟩

/-! ## The key package -/

/-- The effect of writing a pair. -/
structure Writes (kp kp' : Kp) (key : Bytes) (value : UInt64) : Prop where
  wf : kp'.WellFormed
  names : kp'.names.Nodup
  disable : kp'.disable = kp.disable
  last : ∀ k, lastValue k kp'.enabledPairs
    = if key = k then some value else lastValue k kp.enabledPairs

/-- A pair for a new key. -/
theorem addKey_writes {kp : Kp} (h : kp.WellFormed) (hnames : kp.names.Nodup) {key : CString}
    (hnew : key.bytes ∉ kp.names) (value : UInt64) :
    Writes kp ((kp.addKey .success key).2.modifyKi kp.keyInfosCnt (·.set value)) key.bytes
      value := by
  have hinit : (Ki.init key).name = key.bytes := cstr_of_nulFree key.nulFree
  have hnd : ((kp.keyInfos ++ [Ki.init key]).map Ki.name).Nodup := by
    show (kp.addKey .success key).2.names.Nodup
    rw [Kp.addKey_names, List.nodup_append]
    refine ⟨hnames, by simp, ?_⟩
    rintro a ha b hb rfl
    exact hnew (List.mem_singleton.mp hb ▸ ha)
  have hki : (kp.keyInfos ++ [Ki.init key])[kp.keyInfosCnt]? = some (Ki.init key) := by
    rw [h.size, List.getElem?_concat_length]
  constructor
  · exact (h.addKey key).modifyValue _ fun _ => value
  · rw [Kp.modifyKi_names]
    · exact hnd
    · intro ki
      rfl
  · rfl
  · intro k
    show lastValue k (pairsOf ((kp.keyInfos ++ [Ki.init key]).modify kp.keyInfosCnt
      (·.set value))) = _
    rw [lastValue_pairsOf_modify hnd hki rfl rfl, hinit, pairsOf_append,
      pairsOf_cons_enabled rfl, hinit]
    by_cases hk : key.bytes = k
    · rw [if_pos hk, if_pos hk]
      rfl
    · rw [if_neg hk, if_neg hk, pairsOf_nil, lastValue_concat, if_neg hk]
      rfl

/-- A pair for a key of an earlier group, or of this one. -/
theorem enableKey_writes {kp : Kp} (h : kp.WellFormed) (hnames : kp.names.Nodup) {id : Nat}
    {key : Bytes} (hname : kp.names[id]? = some key) (value : UInt64) :
    Writes kp ((kp.enableKey id).modifyKi id (·.set value)) key value := by
  obtain ⟨ki, hki, hkey⟩ : ∃ ki, kp.keyInfos[id]? = some ki ∧ ki.name = key := by
    rw [Kp.names, List.getElem?_map] at hname
    exact Option.map_eq_some_iff.mp hname
  constructor
  · exact (h.enableKey id).modifyValue _ fun _ => value
  · rw [Kp.modifyKi_names, Kp.enableKey_names]
    · exact hnames
    · intro ki
      rfl
  · exact (Kp.enableKey_frame kp id).disable
  · intro k
    show lastValue k (pairsOf ((kp.enableKey id).keyInfos.modify id (·.set value))) = _
    rw [Kp.enableKey_keyInfos, List.modify_modify_eq, ← hkey]
    exact lastValue_pairsOf_modify hnames hki rfl rfl k

theorem writeKeyValue_spec {kp : Kp} (h : kp.WellFormed) (hnames : kp.names.Nodup) (key : CString)
    (value : UInt64) :
    (writeKeyValue kp key value).1 = .ok ∧
      Writes kp (writeKeyValue kp key value).2 key.bytes value := by
  unfold writeKeyValue
  rcases h.getKey_cases key with ⟨hget, hnew⟩ | ⟨id, hget, hid, hname⟩
  · have hlt : kp.keyInfosCnt < (kp.addKey .success key).2.keyInfosCnt := Nat.lt_succ_self _
    simp only [hget, if_true]
    rw [(Kp.addKey_success kp key).1, Int.toNat_natCast, Kp.set_of_lt hlt]
    exact ⟨rfl, addKey_writes h hnames hnew value⟩
  · have hne : kp.getKey key ≠ -1 := by
      rw [hget]
      rintro ⟨⟩
    have hlt : id < (kp.enableKey id).keyInfosCnt := (Kp.enableKey_frame kp id).cnt ▸ hid
    simp only [hne, if_false]
    rw [hget, Int.ofNat_eq_natCast, Int.toNat_natCast, Kp.set_of_lt hlt]
    exact ⟨rfl, enableKey_writes h hnames hname value⟩

theorem Writes.holds {kp kp' : Kp} {key : Bytes} {value : UInt64} (h : Writes kp kp' key value)
    {writes : List (Bytes × UInt64)} (hkp : kp.Holds writes) :
    kp'.Holds (writes ++ [(key, value)]) where
  nodup := h.names.sublist (keys_pairsOf_sublist kp'.keyInfos)
  last k := by rw [h.last, lastValue_concat, hkp.last]

/-! ## Flushing -/

/-- What `maybe_flush` can do, with the calls `new` of the backend. -/
inductive MaybeFlush (flushTime : Int32) (s : State W) (new : List (Call W)) :
    Ret → State W → Prop
  /-- a group is opened, or goes on -/
  | stays {s' : State W} (same : s.currentTime = 0 ∨ flushTime = s.currentTime)
      (time : s'.currentTime = flushTime) (kp : s'.kp = s.kp) (calls : new = []) :
      MaybeFlush flushTime s new .ok s'
  /-- a group ends -/
  | ends {s' : State W} (open_ : s.currentTime ≠ 0) (other : flushTime ≠ s.currentTime)
      (time : s'.currentTime = flushTime) (kp : s'.kp.enabledPairs = [])
      (flushes : new.filterMap Call.flush? = if s.kp.enabledPairs = [] then []
        else [(s.currentTime.toUInt32, s.kp.enabledPairs)]) :
      MaybeFlush flushTime s new .ok s'
  /-- the backend does not succeed, and the group stays as it is -/
  | fails {r : Ret} {s' : State W} (ret : r ≠ .ok) (time : s'.currentTime = s.currentTime)
      (kp : s'.kp.core = s.kp.core) (call : ∃ c ∈ new, c.ret = r)
      (open_ : s.currentTime ≠ 0)
      (flushes : ∀ f ∈ new.filterMap Call.flush?, f = (s.currentTime.toUInt32, s.kp.enabledPairs)) :
      MaybeFlush flushTime s new r s'

/-- From `s` to `s'` the backend saw the calls `new` and the trace grew by
`events`. -/
structure Extends (s s' : State W) (new : List (Call W)) (events : List Event) : Prop where
  wf : s'.WellFormed
  calls : s'.env.calls = s.env.calls ++ new
  trace : s'.trace = s.trace ++ events

/-- A flush of the package, whatever the backend does. -/
theorem FlushOne.frame {time : UInt32} {kp kp' : Kp} {new : List (Call W)} {r : Ret}
    (h : Kp.FlushOne time kp new r kp') (hwf : kp.WellFormed) :
    kp'.names = kp.names ∧ kp'.disable = kp.disable := by
  cases h with
  | done kp₁ hcore hreset =>
    subst hreset
    exact ⟨(hwf.of_core hcore).resetDisable_names.trans (Kp.names_of_core hcore),
      (Kp.resetDisable_frame kp₁).disable.trans (Kp.disable_of_core hcore)⟩
  | failed hcore => exact ⟨Kp.names_of_core hcore, Kp.disable_of_core hcore⟩

theorem kpFlush_spec (p : Proxy W) {s : State W} (h : s.WellFormed) :
    ∃ new, Extends s (p.kpFlush s).2 new [] ∧ (p.kpFlush s).2.currentTime = s.currentTime ∧
      Kp.FlushOne s.currentTime.toUInt32 s.kp new (p.kpFlush s).1 (p.kpFlush s).2.kp := by
  obtain ⟨new, hcalls, hflush⟩ := Kp.flush_single p.backendId p.backend s.kp
    s.currentTime.toUInt32 s.env
  obtain ⟨hnames, hdisable⟩ := FlushOne.frame hflush h.kp
  exact ⟨new, ⟨⟨h.kp.flush p.timeseries s.currentTime.toUInt32 s.env, hnames ▸ h.names,
    hdisable.trans h.disable, h.statsKp⟩, hcalls, (List.append_nil _).symm⟩, rfl, hflush⟩

/-- The part of `maybe_flush` that ends a group. -/
theorem flushGroup_spec (p : Proxy W) {s : State W} (h : s.WellFormed) :
    let r := p.flushGroup s
    ∃ new, Extends s r.2 new [] ∧ r.2.currentTime = s.currentTime ∧
      ((r.1 = .ok ∧ r.2.kp.enabledPairs = [] ∧
          new.filterMap Call.flush? = if s.kp.enabledPairs = [] then []
            else [(s.currentTime.toUInt32, s.kp.enabledPairs)]) ∨
        (r.1 ≠ .ok ∧ r.2.kp.core = s.kp.core ∧ (∃ c ∈ new, c.ret = r.1) ∧
          ∀ f ∈ new.filterMap Call.flush?, f = (s.currentTime.toUInt32, s.kp.enabledPairs))) := by
  unfold Proxy.flushGroup
  have hsize := h.kp.enabledSize_eq
  split
  · next hpos =>
    have hne : s.kp.enabledPairs ≠ [] := List.ne_nil_of_length_pos (hsize ▸ hpos)
    obtain ⟨st₁, hinc₁, hst₁⟩ := incStat_spec p "flush_cnt" Int.one_pos h
    have h₁ := h.withStats hst₁
    have hcnt : (0 : Int) < ({ s with statsKp := st₁ } : State W).kp.enabledSize := by
      exact_mod_cast hpos
    obtain ⟨st₂, hinc₂, hst₂⟩ := incStat_spec p "flushed_key_cnt" hcnt h₁
    have h₂ := h₁.withStats hst₂
    obtain ⟨new, hext, htime, hflush⟩ := kpFlush_spec p h₂
    rw [hinc₁, andThen_ok, hinc₂, andThen_ok, if_neg hne]
    generalize p.kpFlush _ = r at hext htime hflush ⊢
    obtain ⟨r, s'⟩ := r
    cases hflush with
    | done kp₁ hcore hreset hflushes =>
      have hnil : s'.kp.enabledPairs = [] := by
        rw [show s'.kp = kp₁.resetDisable from hreset]
        exact (h.kp.of_core hcore).resetDisable_pairs ((Kp.disable_of_core hcore).trans h.disable)
      have hzero : s'.kp.enabledSize = 0 := by rw [hext.wf.kp.enabledSize_eq, hnil, List.length_nil]
      rw [andThen_ok, if_pos hzero]
      exact ⟨new, ⟨hext.wf, hext.calls, hext.trace⟩, htime, .inl ⟨rfl, hnil, hflushes⟩⟩
    | failed hcore hret hcall hflushes =>
      rw [andThen_of_ne hret]
      exact ⟨new, ⟨hext.wf, hext.calls, hext.trace⟩, htime, .inr ⟨hret, hcore, hcall, hflushes⟩⟩
  · next hpos =>
    have hnil : s.kp.enabledPairs = [] := List.eq_nil_of_length_eq_zero (by omega)
    refine ⟨[], ⟨h, by simp, by simp⟩, rfl, .inl ⟨rfl, hnil, ?_⟩⟩
    rw [if_pos hnil]
    rfl

theorem maybeFlush_idle (p : Proxy W) (flushTime : Int32) {s : State W} (h : s.currentTime = 0) :
    p.maybeFlush flushTime s
      = (.ok, { s.log (.maybeFlush flushTime) with currentTime := flushTime }) :=
  if_pos h

theorem maybeFlush_same (p : Proxy W) (flushTime : Int32) {s : State W} (h : s.currentTime ≠ 0)
    (hsame : flushTime = s.currentTime) :
    p.maybeFlush flushTime s = (.ok, s.log (.maybeFlush flushTime)) := by
  have hstays : ¬ (flushTime = 0 ∨ flushTime ≠ s.currentTime) := by
    rintro (hzero | hother)
    · exact h (hsame ▸ hzero)
    · exact hother hsame
  exact (if_neg h).trans (if_neg hstays)

theorem maybeFlush_other (p : Proxy W) (flushTime : Int32) {s : State W} (h : s.currentTime ≠ 0)
    (hother : flushTime ≠ s.currentTime) :
    p.maybeFlush flushTime s = andThen (p.flushGroup (s.log (.maybeFlush flushTime))) fun s =>
      (.ok, { s with currentTime := flushTime }) :=
  (if_neg h).trans ((if_pos (.inr hother)).trans (if_neg fun hassert => h hassert.2))

theorem maybeFlush_spec (p : Proxy W) (flushTime : Int32) {s : State W} (h : s.WellFormed) :
    ∃ new, Extends s (p.maybeFlush flushTime s).2 new [.maybeFlush flushTime] ∧
      MaybeFlush flushTime s new (p.maybeFlush flushTime s).1 (p.maybeFlush flushTime s).2 := by
  have hlog := h.log (.maybeFlush flushTime)
  by_cases hzero : s.currentTime = 0
  · rw [maybeFlush_idle p flushTime hzero]
    exact ⟨[], ⟨⟨hlog.kp, hlog.names, hlog.disable, hlog.statsKp⟩, by simp [State.log], rfl⟩,
      .stays (.inl hzero) rfl rfl rfl⟩
  by_cases hsame : flushTime = s.currentTime
  · rw [maybeFlush_same p flushTime hzero hsame]
    exact ⟨[], ⟨hlog, by simp [State.log], rfl⟩, .stays (.inr hsame) hsame.symm rfl rfl⟩
  · rw [maybeFlush_other p flushTime hzero hsame]
    obtain ⟨new, hext, htime, hres⟩ := flushGroup_spec p hlog
    generalize p.flushGroup _ = r at hext htime hres ⊢
    obtain ⟨r, s'⟩ := r
    have hext' : Extends s s' new [.maybeFlush flushTime] :=
      ⟨hext.wf, hext.calls, hext.trace.trans (List.append_nil _)⟩
    rcases hres with ⟨hok, hnil, hflushes⟩ | ⟨hne, hcore, hcall, hflushes⟩
    · obtain rfl : r = .ok := hok
      exact ⟨new, ⟨⟨hext.wf.kp, hext.wf.names, hext.wf.disable, hext.wf.statsKp⟩, hext'.calls,
        hext'.trace⟩, .ends hzero hsame rfl hnil hflushes⟩
    · rw [andThen_of_ne hne]
      exact ⟨new, hext', .fails hne htime hcore hcall hzero hflushes⟩

/-! ## Runs keep the state well formed -/

theorem State.WellFormed.write {s : State W} (h : s.WellFormed) (key : CString) (value : UInt64) :
    ({ s with kp := (writeKeyValue s.kp key value).2 } : State W).WellFormed := by
  obtain ⟨-, hwrites⟩ := writeKeyValue_spec h.kp h.names key value
  exact ⟨hwrites.wf, hwrites.names, hwrites.disable.trans h.disable, h.statsKp⟩

theorem parseKeyValue_wellFormed (cfg : Config) (payload : Bytes) (c : Cursor) {s : State W}
    (h : s.WellFormed) : (parseKeyValue cfg payload c s).2.2.WellFormed := by
  unfold parseKeyValue
  split
  · exact h.log _
  · exact h.log _
  · exact h
  · split
    · exact (h.write _ _).log _
    · exact h

theorem recordLoop_wellFormed (cfg : Config) (payload : Bytes) (fuel : Nat) (c : Cursor)
    {s : State W} (h : s.WellFormed) : (recordLoop cfg payload fuel c s).2.WellFormed := by
  induction fuel generalizing c s with
  | zero => exact h
  | succ fuel ih =>
    have hparse := parseKeyValue_wellFormed cfg payload c h
    rw [recordLoop]
    split
    · generalize parseKeyValue cfg payload c s = r at hparse ⊢
      obtain ⟨r, c', s'⟩ := r
      cases r with
      | ok => exact ih c' hparse
      | fail => exact hparse
      | stop why => exact hparse
    · exact h

theorem andThen_wellFormed {r : Ret × State W} (h : r.2.WellFormed)
    {next : State W → Ret × State W} (hnext : ∀ s, s.WellFormed → (next s).2.WellFormed) :
    (andThen r next).2.WellFormed := by
  obtain ⟨r, s⟩ := r
  cases r with
  | ok => exact hnext s h
  | fail => exact h
  | stop why => exact h

theorem incStat_wellFormed (p : Proxy W) (suffix : String) (value : Int) {s : State W}
    (h : s.WellFormed) : (p.incStat suffix value s).2.WellFormed := by
  by_cases hvalue : 0 < value
  · obtain ⟨st, hinc, hst⟩ := incStat_spec p suffix hvalue h
    rw [hinc]
    exact h.withStats hst
  · unfold Proxy.incStat incStatKp
    rw [if_neg hvalue]
    exact h

theorem maybeFlush_wellFormed (p : Proxy W) (flushTime : Int32) {s : State W} (h : s.WellFormed) :
    (p.maybeFlush flushTime s).2.WellFormed := by
  obtain ⟨new, hext, -⟩ := maybeFlush_spec p flushTime h
  exact hext.wf

theorem beginRecords_wellFormed (p : Proxy W) (payload : Bytes) (time : UInt32) {s : State W}
    (h : s.WellFormed) : (p.beginRecords payload time s).2.WellFormed :=
  andThen_wellFormed (maybeFlush_wellFormed p _ h) fun _ hs =>
    andThen_wellFormed (incStat_wellFormed p _ _ hs) fun _ hs => incStat_wellFormed p _ _ hs

theorem handleMessage_wellFormed (p : Proxy W) (payload : Bytes) {s : State W}
    (h : s.WellFormed) : (p.handleMessage payload s).2.WellFormed := by
  unfold Proxy.handleMessage
  dsimp only
  split_ifs
  · exact h.log _
  · exact h.log _
  · exact h.log _
  · exact h.log _
  · exact andThen_wellFormed (beginRecords_wellFormed p payload _ h) fun _ hs =>
      recordLoop_wellFormed p.cfg payload _ _ hs

/-- Every action keeps the state well formed. -/
theorem wellFormed_step (p : Proxy W) (s : State W) (i : Input) (h : s.WellFormed) :
    (p.step s i).WellFormed := by
  cases i with
  | message payload => exact handleMessage_wellFormed p payload h
  | forceFlush => exact maybeFlush_wellFormed p forceFlush h

theorem wellFormed_run (p : Proxy W) (w : W) (is : List Input) :
    (run p.step (State.init w) is).WellFormed :=
  run_always State.WellFormed (wellFormed_step p) (State.wellFormed_init w) is

end TskProxy

end Libtimeseries
