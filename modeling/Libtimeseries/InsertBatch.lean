import Mathlib.Data.List.Nodup
import Libtimeseries.Base.Cutting
import Libtimeseries.Base.Sticky
import Libtimeseries.InsertAscii
import Libtimeseries.KpFlush
import Libtimeseries.TskPartitions

/-!
# Batch mode and single mode

In batch mode `timeseries-insert` collects the records up to a change of time in a
key package and flushes them together. The package resets its values and keeps
its keys enabled, so a flush also writes 0 for every key of earlier batches
(`stickyWrites`). Whether that destroys a point depends on the batches alone:

- `batches`: the records that are flushed together. A batch ends where the time
  changes, unless the time is 0, which the tool takes for "no time yet";
- `lastBatch`: the last of them that is flushed at a time;
- `Kept`: the exact condition for batch mode to leave what single mode leaves.
-/

namespace Libtimeseries

open ByteLib CutLib LastWrite

open TskProxy (StoreWrite flushWrites)

variable {W : Type}

namespace Insert

/-! ## Batches -/

/-- The key and the value of a point. -/
def Point.record (pt : Point) : Bytes × UInt64 := (pt.key.bytes, pt.value)

/-- What a point writes to a store. -/
def Point.write (pt : Point) : StoreWrite := ((pt.key.bytes, pt.time), pt.value)

/-- The time of the last of some points, 0 if there is none: what `gtime` is behind
them. -/
def lastTime (pts : List Point) : UInt32 := (pts.getLast?.map Point.time).getD 0

/-- Is a batch flushed before the point is set? -/
def changesTime (batch : List Point) (pt : Point) : Bool :=
  decide (lastTime batch ≠ 0) && decide (lastTime batch ≠ pt.time)

/-- The batches, with some points collected already. -/
def batchesFrom (cur pts : List Point) : List (List Point) :=
  cut changesTime (fun _ => false) cur pts

/-- A batch with the time it is flushed at. -/
def tagged (batch : List Point) : UInt32 × List (Bytes × UInt64) :=
  (lastTime batch, batch.map Point.record)

/-- The last batch that is flushed at a time. -/
def lastBatch (pts : List Point) (time : UInt32) : Option (List (Bytes × UInt64)) :=
  lastValue time ((batchesFrom [] pts).map tagged)

/-- For every point, the last batch flushed at its time has the right value for its
key; a key that is not in the batch counts as 0. -/
def Kept (pts : List Point) : Prop :=
  ∀ pt ∈ pts, ((lastBatch pts pt.time).map fun batch => (lastValue pt.key.bytes batch).getD 0)
    = lastValue (pt.key.bytes, pt.time) (pts.map Point.write)

instance (pts : List Point) : Decidable (Kept pts) :=
  inferInstanceAs (Decidable (∀ pt ∈ pts, _ = _))

@[simp] theorem lastTime_concat (pts : List Point) (pt : Point) :
    lastTime (pts ++ [pt]) = pt.time := by
  simp [lastTime]

theorem batchesFrom_cons_same {cur : List Point} {pt : Point} (h : changesTime cur pt = false)
    (pts : List Point) : batchesFrom cur (pt :: pts) = batchesFrom (cur ++ [pt]) pts := by
  rw [batchesFrom, cut_cons, h, Bool.and_false]
  rfl

theorem batchesFrom_cons_changes {cur : List Point} {pt : Point} (h : changesTime cur pt = true)
    (pts : List Point) : batchesFrom cur (pt :: pts) = cur :: batchesFrom [pt] pts := by
  have hne : cur ≠ [] := by
    rintro rfl
    cases h
  rw [batchesFrom, cut_cons, h, List.isEmpty_eq_false_iff.mpr hne]
  rfl

/-- The records of a batch are flushed at their time, or have time 0. -/
theorem time_of_mem_batch {pts batch : List Point} (hbatch : batch ∈ batchesFrom [] pts) :
    ∀ pt ∈ batch, pt.time = 0 ∨ pt.time = lastTime batch := by
  refine (cut_forall _ _ (fun batch => ∀ pt ∈ batch, pt.time = 0 ∨ pt.time = lastTime batch) ?_ ?_
    (fun h => absurd rfl h) pts batch hbatch).2
  · intro pt pt' hpt'
    rw [List.mem_singleton.mp hpt']
    exact .inr rfl
  · intro cur pt _ hcur hstays _ pt' hpt'
    rw [lastTime_concat]
    rcases List.mem_append.mp hpt' with hpt' | hpt'
    · have hlast : lastTime cur = 0 ∨ lastTime cur = pt.time := by
        by_contra hne
        rw [not_or] at hne
        simp [changesTime, hne.1, hne.2] at hstays
      rcases hcur pt' hpt' with h | h
      · exact .inl h
      · rw [h]
        exact hlast
    · rw [List.mem_singleton.mp hpt']
      exact .inr rfl

/-- Only the last batch can be flushed at time 0. -/
theorem lastTime_of_mem_dropLast {pts batch : List Point}
    (hbatch : batch ∈ (batchesFrom [] pts).dropLast) : lastTime batch ≠ 0 := by
  rcases sent_of_mem_dropLast _ _ [] pts batch hbatch with hfull | ⟨pt, hpt⟩
  · cases hfull
  · exact of_decide_eq_true (Bool.and_eq_true_iff.mp hpt).1

theorem key_mem_record {pts : List Point} {pt : Point} (hpt : pt ∈ pts) :
    pt.key.bytes ∈ (pts.map Point.record).map Prod.fst := by
  rw [List.map_map]
  exact List.mem_map_of_mem hpt

/-- What the flushes of the batches leave of the points. -/
theorem lastValue_batches {pts : List Point} {pt : Point} (hpt : pt ∈ pts) :
    lastValue (pt.key.bytes, pt.time) (stickyWrites 0 [] ((batchesFrom [] pts).map tagged))
      = (lastBatch pts pt.time).map fun batch => (lastValue pt.key.bytes batch).getD 0 := by
  have hflatten : (batchesFrom [] pts).flatten = pts := cut_flatten _ _ [] pts
  obtain ⟨batch, hbatch, hmem⟩ := List.mem_flatten.mp (hflatten.symm ▸ hpt)
  have htime := time_of_mem_batch hbatch pt hmem
  have hzero : ∀ b ∈ (batchesFrom [] pts).dropLast, lastTime b ≠ 0 :=
    fun b => lastTime_of_mem_dropLast
  unfold lastBatch
  obtain ⟨before, after, hsplit⟩ := List.append_of_mem hbatch
  rw [hsplit] at hzero ⊢
  rw [List.map_append, List.map_cons]
  refine lastValue_stickyWrites (key_mem_record hmem) fun hnone => ?_
  -- the batch of the point is not flushed at its time, so that is 0
  rw [lastValue_cons, Option.or_eq_none_iff] at hnone
  have hne : lastTime batch ≠ pt.time := by
    intro h
    rw [tagged, if_pos h] at hnone
    cases hnone.2
  have htime0 : pt.time = 0 := htime.resolve_right (Ne.symm hne)
  rw [lastValue_eq_none, htime0]
  intro h
  obtain ⟨b, hb, hb0⟩ := List.mem_map.mp h
  obtain ⟨earlier, hearlier, rfl⟩ := List.mem_map.mp hb
  refine hzero earlier ?_ hb0
  rw [List.dropLast_append_of_ne_nil (List.cons_ne_nil _ _)]
  exact List.mem_append_left _ hearlier

/-- Records of non-zero times are kept if every time has one batch. -/
theorem kept_of_nodup {pts : List Point} (hzero : ∀ pt ∈ pts, pt.time ≠ 0)
    (hnd : ((batchesFrom [] pts).map lastTime).Nodup) : Kept pts := by
  have hflatten : (batchesFrom [] pts).flatten = pts := cut_flatten _ _ [] pts
  have htime : ∀ batch ∈ batchesFrom [] pts, ∀ pt ∈ batch, pt.time = lastTime batch := by
    intro batch hbatch pt hpt
    refine (time_of_mem_batch hbatch pt hpt).resolve_left (hzero pt ?_)
    rw [← hflatten]
    exact List.mem_flatten_of_mem hbatch hpt
  intro pt hpt
  obtain ⟨batch, hbatch, hmem⟩ := List.mem_flatten.mp (hflatten.symm ▸ hpt)
  have hpttime := htime batch hbatch pt hmem
  have hlast : lastBatch pts pt.time = some (batch.map Point.record) := by
    refine lastValue_of_nodup ?_ (List.mem_map.mpr ⟨batch, hbatch, ?_⟩)
    · rw [List.map_map]
      exact hnd
    · rw [tagged, hpttime]
  obtain ⟨v, hv⟩ := exists_lastValue (key_mem_record hmem)
  -- the batch holds all records of the time
  obtain ⟨before, after, hsplit⟩ := List.append_of_mem hbatch
  have hbatchWrites : lastValue (pt.key.bytes, pt.time) (batch.map Point.write) = some v := by
    have hwrites : batch.map Point.write
        = (batch.map Point.record).map fun r => ((r.1, lastTime batch), r.2) := by
      rw [List.map_map]
      refine List.map_congr_left fun pt' hpt' => ?_
      rw [Point.write, htime batch hbatch pt' hpt']
      rfl
    rw [hwrites, lastValue_tag, if_pos hpttime.symm, hv]
  have hafter : lastValue (pt.key.bytes, pt.time) (after.flatten.map Point.write) = none := by
    rw [hsplit, List.map_append, List.map_cons] at hnd
    rw [lastValue_eq_none]
    intro h
    obtain ⟨w, hw, heq⟩ := List.mem_map.mp h
    obtain ⟨pt', hpt', rfl⟩ := List.mem_map.mp hw
    obtain ⟨other, hother, hmem'⟩ := List.mem_flatten.mp hpt'
    have hother' : other ∈ batchesFrom [] pts :=
      hsplit ▸ List.mem_append_right _ (List.mem_cons_of_mem _ hother)
    have hsame : lastTime other = lastTime batch := by
      rw [← htime other hother' pt' hmem', ← hpttime]
      exact congrArg Prod.snd heq
    exact (List.nodup_cons.mp (List.nodup_append.mp hnd).2.1).1
      (hsame ▸ List.mem_map_of_mem hother)
  rw [hlast, ← hflatten, hsplit, List.flatten_append, List.flatten_cons, List.map_append,
    List.map_append, lastValue_append, lastValue_append, hafter, hbatchWrites, Option.map_some, hv]
  rfl

-- a record of time 0 is flushed at the time of the next one
example : ¬ Kept [⟨CString.ofAscii "a", 5, 0⟩, ⟨CString.ofAscii "b", 1, 20⟩] := by decide +kernel

/-! ## The package -/

/-- The package has all `keys` and those of the points since the last flush, enabled,
and holds the values of these points. -/
structure Collects (keys : List Bytes) (cur : List Point) (kp : Kp) : Prop where
  wf : kp.WellFormed
  /-- keys are looked up before they are added -/
  names : kp.names.Nodup
  reset : kp.reset = true
  disable : kp.disable = false
  enabled : ∀ ki ∈ kp.keyInfos, ki.disabled = false
  holds : kp.Holds (sticky 0 keys (cur.map Point.record))

theorem collects_init : Collects [] [] (Kp.init 1) where
  wf := Kp.wellFormed_init 1
  names := List.nodup_nil
  reset := rfl
  disable := rfl
  enabled := by rintro ki ⟨⟩
  holds := ⟨List.nodup_nil, fun _ => rfl⟩

/-- Setting values does not disable keys. -/
theorem enabled_modify {kis : List Ki} (h : ∀ ki ∈ kis, ki.disabled = false) (id : Nat)
    (value : UInt64) : ∀ ki ∈ kis.modify id (·.set value), ki.disabled = false := by
  have hflags := map_modify_of_eq Ki.disabled (·.set value) (fun _ => rfl) kis id
  intro ki hki
  have hmem : ki.disabled ∈ (kis.modify id (·.set value)).map Ki.disabled :=
    List.mem_map_of_mem hki
  rw [hflags] at hmem
  obtain ⟨ki', hki', heq⟩ := List.mem_map.mp hmem
  exact heq ▸ h ki' hki'

section Collects

variable {keys : List Bytes} {cur : List Point} {kp : Kp}

theorem Collects.writes (h : Collects keys cur kp) {pt : Point} {kp' : Kp}
    (hwrites : TskProxy.Writes kp kp' pt.key.bytes pt.value) (hreset : kp'.reset = kp.reset)
    (henabled : ∀ ki ∈ kp'.keyInfos, ki.disabled = false) : Collects keys (cur ++ [pt]) kp' where
  wf := hwrites.wf
  names := hwrites.names
  reset := hreset.trans h.reset
  disable := hwrites.disable.trans h.disable
  enabled := henabled
  holds := by
    have hholds := hwrites.holds h.holds
    rw [sticky, List.append_assoc] at hholds
    rw [sticky, List.map_append]
    exact hholds

/-- Setting a point succeeds. -/
theorem Collects.setPoint {s : State W} (h : Collects keys cur s.kp) (pt : Point) :
    ∃ kp, Program.setPoint pt s
        = (.ok, { s with kp := kp, pointsPending := s.pointsPending + 1 }) ∧
      Collects keys (cur ++ [pt]) kp := by
  rw [Program.setPoint, Program.keyId]
  rcases h.wf.getKey_cases pt.key with ⟨hget, hnew⟩ | ⟨id, hget, hid, hname⟩
  · have hlt : s.kp.keyInfosCnt < (s.kp.addKey .success pt.key).2.keyInfosCnt :=
      Nat.lt_succ_self _
    have hadded : (s.kp.addKey .success pt.key).1 = (s.kp.keyInfosCnt : Int) := rfl
    have henabled : ∀ ki ∈ (s.kp.addKey .success pt.key).2.keyInfos, ki.disabled = false := by
      intro ki hki
      rcases List.mem_append.mp hki with hki | hki
      · exact h.enabled ki hki
      · rw [List.mem_singleton.mp hki]
        rfl
    rw [if_pos hget, hadded, if_neg (by omega), if_neg (by omega), Int.toNat_natCast,
      Kp.set_of_lt hlt]
    exact ⟨_, rfl, h.writes (TskProxy.addKey_writes h.wf h.names hnew pt.value) rfl
      (enabled_modify henabled _ _)⟩
  · have hne : s.kp.getKey pt.key ≠ -1 := by
      rw [hget]
      rintro ⟨⟩
    have hsame : s.kp.enableKey id = s.kp := by
      rw [Kp.enableKey, if_neg]
      rw [Kp.isDisabled, Option.any_eq_true]
      rintro ⟨ki, hki, hdisabled⟩
      rw [h.enabled ki (List.mem_of_getElem? hki)] at hdisabled
      cases hdisabled
    have hwrites := TskProxy.enableKey_writes h.wf h.names hname pt.value
    rw [hsame] at hwrites
    rw [if_neg hne, hget, if_neg (by simp), if_neg (by simp), Int.ofNat_eq_natCast,
      Int.toNat_natCast, Kp.set_of_lt hid]
    exact ⟨_, rfl, h.writes hwrites rfl (enabled_modify h.enabled _ _)⟩

/-- The loop of `kp_reset_disable` on a package that resets. -/
theorem Collects.resetDisable (h : Collects keys cur kp) :
    Collects (keys ++ (cur.map Point.record).map Prod.fst) [] kp.resetDisable where
  wf := h.wf.resetDisable
  names := by
    rw [h.wf.resetDisable_names]
    exact h.names
  reset := (Kp.resetDisable_frame kp).reset.trans h.reset
  disable := (Kp.resetDisable_frame kp).disable.trans h.disable
  enabled := by
    intro ki hki
    rw [h.wf.resetDisable_keyInfos] at hki
    obtain ⟨ki', hki', rfl⟩ := List.mem_map.mp hki
    simp [Ki.afterFlush, h.enabled ki' hki', h.disable]
  holds := by
    have hpairs : kp.resetDisable.enabledPairs = kp.enabledPairs.map fun r => (r.1, 0) := by
      unfold Kp.enabledPairs Kp.enabledKis
      rw [h.wf.resetDisable_keyInfos, List.filter_map, List.map_map, List.map_map]
      have hflag : ((fun ki : Ki => !ki.disabled) ∘ Ki.afterFlush kp.reset kp.disable)
          = fun ki => !ki.disabled := by
        funext ki
        simp [Ki.afterFlush, h.disable]
      rw [hflag]
      refine List.map_congr_left fun ki _ => ?_
      simp [Ki.afterFlush, Ki.name, h.reset]
    constructor
    · rw [hpairs, List.map_map]
      exact h.holds.nodup
    · intro k
      rw [hpairs, List.map_nil, lastValue_sticky_flushed, ← h.holds.last]
      exact lastValue_map (f := fun k : Bytes => k) (fun _ _ h => h) (fun _ => 0) k _

/-- Backend states and `dirty` do not matter. -/
theorem Collects.of_core (h : Collects keys cur kp) {kp' : Kp} (hcore : kp'.core = kp.core) :
    Collects keys cur kp' where
  wf := h.wf.of_core hcore
  names := by
    rw [Kp.names_of_core hcore]
    exact h.names
  reset := by
    show kp'.core.reset = true
    rw [hcore]
    exact h.reset
  disable := (Kp.disable_of_core hcore).trans h.disable
  enabled := by
    have hflags := Kp.map_of_core hcore Ki.disabled fun _ => rfl
    intro ki hki
    have hmem : ki.disabled ∈ kp'.keyInfos.map Ki.disabled := List.mem_map_of_mem hki
    rw [hflags] at hmem
    obtain ⟨ki', hki', heq⟩ := List.mem_map.mp hmem
    exact heq ▸ h.enabled ki' hki'
  holds := h.holds.congr (Kp.enabledPairs_of_core hcore)

end Collects

/-! ## Runs of batch mode -/

/-- The flushes a backend gets. -/
def flushesTo (id : BackendId) (calls : List (Call W)) : List (UInt32 × List (Bytes × UInt64)) :=
  (calls.filter fun c => c.backend = id).filterMap Call.flush?

/-- The store of a backend after its flushes: the last write wins. -/
def State.batchStore (s : State W) (id : BackendId) : Store (Bytes × UInt32) UInt64 :=
  applyWrites (fun _ => none) ((flushesTo id s.env.calls).flatMap flushWrites)

/-- The store of a backend after its `set_single` callbacks. -/
def State.singleStore (s : State W) (id : BackendId) : Store (Bytes × UInt32) UInt64 :=
  applyWrites (fun _ => none) ((s.setSingles.filter fun c => c.backend = id).map
    fun c => c.point.write)

/-- Between two records: the package and `gtime` for the points since the last flush. -/
structure Pending (keys : List Bytes) (cur : List Point) (s : State W) : Prop where
  kp : Collects keys cur s.kp
  gtime : s.gtime = lastTime cur
  pending : 0 < s.pointsPending ↔ cur ≠ []

/-- The calls `new` flush the points since the last flush at the time of the last of
them, or one of them does not succeed. -/
structure Flushes (ts : Timeseries W) (keys : List Bytes) (cur : List Point) (ret : Ret)
    (new : List (Call W)) : Prop where
  failed : ret ≠ .ok → ∃ c ∈ new, c.ret ≠ .ok
  flushed : ret = .ok → ∀ id, ts.enabled id = true →
    ∃ rs, flushesTo id new = [(lastTime cur, rs)] ∧
      ∀ k, lastValue k rs = lastValue k (sticky 0 keys (cur.map Point.record))

section Steps

variable {keys : List Bytes} {cur : List Point} {s : State W}

theorem Pending.kpFlush (p : Program W) (h : Pending keys cur s) :
    let r := p.kpFlush s
    ∃ new, r.2.env.calls = s.env.calls ++ new ∧ Flushes p.ts keys cur r.1 new ∧
      (r.1 = .ok → Collects (keys ++ (cur.map Point.record).map Prod.fst) [] r.2.kp) := by
  obtain ⟨new, hcalls, hbad, hflushes⟩ := Kp.flush_calls p.ts s.kp s.gtime s.env
  obtain ⟨kp₁, hspec, hkp⟩ := Kp.flush_spec p.ts s.kp s.gtime s.env
  refine ⟨new, hcalls, ⟨hbad, fun hok id hid => ⟨s.kp.enabledPairs, ?_, h.kp.holds.last⟩⟩, ?_⟩
  · rw [← h.gtime]
    exact hflushes hok id hid
  · intro hok
    have hok' : (s.kp.flush p.ts s.gtime s.env).1 = .ok := hok
    rw [if_pos hok'] at hkp
    show Collects _ _ (s.kp.flush p.ts s.gtime s.env).2.1
    rw [hkp]
    exact (h.kp.of_core hspec.core).resetDisable

/-- A point of the same batch. -/
theorem Pending.insertBatch_same (p : Program W) (h : Pending keys cur s) {pt : Point}
    (hsame : changesTime cur pt = false) :
    ∃ s', p.insertBatch pt s = (.ok, s') ∧ s'.env = s.env ∧ Pending keys (cur ++ [pt]) s' := by
  have hgtime : (if s.gtime = 0 then { s with gtime := pt.time } else s : State W)
      = { s with gtime := pt.time } := by
    split
    · rfl
    · next hne =>
      have htime : s.gtime = pt.time := by
        rw [h.gtime] at hne ⊢
        by_contra hother
        simp [changesTime, hne, hother] at hsame
      rw [← htime]
  rw [Program.insertBatch, hgtime, if_neg (by simp)]
  obtain ⟨kp, hset, hkp⟩ := Collects.setPoint (s := { s with gtime := pt.time }) h.kp pt
  exact ⟨_, hset, rfl, hkp, (lastTime_concat cur pt).symm, by simp⟩

/-- The first point of the next batch. -/
theorem Pending.insertBatch_changes (p : Program W) (h : Pending keys cur s) {pt : Point}
    (hchanges : changesTime cur pt = true) :
    let r := p.insertBatch pt s
    ∃ new, r.2.env.calls = s.env.calls ++ new ∧ Flushes p.ts keys cur r.1 new ∧
      (r.1 = .ok → Pending (keys ++ (cur.map Point.record).map Prod.fst) [pt] r.2) := by
  obtain ⟨hne, hother⟩ := Bool.and_eq_true_iff.mp hchanges
  rw [← h.gtime] at hne hother
  rw [Program.insertBatch, if_neg (of_decide_eq_true hne), if_pos (of_decide_eq_true hother)]
  have hflush := h.kpFlush p
  generalize p.kpFlush s = r at hflush ⊢
  obtain ⟨ret, s₁⟩ := r
  obtain ⟨new, hcalls, hflushes, hkp⟩ := hflush
  cases ret with
  | fail => exact ⟨new, hcalls, hflushes, by rintro ⟨⟩⟩
  | stop why => exact ⟨new, hcalls, hflushes, by rintro ⟨⟩⟩
  | ok =>
    obtain ⟨kp, hset, hkp'⟩ := Collects.setPoint
      (s := { s₁ with gtime := pt.time, pointsPending := 0 }) (hkp rfl) pt
    dsimp only
    rw [hset]
    exact ⟨new, hcalls, hflushes, fun _ => ⟨hkp', rfl, by simp⟩⟩

/-- The final flush. -/
theorem Pending.finish (p : Program W) (hmode : p.batchMode = true) (h : Pending keys cur s)
    (hne : cur ≠ []) :
    let r := p.finish s
    ∃ new, r.2.env.calls = s.env.calls ++ new ∧ Flushes p.ts keys cur r.1 new := by
  have hpending : (p.batchMode && decide (0 < s.pointsPending)) = true := by
    rw [hmode, Bool.true_and]
    exact decide_eq_true (h.pending.mpr hne)
  rw [Program.finish, if_pos hpending]
  obtain ⟨new, hcalls, hflushes, -⟩ := h.kpFlush p
  exact ⟨new, hcalls, hflushes⟩

end Steps

theorem flushesTo_append (id : BackendId) (calls calls' : List (Call W)) :
    flushesTo id (calls ++ calls') = flushesTo id calls ++ flushesTo id calls' := by
  simp [flushesTo]

/-- What a flush of a batch writes. -/
theorem Flushes.writes {ts : Timeseries W} {keys : List Bytes} {cur : List Point}
    {new : List (Call W)} (h : Flushes ts keys cur .ok new) {id : BackendId}
    (hid : ts.enabled id = true) (kt : Bytes × UInt32) :
    lastValue kt ((flushesTo id new).flatMap flushWrites)
      = lastValue kt
          ((sticky 0 keys (tagged cur).2).map fun w => ((w.1, (tagged cur).1), w.2)) := by
  obtain ⟨rs, hrs, hlast⟩ := h.flushed rfl id hid
  obtain ⟨k, t⟩ := kt
  rw [hrs, List.flatMap_singleton, flushWrites, lastValue_tag, lastValue_tag, hlast]
  rfl

/-- The run of a batch-mode tool: every enabled backend gets the writes of the batches,
or some callback does not succeed. -/
theorem process_spec (p : Program W) (hmode : p.batchMode = true) (pts : List Point)
    {keys : List Bytes} {cur : List Point} {s : State W} (h : Pending keys cur s) :
    let r := p.process pts s
    ∃ new, r.2.env.calls = s.env.calls ++ new ∧ (r.1 ≠ .ok → ∃ c ∈ new, c.ret ≠ .ok) ∧
      (r.1 = .ok → ∀ id, p.ts.enabled id = true → ∀ kt,
        lastValue kt ((flushesTo id new).flatMap flushWrites)
          = lastValue kt (stickyWrites 0 keys ((batchesFrom cur pts).map tagged))) := by
  induction pts generalizing keys cur s with
  | nil =>
    show ∃ new, (p.finish s).2.env.calls = s.env.calls ++ new ∧ _
    by_cases hne : cur = []
    · have hpending : ¬ (p.batchMode && decide (0 < s.pointsPending)) = true := by
        rw [hmode, Bool.true_and, decide_eq_true_eq, h.pending]
        exact not_not_intro hne
      rw [Program.process, Program.insertAll]
      dsimp only
      rw [Program.finish, if_neg hpending, hne]
      exact ⟨[], (List.append_nil _).symm, fun h => absurd rfl h, fun _ _ _ _ => rfl⟩
    · obtain ⟨new, hcalls, hflushes⟩ := h.finish p hmode hne
      refine ⟨new, hcalls, hflushes.failed, fun hok id hid kt => ?_⟩
      have hok' : (p.finish s).1 = .ok := hok
      rw [hok'] at hflushes
      rw [hflushes.writes hid kt, batchesFrom, cut_nil_of_ne _ _ hne, List.map_singleton,
        stickyWrites, stickyWrites, List.append_nil]
  | cons pt pts ih =>
    have hmode' : p.insertPoint pt s = p.insertBatch pt s := by rw [Program.insertPoint, if_pos hmode]
    cases hchanges : changesTime cur pt with
    | false =>
      obtain ⟨s₁, hinsert, henv, hpending⟩ := h.insertBatch_same p hchanges
      rw [p.process_cons_of_ok pts (hmode'.trans hinsert), ← henv, batchesFrom_cons_same hchanges]
      exact ih hpending
    | true =>
      obtain ⟨new₁, hcalls₁, hflushes, hpending⟩ := h.insertBatch_changes p hchanges
      by_cases hret : (p.insertBatch pt s).1 = .ok
      · rw [hret] at hflushes
        obtain ⟨new₂, hcalls₂, hbad, hwrites⟩ := ih (hpending hret)
        have hinsert : p.insertPoint pt s = (.ok, (p.insertBatch pt s).2) := by
          rw [hmode', ← hret]
        rw [p.process_cons_of_ok pts hinsert]
        refine ⟨new₁ ++ new₂, by rw [hcalls₂, hcalls₁, List.append_assoc], ?_, ?_⟩
        · intro hne
          obtain ⟨c, hc, hne⟩ := hbad hne
          exact ⟨c, List.mem_append_right _ hc, hne⟩
        · intro hok id hid kt
          rw [flushesTo_append, List.flatMap_append, lastValue_append, hwrites hok id hid,
            hflushes.writes hid kt, batchesFrom_cons_changes hchanges, List.map_cons, stickyWrites,
            lastValue_append]
          rfl
      · rw [p.process_cons_of_ne pts (hmode'.symm ▸ hret), hmode']
        exact ⟨new₁, hcalls₁, hflushes.failed, fun h => absurd h hret⟩

/-! ## Single mode -/

/-- Single mode makes one callback a point for every enabled backend. -/
theorem setAll_setSingles (p : Program W) (pts : List Point) (s : State W)
    (hok : (p.setAll pts s).1 = .ok) :
    (p.setAll pts s).2.setSingles = s.setSingles
      ++ pts.flatMap fun pt => p.ts.enabledIds.map fun id => ⟨id, pt, .ok⟩ := by
  induction pts generalizing s with
  | nil => exact (List.append_nil _).symm
  | cons pt pts ih =>
    obtain ⟨env, new, hs, hnew, -⟩ := p.setSingleLoop_spec pt p.ts.enabledIds
      { s with points := s.points ++ [pt] }
    rw [← Program.timeseriesSetSingle] at hs hnew
    rw [Program.setAll] at hok ⊢
    generalize p.timeseriesSetSingle pt s = r at hs hnew hok ⊢
    obtain ⟨ret, s₁⟩ := r
    cases ret with
    | fail => cases hok
    | stop why => cases hok
    | ok =>
      have hs₁ : s₁.setSingles = s.setSingles ++ new := congrArg State.setSingles hs
      have hrest : (p.setAll pts s₁).2.setSingles = _ := ih s₁ hok
      show (p.setAll pts s₁).2.setSingles = _
      rw [hrest, hs₁, hnew rfl, List.flatMap_cons, List.append_assoc]

/-- The callbacks a backend gets in single mode. -/
theorem setSingles_filter (ts : Timeseries W) {id : BackendId} (hid : ts.enabled id = true)
    (pts : List Point) :
    ((pts.flatMap fun pt => ts.enabledIds.map fun id => SetSingle.mk id pt .ok).filter
        fun c => c.backend = id).map (fun c => c.point.write)
      = pts.map Point.write := by
  have hone : ∀ ids : List BackendId, ids.Nodup → id ∈ ids → ∀ pt : Point,
      ((ids.map fun id => SetSingle.mk id pt .ok).filter fun c => c.backend = id)
        = [⟨id, pt, .ok⟩] := by
    intro ids hnd hmem pt
    rw [List.filter_map]
    have hfilter : ids.filter (fun id' => decide (id' = id)) = [id] := by
      rw [List.filter_eq, List.count_eq_one_of_mem hnd hmem]
      rfl
    exact (congrArg (List.map _) hfilter).trans rfl
  induction pts with
  | nil => rfl
  | cons pt pts ih =>
    rw [List.flatMap_cons, List.filter_append, List.map_append, ih,
      hone _ ts.enabledIds_nodup (Timeseries.mem_enabledIds.mpr hid) pt]
    rfl

/-- **Batch mode and single mode**: when all callbacks succeed, batch mode leaves every
enabled backend with the value of the last record of each key and time, as single
mode does, if and only if the records are `Kept`. -/
theorem batch_agrees_iff {p : Program W} (hmode : p.batchMode = true) (pts : List Point) (w w' : W)
    (hok : ∀ c ∈ (p.process pts (State.init w)).2.env.calls, c.ret = .ok)
    (hok' : ∀ c ∈ (p.setAll pts (State.init w')).2.setSingles, c.ret = .ok) {id : BackendId}
    (hid : p.ts.enabled id = true) :
    (∀ pt ∈ pts,
        (p.process pts (State.init w)).2.batchStore id (pt.key.bytes, pt.time)
            = (p.setAll pts (State.init w')).2.singleStore id (pt.key.bytes, pt.time) ∧
          (p.setAll pts (State.init w')).2.singleStore id (pt.key.bytes, pt.time)
            = lastValue (pt.key.bytes, pt.time) (pts.map Point.write)) ↔ Kept pts := by
  -- single mode writes the records
  have hsingle : ∀ kt, (p.setAll pts (State.init w')).2.singleStore id kt
      = lastValue kt (pts.map Point.write) := by
    obtain ⟨-, new, hnew, hret⟩ := p.setAll_spec pts (State.init w')
    have hsets := setAll_setSingles p pts (State.init w')
      (hret fun c hc => hok' c (hnew ▸ List.mem_append_right _ hc)).1
    intro kt
    have hinit : (State.init w').setSingles = [] := rfl
    rw [State.singleStore, hsets, hinit, List.nil_append, setSingles_filter p.ts hid,
      applyWrites_apply, Option.or_none]
  -- batch mode writes the batches
  have hpending : Pending [] [] (State.init w) := ⟨collects_init, rfl, by simp [State.init]⟩
  obtain ⟨new, hcalls, hbad, hwrites⟩ := process_spec p hmode pts hpending
  have hcalls' : (p.process pts (State.init w)).2.env.calls = new := hcalls
  have hret : (p.process pts (State.init w)).1 = .ok := by
    by_contra hne
    obtain ⟨c, hc, hcne⟩ := hbad hne
    exact hcne (hok c (hcalls' ▸ hc))
  have hbatch : ∀ pt ∈ pts, (p.process pts (State.init w)).2.batchStore id (pt.key.bytes, pt.time)
      = (lastBatch pts pt.time).map fun batch => (lastValue pt.key.bytes batch).getD 0 := by
    intro pt hpt
    rw [State.batchStore, hcalls', applyWrites_apply, Option.or_none, hwrites hret id hid,
      lastValue_batches hpt]
  constructor
  · intro h pt hpt
    rw [← hbatch pt hpt, (h pt hpt).1, hsingle]
  · intro h pt hpt
    refine ⟨?_, hsingle _⟩
    rw [hbatch pt hpt, hsingle]
    exact h pt hpt

/-- Batch mode with the ASCII backend. -/
def asciiBatch : Program Ascii.State := { asciiProgram with batchMode := true }

/-- The time 10 comes back for another key. -/
def timeComesBack : List Point :=
  [⟨CString.ofAscii "a", 5, 10⟩, ⟨CString.ofAscii "b", 1, 20⟩, ⟨CString.ofAscii "c", 2, 10⟩]

/-- The second flush at 10 writes 0 over the value of the first record. -/
theorem batch_overwrites :
    (∀ c ∈ (asciiBatch.process timeComesBack (State.init ⟨[]⟩)).2.env.calls, c.ret = .ok) ∧
      (∀ c ∈ (asciiBatch.setAll timeComesBack (State.init ⟨[]⟩)).2.setSingles, c.ret = .ok) ∧
      ¬ ∀ pt ∈ timeComesBack,
        (asciiBatch.process timeComesBack (State.init ⟨[]⟩)).2.batchStore .ascii
            (pt.key.bytes, pt.time)
          = (asciiBatch.setAll timeComesBack (State.init ⟨[]⟩)).2.singleStore .ascii
            (pt.key.bytes, pt.time) := by
  decide +kernel

/-- The time 10 comes back for the same key. -/
def timeGoesOn : List Point :=
  [⟨CString.ofAscii "a", 5, 10⟩, ⟨CString.ofAscii "b", 1, 20⟩, ⟨CString.ofAscii "a", 6, 10⟩]

theorem batch_agrees_iff_timeGoesOn :
    (∀ pt ∈ timeGoesOn,
        (asciiBatch.process timeGoesOn (State.init ⟨[]⟩)).2.batchStore .ascii
              (pt.key.bytes, pt.time)
            = (asciiBatch.setAll timeGoesOn (State.init ⟨[]⟩)).2.singleStore .ascii
              (pt.key.bytes, pt.time) ∧
          (asciiBatch.setAll timeGoesOn (State.init ⟨[]⟩)).2.singleStore .ascii
              (pt.key.bytes, pt.time)
            = lastValue (pt.key.bytes, pt.time) (timeGoesOn.map Point.write)) ↔
      Kept timeGoesOn := by
  have hbatch : ∀ c ∈ (asciiBatch.process timeGoesOn (State.init ⟨[]⟩)).2.env.calls,
      c.ret = .ok := by decide +kernel
  have hsingle : ∀ c ∈ (asciiBatch.setAll timeGoesOn (State.init ⟨[]⟩)).2.setSingles,
      c.ret = .ok := by decide +kernel
  exact batch_agrees_iff rfl timeGoesOn _ _ hbatch hsingle rfl

end Insert

end Libtimeseries
