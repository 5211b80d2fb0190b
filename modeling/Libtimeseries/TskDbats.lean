import Libtimeseries.DbatsAtomic
import Libtimeseries.TskRunFlushes
import Libtimeseries.TskStops

/-!
# The proxy in front of DBATS

The whole program with the DBATS backend: `run`, the key package, the lazy lookup
of ids and the retry loop of the flush, over a database that may refuse or
deadlock any call.

- `Ready`: every key of the package has its id, or is enabled in a dirty package.
  The proxy never disables a key itself, and enables only keys that a successful
  flush has disabled, so it stays clear of keys that are flushed without an id;
- `dbats_resolved`: hence no flush dereferences a missing id, whatever payloads
  arrive;
- `dbats_stopped`: so the data never end the process, but the last message may;
- `dbats_crashConsistent`: at every moment the committed data are those of an
  initial segment of the records received, and of all of them once `run` has
  returned 0.
-/

namespace Libtimeseries

open ByteLib GroupLib LastWrite RunLib

namespace TskProxy

variable {V : Type}

/-- The proxy with the DBATS backend. -/
def dbatsProxy (cfg : Config) (statsKeyPrefix : CString) : Proxy Dbats.State :=
  ⟨cfg, statsKeyPrefix, .dbats, Dbats.backend⟩

/-- The program with the DBATS backend, after some ticks. -/
def dbatsRun (cfg : Config) (statsKeyPrefix : CString) (stats : Stats V) (db : Dbats.Db) (v : V)
    (statsTime : Int32) (ticks : List Tick) : Main Dbats.State V :=
  run (Program.step ⟨dbatsProxy cfg statsKeyPrefix, stats⟩) (Main.init (.init db) v statsTime) ticks

/-! ## Ids of the keys -/

/-- A key has an id, or the next flush looks it up. -/
def HasIdOrPending (dirty : Bool) (ki : Ki) : Prop :=
  (ki.backendState .dbats).isSome ∨ ki.disabled = false ∧ dirty = true

/-- A successful or a failed callback. -/
def Call.returns {W : Type} (c : Call W) : Prop := c.ret = .ok ∨ c.ret = .fail

/-- The ids a flush is going to use are those of its keys. -/
def Call.FindsIds (c : Call Dbats.State) : Prop :=
  ∀ time, c.callback = .kpFlush time → ∀ ki ∈ c.kp.keyInfos, ki.disabled = false →
    ∃ id, ki.backendState .dbats = some id ∧ c.world.db.table.id? ki.name = some id

/-- The package and the database: what is committed is what the successful flushes
have written on top of `data₀`. -/
structure Ready (data₀ : Store (Bytes × UInt32) UInt64) (kp : Kp) (e : Env Dbats.State) :
    Prop where
  wf : kp.WellFormed
  right : IdsRight kp.keyInfos e.world.db.table
  pending : ∀ ki ∈ kp.keyInfos, HasIdOrPending kp.dirty ki
  data : e.world.db.data = applyWrites data₀ (e.flushed.flatMap flushWrites)
  calls : ∀ c ∈ e.calls, Call.returns c ∧ Call.FindsIds c

theorem forall_mem_modify {α : Type} {P : α → Prop} {l : List α} (h : ∀ a ∈ l, P a) {f : α → α}
    (hf : ∀ a, P a → P (f a)) (i : Nat) : ∀ a ∈ l.modify i f, P a := by
  intro a ha
  obtain ⟨j, hj⟩ := List.mem_iff_getElem?.mp ha
  rw [List.getElem?_modify] at hj
  obtain ⟨b, hb, rfl⟩ := Option.map_eq_some_iff.mp hj
  have hPb := h b (List.mem_of_getElem? hb)
  split
  · exact hf b hPb
  · exact hPb

section Write

variable {data₀ : Store (Bytes × UInt32) UInt64} {kp : Kp} {e : Env Dbats.State}

theorem Ready.set (h : Ready data₀ kp e) (id : Nat) (value : UInt64) :
    Ready data₀ (kp.set id value).2 e := by
  refine ⟨h.wf.set id value, (ids_of_set kp id value).1 _ h.right, ?_, h.data, h.calls⟩
  rw [(Kp.set_frame kp id value).dirty]
  unfold Kp.set
  split
  · exact forall_mem_modify (f := fun ki => ki.set value) h.pending (fun _ hki => hki) id
  · exact h.pending

theorem Ready.enableKey (h : Ready data₀ kp e) (id : Nat) : Ready data₀ (kp.enableKey id) e := by
  refine ⟨h.wf.enableKey id, (ids_of_enableKey kp id).1 _ h.right, ?_, h.data, h.calls⟩
  rw [(Kp.enableKey_frame kp id).dirty, Kp.enableKey_keyInfos]
  refine forall_mem_modify h.pending (fun ki hki => ?_) id
  exact hki.imp_right fun hki => ⟨rfl, hki.2⟩

/-- A new key makes the package dirty. -/
theorem Ready.addKey (h : Ready data₀ kp e) (key : CString) :
    Ready data₀ (kp.addKey .success key).2 e := by
  refine ⟨h.wf.addKey key, ?_, ?_, h.data, h.calls⟩
  · show IdsRight (kp.keyInfos ++ [Ki.init key]) _
    refine List.forall_mem_append.mpr ⟨h.right, ?_⟩
    intro ki hki id hid
    rw [List.mem_singleton.mp hki] at hid
    cases hid
  · show ∀ ki ∈ kp.keyInfos ++ [Ki.init key], HasIdOrPending true ki
    refine List.forall_mem_append.mpr ⟨fun ki hki => ?_, fun ki hki => ?_⟩
    · exact (h.pending ki hki).imp_right fun hki => ⟨hki.1, rfl⟩
    · rw [List.mem_singleton.mp hki]
      exact .inr ⟨rfl, rfl⟩

theorem Ready.writeKeyValue (h : Ready data₀ kp e) (key : CString) (value : UInt64) :
    Ready data₀ (writeKeyValue kp key value).2 e := by
  unfold TskProxy.writeKeyValue
  dsimp only
  split
  · exact (h.addKey key).set _ _
  · exact (h.enableKey _).set _ _

end Write

/-! ## A flush -/

/-- `kp_ki_update` leaves enabled keys without an id only if it fails. -/
theorem kiUpdateLoop_pending {kis : List Ki} (db : Dbats.Db)
    (h : ∀ ki ∈ kis, HasIdOrPending true ki) :
    let r := Dbats.kiUpdateLoop kis db
    (r.1 = .ok ∧ ∀ ki ∈ r.2.1, (ki.backendState .dbats).isSome) ∨
      (r.1 = .fail ∧ ∀ ki ∈ r.2.1, HasIdOrPending true ki) := by
  induction kis generalizing db with
  | nil => exact .inl ⟨rfl, List.forall_mem_nil _⟩
  | cons ki kis ih =>
    obtain ⟨hki, hkis⟩ := List.forall_mem_cons.mp h
    rw [Dbats.kiUpdateLoop]
    split
    · next hskip =>
      -- a disabled key has an id already
      have hsome : (ki.backendState .dbats).isSome := by
        rcases hki with hsome | ⟨hen, -⟩
        · exact hsome
        · simpa [hen] using hskip
      rcases ih db hkis with ⟨hok, hall⟩ | ⟨hfail, hall⟩
      · exact .inl ⟨hok, List.forall_mem_cons.mpr ⟨hsome, hall⟩⟩
      · exact .inr ⟨hfail, List.forall_mem_cons.mpr ⟨.inl hsome, hall⟩⟩
    · generalize db.getKeyId ki.name = r
      obtain ⟨id?, db'⟩ := r
      cases id? with
      | none => exact .inr ⟨rfl, h⟩
      | some id =>
        rcases ih db' hkis with ⟨hok, hall⟩ | ⟨hfail, hall⟩
        · exact .inl ⟨hok, List.forall_mem_cons.mpr ⟨rfl, hall⟩⟩
        · exact .inr ⟨hfail, List.forall_mem_cons.mpr ⟨.inl rfl, hall⟩⟩

section Flush

variable {data₀ : Store (Bytes × UInt32) UInt64} {kp : Kp} {e : Env Dbats.State}
  {ts : Timeseries Dbats.State}

/-- One more callback that is no flush. -/
theorem flushed_concat_kiUpdate {c : Call Dbats.State} {w : Dbats.State}
    (hc : c.callback = .kpKiUpdate) : (Env.mk w (e.calls ++ [c])).flushed = e.flushed := by
  rw [Env.flushed_of_calls (e := e) rfl, List.filterMap_cons_none, List.filterMap_nil,
    List.append_nil]
  rw [Kp.flushed?_kiUpdate hc]
  rfl

/-- `kp_ki_update` of a dirty package. -/
theorem Ready.kpKiUpdate (h : Ready data₀ kp e) (hts : ts.backend .dbats = Dbats.backend) :
    let r := ts.callKpKiUpdate .dbats { kp with dirty := false } e
    (r.1 = .ok ∧ Ready data₀ r.2.1 r.2.2 ∧ ∀ ki ∈ r.2.1.keyInfos, (ki.backendState .dbats).isSome) ∨
      (r.1 = .fail ∧ Ready data₀ { r.2.1 with dirty := true } r.2.2) := by
  have hpending : ∀ ki ∈ kp.keyInfos, HasIdOrPending true ki := fun ki hki =>
    (h.pending ki hki).imp_right fun hki => ⟨hki.1, rfl⟩
  have hres := kiUpdateLoop_pending e.world.db hpending
  obtain ⟨-, hdata⟩ := Dbats.kiUpdateLoop_data kp.keyInfos e.world.db
  obtain ⟨-, hright, -⟩ := Dbats.kiUpdateLoop_ids kp.keyInfos e.world.db h.right
  have hspec := Kp.callKpKiUpdate_spec ts 0 .dbats { kp with dirty := false } e
  have hwf := h.wf.of_core (hspec.core.trans (Kp.core_dirty kp false))
  generalize hloop : Dbats.kiUpdateLoop kp.keyInfos e.world.db = r at hdata hres hright
  obtain ⟨ret, kis, db⟩ := r
  have hcall : ts.callKpKiUpdate .dbats { kp with dirty := false } e
      = (ret, { kp with keyInfos := kis, dirty := false }, ⟨{ e.world with db := db },
        e.calls ++ [⟨.dbats, .kpKiUpdate, { kp with dirty := false }, e.world, ret⟩]⟩) := by
    rw [Timeseries.callKpKiUpdate, hts, Dbats.kpKiUpdate_eq { kp with dirty := false } e.world hloop]
  rw [hcall] at hwf ⊢
  have hflushed := flushed_concat_kiUpdate (e := e) (c := ⟨.dbats, .kpKiUpdate,
    { kp with dirty := false }, e.world, ret⟩) (w := { e.world with db := db }) rfl
  have hcalls : (ret = .ok ∨ ret = .fail) → ∀ c ∈ e.calls ++
      [⟨.dbats, .kpKiUpdate, { kp with dirty := false }, e.world, ret⟩],
        Call.returns c ∧ Call.FindsIds c := by
    intro hret
    refine List.forall_mem_append.mpr ⟨h.calls, fun c hc => ?_⟩
    rw [List.mem_singleton.mp hc]
    exact ⟨hret, by rintro time ⟨⟩⟩
  have hcommitted : db.data = applyWrites data₀ (e.flushed.flatMap flushWrites) :=
    hdata.trans h.data
  rw [← hflushed] at hcommitted
  rcases hres with ⟨rfl, hall⟩ | ⟨rfl, hall⟩
  · exact .inl ⟨rfl, ⟨hwf, hright, fun ki hki => .inl (hall ki hki), hcommitted,
      hcalls (.inl rfl)⟩, hall⟩
  · exact .inr ⟨rfl, hwf.of_core (Kp.core_dirty _ true), hright, hall, hcommitted, hcalls (.inr rfl)⟩

/-- `kp_flush` of a package all of whose keys have their ids. -/
theorem Ready.kpFlush (h : Ready data₀ kp e) (hts : ts.backend .dbats = Dbats.backend)
    (hset : ∀ ki ∈ kp.keyInfos, (ki.backendState .dbats).isSome) (time : UInt32) :
    let r := ts.callKpFlush .dbats kp time e
    (r.1 = .ok ∨ r.1 = .fail) ∧ r.2.1 = kp ∧ Ready data₀ kp r.2.2 := by
  -- the package itself comes back unchanged
  obtain ⟨ret, w, hrun, hdoes⟩ : ∃ ret w, Dbats.backend.kpFlush kp time e.world = (ret, kp, w) ∧
      Dbats.Does time kp.enabledPairs e.world.db ret w.db :=
    ⟨_, _, rfl, Dbats.kpFlush_does e.world time h.right fun ki hki _ => hset ki hki⟩
  unfold Timeseries.callKpFlush
  rw [hts, hrun]
  have hret : ret = .ok ∨ ret = .fail := hdoes.outcome.imp And.left And.left
  refine ⟨hret, rfl, h.wf, h.right.mono hdoes.older.table, h.pending, ?_, ?_⟩
  · show w.db.data = applyWrites data₀ (Env.flushed ⟨_, e.calls ++ [_]⟩ |>.flatMap flushWrites)
    rw [Env.flushed_of_calls (e := e) rfl, List.flatMap_append, applyWrites_append, ← h.data]
    rcases hdoes.outcome with ⟨rfl, hcommitted⟩ | ⟨rfl, hdata⟩
    · rw [List.filterMap_cons_some (by rw [Kp.flushed?_ok rfl rfl]; rfl), List.filterMap_nil,
        List.flatMap_singleton]
      exact hcommitted
    · rw [hdata, List.filterMap_cons_none (by rw [Kp.flushed?_failed (by rintro ⟨⟩)]; rfl)]
      rfl
  · refine List.forall_mem_append.mpr ⟨h.calls, fun c hc => ?_⟩
    rw [List.mem_singleton.mp hc]
    refine ⟨hret, fun _ _ ki hki hen => ?_⟩
    obtain ⟨id, hid⟩ := Option.isSome_iff_exists.mp (hset ki hki)
    exact ⟨id, hid, h.right ki hki id hid⟩

theorem Ready.resetDisable (h : Ready data₀ kp e)
    (hset : ∀ ki ∈ kp.keyInfos, (ki.backendState .dbats).isSome) :
    Ready data₀ kp.resetDisable e := by
  have hkis := h.wf.resetDisable_keyInfos
  refine ⟨h.wf.resetDisable, ?_, ?_, h.data, h.calls⟩
  · rw [hkis]
    exact ids_of_afterFlush.1 _ h.right
  · rw [hkis]
    intro ki hki
    obtain ⟨ki', hki', rfl⟩ := List.mem_map.mp hki
    exact .inl (hset ki' hki')

/-- **A flush** keeps the package ready. -/
theorem Ready.flush (h : Ready data₀ kp e) (cfg : Config) (statsKeyPrefix : CString)
    (time : UInt32) :
    let r := kp.flush (dbatsProxy cfg statsKeyPrefix).timeseries time e
    Ready data₀ r.2.1 r.2.2 := by
  have hts : (dbatsProxy cfg statsKeyPrefix).timeseries.backend .dbats = Dbats.backend := rfl
  have hids : (dbatsProxy cfg statsKeyPrefix).timeseries.enabledIds = [.dbats] :=
    Timeseries.single_enabledIds _ _
  generalize (dbatsProxy cfg statsKeyPrefix).timeseries = ts at hts hids ⊢
  -- the ids that are missing are looked up first
  have hup : let r := if kp.dirty then ts.callKpKiUpdate .dbats { kp with dirty := false } e
        else (.ok, { kp with dirty := false }, e)
      (r.1 = .ok ∧ Ready data₀ r.2.1 r.2.2 ∧
        ∀ ki ∈ r.2.1.keyInfos, (ki.backendState .dbats).isSome) ∨
      (r.1 = .fail ∧ Ready data₀ { r.2.1 with dirty := true } r.2.2) := by
    cases hdirty : kp.dirty with
    | true => exact h.kpKiUpdate hts
    | false =>
      have hset : ∀ ki ∈ kp.keyInfos, (ki.backendState .dbats).isSome := fun ki hki =>
        (h.pending ki hki).resolve_right fun hki => by rw [hdirty] at hki; cases hki.2
      have hwf : ({ kp with dirty := false } : Kp).WellFormed :=
        h.wf.of_core (Kp.core_dirty kp false)
      exact .inl ⟨rfl, ⟨hwf, h.right, fun ki hki => .inl (hset ki hki), h.data, h.calls⟩, hset⟩
  unfold Kp.flush
  rw [hids, Kp.flushLoop]
  generalize (if kp.dirty then ts.callKpKiUpdate .dbats { kp with dirty := false } e
    else (.ok, { kp with dirty := false }, e)) = r at hup ⊢
  obtain ⟨r, kp₁, e₁⟩ := r
  rcases hup with ⟨rfl, hready, hset⟩ | ⟨rfl, hready⟩
  · obtain ⟨hret, hkp, hready₂⟩ := hready.kpFlush hts hset time
    dsimp only at hret hkp hready₂ ⊢
    generalize ts.callKpFlush .dbats kp₁ time e₁ = r at hret hkp hready₂ ⊢
    obtain ⟨r, kp₂, e₂⟩ := r
    obtain rfl : kp₂ = kp₁ := hkp
    rcases hret with rfl | rfl
    · exact hready₂.resetDisable hset
    · exact hready₂
  · exact hready

end Flush

/-! ## Whole runs -/

theorem ready_init (db : Dbats.Db) : Ready db.data (Kp.init 2) ⟨.init db, []⟩ where
  wf := Kp.wellFormed_init 2
  right := List.forall_mem_nil _
  pending := List.forall_mem_nil _
  data := rfl
  calls := List.forall_mem_nil _

theorem keeps_ready (data₀ : Store (Bytes × UInt32) UInt64) (cfg : Config)
    (statsKeyPrefix : CString) : Keeps (dbatsProxy cfg statsKeyPrefix) (Ready data₀) where
  write key value h := h.writeKeyValue key value
  flush time h := h.flush cfg statsKeyPrefix time

section Runs

variable (cfg : Config) (statsKeyPrefix : CString) (stats : Stats V) (db : Dbats.Db) (v : V)
  (statsTime : Int32) (ticks : List Tick)

theorem ready_run :
    Ready db.data (dbatsRun cfg statsKeyPrefix stats db v statsTime ticks).proxy.kp
      (dbatsRun cfg statsKeyPrefix stats db v statsTime ticks).proxy.env :=
  (keeps_ready db.data cfg statsKeyPrefix).run (m := ⟨dbatsProxy cfg statsKeyPrefix, stats⟩) _ v
    statsTime (ready_init db) ticks

end Runs

/-- DBATS fails to commit the first group; the second attempt, on the way out,
deadlocks once. -/
def failingCommit : Dbats.Db :=
  ⟨Dbats.KeyTable.empty, fun _ => none, [], [.ok, .ok, .ok, .error, .ok, .deadlock], []⟩

/-- Two messages of different times, one that is rejected, and a signal. -/
def twoGroups : List Tick :=
  [.go 0 none, .go 0 (some (.data (messageA 60 1).payload)), .go 0 none,
    .go 0 (some (.data [])), .go 0 none, .go 0 (some (.data (messageA 120 2).payload)), .go 0 none]

/-- The records of the groups that are closed are an initial segment of all. -/
theorem closed_tagged {cfg : Config} (items : List (Item cfg)) :
    ∃ rest, (groupsOf items).closed.flatMap Group.tagged ++ rest = items.flatMap Item.records := by
  refine ⟨(groupsOf items).current.toList.flatMap Group.tagged, ?_⟩
  rw [← tagged_groupsOf, ← List.flatMap_append]
  rfl

/-- What has been delivered are the records of an initial segment. -/
theorem Settled.segment {W : Type} {cfg : Config} {ms : List (Message cfg)}
    {items : List (Item cfg)} {s : State W} (h : Settled cfg ms items s) :
    ∃ rs rest, ms.flatMap Message.tagged = rs ++ rest ∧
      ∀ kt, lastValue kt (s.env.flushed.flatMap flushWrites) = lastValue kt (storeWrites cfg rs) := by
  have hitems : ∃ rest, items.flatMap Item.records ++ rest = ms.flatMap Message.tagged := by
    rw [flatMap_records]
    rcases h.messages with hms | ⟨m, rfl⟩
    · exact ⟨[], by rw [List.append_nil, hms]⟩
    · exact ⟨_, List.flatMap_append.symm⟩
  obtain ⟨unread, hunread⟩ := hitems
  rw [← hunread]
  rcases h.delivered with hdelivered | hdelivered
  · obtain ⟨rest, hrest⟩ := closed_tagged items
    refine ⟨_, rest ++ unread, ?_, lastValue_flushes hdelivered⟩
    rw [← List.append_assoc, hrest]
  · refine ⟨_, unread, ?_, lastValue_flushes hdelivered⟩
    rw [← tagged_groupsOf]
    rfl

/-- What is known at each place holds of what has been delivered. -/
theorem Progress.settled {W : Type} {cfg : Config} {ms : List (Message cfg)} {s : State W}
    {place : Place} (h : Progress cfg ms s place) : ∃ items, Settled cfg ms items s := by
  have hrunning : (∃ items, Running cfg ms items s) → ∃ items, Settled cfg ms items s :=
    fun ⟨items, hrun⟩ => ⟨items, hrun.settled⟩
  cases place with
  | returned rc =>
    rcases h with ⟨-, items, hrun, -⟩ | ⟨-, items, hgaveUp⟩
    · exact ⟨items, hrun.settled⟩
    · exact ⟨items, hgaveUp.settled⟩
  | stopped why => exact h
  | exited status => exact hrunning h
  | top => exact hrunning h
  | outerTest => exact hrunning (Progress.running h rfl)
  | process eofSinceData rkmessage => exact hrunning h
  | innerTest eofSinceData => exact hrunning h

/-- What is committed when `run` has returned 0: every record. -/
theorem Ready.returned {cfg : Config} {ms : List (Message cfg)} {s : State Dbats.State}
    {data₀ : Store (Bytes × UInt32) UInt64} (hready : Ready data₀ s.kp s.env)
    (hprogress : Progress cfg ms s (.returned 0)) :
    s.env.world.db.data = applyWrites data₀ (storeWrites cfg (ms.flatMap Message.tagged)) := by
  obtain ⟨-, items, hrun, hnone⟩ | ⟨hrc, -⟩ := hprogress
  · rw [hready.data]
    refine applyWrites_congr (fun kt => ?_) _
    -- every group is closed
    have hclosed : (groupsOf items).closed = (groupsOf items).all := by
      rw [Groups.all, hnone, Option.toList_none, List.append_nil]
    rw [lastValue_flushes (hrun.follows.delivered hrun.ok), hclosed, tagged_groupsOf,
      flatMap_records, hrun.messages]
  · cases hrc

section Data

variable (cfg : Config) (statsKeyPrefix : CString) (stats : Stats V) (db : Dbats.Db) (v : V)
  (statsTime : Int32) (ticks : List Tick) {ms : List (Message cfg)}

/-- Once `run` has returned 0, every record is committed. -/
theorem dbats_returned
    (hms : Carries cfg (dbatsRun cfg statsKeyPrefix stats db v statsTime ticks).handled ms)
    (hplace : (dbatsRun cfg statsKeyPrefix stats db v statsTime ticks).place = .returned 0) :
    (dbatsRun cfg statsKeyPrefix stats db v statsTime ticks).proxy.env.world.db.data
      = applyWrites db.data (storeWrites cfg (ms.flatMap Message.tagged)) := by
  have hprogress := progress_run ⟨dbatsProxy cfg statsKeyPrefix, stats⟩ _ v statsTime ticks hms
  exact (ready_run cfg statsKeyPrefix stats db v statsTime ticks).returned (hplace ▸ hprogress)

/-- Wherever a run is, the records of an initial segment are committed. -/
theorem dbats_segment
    (hms : Carries cfg (dbatsRun cfg statsKeyPrefix stats db v statsTime ticks).handled ms) :
    ∃ rs rest, ms.flatMap Message.tagged = rs ++ rest ∧
      (dbatsRun cfg statsKeyPrefix stats db v statsTime ticks).proxy.env.world.db.data
        = applyWrites db.data (storeWrites cfg rs) := by
  have hready := ready_run cfg statsKeyPrefix stats db v statsTime ticks
  obtain ⟨items, hsettled⟩ := (progress_run ⟨dbatsProxy cfg statsKeyPrefix, stats⟩ _ v statsTime
    ticks hms).settled
  obtain ⟨rs, rest, hms', hlast⟩ := hsettled.segment
  exact ⟨rs, rest, hms', hready.data.trans (applyWrites_congr hlast _)⟩

/-- **The database is consistent at every moment**: wherever a run is, and however it
ended, the committed data are what the records of an initial segment write, in the
order in which they were received; and all of them once `run` has returned 0. -/
theorem dbats_crashConsistent
    (hms : Carries cfg (dbatsRun cfg statsKeyPrefix stats db v statsTime ticks).handled ms) :
    ∃ rs rest, ms.flatMap Message.tagged = rs ++ rest ∧
      (dbatsRun cfg statsKeyPrefix stats db v statsTime ticks).proxy.env.world.db.data
        = applyWrites db.data (storeWrites cfg rs) ∧
      ((dbatsRun cfg statsKeyPrefix stats db v statsTime ticks).place = .returned 0 →
        rest = []) := by
  by_cases hplace :
      (dbatsRun cfg statsKeyPrefix stats db v statsTime ticks).place = .returned 0
  · exact ⟨_, [], (List.append_nil _).symm,
      dbats_returned cfg statsKeyPrefix stats db v statsTime ticks hms hplace, fun _ => rfl⟩
  · obtain ⟨rs, rest, hms', hdata⟩ := dbats_segment cfg statsKeyPrefix stats db v statsTime ticks hms
    exact ⟨rs, rest, hms', hdata, fun h => absurd h hplace⟩

end Data

theorem dbats_crashConsistent_failingCommit :
    let s := dbatsRun idleProxy.cfg idleProxy.statsKeyPrefix (idleStats 60) failingCommit () 0
      twoGroups
    ∃ rs rest, [messageA 60 1, messageA 120 2].flatMap Message.tagged = rs ++ rest ∧
      s.proxy.env.world.db.data = applyWrites failingCommit.data (storeWrites idleProxy.cfg rs) ∧
      (s.place = .returned 0 → rest = []) := by
  refine dbats_crashConsistent idleProxy.cfg idleProxy.statsKeyPrefix (idleStats 60) failingCommit
    () 0 twoGroups ?_
  have hhandled : (dbatsRun idleProxy.cfg idleProxy.statsKeyPrefix (idleStats 60) failingCommit ()
      0 twoGroups).handled
        = [(messageA 60 1).payload, [], (messageA 120 2).payload] := by
    decide +kernel
  rw [hhandled]
  refine ⟨[some (messageA 60 1), none, some (messageA 120 2)],
    .cons ⟨rfl, by decide⟩ (.cons ?_ (.cons ⟨rfl, by decide⟩ .nil)), rfl⟩
  show ¬ Accepts idleProxy.cfg []
  decide

/-- The group that failed is delivered on the way out, the message behind it never. -/
example :
    let s := dbatsRun idleProxy.cfg idleProxy.statsKeyPrefix (idleStats 60) failingCommit () 0
      twoGroups
    s.place = .returned (-1) ∧ s.proxy.env.world.db.data ([97], 60) = some 1 ∧
      s.proxy.env.world.db.data ([97], 120) = none := by
  decide +kernel

end TskProxy

end Libtimeseries
