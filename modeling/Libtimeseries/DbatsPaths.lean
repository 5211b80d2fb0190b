import Libtimeseries.Dbats

/-!
# The DBATS write paths

There are four ways to write one point to DBATS: by name, by resolved id, in a
bulk set, and through a key package. `Open` describes a snapshot in progress
when all calls succeed; each library call has one lemma about it, and each path
is a short sequence of these.

Three paths store the value they are given. `set_single` never assigns its
`val`, so it stores the value exactly when the indeterminate variable happens
to hold it already (`writePaths_agree_iff`).
-/

namespace Libtimeseries

open ByteLib LastWrite

namespace Dbats

/-- Every call to come succeeds. -/
def Db.AllOk (db : Db) : Prop := ∀ r ∈ db.results, r = .ok

theorem Db.AllOk.nextResult {db : Db} (h : db.AllOk) :
    db.nextResult = (.ok, { db with results := db.results.tail }) ∧
      Db.AllOk { db with results := db.results.tail } := by
  constructor
  · unfold Db.nextResult
    cases hres : db.results with
    | nil => rfl
    | cons r rs => rw [List.headD_cons, h r (hres ▸ List.mem_cons_self)]
  · intro r hr
    exact h r (List.mem_of_mem_tail hr)

/-- A snapshot for `time` is open in `db` and has collected `ws`; nothing else
happened since `db₀`, except that keys may have been created. -/
structure Open (db₀ db : Db) (snap : Nat) (time : UInt32) (ws : List (Bytes × UInt64)) :
    Prop where
  allOk : db.AllOk
  data : db.data = db₀.data
  table : db₀.table.Le db.table
  snap : db.snaps[snap]? = some ⟨time, ws⟩

/-- What is committed once the writes `ws` for `time` are. -/
def Committed (db₀ db : Db) (time : UInt32) (ws : List (Bytes × UInt64)) : Prop :=
  db.data = applyWrites db₀.data (ws.map fun w => ((w.1, time), w.2))

section Open

variable {db₀ db : Db} {snap : Nat} {time : UInt32} {ws : List (Bytes × UInt64)}

theorem getKeyId_allOk {key : Bytes} {id : UInt32} {table : KeyTable} (h : db.AllOk)
    (hcreate : db.table.create key = some (id, table)) :
    ∃ db', db.getKeyId key = (some id, db') ∧ db'.AllOk ∧ db'.data = db.data ∧
      db'.table = table := by
  obtain ⟨hnext, hall⟩ := h.nextResult
  refine ⟨{ db with results := db.results.tail, table := table }, ?_, hall, rfl, rfl⟩
  rw [Db.getKeyId, hnext]
  simp only [hcreate]

theorem selectSnap_open (time : UInt32) (h : db.AllOk) :
    ∃ snap db', db.selectSnap time = (some snap, db') ∧ Open db db' snap time [] ∧
      db'.table = db.table := by
  obtain ⟨hnext, hall⟩ := h.nextResult
  rw [Db.selectSnap, hnext]
  exact ⟨_, _, rfl, ⟨hall, rfl, .refl _, by simp⟩, rfl⟩

theorem Open.record (h : Open db₀ db snap time ws) (snap' : Nat) (op : SnapOp)
    (result : DbResult) : Open db₀ (db.record snap' op result) snap time ws :=
  ⟨h.allOk, h.data, h.table, h.snap⟩

/-- Writing to a known key appends to the snapshot. -/
theorem Open.write (h : Open db₀ db snap time ws) {id : UInt32} {key : Bytes}
    (hkey : db.table.id? key = some id) (value : UInt64) :
    Open db₀ (db.write snap id value) snap time (ws ++ [(key, value)]) := by
  rw [Db.write, KeyTable.id?_eq_some.mp hkey]
  exact ⟨h.allOk, h.data, h.table, by rw [List.getElem?_modify_eq, h.snap]; rfl⟩

theorem Open.set (h : Open db₀ db snap time ws) {id : UInt32} {key : Bytes}
    (hkey : db.table.id? key = some id) (value : UInt64) :
    ∃ db', db.set snap id value = (.ok, db') ∧
      Open db₀ db' snap time (ws ++ [(key, value)]) ∧ db'.table = db.table := by
  obtain ⟨hnext, hall⟩ := h.allOk.nextResult
  have hopen : Open db₀ { db with results := db.results.tail } snap time ws :=
    ⟨hall, h.data, h.table, h.snap⟩
  refine ⟨_, ?_, (hopen.write hkey value).record snap (.set value) .ok, ?_⟩
  · rw [Db.set, hnext]
  · rw [Db.write, KeyTable.id?_eq_some.mp hkey]
    rfl

theorem Open.setByKey (h : Open db₀ db snap time ws) {id : UInt32} {key : Bytes}
    {table : KeyTable} (hcreate : db.table.create key = some (id, table)) (value : UInt64) :
    ∃ db', db.setByKey snap key value = (.ok, db') ∧
      Open db₀ db' snap time (ws ++ [(key, value)]) := by
  obtain ⟨hid, hle⟩ := KeyTable.create_spec hcreate
  obtain ⟨hnext, hall⟩ := h.allOk.nextResult
  have hopen : Open db₀ { db with results := db.results.tail, table := table } snap time ws :=
    ⟨hall, h.data, h.table.trans hle, h.snap⟩
  refine ⟨_, ?_, (hopen.write hid value).record snap (.set value) .ok⟩
  rw [Db.setByKey, hnext]
  simp only [hcreate]

theorem Open.commitSnap (h : Open db₀ db snap time ws) :
    ∃ db', db.commitSnap snap = (.ok, db') ∧ Committed db₀ db' time ws := by
  obtain ⟨hnext, hall⟩ := h.allOk.nextResult
  refine ⟨_, by rw [Db.commitSnap, hnext], ?_⟩
  unfold Db.apply Committed
  simp only [h.snap]
  show applyWrites db.data _ = _
  rw [h.data]

/-- One round is enough when every call succeeds. -/
theorem inSnapshot_allOk {sets : Nat → Db → Except Stop DbResult × Db} (h : db.AllOk)
    (hsets : ∀ snap db', Open db db' snap time [] → db'.table = db.table →
      ∃ db'', sets snap db' = (.ok .ok, db'') ∧ Open db db'' snap time ws) (fuel : Nat) :
    ∃ db', inSnapshot time sets (fuel + 1) db = (.ok, db') ∧ Committed db db' time ws := by
  obtain ⟨snap, db₁, hselect, hopen, htable⟩ := selectSnap_open time h
  obtain ⟨db₂, hset, hopen'⟩ := hsets snap db₁ hopen htable
  obtain ⟨db₃, hcommit, hdata⟩ := hopen'.commitSnap
  refine ⟨db₃, ?_, hdata⟩
  rw [inSnapshot, hselect]
  simp only [hset, hcommit]

end Open

/-! ## The four paths -/

/-- The store after `set_single(key, value, time)`. -/
def storeSetSingle (val : UInt64) (db : Db) (key : CString) (value : UInt64) (time : UInt32) :
    Store (Bytes × UInt32) UInt64 :=
  (setSingle val (State.init db) key value time).2.db.data

/-- The store after `resolve_key(key)` and `set_single_by_id(id, value, time)`. -/
def storeSetSingleById (db : Db) (key : CString) (value : UInt64) (time : UInt32) :
    Store (Bytes × UInt32) UInt64 :=
  match resolveKey (State.init db) key with
  | (none, s) => s.db.data
  | (some id, s) => (setSingleById s id value time).2.db.data

/-- The store after `resolve_key(key)`, `set_bulk_init(1, time)` and
`set_bulk_by_id(id, value)`. -/
def storeSetBulk (db : Db) (key : CString) (value : UInt64) (time : UInt32) :
    Store (Bytes × UInt32) UInt64 :=
  match resolveKey (State.init db) key with
  | (none, s) => s.db.data
  | (some id, s) =>
    match setBulkInit s 1 time with
    | (.ok, s) => (setBulkById s id value).2.db.data
    | (_, s) => s.db.data

/-- A package that holds one key and its value. -/
def oneKey (flags : Nat) (key : CString) (value : UInt64) : Kp :=
  (((Kp.init flags).addKey .success key).2.set 0 value).2

/-- The store after `timeseries_kp_flush` of a one-key package. -/
def storeKpFlush (flags : Nat) (db : Db) (key : CString) (value : UInt64) (time : UInt32) :
    Store (Bytes × UInt32) UInt64 :=
  ((oneKey flags key value).flush (.single .dbats backend) time
    ⟨State.init db, []⟩).2.2.world.db.data

section Paths

variable {db : Db} {key : CString} {id : UInt32} {table : KeyTable}

theorem committed_singleton {db db' : Db} {time : UInt32} {key : Bytes} {value : UInt64}
    (h : Committed db db' time [(key, value)]) :
    db'.data = Function.update db.data (key, time) (some value) := h

/-- `set_single` stores what `val` holds. -/
theorem storeSetSingle_eq (val value : UInt64) (time : UInt32) (hok : db.AllOk)
    (hcreate : db.table.create key.bytes = some (id, table)) :
    storeSetSingle val db key value time
      = Function.update db.data (key.bytes, time) (some val) := by
  have hsets : ∀ snap db', Open db db' snap time [] → db'.table = db.table →
      ∃ db'', returned (db'.setByKey snap key.bytes val) = (.ok .ok, db'') ∧
        Open db db'' snap time [(key.bytes, val)] := by
    intro snap db₁ hopen htable
    obtain ⟨db₂, hset, hopen₂⟩ := hopen.setByKey (htable ▸ hcreate) val
    exact ⟨db₂, by rw [returned, hset], hopen₂⟩
  obtain ⟨db', hround, hdata⟩ := inSnapshot_allOk hok hsets db.results.length
  show (inSnapshot time _ (db.results.length + 1) db).2.data = _
  rw [hround]
  exact committed_singleton hdata

/-- `resolve_key` gives the id under which the key can be written. -/
theorem resolveKey_allOk (hok : db.AllOk)
    (hcreate : db.table.create key.bytes = some (id, table)) :
    ∃ db', resolveKey (State.init db) key = (some (idBytes id), State.init db') ∧
      db'.AllOk ∧ db'.data = db.data ∧ db'.table.id? key.bytes = some id := by
  obtain ⟨db', hget, hall, hdata, htable⟩ := getKeyId_allOk hok hcreate
  refine ⟨db', ?_, hall, hdata, htable ▸ (KeyTable.create_spec hcreate).1⟩
  rw [resolveKey]
  simp only [State.init, hget]

/-- `set_single_by_id` stores the value. -/
theorem storeSetSingleById_eq (value : UInt64) (time : UInt32) (hok : db.AllOk)
    (hcreate : db.table.create key.bytes = some (id, table)) :
    storeSetSingleById db key value time
      = Function.update db.data (key.bytes, time) (some value) := by
  obtain ⟨db₁, hresolve, hall, hdata₁, hid⟩ := resolveKey_allOk hok hcreate
  have hsets : ∀ snap db', Open db₁ db' snap time [] → db'.table = db₁.table →
      ∃ db'', (if (idBytes id).length = 4 then
          returned (db'.set snap (idOfBytes (idBytes id)) value)
        else (.error .assertFailed, db')) = (.ok .ok, db'') ∧
        Open db₁ db'' snap time [(key.bytes, value)] := by
    intro snap db₂ hopen htable
    rw [← htable] at hid
    obtain ⟨db₃, hset, hopen₃, -⟩ := hopen.set hid value
    exact ⟨db₃, by rw [if_pos (idBytes_length id), idOfBytes_idBytes, returned, hset], hopen₃⟩
  obtain ⟨db₂, hround, hdata₂⟩ := inSnapshot_allOk hall hsets db₁.results.length
  rw [storeSetSingleById, hresolve]
  show (inSnapshot time _ (db₁.results.length + 1) db₁).2.data = _
  rw [hround, committed_singleton hdata₂, hdata₁]

/-- A bulk set of one value stores it. -/
theorem storeSetBulk_eq (value : UInt64) (time : UInt32) (hok : db.AllOk)
    (hcreate : db.table.create key.bytes = some (id, table)) :
    storeSetBulk db key value time
      = Function.update db.data (key.bytes, time) (some value) := by
  obtain ⟨db₁, hresolve, hall, hdata₁, hid⟩ := resolveKey_allOk hok hcreate
  obtain ⟨snap, db₂, hselect, hopen, htable⟩ := selectSnap_open time hall
  rw [← htable] at hid
  obtain ⟨db₃, hset, hopen', -⟩ := hopen.set hid value
  obtain ⟨db₄, hcommit, hdata₄⟩ := hopen'.commitSnap
  have hinit : setBulkInit (State.init db₁) 1 time = (.ok, ⟨db₂, 0, time, 1, some snap⟩) := by
    rw [setBulkInit, if_pos ⟨rfl, rfl, rfl⟩]
    simp only [State.init, hselect]
  have hbyId : setBulkById ⟨db₂, 0, time, 1, some snap⟩ (idBytes id) value
      = (.ok, ⟨db₄, 0, 0, 0, none⟩) := by
    rw [setBulkById, if_pos ⟨(by decide : (0 : UInt32) < 1), idBytes_length id⟩]
    simp only [idOfBytes_idBytes, hset, if_pos (by decide : (0 : UInt32) + 1 = 1), hcommit]
  rw [storeSetBulk, hresolve]
  simp only [hinit, hbyId]
  rw [committed_singleton hdata₄, hdata₁]

/-- `timeseries_kp_flush` of a dirty package to one backend: update, then flush. -/
theorem flush_single_dirty {W : Type} {bid : BackendId} {b : Backend W} {kp kp₁ kp₂ : Kp}
    {w w₁ w₂ : W} {time : UInt32} (hdirty : kp.dirty = true)
    (hupdate : b.kpKiUpdate { kp with dirty := false } w = (.ok, kp₁, w₁))
    (hflush : b.kpFlush kp₁ time w₁ = (.ok, kp₂, w₂)) :
    (kp.flush (.single bid b) time ⟨w, []⟩).2.2.world = w₂ := by
  have hb : (Timeseries.single bid b).backend bid = b := rfl
  rw [Kp.flush, Timeseries.single_enabledIds, hdirty]
  simp only [Kp.flushLoop, Timeseries.callKpKiUpdate, Timeseries.callKpFlush, hb, hupdate, hflush,
    if_true]

theorem kpKiUpdate_eq (kp : Kp) (s : State) {r : Ret} {kis : List Ki} {db : Db}
    (h : kiUpdateLoop kp.keyInfos s.db = (r, kis, db)) :
    backend.kpKiUpdate kp s = (r, { kp with keyInfos := kis }, { s with db := db }) := by
  show kpKiUpdate kp s = _
  rw [kpKiUpdate, h]

theorem kpFlush_eq (kp : Kp) {time : UInt32} (s : State) {r : Ret} {db : Db}
    (h : inSnapshot time (setKis kp.keyInfos) (enoughFuel s) s.db = (r, db)) :
    backend.kpFlush kp time s = (r, kp, { s with db := db }) := by
  show kpFlush kp time s = _
  rw [kpFlush, h]

/-- The values of one enabled key. -/
theorem setKis_single {ki : Ki} {snap : Nat} {db db' : Db} (hen : ki.disabled = false)
    (hid : ki.backendState .dbats = some id)
    (hset : db.set snap id ki.value = (.ok, db')) :
    setKis [ki] snap db = (.ok .ok, db') := by
  rw [setKis, if_neg (by simp [hen]), hid]
  dsimp only
  rw [hset]
  rfl

/-- The flush of a one-key package resolves the key, then stores its value. -/
theorem storeKpFlush_eq (flags : Nat) (value : UInt64) (time : UInt32) (hok : db.AllOk)
    (hcreate : db.table.create key.bytes = some (id, table)) :
    storeKpFlush flags db key value time
      = Function.update db.data (key.bytes, time) (some value) := by
  obtain ⟨db₁, hget, hall, hdata₁, rfl⟩ := getKeyId_allOk hok hcreate
  have hid := (KeyTable.create_spec hcreate).1
  let ki : Ki := (Ki.init key).set value
  have hname : ki.name = key.bytes := cstr_of_nulFree key.nulFree
  have hloop : kiUpdateLoop [ki] db = (.ok, [ki.setBackendState .dbats (some id)], db₁) := by
    rw [kiUpdateLoop, if_neg (by simp [ki, Ki.init, Ki.set]), hname, hget]
    rfl
  have hsets : ∀ snap db', Open db₁ db' snap time [] → db'.table = db₁.table →
      ∃ db'', setKis [ki.setBackendState .dbats (some id)] snap db' = (.ok .ok, db'') ∧
        Open db₁ db'' snap time [(key.bytes, value)] := by
    intro snap db₂ hopen htable
    rw [← htable] at hid
    obtain ⟨db₃, hset, hopen₃, -⟩ := hopen.set hid value
    exact ⟨db₃, setKis_single rfl rfl hset, hopen₃⟩
  obtain ⟨db₂, hround, hdata₂⟩ := inSnapshot_allOk hall hsets db₁.results.length
  have hupdate := kpKiUpdate_eq { oneKey flags key value with dirty := false } (State.init db)
    hloop
  have hflush := kpFlush_eq
    { oneKey flags key value with
      keyInfos := [ki.setBackendState .dbats (some id)], dirty := false }
    (State.init db₁) hround
  rw [storeKpFlush, flush_single_dirty (by rfl) hupdate hflush]
  show db₂.data = _
  rw [committed_singleton hdata₂, hdata₁]

end Paths

/-- All four paths leave the old store updated at (key, time) with the value. -/
def WritePathsAgree (val : UInt64) (flags : Nat) (db : Db) (key : CString) (value : UInt64)
    (time : UInt32) : Prop :=
  let stored := Function.update db.data (key.bytes, time) (some value)
  storeSetSingle val db key value time = stored ∧
    storeSetSingleById db key value time = stored ∧
    storeSetBulk db key value time = stored ∧
    storeKpFlush flags db key value time = stored

/-- **The write paths agree, `set_single` apart**: when every call succeeds all
four store the value if and only if the variable that `set_single` fails to
assign happens to hold it. -/
theorem writePaths_agree_iff (val : UInt64) (flags : Nat) (db : Db) (key : CString)
    (value : UInt64) (time : UInt32) (hok : db.AllOk)
    (hroom : (db.table.create key.bytes).isSome) :
    WritePathsAgree val flags db key value time ↔ val = value := by
  obtain ⟨⟨id, table⟩, hcreate⟩ := Option.isSome_iff_exists.mp hroom
  rw [WritePathsAgree, storeSetSingle_eq val value time hok hcreate]
  constructor
  · rintro ⟨hsingle, -⟩
    have := congrFun hsingle (key.bytes, time)
    rwa [Function.update_self, Function.update_self, Option.some.injEq] at this
  · rintro rfl
    exact ⟨rfl, storeSetSingleById_eq val time hok hcreate,
      storeSetBulk_eq val time hok hcreate, storeKpFlush_eq flags val time hok hcreate⟩

/-- A database without keys. -/
def Db.empty : Db := ⟨KeyTable.empty, fun _ => none, [], [], []⟩

theorem writePaths_agree_iff_empty :
    WritePathsAgree 7 0 Db.empty (.ofAscii "k") 1 60 ↔ (7 : UInt64) = 1 :=
  writePaths_agree_iff 7 0 Db.empty (.ofAscii "k") 1 60 (fun _ hr => by cases hr) (by decide)

/-- With 7 left on the stack, `set_single` of 1 stores 7. -/
theorem not_writePathsAgree :
    ¬ ∀ (val : UInt64) (flags : Nat) (db : Db) (key : CString) (value : UInt64) (time : UInt32),
      db.AllOk → (db.table.create key.bytes).isSome →
        WritePathsAgree val flags db key value time := by
  intro h
  have hroom : (Db.empty.table.create (CString.ofAscii "k").bytes).isSome := by decide
  obtain ⟨⟨id, table⟩, hcreate⟩ := Option.isSome_iff_exists.mp hroom
  have hok : Db.empty.AllOk := fun _ hr => by cases hr
  have hsingle := (h 7 0 Db.empty (.ofAscii "k") 1 60 hok hroom).1
  rw [storeSetSingle_eq 7 1 60 hok hcreate] at hsingle
  have := congrFun hsingle ((CString.ofAscii "k").bytes, 60)
  rw [Function.update_self, Function.update_self] at this
  cases this

end Dbats

end Libtimeseries
