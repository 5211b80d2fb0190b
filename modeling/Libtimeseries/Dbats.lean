import Libtimeseries.Backend
import Libtimeseries.Base.LastWrite
import Mathlib.Data.List.Nodup

/-!
# The DBATS backend (`timeseries_backend_dbats.c`)

DBATS itself is not part of the repository. It is modelled as what the backend
takes it for: a table that hands out 32-bit ids to key names on demand, and
snapshots that collect writes for one time and take effect when they are
committed.

- `KeyTable`: the ids; a table can fill up, after which creating a key fails.
- `Db`: the database. `results` lists the outcomes of the calls to come (once
  it is used up every call succeeds), so that a proof about all lists is a
  proof about all behaviours. `log` records what was done to each snapshot.
- A failed `dbats_select_snap` leaves the caller's pointer alone; a failed
  `dbats_commit_snap` consumes the snapshot.
- A failing `malloc` of an id has the same effect as a failing
  `dbats_get_key_id`, so the script stands for both.
-/

namespace Libtimeseries

open ByteLib LastWrite

namespace Dbats

/-! ## The database -/

/-- Key names with their ids: the id of a key is its index. -/
structure KeyTable where
  keys : List Bytes
  nodup : keys.Nodup
  size_le : keys.length ≤ 2 ^ 32

namespace KeyTable

def empty : KeyTable := ⟨[], List.nodup_nil, by simp⟩

/-- The id of a key that exists. -/
def id? (t : KeyTable) (key : Bytes) : Option UInt32 :=
  (t.keys.idxOf? key).map UInt32.ofNat

/-- The key of an id. -/
def key? (t : KeyTable) (id : UInt32) : Option Bytes := t.keys[id.toNat]?

/-- Append a key that does not exist. -/
def append (t : KeyTable) (key : Bytes) (hkey : key ∉ t.keys)
    (hsize : t.keys.length < 2 ^ 32) : KeyTable where
  keys := t.keys ++ [key]
  nodup := List.nodup_append.mpr ⟨t.nodup, List.nodup_singleton key, by
    intro a ha b hb
    rw [List.mem_singleton.mp hb]
    exact fun hab => hkey (hab ▸ ha)⟩
  size_le := by
    rw [List.length_append, List.length_singleton]
    exact hsize

/-- Look a key up (`DBATS_CREATE`: create it if it does not exist). -/
def create (t : KeyTable) (key : Bytes) : Option (UInt32 × KeyTable) :=
  if hkey : key ∈ t.keys then
    (t.id? key).map fun id => (id, t)
  else if hsize : t.keys.length < 2 ^ 32 then
    some (UInt32.ofNat t.keys.length, t.append key hkey hsize)
  else
    none

/-- Look several keys up, until one cannot be created. -/
def createAll (t : KeyTable) : List Bytes → Option (List UInt32) × KeyTable
  | [] => (some [], t)
  | key :: keys =>
    match t.create key with
    | none => (none, t)
    | some (id, t) =>
      let r := t.createAll keys
      (r.1.map (id :: ·), r.2)

/-- The table only grows. -/
def Le (t t' : KeyTable) : Prop := t.keys <+: t'.keys

theorem Le.refl (t : KeyTable) : t.Le t := List.prefix_rfl

theorem Le.trans {a b c : KeyTable} (h : a.Le b) (h' : b.Le c) : a.Le c :=
  List.IsPrefix.trans h h'

theorem id?_eq_some {t : KeyTable} {key : Bytes} {id : UInt32} :
    t.id? key = some id ↔ t.key? id = some key := by
  unfold id? key?
  constructor
  · intro h
    obtain ⟨i, hi, rfl⟩ := Option.map_eq_some_iff.mp h
    obtain ⟨hlt, hget, -⟩ := List.idxOf?_eq_some_iff.mp hi
    have hi32 : i < 2 ^ 32 := Nat.lt_of_lt_of_le hlt t.size_le
    have hnat : (UInt32.ofNat i).toNat = i := UInt32.toNat_ofNat_of_lt' hi32
    rw [hnat, List.getElem?_eq_getElem hlt]
    simpa using hget
  · intro h
    obtain ⟨hlt, hget⟩ := List.getElem?_eq_some_iff.mp h
    have hidx : t.keys.idxOf? key = some id.toNat := by
      rw [List.idxOf?_eq_some_iff]
      refine ⟨hlt, by simpa using hget, ?_⟩
      -- names occur once, so no earlier index holds this one
      intro j hj heq
      have hj' : j < t.keys.length := Nat.lt_trans hj hlt
      have hjk : t.keys[j] = t.keys[id.toNat] := by
        rw [hget]
        simpa using heq
      have := (List.Nodup.getElem_inj_iff t.nodup).mp hjk
      omega
    rw [hidx, Option.map_some, UInt32.ofNat_toNat]

/-- Ids are forever. -/
theorem id?_mono {t t' : KeyTable} (h : t.Le t') {key : Bytes} {id : UInt32}
    (hid : t.id? key = some id) : t'.id? key = some id := by
  rw [id?_eq_some] at hid ⊢
  obtain ⟨rest, hrest⟩ := h
  unfold key? at hid ⊢
  obtain ⟨hlt, -⟩ := List.getElem?_eq_some_iff.mp hid
  rw [← hrest, List.getElem?_append_left hlt, hid]

theorem create_spec {t t' : KeyTable} {key : Bytes} {id : UInt32}
    (h : t.create key = some (id, t')) : t'.id? key = some id ∧ t.Le t' := by
  unfold create at h
  split at h
  · obtain ⟨id', hid, heq⟩ := Option.map_eq_some_iff.mp h
    obtain ⟨rfl, rfl⟩ := Prod.mk.inj heq
    exact ⟨hid, .refl t⟩
  · next hkey =>
    split at h
    · next hsize =>
      obtain ⟨rfl, rfl⟩ := Prod.mk.inj (Option.some.inj h)
      refine ⟨id?_eq_some.mpr ?_, List.prefix_append _ _⟩
      have hnat : (UInt32.ofNat t.keys.length).toNat = t.keys.length :=
        UInt32.toNat_ofNat_of_lt' hsize
      simp [key?, append, hnat]
    · cases h

end KeyTable

/-- The result of a DBATS call: 0, `DB_LOCK_DEADLOCK`, or another error. -/
inductive DbResult where
  | ok
  | deadlock
  | error
deriving DecidableEq, Repr

/-- What can be done to a snapshot. -/
inductive SnapOp where
  | select (time : UInt32)
  | set (value : UInt64)
  | commit
  | abort
deriving DecidableEq, Repr

/-- One call on a snapshot. -/
structure SnapEvent where
  snap : Nat
  op : SnapOp
  result : DbResult
deriving DecidableEq, Repr

/-- The writes collected for one time. -/
structure Snapshot where
  time : UInt32
  writes : List (Bytes × UInt64)

/-- The database behind a `dbats_handler`. Snapshots are numbered in the order
they were selected. -/
structure Db where
  table : KeyTable
  data : Store (Bytes × UInt32) UInt64
  snaps : List Snapshot
  results : List DbResult
  log : List SnapEvent

namespace Db

/-- The outcome of the next call. -/
def nextResult (db : Db) : DbResult × Db :=
  (db.results.headD .ok, { db with results := db.results.tail })

def record (db : Db) (snap : Nat) (op : SnapOp) (result : DbResult) : Db :=
  { db with log := db.log ++ [⟨snap, op, result⟩] }

/-- `dbats_get_key_id(handler, NULL, key, &id, DBATS_CREATE)` -/
def getKeyId (db : Db) (key : Bytes) : Option UInt32 × Db :=
  match db.nextResult with
  | (.ok, db) =>
    match db.table.create key with
    | some (id, table) => (some id, { db with table := table })
    | none => (none, db)
  | (_, db) => (none, db)

/-- `dbats_bulk_get_key_id(handler, NULL, &cnt, keys, ids, DBATS_CREATE)`: the ids of
all keys. A call that fails has created the first `created` of them, or those that
fit. -/
def bulkGetKeyId (db : Db) (keys : List Bytes) (created : Nat) : Option (List UInt32) × Db :=
  match db.nextResult with
  | (.ok, db) =>
    let r := db.table.createAll keys
    (r.1, { db with table := r.2 })
  | (_, db) => (none, { db with table := (db.table.createAll (keys.take created)).2 })

/-- `dbats_select_snap(handler, &snapshot, time, 0)`: the new snapshot. -/
def selectSnap (db : Db) (time : UInt32) : Option Nat × Db :=
  match db.nextResult with
  | (.ok, db) =>
    (some db.snaps.length,
      { db.record db.snaps.length (.select time) .ok with
        snaps := db.snaps ++ [⟨time, []⟩] })
  | (_, db) => (none, db)

/-- Add a write to a snapshot. An id that was never handed out has no key, and
writing to it changes nothing. -/
def write (db : Db) (snap : Nat) (id : UInt32) (value : UInt64) : Db :=
  match db.table.key? id with
  | some key =>
    { db with
      snaps := db.snaps.modify snap fun s => { s with writes := s.writes ++ [(key, value)] } }
  | none => db

/-- `dbats_set(snapshot, id, &val)` -/
def set (db : Db) (snap : Nat) (id : UInt32) (value : UInt64) : DbResult × Db :=
  match db.nextResult with
  | (.ok, db) => (.ok, (db.write snap id value).record snap (.set value) .ok)
  | (rc, db) => (rc, db.record snap (.set value) rc)

/-- `dbats_set_by_key(snapshot, key, &val, DBATS_CREATE)` -/
def setByKey (db : Db) (snap : Nat) (key : Bytes) (value : UInt64) : DbResult × Db :=
  match db.nextResult with
  | (.ok, db) =>
    match db.table.create key with
    | some (id, table) =>
      (.ok, (({ db with table := table } : Db).write snap id value).record snap (.set value) .ok)
    | none => (.error, db.record snap (.set value) .error)
  | (rc, db) => (rc, db.record snap (.set value) rc)

/-- The committed data with the writes of a snapshot on top. -/
def apply (db : Db) (snap : Nat) : Db :=
  match db.snaps[snap]? with
  | some s => { db with data := applyWrites db.data (s.writes.map fun w => ((w.1, s.time), w.2)) }
  | none => db

/-- `dbats_commit_snap(snapshot)` -/
def commitSnap (db : Db) (snap : Nat) : DbResult × Db :=
  match db.nextResult with
  | (.ok, db) => (.ok, (db.apply snap).record snap .commit .ok)
  | (rc, db) => (rc, db.record snap .commit rc)

/-- `dbats_abort_snap(snapshot)` -/
def abortSnap (db : Db) (snap : Nat) : Db := db.record snap .abort .ok

end Db

/-! ## The backend -/

/-- `struct timeseries_backend_dbats_state` -/
structure State where
  /-- Pointer to a DBATS handler object -/
  db : Db
  /-- The number of values received for the current bulk set -/
  bulkCnt : UInt32
  /-- The time for the current bulk set -/
  bulkTime : UInt32
  /-- The expected number of values in the current bulk set -/
  bulkExpect : UInt32
  /-- The snapshot for the current bulk set -/
  bulkSnap : Option Nat

/-- The state `timeseries_backend_dbats_init` leaves. -/
def State.init (db : Db) : State := ⟨db, 0, 0, 0, none⟩

/-- A backend id: the bytes of a `uint32_t` in memory. -/
def idBytes (id : UInt32) : Bytes := (beBytes 4 id.toNat).reverse

/-- Reading a `uint32_t` back from memory. -/
def idOfBytes (bs : Bytes) : UInt32 := UInt32.ofNat (beNat bs.reverse)

@[simp] theorem idBytes_length (id : UInt32) : (idBytes id).length = 4 := by
  simp [idBytes]

@[simp] theorem idOfBytes_idBytes (id : UInt32) : idOfBytes (idBytes id) = id := by
  have hlt : id.toNat < 256 ^ 4 := id.toNat_lt
  rw [idOfBytes, idBytes, List.reverse_reverse, beNat_beBytes hlt, UInt32.ofNat_toNat]

/-- The loop of `timeseries_backend_dbats_kp_ki_update`: the key infos with the
states set so far. -/
def kiUpdateLoop : List Ki → Db → Ret × List Ki × Db
  | [], db => (.ok, [], db)
  | ki :: kis, db =>
    if ki.disabled || (ki.backendState .dbats).isSome then
      let r := kiUpdateLoop kis db
      (r.1, ki :: r.2.1, r.2.2)
    else
      match db.getKeyId ki.name with
      | (none, db) => (.fail, ki :: kis, db)
      | (some id, db) =>
        let r := kiUpdateLoop kis db
        (r.1, ki.setBackendState .dbats (some id) :: r.2.1, r.2.2)

/-- `timeseries_backend_dbats_kp_ki_update` -/
def kpKiUpdate (kp : Kp) (s : State) : Ret × Kp × State :=
  let r := kiUpdateLoop kp.keyInfos s.db
  (r.1, { kp with keyInfos := r.2.1 }, { s with db := r.2.2 })

/-- The body shared by `kp_flush`, `set_single` and `set_single_by_id`: select a
snapshot, do the `sets`, commit; a deadlock anywhere goes back to `retry`. The
fuel bounds the number of rounds. -/
def inSnapshot (time : UInt32) (sets : Nat → Db → Except Stop DbResult × Db) :
    Nat → Db → Ret × Db
  | 0, db => (.stop .noReturn, db)
  | fuel + 1, db =>
    match db.selectSnap time with
    | (none, db) => (.fail, db)
    | (some snapshot, db) =>
      match sets snapshot db with
      | (.error why, db) => (.stop why, db)
      | (.ok .deadlock, db) => inSnapshot time sets fuel (db.abortSnap snapshot)
      | (.ok .error, db) => (.fail, db.abortSnap snapshot)
      | (.ok .ok, db) =>
        match db.commitSnap snapshot with
        | (.ok, db) => (.ok, db)
        | (.deadlock, db) => inSnapshot time sets fuel db
        | (.error, db) => (.fail, db)

/-- The loop of `timeseries_backend_dbats_kp_flush`. -/
def setKis : List Ki → Nat → Db → Except Stop DbResult × Db
  | [], _, db => (.ok .ok, db)
  | ki :: kis, snapshot, db =>
    if ki.disabled then
      setKis kis snapshot db
    else
      match ki.backendState .dbats with
      | none => (.error .nullDeref, db)
      | some dbatsId =>
        match db.set snapshot dbatsId ki.value with
        | (.ok, db) => setKis kis snapshot db
        | (rc, db) => (.ok rc, db)

/-- A call that returned. -/
def returned (r : DbResult × Db) : Except Stop DbResult × Db := (.ok r.1, r.2)

/-- More rounds than deadlocks to come. -/
def enoughFuel (s : State) : Nat := s.db.results.length + 1

/-- `timeseries_backend_dbats_kp_flush` -/
def kpFlush (kp : Kp) (time : UInt32) (s : State) : Ret × Kp × State :=
  let r := inSnapshot time (setKis kp.keyInfos) (enoughFuel s) s.db
  (r.1, kp, { s with db := r.2 })

/-- `timeseries_backend_dbats_set_single`. The value is never copied into `val`,
so what is set is the indeterminate content of that variable. -/
def setSingle (val : UInt64) (s : State) (key : CString) (_value : UInt64) (time : UInt32) :
    Ret × State :=
  let r := inSnapshot time (fun snapshot db => returned (db.setByKey snapshot key.bytes val))
    (enoughFuel s) s.db
  (r.1, { s with db := r.2 })

/-- `timeseries_backend_dbats_set_single_by_id` -/
def setSingleById (s : State) (id : Bytes) (value : UInt64) (time : UInt32) : Ret × State :=
  let r := inSnapshot time
    (fun snapshot db =>
      if id.length = 4 then
        returned (db.set snapshot (idOfBytes id) value)
      else
        (.error .assertFailed, db))
    (enoughFuel s) s.db
  (r.1, { s with db := r.2 })

/-- `timeseries_backend_dbats_set_bulk_init` -/
def setBulkInit (s : State) (keyCnt time : UInt32) : Ret × State :=
  if s.bulkExpect = 0 ∧ s.bulkCnt = 0 ∧ s.bulkSnap = none then
    match s.db.selectSnap time with
    | (none, db) => (.fail, { s with bulkExpect := keyCnt, bulkTime := time, db := db })
    | (some snapshot, db) =>
      (.ok, { s with bulkExpect := keyCnt, bulkTime := time, bulkSnap := some snapshot, db := db })
  else
    (.stop .assertFailed, s)

/-- `timeseries_backend_dbats_set_bulk_by_id` -/
def setBulkById (s : State) (id : Bytes) (value : UInt64) : Ret × State :=
  if 0 < s.bulkExpect ∧ id.length = 4 then
    match s.bulkSnap with
    | none => (.stop .nullDeref, s)
    | some snapshot =>
      match s.db.set snapshot (idOfBytes id) value with
      | (.ok, db) =>
        if s.bulkCnt + 1 = s.bulkExpect then
          match db.commitSnap snapshot with
          | (.ok, db) => (.ok, ⟨db, 0, 0, 0, none⟩)
          | (_, db) => (.fail, { s with db := db, bulkCnt := s.bulkCnt + 1 })
        else
          (.ok, { s with db := db, bulkCnt := s.bulkCnt + 1 })
      -- a deadlock can't be retried either
      | (_, db) => (.fail, { s with db := db.abortSnap snapshot })
  else
    (.stop .assertFailed, s)

/-- `timeseries_backend_dbats_resolve_key`: the backend id, or an error. -/
def resolveKey (s : State) (key : CString) : Option Bytes × State :=
  match s.db.getKeyId key.bytes with
  | (none, db) => (none, { s with db := db })
  | (some dbatsId, db) => (some (idBytes dbatsId), { s with db := db })

/-- The loop of `timeseries_backend_dbats_resolve_key_bulk`: lookups until one
succeeds, at most `retries`. A lookup that fails may have created some of the keys;
`created` says how many each time. -/
def resolveKeyBulkLoop (keys : List Bytes) : Nat → List Nat → Db → Option (List UInt32) × Db
  | 0, _, db => (none, db)
  | retries + 1, created, db =>
    match db.bulkGetKeyId keys (created.headD 0) with
    | (some dbatsIds, db) => (some dbatsIds, db)
    | (none, db) => resolveKeyBulkLoop keys retries created.tail db

/-- `timeseries_backend_dbats_resolve_key_bulk`: the backend ids, or an error. Without
memory for them there is no lookup. -/
def resolveKeyBulk (s : State) (keys : List CString) (mallocOk : Bool) (created : List Nat) :
    Option (List Bytes) × State :=
  if mallocOk then
    match resolveKeyBulkLoop (keys.map CString.bytes) 60 created s.db with
    | (none, db) => (none, { s with db := db })
    | (some dbatsIds, db) => (some (dbatsIds.map idBytes), { s with db := db })
  else
    (none, s)

/-- `timeseries_backend_dbats_free`: what it does to the database. -/
def free (s : State) : Db :=
  match s.bulkSnap with
  | some snapshot => s.db.abortSnap snapshot
  | none => s.db

theorem kiUpdateLoop_erase (kis : List Ki) (db : Db) :
    (kiUpdateLoop kis db).2.1.map Ki.erase = kis.map Ki.erase := by
  induction kis generalizing db with
  | nil => rfl
  | cons ki kis ih =>
    unfold kiUpdateLoop
    split
    · rw [List.map_cons, List.map_cons, ih]
    · split
      · rfl
      · rw [List.map_cons, List.map_cons, ih]
        rfl

/-- The callbacks of the DBATS backend. -/
def backend : Backend State where
  kpKiUpdate := kpKiUpdate
  kpFlush := kpFlush
  kpKiUpdate_erase := fun kp s => by
    show ({ kp with keyInfos := (kiUpdateLoop kp.keyInfos s.db).2.1 } : Kp).erase = kp.erase
    unfold Kp.erase
    rw [kiUpdateLoop_erase]
  kpFlush_erase := fun _ _ _ => rfl

end Dbats

end Libtimeseries
