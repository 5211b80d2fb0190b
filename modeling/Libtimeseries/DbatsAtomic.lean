import Libtimeseries.DbatsRetry
import Libtimeseries.KpResolution

/-!
# The DBATS backend as an atomic store

What all operations of the backend come to for a caller that follows the protocol
of bulk sets: requests that are carried out as a whole or not at all, whatever
DBATS answers, however often a call is retried, and whatever happens to a bulk set
in the meantime.

- `Atomic.Step`: the store the backend is meant to be;
- `Older`: what a call on a new snapshot leaves alone;
- `inSnapshot_does`: the three functions that retry after a deadlock, each an
  atomic write of its own;
- `Abstracts`: how the fields of the backend represent the store;
- `refines`: every run of calls is a run of the store.

`set_single` stores an uninitialised variable in place of the value it is given, so a
caller that follows the protocol cannot rely on it: its request is the value given, and
it is permitted only where the variable happens to hold that value.
-/

namespace Libtimeseries

open ByteLib LastWrite RunLib

namespace Dbats

/-! ## The purpose -/

namespace Atomic

/-- A bulk set in the making. -/
structure Batch where
  time : UInt32
  expect : Nat
  writes : List (Bytes × UInt64)

/-- A store with one bulk set at a time. -/
structure Store where
  data : LastWrite.Store (Bytes × UInt32) UInt64
  batch : Option Batch

/-- What a caller asks for. -/
inductive Request where
  /-- some values for one time -/
  | write (time : UInt32) (writes : List (Bytes × UInt64))
  /-- start a bulk set -/
  | start (expect : Nat) (time : UInt32)
  /-- the next value of the bulk set -/
  | stage (key : Bytes) (value : UInt64)
  /-- look keys up -/
  | resolve

/-- Values under their time. -/
def stamped (time : UInt32) (writes : List (Bytes × UInt64)) :
    List ((Bytes × UInt32) × UInt64) :=
  writes.map fun w => ((w.1, time), w.2)

/-- The bulk set a failed request leaves. -/
def Request.rest (batch : Option Batch) : Request → Option Batch
  | write _ _ | resolve => batch
  | start _ _ | stage _ _ => none

/-- A request is carried out, or fails. A bulk set becomes visible as a whole, with its
last value. -/
inductive Step : Store → Request → Ret → Store → Prop
  | write {s : Store} {time : UInt32} {writes : List (Bytes × UInt64)} :
      Step s (.write time writes) .ok { s with data := applyWrites s.data (stamped time writes) }
  | start {s : Store} {expect : Nat} {time : UInt32} (idle : s.batch = none) :
      Step s (.start expect time) .ok { s with batch := some ⟨time, expect, []⟩ }
  | stage {s : Store} {b : Batch} {key : Bytes} {value : UInt64} (batch : s.batch = some b)
      (more : b.writes.length + 1 < b.expect) :
      Step s (.stage key value) .ok
        { s with batch := some { b with writes := b.writes ++ [(key, value)] } }
  | finish {s : Store} {b : Batch} {key : Bytes} {value : UInt64} (batch : s.batch = some b)
      (last : b.writes.length + 1 = b.expect) :
      Step s (.stage key value) .ok
        ⟨applyWrites s.data (stamped b.time (b.writes ++ [(key, value)])), none⟩
  | resolve {s : Store} : Step s .resolve .ok s
  | failed {s : Store} {req : Request} : Step s req .fail { s with batch := req.rest s.batch }

/-- A request with its result. -/
def Answers (s : Store) (answer : Request × Ret) (s' : Store) : Prop :=
  Step s answer.1 answer.2 s'

end Atomic

/-! ## What a call leaves alone -/

/-- From `db` to `db'` keys are only created, and the first `n` snapshots stay as they
are. -/
structure Older (n : Nat) (db db' : Db) : Prop where
  table : db.table.Le db'.table
  size : db.snaps.length ≤ db'.snaps.length
  snaps : ∀ i < n, db'.snaps[i]? = db.snaps[i]?

/-- Results and log do not matter. -/
theorem Older.of_eq {n : Nat} {db db' : Db} (htable : db'.table = db.table)
    (hsnaps : db'.snaps = db.snaps) : Older n db db' :=
  ⟨htable ▸ .refl _, (congrArg List.length hsnaps).ge, fun _ _ => by rw [hsnaps]⟩

theorem Older.trans {n : Nat} {a b c : Db} (h : Older n a b) (h' : Older n b c) : Older n a c :=
  ⟨h.table.trans h'.table, h.size.trans h'.size, fun i hi => (h'.snaps i hi).trans (h.snaps i hi)⟩

section Older

variable (db : Db) {n snap : Nat}

theorem selectSnap_older (time : UInt32) (hn : n ≤ db.snaps.length) :
    Older n db (db.selectSnap time).2 := by
  unfold Db.selectSnap Db.nextResult
  cases db.results.headD .ok with
  | deadlock => exact .of_eq rfl rfl
  | error => exact .of_eq rfl rfl
  | ok =>
    refine ⟨.refl _, ?_, fun i hi => ?_⟩
    · show _ ≤ (db.snaps ++ [(⟨time, []⟩ : Snapshot)]).length
      rw [List.length_append]
      exact Nat.le_add_right _ _
    · exact List.getElem?_append_left (hi.trans_le hn)

theorem write_older (id : UInt32) (value : UInt64) (hsnap : n ≤ snap) :
    Older n db (db.write snap id value) := by
  unfold Db.write
  split
  · refine ⟨.refl _, (List.length_modify _ _ _).ge, fun i hi => ?_⟩
    exact List.getElem?_modify_ne _ _ (by omega)
  · exact .of_eq rfl rfl

theorem set_older (id : UInt32) (value : UInt64) (hsnap : n ≤ snap) :
    Older n db (db.set snap id value).2 := by
  unfold Db.set Db.nextResult
  cases db.results.headD .ok with
  | deadlock => exact .of_eq rfl rfl
  | error => exact .of_eq rfl rfl
  | ok =>
    have h := write_older { db with results := db.results.tail } id value hsnap
    exact ⟨h.table, h.size, h.snaps⟩

theorem setKis_older (kis : List Ki) (hsnap : n ≤ snap) : Older n db (setKis kis snap db).2 := by
  induction kis generalizing db with
  | nil => exact .of_eq rfl rfl
  | cons ki kis ih =>
    rw [setKis]
    split
    · exact ih db
    · split
      · exact .of_eq rfl rfl
      · next dbatsId _ =>
        have hset := set_older db dbatsId ki.value hsnap
        generalize db.set snap dbatsId ki.value = r at hset ⊢
        obtain ⟨rc, db'⟩ := r
        cases rc with
        | ok => exact hset.trans (ih db')
        | deadlock => exact hset
        | error => exact hset

theorem commitSnap_older (n snap : Nat) : Older n db (db.commitSnap snap).2 := by
  unfold Db.commitSnap Db.nextResult
  cases db.results.headD .ok with
  | deadlock => exact .of_eq rfl rfl
  | error => exact .of_eq rfl rfl
  | ok =>
    dsimp only
    unfold Db.apply
    split <;> exact .of_eq rfl rfl

end Older

/-! ## One snapshot for one write -/

/-- From `db` to `db'` the values `ws` were put into the snapshot, or a call failed. -/
structure Puts (time : UInt32) (snap : Nat) (ws : List (Bytes × UInt64)) (db : Db) (rc : DbResult)
    (db' : Db) : Prop where
  data : db'.data = db.data
  older : Older snap db db'
  /-- each deadlock is one of the outcomes to come -/
  results : db'.results.length ≤ db.results.length ∧
    (rc = .deadlock → db'.results.length < db.results.length)
  done : rc = .ok → db'.snaps[snap]? = some ⟨time, ws⟩

/-- In every new snapshot `sets` puts the values `ws`, if the keys of `t` exist. -/
def SetsAll (time : UInt32) (t : KeyTable) (sets : Nat → Db → Except Stop DbResult × Db)
    (ws : List (Bytes × UInt64)) : Prop :=
  ∀ snap db, t.Le db.table → db.snaps[snap]? = some ⟨time, []⟩ →
    ∃ rc db', sets snap db = (.ok rc, db') ∧ Puts time snap ws db rc db'

/-- An operation carried the write out, or failed and left the data. -/
structure Does (time : UInt32) (ws : List (Bytes × UInt64)) (db : Db) (r : Ret) (db' : Db) :
    Prop where
  older : Older db.snaps.length db db'
  outcome : (r = .ok ∧ Committed db db' time ws) ∨ (r = .fail ∧ db'.data = db.data)

/-- **Retrying is atomic**: by induction on the rounds, each of which works on a
snapshot of its own. -/
theorem inSnapshot_does {time : UInt32} {sets : Nat → Db → Except Stop DbResult × Db}
    {ws : List (Bytes × UInt64)} {db : Db} (hsets : SetsAll time db.table sets ws) {fuel : Nat}
    (hfuel : db.results.length < fuel) :
    Does time ws db (inSnapshot time sets fuel db).1 (inSnapshot time sets fuel db).2 := by
  induction fuel generalizing db with
  | zero => exact absurd hfuel (Nat.not_lt_zero _)
  | succ fuel ih =>
    -- a round that goes back to the start
    have hagain : ∀ db₁ : Db, Older db.snaps.length db db₁ → db₁.data = db.data →
        db₁.results.length < db.results.length →
        Does time ws db (inSnapshot time sets fuel db₁).1 (inSnapshot time sets fuel db₁).2 := by
      intro db₁ holder hdata hresults
      have hsets₁ : SetsAll time db₁.table sets ws := fun snap db' hle hsnap =>
        hsets snap db' (holder.table.trans hle) hsnap
      have hdoes := ih hsets₁ (hresults.trans_le (Nat.le_of_lt_succ hfuel))
      refine ⟨holder.trans ⟨hdoes.older.table, hdoes.older.size, fun i hi =>
        hdoes.older.snaps i (hi.trans_le holder.size)⟩, ?_⟩
      rcases hdoes.outcome with ⟨hok, hcommitted⟩ | ⟨hfail, hsame⟩
      · refine .inl ⟨hok, ?_⟩
        rw [Committed, ← hdata]
        exact hcommitted
      · exact .inr ⟨hfail, hsame.trans hdata⟩
    have holder₁ := selectSnap_older db time (Nat.le_refl _)
    rw [inSnapshot]
    rcases db.selectSnap_spec time with ⟨db₁, hselect, -, hdata₁⟩ |
      ⟨db₁, hselect, -, hsnaps₁, htable₁, hdata₁, hresults₁⟩
    · rw [hselect] at holder₁ ⊢
      exact ⟨holder₁, .inr ⟨rfl, hdata₁⟩⟩
    rw [hselect] at holder₁ ⊢
    have hsnap₁ : db₁.snaps[db.snaps.length]? = some ⟨time, []⟩ := by
      rw [hsnaps₁, List.getElem?_concat_length]
    obtain ⟨rc, db₂, hset, hputs⟩ := hsets _ db₁ (htable₁ ▸ .refl _) hsnap₁
    have holder₂ := holder₁.trans hputs.older
    have hdata₂ := hputs.data.trans hdata₁
    obtain ⟨hle₂, hlt₂⟩ := hputs.results
    simp only [hset]
    cases rc with
    | deadlock =>
      exact hagain (db₂.abortSnap db.snaps.length) ⟨holder₂.table, holder₂.size, holder₂.snaps⟩
        hdata₂ ((hlt₂ rfl).trans_le hresults₁)
    | error => exact ⟨⟨holder₂.table, holder₂.size, holder₂.snaps⟩, .inr ⟨rfl, hdata₂⟩⟩
    | ok =>
      have holder₃ := commitSnap_older db₂ db.snaps.length db.snaps.length
      obtain ⟨rc, db₃, hcommit, -, -, -, -, hlt₃, hok, hdata₃⟩ :=
        Db.commitSnap_spec (hputs.done rfl)
      rw [hcommit] at holder₃
      simp only [hcommit]
      cases rc with
      | ok =>
        refine ⟨holder₂.trans holder₃, .inl ⟨rfl, ?_⟩⟩
        rw [Committed, ← hdata₂]
        exact hok rfl
      | deadlock =>
        have hlt := hlt₃ rfl
        exact hagain db₃ (holder₂.trans holder₃) ((hdata₃ (by rintro ⟨⟩)).trans hdata₂) (by omega)
      | error =>
        exact ⟨holder₂.trans holder₃, .inr ⟨rfl, (hdata₃ (by rintro ⟨⟩)).trans hdata₂⟩⟩

/-! ## The writes of the backend -/

/-- Ids that are right are known to the database. -/
theorem hasIds_of_right {kis : List Ki} {t : KeyTable} (hright : IdsRight kis t)
    (hset : IdsSet kis) : HasIds kis t := by
  intro ki hki hen
  obtain ⟨id, hid⟩ := Option.isSome_iff_exists.mp (hset ki hki hen)
  exact ⟨id, ki.name, hid, KeyTable.id?_eq_some.mp (hright ki hki id hid)⟩

/-- What is stored under right ids are the values of the keys. -/
theorem storesAll_pairs {kis : List Ki} {t : KeyTable} (hright : IdsRight kis t)
    {ws : List (Bytes × UInt64)} (h : StoresAll t kis ws) :
    ws = kis.map fun ki => (ki.name, ki.value) := by
  induction h with
  | nil => rfl
  | @cons ki w kis ws hw _ ih =>
    obtain ⟨hki, hkis⟩ := idsRight_cons.mp hright
    obtain ⟨id, hid, hkey, hvalue⟩ := hw
    have hname := KeyTable.id?_eq_some.mp (hki id hid)
    rw [List.map_cons, ← ih hkis, ← hvalue, Option.some.inj (hname.symm.trans hkey)]

theorem setKis_setsAll (time : UInt32) {kp : Kp} {t : KeyTable} (hright : IdsRight kp.keyInfos t)
    (hset : IdsSet kp.keyInfos) : SetsAll time t (setKis kp.keyInfos) kp.enabledPairs := by
  intro snap db hle hsnap
  have hright' := hright.mono hle
  obtain ⟨rc, db', hloop, hsets⟩ := setKis_sets (hasIds_of_right hright' hset) hsnap
  have holder := setKis_older db kp.keyInfos (Nat.le_refl snap)
  rw [hloop] at holder
  refine ⟨rc, db', hloop, hsets.data, holder, hsets.results, fun hok => ?_⟩
  rcases hsets.calls with ⟨-, -, ws, hws, hstores⟩ | ⟨hne, -⟩
  · have hright'' : IdsRight (kp.keyInfos.filter fun ki => !ki.disabled) db.table :=
      fun ki hki => hright' ki (List.mem_of_mem_filter hki)
    rw [storesAll_pairs hright'' hstores, List.nil_append] at hws
    exact hws
  · exact absurd hok hne

/-- `dbats_set` puts one value more into the snapshot. -/
theorem set_puts {time : UInt32} {snap : Nat} {ws : List (Bytes × UInt64)} {db : Db} {id : UInt32}
    {key : Bytes} (hkey : db.table.id? key = some id) (value : UInt64)
    (hsnap : db.snaps[snap]? = some ⟨time, ws⟩) :
    Puts time snap (ws ++ [(key, value)]) db (db.set snap id value).1 (db.set snap id value).2 := by
  have hkey' := KeyTable.id?_eq_some.mp hkey
  -- a key info with this id, for the lemma about one key
  let ki : Ki := ((Ki.init (CString.ofBytes key)).set value).setBackendState .dbats (some id)
  have hset : Sets time snap [ki] ws db (db.set snap id value).1 (db.set snap id value).2 :=
    Db.set_sets rfl hkey' hsnap
  have holder := set_older db id value (Nat.le_refl snap)
  refine ⟨hset.data, holder, hset.results, fun hok => ?_⟩
  rcases hset.calls with ⟨-, -, ws', hws', hstores⟩ | ⟨hne, -⟩
  · cases hstores with
    | @cons _ w _ _ hw hnil =>
      cases hnil
      obtain ⟨id', hid', hkey'', hvalue⟩ := hw
      obtain rfl : id = id' := Option.some.inj hid'
      obtain rfl : w = (key, value) :=
        Prod.ext (Option.some.inj (hkey''.symm.trans hkey')) hvalue
      exact hws'
  · exact absurd hok hne

theorem set_setsAll (time : UInt32) {t : KeyTable} {id : UInt32} {key : Bytes}
    (hkey : t.id? key = some id) (value : UInt64) :
    SetsAll time t (fun snapshot db => returned (db.set snapshot id value)) [(key, value)] :=
  fun _ _ hle hsnap => ⟨_, _, rfl, set_puts (KeyTable.id?_mono hle hkey) value hsnap⟩

theorem setByKey_setsAll (time : UInt32) (t : KeyTable) (key : Bytes) (value : UInt64) :
    SetsAll time t (fun snapshot db => returned (db.setByKey snapshot key value))
      [(key, value)] := by
  intro snap db _ hsnap
  obtain ⟨results, hnext, hle, hlt⟩ := db.nextResult_spec
  refine ⟨_, _, rfl, ?_⟩
  unfold Db.setByKey
  generalize db.nextResult = r at hnext hlt ⊢
  obtain ⟨rc, db₁⟩ := r
  obtain rfl : db₁ = { db with results := results } := hnext
  cases rc with
  | deadlock => exact ⟨rfl, .of_eq rfl rfl, ⟨hle, hlt⟩, by rintro ⟨⟩⟩
  | error => exact ⟨rfl, .of_eq rfl rfl, ⟨hle, by rintro ⟨⟩⟩, by rintro ⟨⟩⟩
  | ok =>
    dsimp only
    split
    · next id table hcreate =>
      obtain ⟨hid, hgrows⟩ := KeyTable.create_spec hcreate
      let db₁ : Db := { db with results := results, table := table }
      have holder := write_older db₁ id value (Nat.le_refl snap)
      have hkey : db₁.table.key? id = some key := KeyTable.id?_eq_some.mp hid
      refine ⟨?_, ⟨hgrows.trans holder.table, holder.size, holder.snaps⟩, ⟨?_, by rintro ⟨⟩⟩,
        fun _ => ?_⟩
      · show (db₁.write snap id value).data = db.data
        rw [Db.write, hkey]
      · show (db₁.write snap id value).results.length ≤ _
        rw [Db.write, hkey]
        exact hle
      · show (db₁.write snap id value).snaps[snap]? = _
        rw [Db.write, hkey]
        show (db.snaps.modify snap _)[snap]? = _
        rw [List.getElem?_modify_eq, hsnap]
        rfl
    · exact ⟨rfl, .of_eq rfl rfl, ⟨hle, by rintro ⟨⟩⟩, by rintro ⟨⟩⟩

section Operations

variable (s : State) (time : UInt32)

/-- `set_single` writes, as a whole, what happens to be in `val`. -/
theorem setSingle_does (val value : UInt64) (key : CString) :
    Does time [(key.bytes, val)] s.db (setSingle val s key value time).1
      (setSingle val s key value time).2.db :=
  inSnapshot_does (setByKey_setsAll time _ key.bytes val) (Nat.lt_succ_self _)

theorem setSingleById_does {id key : Bytes} (hlen : id.length = 4)
    (hkey : s.db.table.id? key = some (idOfBytes id)) (value : UInt64) :
    Does time [(key, value)] s.db (setSingleById s id value time).1
      (setSingleById s id value time).2.db := by
  unfold setSingleById
  simp only [if_pos hlen]
  exact inSnapshot_does (set_setsAll time hkey value) (Nat.lt_succ_self _)

theorem kpFlush_does {kp : Kp} (hright : IdsRight kp.keyInfos s.db.table)
    (hset : IdsSet kp.keyInfos) :
    Does time kp.enabledPairs s.db (kpFlush kp time s).1 (kpFlush kp time s).2.2.db :=
  inSnapshot_does (setKis_setsAll time hright hset) (Nat.lt_succ_self _)

end Operations

/-! ## Looking keys up -/

/-- A lookup: keys are only created, and the ids that come back are right. -/
structure LooksUp (keys : List Bytes) (db : Db) (ids : Option (List UInt32)) (db' : Db) :
    Prop where
  data : db'.data = db.data
  snaps : db'.snaps = db.snaps
  table : db.table.Le db'.table
  right : ∀ found, ids = some found → List.Forall₂ (fun key id => db'.table.id? key = some id)
    keys found

theorem getKeyId_looksUp (db : Db) (key : Bytes) :
    LooksUp [key] db ((db.getKeyId key).1.map fun id => [id]) (db.getKeyId key).2 := by
  obtain ⟨hle, hid⟩ := getKeyId_spec db key
  refine ⟨?_, ?_, hle, ?_⟩
  · unfold Db.getKeyId Db.nextResult
    cases db.results.headD .ok with
    | ok => dsimp only; split <;> rfl
    | deadlock => rfl
    | error => rfl
  · unfold Db.getKeyId Db.nextResult
    cases db.results.headD .ok with
    | ok => dsimp only; split <;> rfl
    | deadlock => rfl
    | error => rfl
  · intro found hfound
    obtain ⟨id, hsome, rfl⟩ := Option.map_eq_some_iff.mp hfound
    exact .cons (hid id hsome) .nil

/-- `kp_ki_update` looks keys up until a lookup fails. -/
theorem kiUpdateLoop_data (kis : List Ki) (db : Db) :
    ((kiUpdateLoop kis db).1 = .ok ∨ (kiUpdateLoop kis db).1 = .fail) ∧
      (kiUpdateLoop kis db).2.2.data = db.data := by
  induction kis generalizing db with
  | nil => exact ⟨.inl rfl, rfl⟩
  | cons ki kis ih =>
    rw [kiUpdateLoop]
    split
    · exact ih db
    · have hget := (getKeyId_looksUp db ki.name).data
      generalize db.getKeyId ki.name = r at hget ⊢
      obtain ⟨id, db'⟩ := r
      cases id with
      | none => exact ⟨.inr rfl, hget⟩
      | some id => exact ⟨(ih db').1, (ih db').2.trans hget⟩

theorem KeyTable.createAll_spec (t : KeyTable) (keys : List Bytes) :
    t.Le (t.createAll keys).2 ∧ ∀ found, (t.createAll keys).1 = some found →
      List.Forall₂ (fun key id => (t.createAll keys).2.id? key = some id) keys found := by
  induction keys generalizing t with
  | nil => exact ⟨.refl t, by rintro _ ⟨⟩; exact .nil⟩
  | cons key keys ih =>
    rw [createAll]
    cases hcreate : t.create key with
    | none => exact ⟨.refl t, by rintro _ ⟨⟩⟩
    | some r =>
      obtain ⟨id, t'⟩ := r
      obtain ⟨hid, hle⟩ := create_spec hcreate
      obtain ⟨hle', hfound'⟩ := ih t'
      refine ⟨hle.trans hle', fun found hfound => ?_⟩
      obtain ⟨ids, hids, rfl⟩ := Option.map_eq_some_iff.mp hfound
      exact .cons (id?_mono hle' hid) (hfound' ids hids)

theorem bulkGetKeyId_looksUp (db : Db) (keys : List Bytes) (created : Nat) :
    LooksUp keys db (db.bulkGetKeyId keys created).1 (db.bulkGetKeyId keys created).2 := by
  obtain ⟨hle, hfound⟩ := db.table.createAll_spec keys
  obtain ⟨hle', -⟩ := db.table.createAll_spec (keys.take created)
  unfold Db.bulkGetKeyId Db.nextResult
  cases db.results.headD .ok with
  | ok => exact ⟨rfl, rfl, hle, hfound⟩
  | deadlock => exact ⟨rfl, rfl, hle', by rintro _ ⟨⟩⟩
  | error => exact ⟨rfl, rfl, hle', by rintro _ ⟨⟩⟩

/-- However many lookups fail. -/
theorem resolveKeyBulkLoop_looksUp (keys : List Bytes) (retries : Nat) (created : List Nat)
    (db : Db) :
    LooksUp keys db (resolveKeyBulkLoop keys retries created db).1
      (resolveKeyBulkLoop keys retries created db).2 := by
  induction retries generalizing created db with
  | zero => exact ⟨rfl, rfl, .refl _, by rintro _ ⟨⟩⟩
  | succ retries ih =>
    have hfirst := bulkGetKeyId_looksUp db keys (created.headD 0)
    rw [resolveKeyBulkLoop]
    generalize db.bulkGetKeyId keys (created.headD 0) = r at hfirst ⊢
    obtain ⟨ids, db₁⟩ := r
    cases ids with
    | some ids => exact hfirst
    | none =>
      have hrest := ih created.tail db₁
      exact ⟨hrest.data.trans hfirst.data, hrest.snaps.trans hfirst.snaps,
        hfirst.table.trans hrest.table, hrest.right⟩

/-- `resolve_key` gives out the id as bytes. -/
theorem resolveKey_eq (s : State) (key : CString) :
    ((resolveKey s key).1.map fun id => [id], (resolveKey s key).2) =
      (((s.db.getKeyId key.bytes).1.map fun id => [id]).map (List.map idBytes),
        { s with db := (s.db.getKeyId key.bytes).2 }) := by
  unfold resolveKey
  generalize s.db.getKeyId key.bytes = r
  obtain ⟨id, db⟩ := r
  cases id <;> rfl

theorem resolveKeyBulk_eq (s : State) (keys : List CString) (created : List Nat) :
    resolveKeyBulk s keys true created =
      ((resolveKeyBulkLoop (keys.map CString.bytes) 60 created s.db).1.map (List.map idBytes),
        { s with db := (resolveKeyBulkLoop (keys.map CString.bytes) 60 created s.db).2 }) := by
  unfold resolveKeyBulk
  rw [if_pos rfl]
  generalize resolveKeyBulkLoop (keys.map CString.bytes) 60 created s.db = r
  obtain ⟨ids, db⟩ := r
  cases ids <;> rfl

/-! ## A caller of the backend -/

namespace Atomic

/-- The backend, with what its caller keeps. -/
structure Client where
  state : State
  /-- the keys that were looked up, with their backend ids -/
  handles : List (Bytes × Bytes)
  /-- the values of the bulk set still to be sent -/
  remaining : Nat
  /-- has a call of a bulk set failed? -/
  failed : Bool

/-- A call of the backend. `val` is what the uninitialised variable of `set_single`
holds. -/
inductive Op where
  | setSingle (val : UInt64) (key : CString) (value : UInt64) (time : UInt32)
  | setSingleById (handle : Bytes × Bytes) (value : UInt64) (time : UInt32)
  | kpFlush (kp : Kp) (time : UInt32)
  | setBulkInit (keyCnt time : UInt32)
  | setBulkById (handle : Bytes × Bytes) (value : UInt64)
  | resolveKey (key : CString)
  | resolveKeyBulk (keys : List CString) (mallocOk : Bool) (created : List Nat)

/-- What a call asks for. -/
def Op.request : Op → Request
  | setSingle _ key value time => .write time [(key.bytes, value)]
  | setSingleById handle value time => .write time [(handle.1, value)]
  | kpFlush kp time => .write time kp.enabledPairs
  | setBulkInit keyCnt time => .start keyCnt.toNat time
  | setBulkById handle value => .stage handle.1 value
  | resolveKey _ | resolveKeyBulk _ _ _ => .resolve

/-- After a call of a bulk set. -/
def Client.afterBulk (c : Client) (remaining : Nat) : Ret × State → Ret × Client
  | (.ok, s) => (.ok, { c with state := s, remaining := remaining })
  | (r, s) => (r, { c with state := s, remaining := 0, failed := true })

/-- After a lookup of some keys. -/
def Client.afterResolve (c : Client) (keys : List Bytes) :
    Option (List Bytes) × State → Ret × Client
  | (none, s) => (.fail, { c with state := s })
  | (some ids, s) => (.ok, { c with state := s, handles := c.handles ++ keys.zip ids })

/-- Make a call: its result, and the caller afterwards. -/
def Client.act (c : Client) : Op → Ret × Client
  | .setSingle val key value time =>
    let r := Dbats.setSingle val c.state key value time
    (r.1, { c with state := r.2 })
  | .setSingleById handle value time =>
    let r := Dbats.setSingleById c.state handle.2 value time
    (r.1, { c with state := r.2 })
  | .kpFlush kp time =>
    let r := Dbats.kpFlush kp time c.state
    (r.1, { c with state := r.2.2 })
  | .setBulkInit keyCnt time =>
    c.afterBulk keyCnt.toNat (Dbats.setBulkInit c.state keyCnt time)
  | .setBulkById handle value =>
    c.afterBulk (c.remaining - 1) (Dbats.setBulkById c.state handle.2 value)
  | .resolveKey key =>
    let r := Dbats.resolveKey c.state key
    c.afterResolve [key.bytes] (r.1.map fun id => [id], r.2)
  | .resolveKeyBulk keys mallocOk created =>
    c.afterResolve (keys.map CString.bytes) (Dbats.resolveKeyBulk c.state keys mallocOk created)

def Client.step (c : Client) (op : Op) : Client := (c.act op).2

/-- The request of a call, with its result. -/
def Client.answer (c : Client) (op : Op) : Request × Ret := (op.request, (c.act op).1)

/-- A caller of a fresh backend. -/
def Client.start (db : Db) : Client := ⟨.init db, [], 0, false⟩

/-- What the caller may do: use the ids it has looked up, flush packages whose enabled
keys have theirs, start a bulk set that is not empty once the one before is
complete, and none after a call of a bulk set has failed. `set_single` it may use only
where the uninitialised variable holds the value it gives: the value is lost
otherwise. -/
def Permitted (c : Client) : Op → Prop
  | .setSingle val _ value _ => val = value
  | .resolveKey _ | .resolveKeyBulk _ _ _ => True
  | .setSingleById handle _ _ => handle ∈ c.handles
  | .kpFlush kp _ => IdsRight kp.keyInfos c.state.db.table ∧ IdsSet kp.keyInfos
  | .setBulkInit keyCnt _ => c.remaining = 0 ∧ c.failed = false ∧ keyCnt ≠ 0
  | .setBulkById handle _ => handle ∈ c.handles ∧ 0 < c.remaining

/-! ## The refinement -/

/-- How the fields of the backend represent a bulk set. -/
structure Stages (c : Client) (b : Batch) (snap : Nat) : Prop where
  ptr : c.state.bulkSnap = some snap
  snap : c.state.db.snaps[snap]? = some ⟨b.time, b.writes⟩
  cnt : c.state.bulkCnt.toNat = b.writes.length
  expect : c.state.bulkExpect.toNat = b.expect
  remaining : b.writes.length + c.remaining = b.expect
  pos : 0 < c.remaining

/-- The bulk set of the store is the one the backend collects. -/
def StagesBatch (c : Client) : Option Batch → Prop
  | none => c.remaining = 0 ∧ (c.failed = false →
      c.state.bulkExpect = 0 ∧ c.state.bulkCnt = 0 ∧ c.state.bulkSnap = none)
  | some b => ∃ snap, Stages c b snap

/-- **The abstraction**: the committed data, the bulk set and the ids. -/
structure Abstracts (c : Client) (a : Store) : Prop where
  data : c.state.db.data = a.data
  handles : ∀ handle ∈ c.handles, handle.2.length = 4 ∧
    c.state.db.table.id? handle.1 = some (idOfBytes handle.2)
  batch : StagesBatch c a.batch

theorem abstracts_start (db : Db) : Abstracts (.start db) ⟨db.data, none⟩ :=
  ⟨rfl, by rintro _ ⟨⟩, rfl, fun _ => ⟨rfl, rfl, rfl⟩⟩

section Refinement

variable {c : Client} {a : Store}

/-- Ids are forever. -/
theorem Abstracts.handles_mono (h : Abstracts c a) {t : KeyTable}
    (hle : c.state.db.table.Le t) : ∀ handle ∈ c.handles, handle.2.length = 4 ∧
      t.id? handle.1 = some (idOfBytes handle.2) := by
  intro handle hhandle
  obtain ⟨hlen, hid⟩ := h.handles handle hhandle
  exact ⟨hlen, KeyTable.id?_mono hle hid⟩

/-- The snapshot of a bulk set exists. -/
theorem Stages.lt {b : Batch} {snap : Nat} (h : Stages c b snap) :
    snap < c.state.db.snaps.length :=
  (List.getElem?_eq_some_iff.mp h.snap).1

/-- What only works on new snapshots leaves the bulk set alone. -/
theorem StagesBatch.older {batch : Option Batch} (h : StagesBatch c batch) {db : Db}
    (holder : Older c.state.db.snaps.length c.state.db db) (handles : List (Bytes × Bytes)) :
    StagesBatch { c with state := { c.state with db := db }, handles := handles } batch := by
  cases batch with
  | none => exact h
  | some b =>
    obtain ⟨snap, hstages⟩ := h
    refine ⟨snap, hstages.ptr, ?_, hstages.cnt, hstages.expect, hstages.remaining, hstages.pos⟩
    exact (holder.snaps snap hstages.lt).trans hstages.snap

/-- A write. -/
theorem Abstracts.write (h : Abstracts c a) {time : UInt32} {ws : List (Bytes × UInt64)} {r : Ret}
    {db : Db} (hdoes : Does time ws c.state.db r db) :
    ∃ a', Step a (.write time ws) r a' ∧
      Abstracts { c with state := { c.state with db := db } } a' := by
  have hhandles := h.handles_mono hdoes.older.table
  have hbatch := h.batch.older hdoes.older c.handles
  rcases hdoes.outcome with ⟨rfl, hcommitted⟩ | ⟨rfl, hdata⟩
  · refine ⟨_, .write, ?_, hhandles, hbatch⟩
    rw [← h.data]
    exact hcommitted
  · exact ⟨_, .failed, hdata.trans h.data, hhandles, hbatch⟩

/-- A lookup. -/
theorem Abstracts.resolve (h : Abstracts c a) {keys : List Bytes} {ids : Option (List UInt32)}
    {db : Db} (hlooks : LooksUp keys c.state.db ids db) :
    ∃ a', Step a .resolve
        (c.afterResolve keys (ids.map (List.map idBytes), { c.state with db := db })).1 a' ∧
      Abstracts (c.afterResolve keys (ids.map (List.map idBytes), { c.state with db := db })).2 a' := by
  have hhandles := h.handles_mono hlooks.table
  have holder : Older c.state.db.snaps.length c.state.db db :=
    ⟨hlooks.table, (congrArg List.length hlooks.snaps).ge, fun _ _ => by rw [hlooks.snaps]⟩
  have hdata := hlooks.data.trans h.data
  cases ids with
  | none => exact ⟨_, .failed, hdata, hhandles, h.batch.older holder _⟩
  | some found =>
    have hright := hlooks.right found rfl
    refine ⟨_, .resolve, hdata, List.forall_mem_append.mpr ⟨hhandles, ?_⟩, h.batch.older holder _⟩
    show ∀ handle ∈ keys.zip (found.map idBytes), handle.2.length = 4 ∧
      db.table.id? handle.1 = some (idOfBytes handle.2)
    clear hlooks
    induction hright with
    | nil => exact List.forall_mem_nil _
    | @cons key id keys found hid _ ih =>
      rw [List.map_cons, List.zip_cons_cons]
      refine List.forall_mem_cons.mpr ⟨⟨idBytes_length id, ?_⟩, ih⟩
      rw [idOfBytes_idBytes]
      exact hid

/-- The start of a bulk set. -/
theorem Abstracts.setBulkInit (h : Abstracts c a) {keyCnt : UInt32} (time : UInt32)
    (hpermitted : Permitted c (.setBulkInit keyCnt time)) :
    ∃ a', Step a (.start keyCnt.toNat time) (c.act (.setBulkInit keyCnt time)).1 a' ∧
      Abstracts (c.act (.setBulkInit keyCnt time)).2 a' := by
  obtain ⟨hremaining, hfailed, hcnt⟩ := hpermitted
  have hnone : a.batch = none := by
    cases hbatch : a.batch with
    | none => rfl
    | some b =>
      have := h.batch
      rw [hbatch] at this
      obtain ⟨snap, hstages⟩ := this
      have := hstages.pos
      omega
  have hidle := h.batch
  rw [hnone] at hidle
  have hassert := hidle.2 hfailed
  have holder := selectSnap_older c.state.db time (Nat.le_refl _)
  have hhandles := h.handles_mono holder.table
  have hexpect : 0 < keyCnt.toNat := by
    rcases Nat.eq_zero_or_pos keyCnt.toNat with hzero | hpos
    · exact absurd (UInt32.toNat_inj.mp hzero) hcnt
    · exact hpos
  show ∃ a', Step a _ (c.afterBulk _ (Dbats.setBulkInit c.state keyCnt time)).1 a' ∧
    Abstracts (c.afterBulk _ (Dbats.setBulkInit c.state keyCnt time)).2 a'
  unfold Dbats.setBulkInit
  rw [if_pos hassert]
  rcases c.state.db.selectSnap_spec time with ⟨db, hselect, -, hdata⟩ |
    ⟨db, hselect, -, hsnaps, -, hdata, -⟩
  · rw [hselect] at hhandles ⊢
    exact ⟨_, .failed, hdata.trans h.data, hhandles, rfl, by rintro ⟨⟩⟩
  · rw [hselect] at hhandles ⊢
    refine ⟨_, .start hnone, hdata.trans h.data, hhandles, c.state.db.snaps.length, rfl, ?_, ?_, rfl,
      ?_, hexpect⟩
    · show db.snaps[c.state.db.snaps.length]? = _
      rw [hsnaps, List.getElem?_concat_length]
    · show c.state.bulkCnt.toNat = 0
      rw [hassert.2.1]
      rfl
    · exact Nat.zero_add _

/-- A bulk set that is not there has no values to be sent. -/
theorem Abstracts.collects (h : Abstracts c a) (hpos : 0 < c.remaining) :
    ∃ b snap, a.batch = some b ∧ Stages c b snap := by
  have hbatch := h.batch
  cases hb : a.batch with
  | none =>
    rw [hb] at hbatch
    exact absurd hbatch.1 hpos.ne'
  | some b =>
    rw [hb] at hbatch
    obtain ⟨snap, hstages⟩ := hbatch
    exact ⟨b, snap, rfl, hstages⟩

/-- The counter of the backend does not overflow, so it meets `bulk_expect` with the
last value of the set and not before. -/
theorem Stages.cnt_succ {b : Batch} {snap : Nat} (h : Stages c b snap) :
    (c.state.bulkCnt + 1).toNat = b.writes.length + 1 := by
  have hlt := c.state.bulkExpect.toNat_lt
  have hcnt := h.cnt
  have hexpect := h.expect
  have hremaining := h.remaining
  have hpos := h.pos
  rw [UInt32.toNat_add]
  show (c.state.bulkCnt.toNat + 1) % 2 ^ 32 = _
  omega

theorem Stages.last_iff {b : Batch} {snap : Nat} (h : Stages c b snap) :
    c.state.bulkCnt + 1 = c.state.bulkExpect ↔ b.writes.length + 1 = b.expect := by
  rw [← h.cnt_succ, ← h.expect]
  exact ⟨congrArg UInt32.toNat, UInt32.toNat_inj.mp⟩

/-- A value of the bulk set. -/
theorem Abstracts.setBulkById (h : Abstracts c a) {handle : Bytes × Bytes} {value : UInt64}
    (hpermitted : Permitted c (.setBulkById handle value)) :
    ∃ a', Step a (.stage handle.1 value) (c.act (.setBulkById handle value)).1 a' ∧
      Abstracts (c.act (.setBulkById handle value)).2 a' := by
  obtain ⟨hmem, hpos⟩ := hpermitted
  obtain ⟨b, snap, hb, hstages⟩ := h.collects hpos
  obtain ⟨hlen, hid⟩ := h.handles handle hmem
  have hexpect : 0 < c.state.bulkExpect := by
    have := hstages.expect
    have := hstages.remaining
    exact UInt32.lt_iff_toNat_lt.mpr (show 0 < _ by omega)
  have hputs := set_puts hid value hstages.snap
  show ∃ a', Step a _ (c.afterBulk _ (Dbats.setBulkById c.state handle.2 value)).1 a' ∧
    Abstracts (c.afterBulk _ (Dbats.setBulkById c.state handle.2 value)).2 a'
  unfold Dbats.setBulkById
  rw [if_pos ⟨hexpect, hlen⟩, hstages.ptr]
  dsimp only
  generalize c.state.db.set snap (idOfBytes handle.2) value = r at hputs ⊢
  obtain ⟨rc, db⟩ := r
  have hhandles := h.handles_mono hputs.older.table
  have hdata := hputs.data.trans h.data
  cases rc with
  | deadlock => exact ⟨_, .failed, hdata, hhandles, rfl, by rintro ⟨⟩⟩
  | error => exact ⟨_, .failed, hdata, hhandles, rfl, by rintro ⟨⟩⟩
  | ok =>
    have hsnap := hputs.done rfl
    by_cases hlast : c.state.bulkCnt + 1 = c.state.bulkExpect
    · -- the last value commits the snapshot
      have holder := commitSnap_older db snap snap
      obtain ⟨rc, db', hcommit, -, -, -, -, -, hok, hsame⟩ := Db.commitSnap_spec hsnap
      rw [hcommit] at holder
      have hhandles' := h.handles_mono (hputs.older.table.trans holder.table)
      simp only [if_pos hlast, hcommit]
      cases rc with
      | deadlock =>
        exact ⟨_, .failed, (hsame (by rintro ⟨⟩)).trans hdata, hhandles', rfl, by rintro ⟨⟩⟩
      | error =>
        exact ⟨_, .failed, (hsame (by rintro ⟨⟩)).trans hdata, hhandles', rfl, by rintro ⟨⟩⟩
      | ok =>
        have hlast' := hstages.last_iff.mp hlast
        have hremaining := hstages.remaining
        refine ⟨_, .finish hb hlast', ?_, hhandles', ?_, fun _ => ⟨rfl, rfl, rfl⟩⟩
        · rw [← hdata]
          exact hok rfl
        · show c.remaining - 1 = 0
          omega
    · have hmore : b.writes.length + 1 ≠ b.expect := fun heq => hlast (hstages.last_iff.mpr heq)
      have hremaining := hstages.remaining
      simp only [if_neg hlast]
      refine ⟨_, .stage hb (by omega), hdata, hhandles, snap, rfl, hsnap, ?_, hstages.expect, ?_,
        ?_⟩
      · show (c.state.bulkCnt + 1).toNat = (b.writes ++ [(handle.1, value)]).length
        rw [hstages.cnt_succ, List.length_append]
        rfl
      · show (b.writes ++ [(handle.1, value)]).length + (c.remaining - 1) = b.expect
        rw [List.length_append, List.length_singleton]
        omega
      · show 0 < c.remaining - 1
        omega

/-- **One call**, for each function of the backend. -/
theorem Abstracts.step (h : Abstracts c a) {op : Op} (hpermitted : Permitted c op) :
    ∃ a', Step a op.request (c.act op).1 a' ∧ Abstracts (c.step op) a' := by
  cases op with
  | setSingle val key value time =>
    obtain rfl : val = value := hpermitted
    exact h.write (setSingle_does c.state time val val key)
  | setSingleById handle value time =>
    obtain ⟨hlen, hid⟩ := h.handles handle hpermitted
    exact h.write (setSingleById_does c.state time hlen hid value)
  | kpFlush kp time =>
    exact h.write (kpFlush_does c.state time hpermitted.1 hpermitted.2)
  | setBulkInit keyCnt time => exact h.setBulkInit time hpermitted
  | setBulkById handle value => exact h.setBulkById hpermitted
  | resolveKey key =>
    have hresolve := h.resolve (getKeyId_looksUp c.state.db key.bytes)
    rw [← resolveKey_eq] at hresolve
    exact hresolve
  | resolveKeyBulk keys mallocOk created =>
    cases mallocOk with
    | false => exact ⟨a, .failed, h⟩
    | true =>
      have hresolve := h.resolve
        (resolveKeyBulkLoop_looksUp (keys.map CString.bytes) 60 created c.state.db)
      rw [← resolveKeyBulk_eq] at hresolve
      exact hresolve

end Refinement

/-- **The backend is an atomic store**: whatever DBATS answers, the results of a run of
calls are results of the store, and the data of the backend is that of the
store. -/
theorem refines (db : Db) (ops : List Op)
    (hpermitted : Along Client.step Permitted (.start db) ops) :
    ∃ a, Trace Answers ⟨db.data, none⟩ (outputs Client.step Client.answer (.start db) ops) a ∧
      Abstracts (run Client.step (.start db) ops) a := by
  have hstep : ∀ c a op, Abstracts c a → Permitted c op →
      ∃ a', Answers a (c.answer op) a' ∧ Abstracts (c.step op) a' :=
    fun _ _ _ h hop => h.step hop
  exact run_refines Abstracts hstep (abstracts_start db) hpermitted

/-- A database with a deadlock to come. -/
def busy : Db where
  data := fun _ => none
  snaps := []
  table := .empty
  results := [.ok, .ok, .ok, .ok, .deadlock]
  log := []

/-- A bulk set with a write in between, which is retried. -/
def interleaved : List Op :=
  [.resolveKey (.ofAscii "a"), .setBulkInit 2 60, .setBulkById ([97], idBytes 0) 7,
    .setSingle 9 (.ofAscii "b") 9 120, .setBulkById ([97], idBytes 0) 8]

theorem refines_interleaved :
    ∃ a, Trace Answers ⟨fun _ => none, none⟩
        (outputs Client.step Client.answer (.start busy) interleaved) a ∧
      Abstracts (run Client.step (.start busy) interleaved) a :=
  refines busy interleaved ⟨trivial, ⟨rfl, rfl, by decide⟩, ⟨.head _, by decide⟩, rfl,
    ⟨.head _, by decide⟩, trivial⟩

/-- All calls succeed, and the bulk set is there with its second value. -/
example :
    (outputs Client.step Client.answer (.start busy) interleaved).map Prod.snd =
        [.ok, .ok, .ok, .ok, .ok] ∧
      (run Client.step (.start busy) interleaved).state.db.data ([97], 60) = some 8 := by
  decide

end Atomic

end Dbats

end Libtimeseries
