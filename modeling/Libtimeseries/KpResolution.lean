import Libtimeseries.KpRepresentation

/-!
# DBATS ids of package keys

The DBATS backend resolves keys lazily: `kp_ki_update` looks up the ids of the
enabled keys that have none, and `kp_flush` dereferences the id of every enabled
key. The update only runs when the package is dirty, and `timeseries_kp_enable_key`
does not make it dirty; so a key that was disabled during the update and enabled
on a clean package is flushed without an id.

`EnableOk` excludes that step. Runs without it never flush an unresolved key
(`dbatsFlush_resolved`).
-/

namespace Libtimeseries

open ByteLib RunLib

/-- Ids that are stored are those of the key's own name. -/
def IdsRight (kis : List Ki) (table : Dbats.KeyTable) : Prop :=
  ∀ ki ∈ kis, ∀ id, ki.backendState .dbats = some id → table.id? ki.name = some id

/-- Every enabled key has an id. -/
def IdsSet (kis : List Ki) : Prop :=
  ∀ ki ∈ kis, ki.disabled = false → (ki.backendState .dbats).isSome

/-- Every enabled key has the DBATS id of its own name. -/
def Resolved (kp : Kp) (w : World) : Prop :=
  ∀ ki ∈ kp.keyInfos, ki.disabled = false →
    ∃ id, ki.backendState .dbats = some id ∧ w.dbats.db.table.id? ki.name = some id

theorem resolved_of_ids {kp : Kp} {w : World} (hright : IdsRight kp.keyInfos w.dbats.db.table)
    (hset : IdsSet kp.keyInfos) : Resolved kp w := by
  intro ki hki hen
  obtain ⟨id, hid⟩ := Option.isSome_iff_exists.mp (hset ki hki hen)
  exact ⟨id, hid, hright ki hki id hid⟩

theorem IdsRight.mono {kis : List Ki} {t t' : Dbats.KeyTable} (h : IdsRight kis t)
    (hle : t.Le t') : IdsRight kis t' := by
  intro ki hki id hid
  exact Dbats.KeyTable.id?_mono hle (h ki hki id hid)

/-- Changing one key info in its value or to disabled does not matter. -/
theorem ids_of_modify (kis : List Ki) (i : Nat) {f : Ki → Ki}
    (hname : ∀ ki, (f ki).name = ki.name)
    (hstate : ∀ ki, (f ki).backendState = ki.backendState) :
    (∀ t, IdsRight kis t → IdsRight (kis.modify i f) t) ∧
      ((∀ ki, kis[i]? = some ki → (f ki).disabled = false →
          ki.disabled = false ∨ (ki.backendState .dbats).isSome) →
        IdsSet kis → IdsSet (kis.modify i f)) := by
  -- what is in the new array was there before, or is the modified one
  have hmem : ∀ ki' ∈ kis.modify i f, ki' ∈ kis ∨ ∃ ki ∈ kis, kis[i]? = some ki ∧ ki' = f ki := by
    intro ki' hki'
    obtain ⟨j, hj⟩ := List.mem_iff_getElem?.mp hki'
    rw [List.getElem?_modify] at hj
    cases hget : kis[j]? with
    | none => rw [hget] at hj; cases hj
    | some ki =>
      rw [hget] at hj
      by_cases hij : i = j
      · refine .inr ⟨ki, List.mem_of_getElem? hget, hij ▸ hget, ?_⟩
        simpa [hij] using hj.symm
      · refine .inl (List.mem_of_getElem? (i := j) ?_)
        rw [hget]
        simpa [hij] using hj
  constructor
  · intro t h ki' hki' id hid
    rcases hmem ki' hki' with hki | ⟨ki, hki, -, rfl⟩
    · exact h ki' hki id hid
    · rw [hname]
      exact h ki hki id (hstate ki ▸ hid)
  · intro hf h ki' hki' hen
    rcases hmem ki' hki' with hki | ⟨ki, hki, hget, rfl⟩
    · exact h ki' hki hen
    · rw [hstate]
      rcases hf ki hget hen with hd | hsome
      · exact h ki hki hd
      · exact hsome

theorem ids_of_set (kp : Kp) (id : Nat) (value : UInt64) :
    (∀ t, IdsRight kp.keyInfos t → IdsRight (kp.set id value).2.keyInfos t) ∧
      (IdsSet kp.keyInfos → IdsSet (kp.set id value).2.keyInfos) := by
  unfold Kp.set
  split
  · obtain ⟨hright, hset⟩ := ids_of_modify kp.keyInfos id (f := fun ki => ki.set value)
      (fun _ => rfl) fun _ => rfl
    exact ⟨hright, hset fun _ _ hen => .inl hen⟩
  · exact ⟨fun _ h => h, fun h => h⟩

theorem ids_of_disableKey (kp : Kp) (id : Nat) :
    (∀ t, IdsRight kp.keyInfos t → IdsRight (kp.disableKey id).keyInfos t) ∧
      (IdsSet kp.keyInfos → IdsSet (kp.disableKey id).keyInfos) := by
  obtain ⟨hright, hset⟩ := ids_of_modify kp.keyInfos id (f := fun ki => ki.setDisabled true)
    (fun _ => rfl) fun _ => rfl
  rw [Kp.disableKey_keyInfos]
  exact ⟨hright, hset fun _ _ hen => by cases hen⟩

theorem ids_of_enableKey (kp : Kp) (id : Nat) :
    (∀ t, IdsRight kp.keyInfos t → IdsRight (kp.enableKey id).keyInfos t) ∧
      ((∀ ki, kp.keyInfos[id]? = some ki →
          ki.disabled = false ∨ (ki.backendState .dbats).isSome) →
        IdsSet kp.keyInfos → IdsSet (kp.enableKey id).keyInfos) := by
  unfold Kp.enableKey
  split
  · obtain ⟨hright, hset⟩ := ids_of_modify kp.keyInfos id (f := fun ki => ki.setDisabled false)
      (fun _ => rfl) fun _ => rfl
    exact ⟨hright, fun h => hset fun ki hki _ => h ki hki⟩
  · exact ⟨fun _ h => h, fun _ h => h⟩

/-- The reset loop after a flush does not matter either. -/
theorem ids_of_afterFlush {kis : List Ki} {reset disable : Bool} :
    (∀ t, IdsRight kis t → IdsRight (kis.map (Ki.afterFlush reset disable)) t) ∧
      (IdsSet kis → IdsSet (kis.map (Ki.afterFlush reset disable))) := by
  constructor
  · intro t h ki' hki' id hid
    obtain ⟨ki, hki, rfl⟩ := List.mem_map.mp hki'
    exact h ki hki id hid
  · intro h ki' hki' hen
    obtain ⟨ki, hki, rfl⟩ := List.mem_map.mp hki'
    exact h ki hki (Bool.or_eq_false_iff.mp hen).1

theorem idsRight_cons {ki : Ki} {kis : List Ki} {t : Dbats.KeyTable} :
    IdsRight (ki :: kis) t ↔
      (∀ id, ki.backendState .dbats = some id → t.id? ki.name = some id) ∧ IdsRight kis t :=
  List.forall_mem_cons

theorem idsSet_cons {ki : Ki} {kis : List Ki} :
    IdsSet (ki :: kis) ↔
      (ki.disabled = false → (ki.backendState .dbats).isSome) ∧ IdsSet kis :=
  List.forall_mem_cons

/-! ## The callbacks -/

namespace Dbats

theorem getKeyId_spec (db : Db) (key : Bytes) :
    db.table.Le (db.getKeyId key).2.table ∧
      ∀ id, (db.getKeyId key).1 = some id → (db.getKeyId key).2.table.id? key = some id := by
  unfold Db.getKeyId
  split
  · next db' heq =>
    obtain rfl : { db with results := db.results.tail } = db' := (Prod.mk.inj heq).2
    split
    · next id table hcreate =>
      obtain ⟨hid, hle⟩ := KeyTable.create_spec hcreate
      exact ⟨hle, fun id' hid' => Option.some.inj hid' ▸ hid⟩
    · exact ⟨.refl _, by rintro _ ⟨⟩⟩
  · next db' _ heq =>
    obtain rfl : { db with results := db.results.tail } = db' := (Prod.mk.inj heq).2
    exact ⟨.refl _, by rintro _ ⟨⟩⟩

/-- `kp_ki_update` only adds right ids, and all of them if it succeeds. -/
theorem kiUpdateLoop_ids (kis : List Ki) (db : Db) (hright : IdsRight kis db.table) :
    db.table.Le (kiUpdateLoop kis db).2.2.table ∧
      IdsRight (kiUpdateLoop kis db).2.1 (kiUpdateLoop kis db).2.2.table ∧
      ((kiUpdateLoop kis db).1 = .ok ∨ IdsSet kis → IdsSet (kiUpdateLoop kis db).2.1) := by
  induction kis generalizing db with
  | nil => exact ⟨.refl _, hright, by rintro _ _ ⟨⟩⟩
  | cons ki kis ih =>
    obtain ⟨hki, hkis⟩ := idsRight_cons.mp hright
    rw [kiUpdateLoop]
    split
    · next hskip =>
      -- a key that is disabled, or has an id
      obtain ⟨hle, hright', hset⟩ := ih db hkis
      refine ⟨hle, idsRight_cons.mpr ⟨?_, hright'⟩, ?_⟩
      · intro id hid
        exact KeyTable.id?_mono hle (hki id hid)
      · intro h
        rw [idsSet_cons]
        constructor
        · intro hen
          simpa [hen] using hskip
        · exact hset (h.imp_right fun h => (idsSet_cons.mp h).2)
    · next hskip =>
      obtain ⟨hleGet, hidGet⟩ := getKeyId_spec db ki.name
      generalize db.getKeyId ki.name = r at hleGet hidGet ⊢
      obtain ⟨id?, db'⟩ := r
      cases id? with
      | none =>
        exact ⟨hleGet, hright.mono hleGet, fun h => h.resolve_left (by rintro ⟨⟩)⟩
      | some id =>
        obtain ⟨hle, hright', hset⟩ := ih db' (hkis.mono hleGet)
        have hname : (ki.setBackendState .dbats (some id)).name = ki.name := rfl
        refine ⟨hleGet.trans hle, idsRight_cons.mpr ⟨?_, hright'⟩, ?_⟩
        · intro id' hid'
          obtain rfl : id = id' := by simpa [Ki.setBackendState] using hid'
          exact KeyTable.id?_mono hle (hidGet id rfl)
        · intro h
          rw [idsSet_cons]
          constructor
          · intro _
            rfl
          · exact hset (h.imp_right fun h => (idsSet_cons.mp h).2)

theorem selectSnap_table (db : Db) (time : UInt32) : (db.selectSnap time).2.table = db.table := by
  unfold Db.selectSnap Db.nextResult
  cases db.results.headD .ok <;> rfl

theorem write_table (db : Db) (snap : Nat) (id : UInt32) (value : UInt64) :
    (db.write snap id value).table = db.table := by
  unfold Db.write
  split <;> rfl

theorem set_table (db : Db) (snap : Nat) (id : UInt32) (value : UInt64) :
    (db.set snap id value).2.table = db.table := by
  unfold Db.set Db.nextResult
  cases db.results.headD .ok with
  | ok => exact write_table _ snap id value
  | deadlock => rfl
  | error => rfl

theorem commitSnap_table (db : Db) (snap : Nat) : (db.commitSnap snap).2.table = db.table := by
  have happly : ∀ db : Db, (db.apply snap).table = db.table := by
    intro db
    unfold Db.apply
    split <;> rfl
  unfold Db.commitSnap Db.nextResult
  cases db.results.headD .ok with
  | ok => exact happly _
  | deadlock => rfl
  | error => rfl

theorem inSnapshot_table (time : UInt32) {sets : Nat → Db → Except Stop DbResult × Db}
    (hsets : ∀ snap db, (sets snap db).2.table = db.table) (fuel : Nat) (db : Db) :
    (inSnapshot time sets fuel db).2.table = db.table := by
  induction fuel generalizing db with
  | zero => rfl
  | succ fuel ih =>
    have hselect := selectSnap_table db time
    rw [inSnapshot]
    generalize db.selectSnap time = r at hselect ⊢
    obtain ⟨snap?, db₁⟩ := r
    cases snap? with
    | none => exact hselect
    | some snap =>
      have hset := hsets snap db₁
      dsimp only
      generalize sets snap db₁ = r at hset ⊢
      obtain ⟨rc, db₂⟩ := r
      have h₂ : db₂.table = db.table := hset.trans hselect
      rcases rc with why | rc
      · exact h₂
      cases rc with
      | deadlock => exact (ih _).trans h₂
      | error => exact h₂
      | ok =>
        have hcommit := commitSnap_table db₂ snap
        dsimp only
        generalize db₂.commitSnap snap = r at hcommit ⊢
        obtain ⟨rc, db₃⟩ := r
        have h₃ : db₃.table = db.table := hcommit.trans h₂
        cases rc with
        | ok => exact h₃
        | deadlock => exact (ih db₃).trans h₃
        | error => exact h₃

theorem setKis_table (kis : List Ki) (snap : Nat) (db : Db) :
    (setKis kis snap db).2.table = db.table := by
  induction kis generalizing db with
  | nil => rfl
  | cons ki kis ih =>
    rw [setKis]
    split
    · exact ih db
    · split
      · rfl
      · next dbatsId _ =>
        have hset := set_table db snap dbatsId ki.value
        generalize db.set snap dbatsId ki.value = r at hset ⊢
        obtain ⟨rc, db'⟩ := r
        cases rc with
        | ok => exact (ih db').trans hset
        | deadlock => exact hset
        | error => exact hset

end Dbats

/-! ## The calls of the loops -/

/-- Every flush of the DBATS backend so far found its keys resolved. -/
def FlushesResolved (calls : List (Call World)) : Prop :=
  ∀ c ∈ calls, ∀ time, c.backend = .dbats → c.callback = .kpFlush time → Resolved c.kp c.world

/-- No call so far has failed. -/
def NoFailure (calls : List (Call World)) : Prop := ∀ c ∈ calls, c.ret ≠ .fail

/-- Where a loop over the backends stands. -/
structure LoopInv (kp : Kp) (e : Env World) : Prop where
  right : IdsRight kp.keyInfos e.world.dbats.db.table
  flushes : FlushesResolved e.calls

theorem flushesResolved_concat {calls : List (Call World)} {c : Call World}
    (h : FlushesResolved calls)
    (hc : ∀ time, c.backend = .dbats → c.callback = .kpFlush time → Resolved c.kp c.world) :
    FlushesResolved (calls ++ [c]) := by
  intro c' hc' time hb hcb
  rcases List.mem_append.mp hc' with hc' | hc'
  · exact h c' hc' time hb hcb
  · obtain rfl := List.mem_singleton.mp hc'
    exact hc time hb hcb

variable (enabled : BackendId → Bool)

theorem callKpKiUpdate_ids (id : BackendId) {kp : Kp} {e : Env World} (h : LoopInv kp e) :
    let r := (World.timeseries enabled).callKpKiUpdate id kp e
    LoopInv r.2.1 r.2.2 ∧ (IdsSet kp.keyInfos ∨ (id = .dbats ∧ r.1 = .ok) →
      IdsSet r.2.1.keyInfos) := by
  have hflushes : ∀ ret, FlushesResolved (e.calls ++ [⟨id, .kpKiUpdate, kp, e.world, ret⟩]) := by
    intro ret
    refine flushesResolved_concat h.flushes ?_
    rintro _ _ ⟨⟩
  -- only DBATS touches the key infos
  cases id with
  | ascii =>
    refine ⟨⟨h.right, hflushes _⟩, ?_⟩
    rintro (hset | ⟨⟨⟩, -⟩)
    exact hset
  | kafka =>
    refine ⟨⟨h.right, hflushes _⟩, ?_⟩
    rintro (hset | ⟨⟨⟩, -⟩)
    exact hset
  | dbats =>
    obtain ⟨-, hright, hset⟩ := Dbats.kiUpdateLoop_ids kp.keyInfos e.world.dbats.db h.right
    refine ⟨⟨hright, hflushes _⟩, ?_⟩
    rintro (hkp | ⟨-, hok⟩)
    · exact hset (.inr hkp)
    · exact hset (.inl hok)

theorem callKpFlush_ids (id : BackendId) (time : UInt32) {kp : Kp} {e : Env World}
    (h : LoopInv kp e) (hset : id = .dbats → IdsSet kp.keyInfos) :
    let r := (World.timeseries enabled).callKpFlush id kp time e
    LoopInv r.2.1 r.2.2 ∧ r.2.1.keyInfos = kp.keyInfos := by
  have hflushes : ∀ ret,
      FlushesResolved (e.calls ++ [⟨id, .kpFlush time, kp, e.world, ret⟩]) := by
    intro ret
    refine flushesResolved_concat h.flushes ?_
    intro _ hdbats _
    exact resolved_of_ids h.right (hset hdbats)
  cases id with
  | ascii => exact ⟨⟨h.right, hflushes _⟩, rfl⟩
  | kafka =>
    have hkp := Kafka.kpFlush_kp kp time e.world.kafka
    refine ⟨⟨?_, hflushes _⟩, congrArg Kp.keyInfos hkp⟩
    show IdsRight (Kafka.kpFlush kp time e.world.kafka).2.1.keyInfos _
    rw [hkp]
    exact h.right
  | dbats =>
    refine ⟨⟨?_, hflushes _⟩, rfl⟩
    show IdsRight kp.keyInfos (Dbats.kpFlush kp time e.world.dbats).2.2.db.table
    have htable : (Dbats.kpFlush kp time e.world.dbats).2.2.db.table = e.world.dbats.db.table :=
      Dbats.inSnapshot_table time (Dbats.setKis_table kp.keyInfos) _ _
    rw [htable]
    exact h.right

/-- A failed callback is in the log. -/
theorem call_fail_mem (ts : Timeseries World) (id : BackendId) (time : UInt32) (kp : Kp)
    (e : Env World) :
    ((ts.callKpKiUpdate id kp e).1 = .fail → ¬ NoFailure (ts.callKpKiUpdate id kp e).2.2.calls) ∧
      ((ts.callKpFlush id kp time e).1 = .fail →
        ¬ NoFailure (ts.callKpFlush id kp time e).2.2.calls) := by
  constructor
  · intro hret hno
    exact hno _ (List.mem_append_right _ (List.mem_singleton_self _)) hret
  · intro hret hno
    exact hno _ (List.mem_append_right _ (List.mem_singleton_self _)) hret

theorem resolveLoop_ids (ids : List BackendId) {kp : Kp} {e : Env World} (h : LoopInv kp e) :
    let r := kp.resolveLoop (World.timeseries enabled) ids e
    LoopInv r.2.1 r.2.2 ∧ (r.1 = .fail → ¬ NoFailure r.2.2.calls) ∧
      (r.1 = .ok → IdsSet kp.keyInfos ∨ .dbats ∈ ids → IdsSet r.2.1.keyInfos) := by
  induction ids generalizing kp e with
  | nil => exact ⟨h, by rintro ⟨⟩, fun _ hset => hset.resolve_right (by rintro ⟨⟩)⟩
  | cons id ids ih =>
    obtain ⟨hinv, hset⟩ := callKpKiUpdate_ids enabled id h
    have hfail := (call_fail_mem (World.timeseries enabled) id 0 kp e).1
    rw [Kp.resolveLoop]
    generalize (World.timeseries enabled).callKpKiUpdate id kp e = r at hinv hset hfail ⊢
    obtain ⟨r, kp₁, e₁⟩ := r
    cases r with
    | fail => exact ⟨hinv, hfail, by rintro ⟨⟩⟩
    | stop why => exact ⟨hinv, by rintro ⟨⟩, by rintro ⟨⟩⟩
    | ok =>
      obtain ⟨hinv', hfail', hset'⟩ := ih hinv
      refine ⟨hinv', hfail', ?_⟩
      intro hok hor
      refine hset' hok ?_
      rcases hor with hkp | hmem
      · exact .inl (hset (.inl hkp))
      · rcases List.mem_cons.mp hmem with rfl | hmem
        · exact .inl (hset (.inr ⟨rfl, rfl⟩))
        · exact .inr hmem

theorem flushLoop_ids (time : UInt32) (dirty : Bool) (ids : List BackendId) {kp : Kp}
    {e : Env World} (h : LoopInv kp e) (hclean : dirty = false → IdsSet kp.keyInfos) :
    let r := kp.flushLoop (World.timeseries enabled) time dirty ids e
    LoopInv r.2.1 r.2.2 ∧ (r.1 = .fail → ¬ NoFailure r.2.2.calls) ∧
      (r.1 = .ok → IdsSet kp.keyInfos ∨ .dbats ∈ ids → IdsSet r.2.1.keyInfos) := by
  induction ids generalizing kp e with
  | nil => exact ⟨h, by rintro ⟨⟩, fun _ hset => hset.resolve_right (by rintro ⟨⟩)⟩
  | cons id ids ih =>
    -- the update, if there is one
    have hup : let r := if dirty then (World.timeseries enabled).callKpKiUpdate id kp e
          else (.ok, kp, e)
        LoopInv r.2.1 r.2.2 ∧ (r.1 = .fail → ¬ NoFailure r.2.2.calls) ∧
          (r.1 = .ok → IdsSet kp.keyInfos ∨ id = .dbats → IdsSet r.2.1.keyInfos) := by
      cases dirty with
      | false => exact ⟨h, by rintro ⟨⟩, fun _ _ => hclean rfl⟩
      | true =>
        obtain ⟨hinv, hset⟩ := callKpKiUpdate_ids enabled id h
        exact ⟨hinv, (call_fail_mem (World.timeseries enabled) id 0 kp e).1,
          fun hok hor => hset (hor.imp_right fun hid => ⟨hid, hok⟩)⟩
    rw [Kp.flushLoop]
    generalize (if dirty then (World.timeseries enabled).callKpKiUpdate id kp e
      else (.ok, kp, e)) = r at hup ⊢
    obtain ⟨r, kp₁, e₁⟩ := r
    obtain ⟨hinv, hfail, hset⟩ := hup
    cases r with
    | fail => exact ⟨⟨hinv.right, hinv.flushes⟩, hfail, by rintro ⟨⟩⟩
    | stop why => exact ⟨hinv, by rintro ⟨⟩, by rintro ⟨⟩⟩
    | ok =>
      have hclean₁ : dirty = false → IdsSet kp₁.keyInfos := fun hd => hset rfl (.inl (hclean hd))
      obtain ⟨hinv₂, hkis⟩ := callKpFlush_ids enabled id time hinv fun hid => hset rfl (.inr hid)
      have hfail₂ := (call_fail_mem (World.timeseries enabled) id time kp₁ e₁).2
      dsimp only
      generalize (World.timeseries enabled).callKpFlush id kp₁ time e₁ = r at hinv₂ hkis hfail₂ ⊢
      obtain ⟨r, kp₂, e₂⟩ := r
      cases r with
      | fail => exact ⟨hinv₂, hfail₂, by rintro ⟨⟩⟩
      | stop why => exact ⟨hinv₂, by rintro ⟨⟩, by rintro ⟨⟩⟩
      | ok =>
        have hkis₂ : kp₂.keyInfos = kp₁.keyInfos := hkis
        obtain ⟨hinv₃, hfail₃, hset₃⟩ := ih hinv₂ fun hd => hkis₂ ▸ hclean₁ hd
        refine ⟨hinv₃, hfail₃, ?_⟩
        intro hok hor
        refine hset₃ hok ?_
        rcases hor with hkp | hmem
        · exact .inl (hkis₂ ▸ hset rfl (.inl hkp))
        · rcases List.mem_cons.mp hmem with rfl | hmem
          · exact .inl (hkis₂ ▸ hset rfl (.inr rfl))
          · exact .inr hmem

/-- **A flush** leaves right ids, and all of them if it succeeds. -/
theorem flush_ids (time : UInt32) {kp : Kp} {e : Env World} (hwf : kp.WellFormed)
    (h : LoopInv { kp with dirty := false } e) (hclean : kp.dirty = false → IdsSet kp.keyInfos)
    (hdbats : .dbats ∈ (World.timeseries enabled).enabledIds) :
    let r := kp.flush (World.timeseries enabled) time e
    LoopInv r.2.1 r.2.2 ∧ (r.1 = .fail → ¬ NoFailure r.2.2.calls) ∧
      (r.1 = .ok → IdsSet r.2.1.keyInfos) := by
  obtain ⟨hinv, hfail, hset⟩ := flushLoop_ids enabled time kp.dirty
    (World.timeseries enabled).enabledIds h hclean
  have hwf₁ : (Kp.flushLoop (World.timeseries enabled) time kp.dirty
      (World.timeseries enabled).enabledIds { kp with dirty := false } e).2.1.WellFormed :=
    hwf.of_core (Kp.flushLoop_spec _ time _ _ { kp with dirty := false } e).of_dirty.core
  unfold Kp.flush
  generalize Kp.flushLoop (World.timeseries enabled) time kp.dirty
    (World.timeseries enabled).enabledIds { kp with dirty := false } e = r
    at hinv hfail hset hwf₁ ⊢
  obtain ⟨r, kp₁, e₁⟩ := r
  cases r with
  | fail => exact ⟨hinv, hfail, by rintro ⟨⟩⟩
  | stop why => exact ⟨hinv, by rintro ⟨⟩, by rintro ⟨⟩⟩
  | ok =>
    -- the reset loop keeps the ids
    have hkis : kp₁.resetDisable.keyInfos = _ := hwf₁.resetDisable_keyInfos
    refine ⟨⟨?_, hinv.flushes⟩, by rintro ⟨⟩, fun _ => ?_⟩
    · show IdsRight kp₁.resetDisable.keyInfos _
      rw [hkis]
      exact ids_of_afterFlush.1 _ hinv.right
    · show IdsSet kp₁.resetDisable.keyInfos
      rw [hkis]
      exact ids_of_afterFlush.2 (hset rfl (.inr hdbats))

/-! ## Runs -/

/-- Enabling a key of a clean package is only done to a key that is enabled or
has an id already. -/
def EnableOk (s : KpRun World) : KpOp → Prop
  | .enableKey id => s.kp.dirty = true ∨ ∀ ki, s.kp.keyInfos[id]? = some ki →
      ki.disabled = false ∨ (ki.backendState .dbats).isSome
  | _ => True

/-- All ids that are set are right; on a clean package they are all set. -/
structure IdsInv (s : KpRun World) : Prop where
  rep : s.Inv
  right : IdsRight s.kp.keyInfos s.env.world.dbats.db.table
  flushes : FlushesResolved s.env.calls
  clean : s.halted = none → s.kp.dirty = false → IdsSet s.kp.keyInfos

theorem idsInv_init (flags : Nat) (w : World) : IdsInv (KpRun.init flags w) where
  rep := KpRun.inv_init flags w
  right := List.forall_mem_nil _
  flushes := List.forall_mem_nil _
  clean _ _ := List.forall_mem_nil _

theorem IdsInv.loopInv {s : KpRun World} (h : IdsInv s) (d : Bool) :
    LoopInv { s.kp with dirty := d } s.env :=
  ⟨h.right, h.flushes⟩

/-- A call that neither failed nor stopped the process returned 0. -/
theorem ok_of_running {r : Ret} (hrun : r.stopped = none) (hfail : r ≠ .fail) : r = .ok := by
  cases r with
  | ok => rfl
  | fail => exact absurd rfl hfail
  | stop why => cases hrun

/-- One call keeps the invariant, if no callback it makes fails. -/
theorem idsInv_step (hdbats : enabled .dbats = true) {s : KpRun World} (h : IdsInv s) {op : KpOp}
    (hop : EnableOk s op)
    (hno : NoFailure (s.step (World.timeseries enabled) op).env.calls) :
    IdsInv (s.step (World.timeseries enabled) op) := by
  have hrep := KpRun.inv_step (World.timeseries enabled) h.rep op
  have hmem : BackendId.dbats ∈ (World.timeseries enabled).enabledIds :=
    Timeseries.mem_enabledIds.mpr hdbats
  unfold KpRun.step at hrep hno ⊢
  split
  · exact h
  next hhalt =>
  rw [if_neg hhalt] at hrep hno
  have hrun : s.halted = none := by simpa using hhalt
  cases op with
  | addKey key =>
    -- a new key has no id, and makes the package dirty
    refine ⟨hrep, ?_, h.flushes, by rintro _ ⟨⟩⟩
    show IdsRight (s.kp.keyInfos ++ [Ki.init key]) _
    intro ki hki id hid
    rcases List.mem_append.mp hki with hki | hki
    · exact h.right ki hki id hid
    · rw [List.mem_singleton.mp hki] at hid
      cases hid
  | set id value =>
    obtain ⟨hright, hset⟩ := ids_of_set s.kp id value
    refine ⟨hrep, hright _ h.right, h.flushes, ?_⟩
    intro _ hd
    refine hset (h.clean hrun ?_)
    rwa [← (Kp.set_frame s.kp id value).dirty]
  | enableKey id =>
    obtain ⟨hright, hset⟩ := ids_of_enableKey s.kp id
    refine ⟨hrep, hright _ h.right, h.flushes, ?_⟩
    intro _ hd
    have hclean : s.kp.dirty = false := by rwa [← (Kp.enableKey_frame s.kp id).dirty]
    exact hset (hop.resolve_left (by rw [hclean]; rintro ⟨⟩)) (h.clean hrun hclean)
  | disableKey id =>
    obtain ⟨hright, hset⟩ := ids_of_disableKey s.kp id
    refine ⟨hrep, hright _ h.right, h.flushes, ?_⟩
    intro _ hd
    refine hset (h.clean hrun ?_)
    rwa [← (Kp.disableKey_frame s.kp id).dirty]
  | getKey key => exact h
  | resolve =>
    obtain ⟨hinv, hfail, hset⟩ := resolveLoop_ids enabled (World.timeseries enabled).enabledIds
      (h.loopInv false)
    refine ⟨hrep, hinv.right, hinv.flushes, ?_⟩
    intro hrun' _
    refine hset (ok_of_running hrun' ?_) (.inr hmem)
    intro hret
    exact hfail hret hno
  | flush time =>
    obtain ⟨hinv, hfail, hset⟩ := flush_ids enabled time h.rep.wf (h.loopInv false)
      (h.clean hrun) hmem
    refine ⟨hrep, hinv.right, hinv.flushes, ?_⟩
    intro hrun' _
    refine hset (ok_of_running hrun' ?_)
    intro hret
    exact hfail hret hno

/-- Calls are only ever added to the log. -/
theorem KpRun.calls_step {W : Type} (ts : Timeseries W) (s : KpRun W) (op : KpOp) :
    s.env.calls <+: (s.step ts op).env.calls := by
  unfold KpRun.step
  split
  · exact List.prefix_rfl
  cases op with
  | resolve =>
    obtain ⟨new, hnew, -⟩ := (Kp.resolve_spec ts 0 s.kp s.env).calls
    exact ⟨new, hnew.symm⟩
  | flush time =>
    obtain ⟨kp₁, hcalls, -⟩ := Kp.flush_spec ts s.kp time s.env
    obtain ⟨new, hnew, -⟩ := hcalls.calls
    exact ⟨new, hnew.symm⟩
  | _ => exact List.prefix_rfl

theorem idsInv_run (hdbats : enabled .dbats = true) {s : KpRun World} (h : IdsInv s)
    {ops : List KpOp} (hops : Along (KpRun.step (World.timeseries enabled)) EnableOk s ops)
    (hno : NoFailure (run (KpRun.step (World.timeseries enabled)) s ops).env.calls) :
    IdsInv (run (KpRun.step (World.timeseries enabled)) s ops) := by
  induction ops generalizing s with
  | nil => exact h
  | cons op ops ih =>
    have hpre := run_rel (fun s s' : KpRun World => s.env.calls <+: s'.env.calls)
      (fun _ => List.prefix_rfl) (fun _ _ _ => List.IsPrefix.trans)
      (KpRun.calls_step (World.timeseries enabled)) (s.step (World.timeseries enabled) op) ops
    have hno' : NoFailure (s.step (World.timeseries enabled) op).env.calls := by
      intro c hc
      exact hno c (hpre.subset hc)
    exact ih (idsInv_step enabled hdbats h hops.1 hno') hops.2 hno

/-- **DBATS flushes resolved keys**: in every run without failing callbacks in
which a key of a clean package is only enabled if it is enabled or has an id
already, each flush of the DBATS backend finds the right id on every enabled
key. -/
theorem dbatsFlush_resolved (hdbats : enabled .dbats = true) (flags : Nat) (w : World)
    (ops : List KpOp)
    (hops : Along (KpRun.step (World.timeseries enabled)) EnableOk (KpRun.init flags w) ops)
    (hno : NoFailure (run (KpRun.step (World.timeseries enabled)) (KpRun.init flags w)
      ops).env.calls) :
    FlushesResolved (run (KpRun.step (World.timeseries enabled)) (KpRun.init flags w)
      ops).env.calls :=
  (idsInv_run enabled hdbats (idsInv_init flags w) hops hno).flushes

/-- Three idle backends, DBATS over an empty database. -/
def World.idle (conf : Kafka.Conf) : World where
  ascii := ⟨[]⟩
  dbats := Dbats.State.init ⟨Dbats.KeyTable.empty, fun _ => none, [], [], []⟩
  kafka := Kafka.State.init conf []

/-- Some Kafka configuration. -/
def someKafkaConf : Kafka.Conf := ⟨.ofAscii "c", .ofAscii "p", .tsk, by decide⟩

/-- Only DBATS. -/
def onlyDbats : BackendId → Bool := fun id => id == .dbats

/-- A key that is disabled by a flush and enabled again: it has its id. -/
def reenabled : List KpOp :=
  [.addKey (.ofAscii "k"), .set 0 5, .flush 60, .enableKey 0, .flush 120]

theorem dbatsFlush_resolved_reenabled :
    FlushesResolved (run (KpRun.step (World.timeseries onlyDbats))
      (KpRun.init 2 (World.idle someKafkaConf)) reenabled).env.calls := by
  refine dbatsFlush_resolved onlyDbats rfl 2 (World.idle someKafkaConf) reenabled
    ⟨trivial, trivial, trivial, .inr ?_, trivial, trivial⟩ ?_
  · rintro ki ⟨⟩
    exact .inr rfl
  · unfold NoFailure
    decide

/-- A key that is disabled when its package is first flushed. -/
def enabledLate : List KpOp :=
  [.addKey (.ofAscii "k"), .disableKey 0, .flush 60, .enableKey 0, .flush 120]

/-- The second flush dereferences an id that was never looked up. -/
theorem enabledLate_not_resolved :
    ¬ ∀ (enabled : BackendId → Bool), enabled .dbats = true →
      ∀ (flags : Nat) (w : World) (ops : List KpOp),
        NoFailure (run (KpRun.step (World.timeseries enabled)) (KpRun.init flags w)
          ops).env.calls →
        FlushesResolved (run (KpRun.step (World.timeseries enabled)) (KpRun.init flags w)
          ops).env.calls := by
  intro h
  have hres := h onlyDbats rfl 0 (World.idle someKafkaConf) enabledLate
    (by unfold NoFailure; decide)
  obtain ⟨id, hid, -⟩ := hres _ (List.mem_of_getElem? (i := 2) rfl) 120 rfl rfl _
    (List.mem_of_getElem? (i := 0) rfl) rfl
  cases hid

end Libtimeseries
