import Libtimeseries.InsertBatch
import Libtimeseries.TskPipeline

/-!
# Several backends as mirrors

One package flushed to the ASCII, DBATS and Kafka backends side by side. Each of
them can be read: a file of lines by `timeseries-insert`, a database by its data,
the messages by `tsk-proxy`. What a flush that fails has written depends on the
backend, so between a failure and the retry that succeeds they differ, and only in
the keys of that flush.

- `Session`: the calls of an application that repeats a flush until it succeeds;
- `Holds`: what the state of a backend says has been written;
- `flushLoop_mirrors`: one attempt, from backend to backend;
- `mirrored`: in every run no callback stops the process, and the backends agree
  with each other and with the flushes that succeeded.
-/

namespace Libtimeseries

open ByteLib LastWrite RunLib

open TskProxy (StoreWrite asWrite flushWrites keyBufLen)

namespace Mirrors

/-! ## An application that repeats a flush -/

/-- A run with what the application has to remember. -/
structure Session where
  run : KpRun World
  /-- the time of a flush that failed, to be called again -/
  retrying : Option UInt32
  /-- not a variable of the program: what the flushes that succeeded had to write -/
  written : List StoreWrite

/-- The backends when the application starts. -/
def startWorld (db : Dbats.Db) (conf : Kafka.Conf) (results : List Kafka.ProduceResult) : World where
  ascii := ⟨[]⟩
  dbats := Dbats.State.init db
  kafka := Kafka.State.init conf results

def Session.start (flags : Nat) (w : World) : Session := ⟨KpRun.init flags w, none, []⟩

/-- One call. -/
def Session.step (enabled : BackendId → Bool) (s : Session) (op : KpOp) : Session :=
  let run := s.run.step (World.timeseries enabled) op
  match op with
  | .flush time =>
    if (s.run.kp.flush (World.timeseries enabled) time s.run.env).1 = .ok then
      ⟨run, none, s.written ++ flushWrites (time, s.run.kp.enabledPairs)⟩
    else
      { s with run := run, retrying := some time }
  | _ => { s with run := run }

/-- The keys of a flush that is to be repeated. -/
def pendingKeys (kp : Kp) : Option UInt32 → List (Bytes × UInt32)
  | none => []
  | some time => (flushWrites (time, kp.enabledPairs)).map Prod.fst

/-- The keys in which the backends may differ. -/
def Session.inDoubt (s : Session) : List (Bytes × UInt32) := pendingKeys s.run.kp s.retrying

/-- A key that is a field of a line, and fits the buffers on both ways to the reader. -/
structure KeyOk (key : Bytes) : Prop where
  nulFree : (0 : UInt8) ∉ key
  space : (32 : UInt8) ∉ key
  newline : (10 : UInt8) ∉ key
  comment : key.head? ≠ some 35
  short : key.length ≤ 990

/-- What the application does: it repeats a flush that failed before it disables a key
or flushes for another time, and keeps `dbatsFlush_resolved` in mind when it enables
keys or resolves them itself. -/
def Permitted (enabled : BackendId → Bool) (s : Session) : KpOp → Prop
  | .addKey key => KeyOk key.bytes
  | .set id _ => id < s.run.kp.keyInfosCnt
  | .enableKey id => EnableOk s.run (.enableKey id)
  | .disableKey _ => s.retrying = none
  | .getKey _ => True
  | .resolve => (s.run.kp.resolve (World.timeseries enabled) s.run.env).1 = .ok
  | .flush time => time ≠ 0 ∧ ∀ t, s.retrying = some t → t = time

/-! ## What the backends hold -/

/-- The line of a write. -/
def lineOf (w : StoreWrite) : Bytes := metricLine w.1.1 w.2 w.1.2

/-- The state of a backend holds the writes `ws`. -/
def Holds (conf : Kafka.Conf) (db : Dbats.Db) (w : World) (ws : List StoreWrite) :
    BackendId → Prop
  | .ascii => w.ascii.output = ws.flatMap lineOf ∧ ∀ r ∈ ws, KeyOk r.1.1
  | .dbats => w.dbats.db.data = applyWrites db.data ws
  | .kafka => ∃ sent, Kafka.Produced w.kafka conf keyBufLen sent ∧
      ws = (sent.flatMap Kafka.Batch.tagged).map asWrite

theorem holds_start (db : Dbats.Db) (conf : Kafka.Conf) (results : List Kafka.ProduceResult)
    (id : BackendId) : Holds conf db (startWorld db conf results) [] id := by
  cases id with
  | ascii => exact ⟨rfl, List.forall_mem_nil _⟩
  | dbats => rfl
  | kafka => exact ⟨[], Kafka.produced_init conf keyBufLen results, rfl⟩

theorem keysShorter {kp : Kp} (h : kp.AllKeys KeyOk) (time : UInt32) :
    (Kafka.ProducerCall.kpFlush kp time).KeysShorter keyBufLen := by
  intro ki hki
  have hkey := h ki.key (List.mem_map_of_mem hki)
  refine ⟨hkey.nulFree, Nat.lt_of_le_of_lt hkey.short ?_⟩
  decide

theorem keyOk_flushWrites {kp : Kp} (h : kp.AllKeys KeyOk) (time : UInt32) :
    ∀ r ∈ flushWrites (time, kp.enabledPairs), KeyOk r.1.1 := by
  intro r hr
  obtain ⟨pair, hpair, rfl⟩ := List.mem_map.mp hr
  obtain ⟨ki, hki, rfl⟩ := List.mem_map.mp hpair
  have hkey := h ki.key (List.mem_map_of_mem (List.mem_of_mem_filter hki))
  rw [show ki.name = ki.key from cstr_of_nulFree hkey.nulFree]
  exact hkey

section Callbacks

variable (enabled : BackendId → Bool)

/-- `kp_ki_update` writes nothing. -/
theorem callKpKiUpdate_holds (conf : Kafka.Conf) (db : Dbats.Db) (id : BackendId) (kp : Kp)
    (e : Env World) :
    let r := (World.timeseries enabled).callKpKiUpdate id kp e
    (r.1 = .ok ∨ r.1 = .fail) ∧
      ∀ id' ws, Holds conf db e.world ws id' → Holds conf db r.2.2.world ws id' := by
  cases id with
  | ascii => exact ⟨.inl rfl, fun _ _ h => h⟩
  | kafka => exact ⟨.inl rfl, fun _ _ h => h⟩
  | dbats =>
    obtain ⟨hret, hdata⟩ := Dbats.kiUpdateLoop_data kp.keyInfos e.world.dbats.db
    refine ⟨hret, fun id' ws h => ?_⟩
    cases id' with
    | ascii => exact h
    | kafka => exact h
    | dbats => exact hdata.trans h

/-- `kp_flush` writes an initial part of what it is to write, and all of it if it
returns 0. Only the ASCII backend never fails. -/
theorem callKpFlush_holds {conf : Kafka.Conf} (hfmt : conf.format ≠ .ascii) {db : Dbats.Db}
    (id : BackendId) {kp : Kp} {e : Env World} {time : UInt32} (htime : time ≠ 0)
    (hkeys : kp.AllKeys KeyOk) (h : LoopInv kp e) (hset : id = .dbats → IdsSet kp.keyInfos)
    {ws : List StoreWrite} (hholds : Holds conf db e.world ws id) :
    let r := (World.timeseries enabled).callKpFlush id kp time e
    r.2.1 = kp ∧ (r.1 = .ok ∨ r.1 = .fail ∧ id ≠ .ascii) ∧
      (∃ part, part <+: flushWrites (time, kp.enabledPairs) ∧
        (r.1 = .ok → part = flushWrites (time, kp.enabledPairs)) ∧
        Holds conf db r.2.2.world (ws ++ part) id) ∧
      ∀ id' ≠ id, ∀ ws', Holds conf db e.world ws' id' → Holds conf db r.2.2.world ws' id' := by
  -- the other backends
  have hother : ∀ id' ≠ id, ∀ ws', Holds conf db e.world ws' id' →
      Holds conf db ((World.timeseries enabled).callKpFlush id kp time e).2.2.world ws' id' := by
    intro id' hne ws' h'
    cases id <;> cases id' <;> first | exact absurd rfl hne | exact h'
  cases id with
  | ascii =>
    refine ⟨rfl, .inl rfl, ⟨_, List.prefix_rfl, fun _ => rfl, ?_, ?_⟩, hother⟩
    · show (Ascii.kpFlush kp time e.world.ascii).2.2.output = _
      rw [Ascii.kpFlush_output, hholds.1, List.flatMap_append, flushWrites, List.flatMap_map]
      rfl
    · exact List.forall_mem_append.mpr ⟨hholds.2, keyOk_flushWrites hkeys time⟩
  | dbats =>
    have hdoes := Dbats.kpFlush_does e.world.dbats time h.right (hset rfl)
    have hdata : e.world.dbats.db.data = applyWrites db.data ws := hholds
    rcases hdoes.outcome with ⟨hok, hcommitted⟩ | ⟨hfail, hsame⟩
    · refine ⟨rfl, .inl hok, ⟨_, List.prefix_rfl, fun _ => rfl, ?_⟩, hother⟩
      show (Dbats.kpFlush kp time e.world.dbats).2.2.db.data = _
      rw [applyWrites_append, ← hdata]
      exact hcommitted
    · refine ⟨rfl, .inr ⟨hfail, by rintro ⟨⟩⟩, ⟨[], List.nil_prefix, ?_, ?_⟩, hother⟩
      · intro hok
        have : Ret.fail = Ret.ok := hfail.symm.trans hok
        cases this
      · rw [List.append_nil]
        exact hsame.trans hdata
  | kafka =>
    obtain ⟨sent, hproduced, rfl⟩ := hholds
    obtain ⟨new, hproduced', hres⟩ := hproduced.step_wrote hfmt (by decide)
      (c := .kpFlush kp time) htime (keysShorter hkeys time)
    have hkp : ((World.timeseries enabled).callKpFlush .kafka kp time e).2.1 = kp :=
      Kafka.kpFlush_kp kp time e.world.kafka
    have htagged : (Kafka.ProducerCall.kpFlush kp time).tagged.map asWrite
        = flushWrites (time, kp.enabledPairs) := by
      rw [Kafka.ProducerCall.tagged, List.map_map]
      rfl
    have hholds' : Holds conf db ((World.timeseries enabled).callKpFlush .kafka kp time e).2.2.world
        ((sent.flatMap Kafka.Batch.tagged).map asWrite ++ (new.flatMap Kafka.Batch.tagged).map asWrite)
        .kafka := by
      refine ⟨sent ++ new, hproduced', ?_⟩
      rw [List.flatMap_append, List.map_append]
    rcases hres with ⟨hok, hall⟩ | ⟨hfail, hpart⟩
    · have heq : (new.flatMap Kafka.Batch.tagged).map asWrite = flushWrites (time, kp.enabledPairs) := by
        rw [hall, htagged]
      exact ⟨hkp, .inl hok, ⟨_, heq ▸ List.prefix_rfl, fun _ => heq, hholds'⟩, hother⟩
    · refine ⟨hkp, .inr ⟨hfail, by rintro ⟨⟩⟩, ⟨_, htagged ▸ hpart.map _, ?_, hholds'⟩, hother⟩
      intro hok
      have : Ret.fail = Ret.ok := hfail.symm.trans hok
      cases this

end Callbacks

/-! ## One attempt -/

/-- Where a flush of the writes `ps` stands, with the backends `ids` still to come: they
may lack some of the writes, the others have them all. -/
structure Underway (enabled : BackendId → Bool) (conf : Kafka.Conf) (db : Dbats.Db)
    (ids : List BackendId) (ps written : List StoreWrite) (kp : Kp) (e : Env World) : Prop where
  loop : LoopInv kp e
  holds : ∀ id, enabled id = true → ∃ ws, Holds conf db e.world ws id ∧
    AgreeOff (ps.map Prod.fst) ws written ∧ (id ∉ ids → AgreeOff [] ws (written ++ ps))

section Attempt

variable {enabled : BackendId → Bool} {conf : Kafka.Conf} {db : Dbats.Db} {kp : Kp} {e : Env World}
  {id : BackendId} {ids : List BackendId} {ps written : List StoreWrite}

/-- If an attempt fails it does not matter which backends it got to. -/
theorem Underway.given_up (h : Underway enabled conf db ids ps written kp e) :
    Underway enabled conf db BackendId.all ps written kp e :=
  ⟨h.loop, fun id hid =>
    let ⟨ws, hholds, hagree, _⟩ := h.holds id hid
    ⟨ws, hholds, hagree, fun hnot => absurd (BackendId.mem_all id) hnot⟩⟩

theorem Underway.dirty (h : Underway enabled conf db ids ps written kp e) (d : Bool) :
    Underway enabled conf db ids ps written { kp with dirty := d } e :=
  ⟨⟨h.loop.right, h.loop.flushes⟩, h.holds⟩

/-- An update of the ids, if the package is dirty. -/
theorem Underway.kpKiUpdate (h : Underway enabled conf db (id :: ids) ps written kp e)
    {dirty : Bool}
    (hids : enabled .dbats = true → dirty = false ∨ .dbats ∉ id :: ids → IdsSet kp.keyInfos) :
    let r := if dirty then (World.timeseries enabled).callKpKiUpdate id kp e else (.ok, kp, e)
    (r.1 = .ok ∨ r.1 = .fail) ∧ r.2.1.core = kp.core ∧
      Underway enabled conf db (id :: ids) ps written r.2.1 r.2.2 ∧
      (r.1 = .ok → enabled .dbats = true → dirty = false ∨ .dbats ∉ ids →
        IdsSet r.2.1.keyInfos) := by
  cases dirty with
  | false => exact ⟨.inl rfl, rfl, h, fun _ hdbats _ => hids hdbats (.inl rfl)⟩
  | true =>
    obtain ⟨hinv, hset⟩ := callKpKiUpdate_ids enabled id h.loop
    obtain ⟨hret, hkeeps⟩ := callKpKiUpdate_holds enabled conf db id kp e
    refine ⟨hret, (Kp.callKpKiUpdate_spec _ 0 id kp e).core, ⟨hinv, fun id' hid' => ?_⟩, ?_⟩
    · obtain ⟨ws, hholds, hagree⟩ := h.holds id' hid'
      exact ⟨ws, hkeeps id' ws hholds, hagree⟩
    · rintro hok hdbats (⟨⟨⟩⟩ | hnot)
      by_cases hid : id = .dbats
      · exact hset (.inr ⟨hid, hok⟩)
      · exact hset (.inl (hids hdbats (.inr fun hmem =>
          (List.mem_cons.mp hmem).elim (fun heq => hid heq.symm) hnot)))

/-- A flush of the next backend. -/
theorem Underway.kpFlush (hfmt : conf.format ≠ .ascii)
    (h : Underway enabled conf db (id :: ids) ps written kp e) (hid : enabled id = true)
    {time : UInt32} (htime : time ≠ 0) (hkeys : kp.AllKeys KeyOk)
    (hps : flushWrites (time, kp.enabledPairs) = ps) (hset : id = .dbats → IdsSet kp.keyInfos) :
    let r := (World.timeseries enabled).callKpFlush id kp time e
    r.2.1 = kp ∧ ((r.1 = .ok ∧ Underway enabled conf db ids ps written kp r.2.2) ∨
      (r.1 = .fail ∧ id ≠ .ascii ∧ Underway enabled conf db BackendId.all ps written kp r.2.2)) := by
  obtain ⟨ws, hholds, hagree, -⟩ := h.holds id hid
  obtain ⟨hinv, -⟩ := callKpFlush_ids enabled id time h.loop hset
  obtain ⟨hkp, hret, ⟨part, hpart, hall, hholds'⟩, hother⟩ :=
    callKpFlush_holds enabled hfmt id htime hkeys h.loop hset hholds
  rw [hps] at hpart hall
  have hagree' : AgreeOff (ps.map Prod.fst) (ws ++ part) written :=
    hagree.append fun w hw => List.mem_map_of_mem (hpart.subset hw)
  dsimp only at hinv hkp hret hall hholds' hother ⊢
  generalize (World.timeseries enabled).callKpFlush id kp time e = r
    at hinv hkp hret hall hholds' hother ⊢
  obtain ⟨r, kp', e'⟩ := r
  obtain rfl : kp' = kp := hkp
  refine ⟨rfl, hret.imp (fun hok => ⟨hok, hinv, fun id' hid' => ?_⟩) fun hfail =>
    ⟨hfail.1, hfail.2, hinv, fun id' hid' => ?_⟩⟩
  · by_cases heq : id' = id
    · subst heq
      obtain rfl := hall hok
      exact ⟨ws ++ part, hholds', hagree', fun _ => hagree.settle⟩
    · obtain ⟨ws', h', hagree', hdone⟩ := h.holds id' hid'
      refine ⟨ws', hother id' heq ws' h', hagree', fun hnot => hdone fun hmem => ?_⟩
      exact (List.mem_cons.mp hmem).elim heq hnot
  · by_cases heq : id' = id
    · subst heq
      exact ⟨ws ++ part, hholds', hagree', fun hnot => absurd (BackendId.mem_all _) hnot⟩
    · obtain ⟨ws', h', hagree', -⟩ := h.holds id' hid'
      exact ⟨ws', hother id' heq ws' h', hagree', fun hnot => absurd (BackendId.mem_all _) hnot⟩

/-- **One attempt**, from backend to backend. DBATS gets its ids before the only backend
behind it, and the one before it never fails. -/
theorem flushLoop_mirrors (hfmt : conf.format ≠ .ascii) {time : UInt32} (htime : time ≠ 0)
    (dirty : Bool) (hsub : ∀ id ∈ ids, enabled id = true)
    (horder : ids.Pairwise fun id id' => id' = .dbats → id = .ascii) (hkeys : kp.AllKeys KeyOk)
    (hps : flushWrites (time, kp.enabledPairs) = ps)
    (hids : enabled .dbats = true → dirty = false ∨ .dbats ∉ ids → IdsSet kp.keyInfos)
    (h : Underway enabled conf db ids ps written kp e) :
    let r := kp.flushLoop (World.timeseries enabled) time dirty ids e
    (r.1 = .ok ∧ Underway enabled conf db [] ps written r.2.1 r.2.2 ∧
        (enabled .dbats = true → IdsSet r.2.1.keyInfos)) ∨
      (r.1 = .fail ∧ Underway enabled conf db BackendId.all ps written r.2.1 r.2.2 ∧
        (enabled .dbats = true → r.2.1.dirty = false → IdsSet r.2.1.keyInfos)) := by
  induction ids generalizing kp e with
  | nil => exact .inl ⟨rfl, h, fun hdbats => hids hdbats (.inr List.not_mem_nil)⟩
  | cons id ids ih =>
    obtain ⟨hid, hsub'⟩ := List.forall_mem_cons.mp hsub
    obtain ⟨hfirst, horder'⟩ := List.pairwise_cons.mp horder
    have hup := h.kpKiUpdate hids
    rw [Kp.flushLoop]
    generalize (if dirty then (World.timeseries enabled).callKpKiUpdate id kp e
      else (.ok, kp, e)) = r at hup ⊢
    obtain ⟨r, kp₁, e₁⟩ := r
    obtain ⟨rfl | rfl, hcore, h₁, hset₁⟩ := hup
    · have hkeys₁ := hkeys.of_core hcore
      have hps₁ : flushWrites (time, kp₁.enabledPairs) = ps := by
        rw [Kp.enabledPairs_of_core hcore, hps]
      have hset : id = .dbats → IdsSet kp₁.keyInfos := by
        rintro rfl
        exact hset₁ rfl hid (.inr fun hmem => by cases hfirst _ hmem rfl)
      have hfl := h₁.kpFlush hfmt hid htime hkeys₁ hps₁ hset
      dsimp only
      generalize (World.timeseries enabled).callKpFlush id kp₁ time e₁ = r at hfl ⊢
      obtain ⟨r, kp₂, e₂⟩ := r
      obtain ⟨hkp, hres⟩ := hfl
      obtain rfl : kp₂ = kp₁ := hkp
      rcases hres with ⟨rfl, h₂⟩ | ⟨rfl, hne, h₂⟩
      · exact ih hsub' horder' hkeys₁ hps₁ (hset₁ rfl) h₂
      · refine .inr ⟨rfl, h₂, fun hdbats _ => ?_⟩
        cases id with
        | ascii => exact absurd rfl hne
        | dbats => exact hset rfl
        | kafka => exact hset₁ rfl hdbats (.inr fun hmem => by cases hfirst _ hmem rfl)
    · exact .inr ⟨rfl, (h₁.dirty true).given_up, by rintro _ ⟨⟩⟩

theorem enabledIds_order (enabled : BackendId → Bool) :
    (World.timeseries enabled).enabledIds.Pairwise fun id id' => id' = .dbats → id = .ascii :=
  List.Pairwise.filter _ (by decide)

/-- `timeseries_kp_flush`: it returns 0, and every backend has the writes, or -1. -/
theorem flush_mirrors (hfmt : conf.format ≠ .ascii) {time : UInt32} (htime : time ≠ 0)
    (hwf : kp.WellFormed) (hkeys : kp.AllKeys KeyOk)
    (hps : flushWrites (time, kp.enabledPairs) = ps)
    (hids : enabled .dbats = true → kp.dirty = false → IdsSet kp.keyInfos)
    (h : Underway enabled conf db BackendId.all ps written kp e) :
    let r := kp.flush (World.timeseries enabled) time e
    r.2.1.AllKeys KeyOk ∧ (enabled .dbats = true → r.2.1.dirty = false → IdsSet r.2.1.keyInfos) ∧
      ((r.1 = .ok ∧ Underway enabled conf db [] ps written r.2.1 r.2.2) ∨
        (r.1 = .fail ∧ r.2.1.enabledPairs = kp.enabledPairs ∧
          Underway enabled conf db BackendId.all ps written r.2.1 r.2.2)) := by
  have hstart : Underway enabled conf db (World.timeseries enabled).enabledIds ps written
      { kp with dirty := false } e := by
    refine ⟨⟨h.loop.right, h.loop.flushes⟩, fun id hid => ?_⟩
    obtain ⟨ws, hholds, hagree, -⟩ := h.holds id hid
    exact ⟨ws, hholds, hagree, fun hnot => absurd (Timeseries.mem_enabledIds.mpr hid) hnot⟩
  have hids' : enabled .dbats = true →
      kp.dirty = false ∨ .dbats ∉ (World.timeseries enabled).enabledIds → IdsSet kp.keyInfos :=
    fun hdbats hor => hids hdbats
      (hor.resolve_right fun hnot => hnot (Timeseries.mem_enabledIds.mpr hdbats))
  have hsub : ∀ id ∈ (World.timeseries enabled).enabledIds, enabled id = true :=
    fun _ hid => Timeseries.mem_enabledIds.mp hid
  have hloop := flushLoop_mirrors hfmt htime kp.dirty hsub (enabledIds_order enabled)
    (hkeys.of_core (Kp.core_dirty kp false)) hps hids' hstart
  have hcore := (Kp.flushLoop_spec (World.timeseries enabled) time kp.dirty
    (World.timeseries enabled).enabledIds { kp with dirty := false } e).of_dirty.core
  unfold Kp.flush
  generalize Kp.flushLoop (World.timeseries enabled) time kp.dirty
    (World.timeseries enabled).enabledIds { kp with dirty := false } e = r at hloop hcore ⊢
  obtain ⟨r, kp₁, e₁⟩ := r
  have hkeys₁ : kp₁.AllKeys KeyOk := hkeys.of_core hcore
  rcases hloop with ⟨rfl, h₁, hset₁⟩ | ⟨rfl, h₁, hset₁⟩
  · -- the reset loop keeps keys and ids
    have hkis : kp₁.resetDisable.keyInfos = _ := (hwf.of_core hcore).resetDisable_keyInfos
    refine ⟨hkeys₁.resetDisable (hwf.of_core hcore), fun hdbats _ => ?_,
      .inl ⟨rfl, ⟨?_, h₁.loop.flushes⟩, h₁.holds⟩⟩
    · show IdsSet kp₁.resetDisable.keyInfos
      rw [hkis]
      exact ids_of_afterFlush.2 (hset₁ hdbats)
    · show IdsRight kp₁.resetDisable.keyInfos _
      rw [hkis]
      exact ids_of_afterFlush.1 _ h₁.loop.right
  · exact ⟨hkeys₁, hset₁, .inr ⟨rfl, Kp.enabledPairs_of_core hcore, h₁⟩⟩

end Attempt

/-! ## The calls between flushes -/

/-- The keys `kis` that are enabled still are. -/
def StayEnabled (kis kis' : List Ki) : Prop :=
  ∀ ki ∈ kis, ki.disabled = false → ∃ ki' ∈ kis', ki'.disabled = false ∧ ki'.name = ki.name

theorem stayEnabled_modify (kis : List Ki) (i : Nat) {f : Ki → Ki}
    (hname : ∀ ki, (f ki).name = ki.name)
    (hen : ∀ ki, ki.disabled = false → (f ki).disabled = false) :
    StayEnabled kis (kis.modify i f) := by
  intro ki hki hdisabled
  obtain ⟨j, hj⟩ := List.mem_iff_getElem?.mp hki
  have hget : (kis.modify i f)[j]? = some (if i = j then f ki else ki) := by
    rw [List.getElem?_modify, hj]
    rfl
  refine ⟨_, List.mem_of_getElem? hget, ?_⟩
  split
  · exact ⟨hen ki hdisabled, hname ki⟩
  · exact ⟨hdisabled, rfl⟩

/-- What the calls that are no flush do to the package. -/
structure Edits (kp kp' : Kp) : Prop where
  keys : kp'.AllKeys KeyOk
  right : ∀ t, IdsRight kp.keyInfos t → IdsRight kp'.keyInfos t
  clean : (kp.dirty = false → IdsSet kp.keyInfos) → kp'.dirty = false → IdsSet kp'.keyInfos

section Edits

variable {kp : Kp} (h : kp.AllKeys KeyOk)

include h

/-- A new key has no id, and makes the package dirty. -/
theorem edits_addKey {key : CString} (hkey : KeyOk key.bytes) :
    Edits kp (kp.addKey .success key).2 := by
  refine ⟨h.addKey hkey, fun t hright => ?_, by rintro _ ⟨⟩⟩
  · show IdsRight (kp.keyInfos ++ [Ki.init key]) t
    refine List.forall_mem_append.mpr ⟨hright, List.forall_mem_singleton.mpr ?_⟩
    rintro id ⟨⟩

theorem edits_set (id : Nat) (value : UInt64) : Edits kp (kp.set id value).2 := by
  obtain ⟨hright, hset⟩ := ids_of_set kp id value
  refine ⟨h.set id value, hright, fun hclean hd => hset (hclean ?_)⟩
  · rwa [← (Kp.set_frame kp id value).dirty]

theorem edits_disableKey (id : Nat) : Edits kp (kp.disableKey id) := by
  obtain ⟨hright, hset⟩ := ids_of_disableKey kp id
  refine ⟨h.disableKey id, hright, fun hclean hd => hset (hclean ?_)⟩
  · rwa [← (Kp.disableKey_frame kp id).dirty]

theorem edits_enableKey {id : Nat} (hid : kp.dirty = true ∨ ∀ ki, kp.keyInfos[id]? = some ki →
    ki.disabled = false ∨ (ki.backendState .dbats).isSome) : Edits kp (kp.enableKey id) := by
  obtain ⟨hright, hset⟩ := ids_of_enableKey kp id
  refine ⟨h.enableKey id, hright, fun hclean hd => ?_⟩
  · have hd' : kp.dirty = false := by rwa [← (Kp.enableKey_frame kp id).dirty]
    exact hset (hid.resolve_left (by rw [hd']; rintro ⟨⟩)) (hclean hd')

end Edits

/-- `timeseries_kp_resolve` writes nothing. -/
theorem resolveLoop_holds (enabled : BackendId → Bool) {conf : Kafka.Conf} {db : Dbats.Db}
    (ids : List BackendId) {kp : Kp} {e : Env World} {id : BackendId} {ws : List StoreWrite}
    (h : Holds conf db e.world ws id) :
    Holds conf db (kp.resolveLoop (World.timeseries enabled) ids e).2.2.world ws id := by
  induction ids generalizing kp e with
  | nil => exact h
  | cons id' ids ih =>
    have hup := (callKpKiUpdate_holds enabled conf db id' kp e).2 id ws h
    rw [Kp.resolveLoop]
    generalize (World.timeseries enabled).callKpKiUpdate id' kp e = r at hup ⊢
    obtain ⟨r, kp₁, e₁⟩ := r
    cases r with
    | ok => exact ih hup
    | fail => exact hup
    | stop why => exact hup

/-! ## Runs -/

/-- The backends agree outside the flush that is under way. -/
structure Inv (enabled : BackendId → Bool) (conf : Kafka.Conf) (db : Dbats.Db) (s : Session) :
    Prop where
  rep : s.run.Inv
  running : s.run.halted = none
  keys : s.run.kp.AllKeys KeyOk
  loop : LoopInv s.run.kp s.run.env
  clean : enabled .dbats = true → s.run.kp.dirty = false → IdsSet s.run.kp.keyInfos
  holds : ∀ id, enabled id = true → ∃ ws, Holds conf db s.run.env.world ws id ∧
    AgreeOff s.inDoubt ws s.written

theorem inv_start (enabled : BackendId → Bool) (conf : Kafka.Conf) (db : Dbats.Db) (flags : Nat)
    (results : List Kafka.ProduceResult) :
    Inv enabled conf db (Session.start flags (startWorld db conf results)) where
  rep := KpRun.inv_init flags _
  running := rfl
  keys := List.forall_mem_nil _
  loop := ⟨List.forall_mem_nil _, List.forall_mem_nil _⟩
  clean _ _ := List.forall_mem_nil _
  holds id _ := ⟨[], holds_start db conf results id, .refl _ _⟩

section Step

variable {enabled : BackendId → Bool} {conf : Kafka.Conf} {db : Dbats.Db} {s : Session}

/-- A flush writes to the enabled keys. -/
theorem mem_flushKeys {kp : Kp} {time : UInt32} {kt : Bytes × UInt32} :
    kt ∈ (flushWrites (time, kp.enabledPairs)).map Prod.fst ↔
      ∃ ki ∈ kp.keyInfos, ki.disabled = false ∧ (ki.name, time) = kt := by
  simp [flushWrites, Kp.enabledPairs, Kp.enabledKis, and_assoc]

/-- Keys that stay enabled stay in doubt. -/
theorem pendingKeys_subset {kp kp' : Kp} (h : StayEnabled kp.keyInfos kp'.keyInfos)
    (retrying : Option UInt32) : pendingKeys kp retrying ⊆ pendingKeys kp' retrying := by
  intro kt hkt
  cases retrying with
  | none => cases hkt
  | some time =>
    obtain ⟨ki, hki, hen, rfl⟩ := mem_flushKeys.mp hkt
    obtain ⟨ki', hki', hen', hname⟩ := h ki hki hen
    exact mem_flushKeys.mpr ⟨ki', hki', hen', by rw [hname]⟩

/-- A call that only edits the package. -/
theorem Inv.edit (h : Inv enabled conf db s) {run : KpRun World} (hrep : run.Inv)
    (hhalted : run.halted = none) (henv : run.env = s.run.env)
    (hedits : Edits s.run.kp run.kp) (hdoubt : s.inDoubt ⊆ pendingKeys run.kp s.retrying) :
    Inv enabled conf db { s with run := run } where
  rep := hrep
  running := hhalted
  keys := hedits.keys
  loop := henv ▸ ⟨hedits.right _ h.loop.right, h.loop.flushes⟩
  clean hdbats := hedits.clean (h.clean hdbats)
  holds id hid := by
    obtain ⟨ws, hholds, hagree⟩ := h.holds id hid
    exact ⟨ws, henv ▸ hholds, hagree.mono hdoubt⟩

/-- A flush. -/
theorem Inv.flush (hfmt : conf.format ≠ .ascii) (h : Inv enabled conf db s) {time : UInt32}
    (hpermitted : Permitted enabled s (.flush time)) :
    Inv enabled conf db (s.step enabled (.flush time)) := by
  obtain ⟨htime, hretry⟩ := hpermitted
  have hdoubt : s.inDoubt ⊆ (flushWrites (time, s.run.kp.enabledPairs)).map Prod.fst := by
    unfold Session.inDoubt
    cases hr : s.retrying with
    | none => exact List.nil_subset _
    | some t =>
      rw [hretry t hr]
      exact List.Subset.refl _
  have hunderway : Underway enabled conf db BackendId.all (flushWrites (time, s.run.kp.enabledPairs))
      s.written s.run.kp s.run.env := by
    refine ⟨h.loop, fun id hid => ?_⟩
    obtain ⟨ws, hholds, hagree⟩ := h.holds id hid
    exact ⟨ws, hholds, hagree.mono hdoubt, fun hnot => absurd (BackendId.mem_all id) hnot⟩
  obtain ⟨hkeys, hclean, hres⟩ := flush_mirrors hfmt htime h.rep.wf h.keys rfl h.clean hunderway
  have hrep := KpRun.inv_step (World.timeseries enabled) h.rep (.flush time)
  unfold Session.step
  unfold KpRun.step at hrep ⊢
  simp only [h.running, Option.isSome_none, Bool.false_eq_true, if_false] at hrep ⊢
  generalize s.run.kp.flush (World.timeseries enabled) time s.run.env = r at *
  obtain ⟨r, kp₁, e₁⟩ := r
  rcases hres with ⟨hok, h₁⟩ | ⟨hfail, hpairs, h₁⟩
  · obtain rfl : r = .ok := hok
    refine ⟨hrep, rfl, hkeys, h₁.loop, hclean, fun id hid => ?_⟩
    obtain ⟨ws, hholds, -, hagree⟩ := h₁.holds id hid
    exact ⟨ws, hholds, hagree List.not_mem_nil⟩
  · obtain rfl : r = .fail := hfail
    refine ⟨hrep, rfl, hkeys, h₁.loop, hclean, fun id hid => ?_⟩
    obtain ⟨ws, hholds, hagree, -⟩ := h₁.holds id hid
    refine ⟨ws, hholds, ?_⟩
    show AgreeOff ((flushWrites (time, kp₁.enabledPairs)).map Prod.fst) ws s.written
    rw [show kp₁.enabledPairs = s.run.kp.enabledPairs from hpairs]
    exact hagree

/-- `timeseries_kp_resolve`. -/
theorem Inv.resolve (h : Inv enabled conf db s) (hpermitted : Permitted enabled s .resolve) :
    Inv enabled conf db (s.step enabled .resolve) := by
  have hrep := KpRun.inv_step (World.timeseries enabled) h.rep .resolve
  have hcore := (Kp.resolve_spec (World.timeseries enabled) 0 s.run.kp s.run.env).core
  have hloop : LoopInv { s.run.kp with dirty := false } s.run.env := ⟨h.loop.right, h.loop.flushes⟩
  obtain ⟨hinv, -, hset⟩ := resolveLoop_ids enabled (World.timeseries enabled).enabledIds hloop
  have hholds : ∀ id ws, Holds conf db s.run.env.world ws id → Holds conf db
      (s.run.kp.resolve (World.timeseries enabled) s.run.env).2.2.world ws id := by
    intro id ws hws
    exact resolveLoop_holds enabled _ hws
  have hok : (s.run.kp.resolve (World.timeseries enabled) s.run.env).1 = .ok := hpermitted
  unfold Session.step
  unfold KpRun.step at hrep ⊢
  simp only [h.running, Option.isSome_none, Bool.false_eq_true, if_false] at hrep ⊢
  refine ⟨hrep, ?_, h.keys.of_core hcore, hinv, fun hdbats _ => hset hok (.inr ?_), fun id hid => ?_⟩
  · show (s.run.kp.resolve (World.timeseries enabled) s.run.env).1.stopped = none
    rw [hok]
    rfl
  · exact Timeseries.mem_enabledIds.mpr hdbats
  · obtain ⟨ws, hws, hagree⟩ := h.holds id hid
    refine ⟨ws, hholds id ws hws, ?_⟩
    have hpending : pendingKeys (s.run.kp.resolve (World.timeseries enabled) s.run.env).2.1 s.retrying
        = pendingKeys s.run.kp s.retrying := by
      cases s.retrying with
      | none => rfl
      | some time => rw [pendingKeys, pendingKeys, Kp.enabledPairs_of_core hcore]
    show AgreeOff (pendingKeys _ s.retrying) ws s.written
    rw [hpending]
    exact hagree

/-- **One call**, whatever the backends answer. -/
theorem Inv.step (hfmt : conf.format ≠ .ascii) (h : Inv enabled conf db s) {op : KpOp}
    (hpermitted : Permitted enabled s op) : Inv enabled conf db (s.step enabled op) := by
  have hrep := KpRun.inv_step (World.timeseries enabled) h.rep op
  have hrun : s.run.halted.isSome = false := by rw [h.running]; rfl
  cases op with
  | flush time => exact h.flush hfmt hpermitted
  | resolve => exact h.resolve hpermitted
  | getKey key =>
    have hsame : s.run.step (World.timeseries enabled) (.getKey key) = s.run := by
      rw [KpRun.step, hrun]
      rfl
    show Inv enabled conf db { s with run := s.run.step _ _ }
    rw [hsame]
    exact h
  | addKey key =>
    unfold KpRun.step at hrep
    unfold Session.step KpRun.step
    rw [hrun] at hrep ⊢
    refine h.edit hrep h.running rfl (edits_addKey h.keys hpermitted) (pendingKeys_subset ?_ _)
    exact fun ki hki hen => ⟨ki, List.mem_append_left _ hki, hen, rfl⟩
  | set id value =>
    unfold KpRun.step at hrep
    unfold Session.step KpRun.step
    rw [hrun] at hrep ⊢
    have hset : s.run.kp.set id value = (.ok, s.run.kp.modifyKi id (·.set value)) := if_pos hpermitted
    refine h.edit hrep ?_ rfl (edits_set h.keys id value) (pendingKeys_subset ?_ _)
    · show (s.run.kp.set id value).1.stopped = none
      rw [hset]
      rfl
    · show StayEnabled _ (s.run.kp.set id value).2.keyInfos
      rw [hset]
      exact stayEnabled_modify _ id (f := fun ki => ki.set value) (fun _ => rfl) fun _ hen => hen
  | enableKey id =>
    unfold KpRun.step at hrep
    unfold Session.step KpRun.step
    rw [hrun] at hrep ⊢
    refine h.edit hrep h.running rfl (edits_enableKey h.keys hpermitted) (pendingKeys_subset ?_ _)
    show StayEnabled _ (s.run.kp.enableKey id).keyInfos
    rw [Kp.enableKey_keyInfos]
    exact stayEnabled_modify _ id (f := fun ki => ki.setDisabled false) (fun _ => rfl) fun _ _ => rfl
  | disableKey id =>
    unfold KpRun.step at hrep
    unfold Session.step KpRun.step
    rw [hrun] at hrep ⊢
    refine h.edit hrep h.running rfl (edits_disableKey h.keys id) ?_
    rw [Session.inDoubt, show s.retrying = none from hpermitted]
    exact List.nil_subset _

end Step

/-! ## What the readers see -/

/-- The point of a write. -/
def pointOf (w : StoreWrite) : Insert.Point := ⟨CString.ofBytes w.1.1, w.2, w.1.2⟩

theorem pointOf_line {w : StoreWrite} (h : KeyOk w.1.1) :
    (pointOf w).line ++ [10] = lineOf w := by
  have hkey : (CString.ofBytes w.1.1).bytes = w.1.1 := cstr_of_nulFree h.nulFree
  rw [Insert.Point.line, pointOf, hkey, lineOf, metricLine]
  simp

theorem pointOf_write {w : StoreWrite} (h : KeyOk w.1.1) : (pointOf w).write = w := by
  have hkey : (CString.ofBytes w.1.1).bytes = w.1.1 := cstr_of_nulFree h.nulFree
  rw [Insert.Point.write, pointOf, hkey]

/-- The key leaves room for the largest value and time. -/
theorem pointOf_readable {w : StoreWrite} (h : KeyOk w.1.1) : (pointOf w).Readable := by
  have hkey : (CString.ofBytes w.1.1).bytes = w.1.1 := cstr_of_nulFree h.nulFree
  have hvalue : (decimal w.2.toNat).length ≤ 20 := by
    rw [decimal, List.length_map]
    exact (Nat.length_toDigits_le_iff (by decide) (by decide)).mpr
      (Nat.lt_trans w.2.toNat_lt (by decide))
  have htime : (decimal w.1.2.toNat).length ≤ 10 := by
    rw [← Ascii.decimal_time_take, List.length_take]
    exact Nat.min_le_left _ _
  have hshort := h.short
  refine ⟨hkey ▸ h.space, hkey ▸ h.newline, hkey ▸ h.comment, ?_⟩
  show _ ≤ 1024 - 1
  rw [Insert.Point.line, pointOf, hkey]
  simp only [List.length_append, List.length_cons]
  omega

/-- A proxy for the channel, without filters. -/
def proxyOf (conf : Kafka.Conf) : TskProxy.Config := ⟨[], conf.channelName, TskProxy.logLevelError⟩

/-- Without filters every record is written. -/
theorem storeWrites_proxyOf (conf : Kafka.Conf) (rs : List (UInt32 × Bytes × UInt64)) :
    TskProxy.storeWrites (proxyOf conf) rs = rs.map asWrite := by
  rw [TskProxy.storeWrites_eq_filter]
  exact List.filter_true (rs.map asWrite)

/-- What can be read back from the backends: outside the flush that is to be repeated it
is what the flushes that succeeded have written. -/
structure Mirrored (enabled : BackendId → Bool) (conf : Kafka.Conf) (db : Dbats.Db) (s : Session) :
    Prop where
  /-- no callback has stopped the process -/
  running : s.run.halted = none
  /-- lines that `timeseries-insert` reads as points -/
  ascii : enabled .ascii = true → ∃ pts : List Insert.Point, (∀ pt ∈ pts, pt.Readable) ∧
    s.run.env.world.ascii.output = (pts.flatMap fun pt => pt.line ++ [10]) ∧
    AgreeOff s.inDoubt (pts.map Insert.Point.write) s.written
  /-- the committed data -/
  dbats : enabled .dbats = true → ∀ kt, kt ∉ s.inDoubt →
    s.run.env.world.dbats.db.data kt = applyWrites db.data s.written kt
  /-- messages that `tsk-proxy` reads as records, in whatever order the partitions are
  read -/
  kafka : enabled .kafka = true → ∀ (partitionCnt : Nat) (delivered : List (Bytes × Bytes)),
    SameQueues (TskProxy.partitionOf partitionCnt) s.run.env.world.kafka.messages delivered →
    ∃ ms, TskProxy.Carries (proxyOf conf) (delivered.map Prod.fst) ms ∧
      AgreeOff s.inDoubt (TskProxy.storeWrites (proxyOf conf) (ms.flatMap TskProxy.Message.tagged))
        s.written

theorem Inv.readBack {enabled : BackendId → Bool} {conf : Kafka.Conf} {db : Dbats.Db} {s : Session}
    (h : Inv enabled conf db s) : Mirrored enabled conf db s where
  running := h.running
  ascii hid := by
    obtain ⟨ws, ⟨houtput, hkeys⟩, hagree⟩ := h.holds .ascii hid
    refine ⟨ws.map pointOf, ?_, ?_, ?_⟩
    · exact List.forall_mem_map.mpr fun w hw => pointOf_readable (hkeys w hw)
    · rw [houtput, List.flatMap_map]
      exact List.flatMap_congr fun w hw => (pointOf_line (hkeys w hw)).symm
    · have hwrites : (ws.map pointOf).map Insert.Point.write = ws := by
        rw [List.map_map]
        exact (List.map_congr_left fun w hw => pointOf_write (hkeys w hw)).trans (List.map_id ws)
      rw [hwrites]
      exact hagree
  dbats hid := by
    obtain ⟨ws, hdata, hagree⟩ := h.holds .dbats hid
    intro kt hkt
    rw [show s.run.env.world.dbats.db.data = applyWrites db.data ws from hdata, applyWrites_apply,
      applyWrites_apply, hagree kt hkt]
  kafka hid := by
    obtain ⟨ws, ⟨sent, hproduced, rfl⟩, hagree⟩ := h.holds .kafka hid
    intro partitionCnt delivered hqueues
    have hchannel : (proxyOf conf).kafkaChannel = conf.channelName := rfl
    obtain ⟨ms, hcarries, hlast⟩ := TskProxy.exists_carried hchannel hproduced hqueues
    refine ⟨ms, hcarries, fun kt hkt => ?_⟩
    rw [hlast, storeWrites_proxyOf]
    exact hagree kt hkt

/-- **The backends are mirrors**: whatever DBATS and Kafka answer, and wherever a flush
stops, no callback stops the process, and outside the flush to be repeated each backend
is read back as the flushes that succeeded; nothing is in doubt once it has
succeeded. -/
theorem mirrored (enabled : BackendId → Bool) {conf : Kafka.Conf} (hfmt : conf.format ≠ .ascii)
    (db : Dbats.Db) (results : List Kafka.ProduceResult) (flags : Nat) (ops : List KpOp)
    (hops : Along (Session.step enabled) (Permitted enabled)
      (Session.start flags (startWorld db conf results)) ops) :
    Mirrored enabled conf db
      (run (Session.step enabled) (Session.start flags (startWorld db conf results)) ops) :=
  (run_invariant (fun _ _ h hop => h.step hfmt hop)
    (inv_start enabled conf db flags results) hops).readBack

/-- All three backends. -/
def everyBackend : BackendId → Bool := fun _ => true

/-- DBATS is going to deadlock once, and Kafka to refuse the first message. -/
def troubled : World :=
  startWorld ⟨.empty, fun _ => none, [], [.ok, .ok, .ok, .deadlock], []⟩ someKafkaConf [.fatal]

/-- A flush that Kafka fails, a new value, and the flush again. -/
def retriedOps : List KpOp :=
  [.addKey (.ofAscii "a"), .set 0 7, .flush 60, .set 0 8, .flush 60]

theorem mirrored_retried :
    Mirrored everyBackend someKafkaConf troubled.dbats.db
      (run (Session.step everyBackend) (Session.start 0 troubled) retriedOps) := by
  refine mirrored everyBackend (by decide) _ [.fatal] 0 retriedOps
    ⟨⟨by decide, by decide, by decide, by decide, by decide⟩, ?_, ⟨by decide, ?_⟩, ?_,
      ⟨by decide, ?_⟩, trivial⟩
  · exact Nat.zero_lt_one
  · rintro t ⟨⟩
  · show (0 : Nat) < 1
    decide
  · intro t ht
    have hretrying : (run (Session.step everyBackend) (Session.start 0 troubled)
        (retriedOps.take 4)).retrying = some 60 := by
      decide +kernel
    exact (Option.some.inj (hretrying.symm.trans ht)).symm

/-- The value of the second attempt, which deadlocks in DBATS before it succeeds. -/
example :
    let s := run (Session.step everyBackend) (Session.start 0 troubled) retriedOps
    s.inDoubt = [] ∧ s.written = [(([97], 60), 8)] ∧
      s.run.env.world.dbats.db.data ([97], 60) = some 8 := by
  decide +kernel

end Mirrors

end Libtimeseries
