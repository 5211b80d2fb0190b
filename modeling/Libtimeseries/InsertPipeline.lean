import Libtimeseries.InsertBatch
import Libtimeseries.TskPipeline

/-!
# From a file to the database

All three programs in a row. `timeseries-insert` reads a file and writes its points
through the Kafka backend, in single or in batch mode, and `tsk-proxy` consumes the
topic into DBATS. The tool stops at the first call that fails.

- `toolWrites`: the writes of its calls, one list for each call;
- `single_arrives`, `batch_arrives`: what its runs have written, by what they return;
- `file_arrives`: what DBATS holds once the proxy has consumed the topic.
-/

namespace Libtimeseries

open ByteLib CutLib LastWrite RunLib

open Kafka (Produced)
open TskProxy (StoreWrite asWrite flushWrites keyBufLen)

variable {W : Type}

namespace Insert

/-- The tool with the Kafka backend. -/
def kafkaProgram (batchMode : Bool) : Program Kafka.State where
  ts := .single .kafka Kafka.backend
  setSingle := fun _ pt st => Kafka.setSingle st pt.key pt.value pt.time
  batchMode := batchMode

/-- The calls the tool makes for some points, by what they are to write: a call for each
point, or a flush for each batch. -/
def toolWrites (batchMode : Bool) (pts : List Point) : List (List StoreWrite) :=
  if batchMode then stickyFlushes 0 [] ((batchesFrom [] pts).map tagged)
  else pts.map fun pt => [pt.write]

/-- What some batches hold. -/
def writesOf (sent : List Kafka.Batch) : List StoreWrite :=
  (sent.flatMap Kafka.Batch.tagged).map asWrite

theorem writesOf_append (sent sent' : List Kafka.Batch) :
    writesOf (sent ++ sent') = writesOf sent ++ writesOf sent' := by
  rw [writesOf, List.flatMap_append, List.map_append]
  rfl

/-- A key that fits the buffer of the proxy. -/
def KeyFits (key : Bytes) : Prop := (0 : UInt8) ∉ key ∧ key.length < keyBufLen

/-- The result of a function that returns 0 or -1. -/
def returned (ok : Bool) : Ret := if ok then .ok else .fail

/-- From `st` to `st'` the tool has produced `new`, which is what its calls write up to
the first that fails. -/
structure Arrives (conf : Kafka.Conf) (sent new : List Kafka.Batch) (ret : Ret) (st' : Kafka.State)
    (calls : List (List StoreWrite)) : Prop where
  produced : Produced st' conf keyBufLen (sent ++ new)
  writes : ∃ ok, ret = returned ok ∧ UntilFailure ok (writesOf new) calls

section Arrives

variable {conf : Kafka.Conf} {sent new new' : List Kafka.Batch} {ret : Ret} {st st' : Kafka.State}
  {ps call : List StoreWrite} {calls : List (List StoreWrite)}

theorem arrives_nil (h : Produced st conf keyBufLen sent) : Arrives conf sent [] .ok st [] :=
  ⟨by rwa [List.append_nil], true, rfl, .done⟩

/-- A call that returns 0, and those after it. -/
theorem Arrives.cons (hsame : AgreeOff [] (writesOf new) call)
    (h : Arrives conf (sent ++ new) new' ret st calls) :
    Arrives conf sent (new ++ new') ret st (call :: calls) := by
  obtain ⟨ok, hret, hwrites⟩ := h.writes
  refine ⟨by rw [← List.append_assoc]; exact h.produced, ok, hret, ?_⟩
  rw [writesOf_append]
  exact .ok hsame hwrites

/-- A call that returns -1. -/
theorem arrives_fail (h : Produced st conf keyBufLen (sent ++ new)) (hsame : AgreeOff [] ps call)
    (hsub : writesOf new ⊆ ps) (calls : List (List StoreWrite)) :
    Arrives conf sent new .fail st (call :: calls) :=
  ⟨h, false, rfl, .fail hsame hsub⟩

/-- The last call. -/
theorem arrives_last (h : Produced st conf keyBufLen (sent ++ new)) (hsame : AgreeOff [] ps call)
    (hres : (ret = .ok ∧ writesOf new = ps) ∨ (ret = .fail ∧ writesOf new ⊆ ps)) :
    Arrives conf sent new ret st [call] := by
  rcases hres with ⟨rfl, hall⟩ | ⟨rfl, hpart⟩
  · have harrives : Arrives conf sent (new ++ []) .ok st [call] :=
      (arrives_nil h).cons (hall ▸ hsame)
    rwa [List.append_nil] at harrives
  · exact arrives_fail h hsame hpart []

end Arrives

/-! ## Single mode -/

section Single

variable {conf : Kafka.Conf} (hfmt : conf.format ≠ .ascii)

include hfmt

/-- `timeseries_set_single` with the Kafka backend alone. -/
theorem setSingle_wrote (batchMode : Bool) {sent : List Kafka.Batch} {s : State Kafka.State}
    (h : Produced s.env.world conf keyBufLen sent) {pt : Point} (htime : pt.time ≠ 0)
    (hkey : pt.key.strlen < keyBufLen) :
    let r := (kafkaProgram batchMode).timeseriesSetSingle pt s
    ∃ new, Produced r.2.env.world conf keyBufLen (sent ++ new) ∧
      ((r.1 = .ok ∧ writesOf new = [pt.write]) ∨ (r.1 = .fail ∧ writesOf new ⊆ [pt.write])) := by
  obtain ⟨new, hproduced, hres⟩ := h.step_wrote hfmt (by decide)
    (c := .setSingle pt.key pt.value pt.time) htime hkey
  have htagged : (Kafka.ProducerCall.setSingle pt.key pt.value pt.time).tagged.map asWrite
      = [pt.write] := rfl
  -- the loop over the backends makes this one call
  have hcall : (kafkaProgram batchMode).timeseriesSetSingle pt s
      = (kafkaProgram batchMode).callSetSingle .kafka pt { s with points := s.points ++ [pt] } := by
    have hids : (kafkaProgram batchMode).ts.enabledIds = [.kafka] :=
      Timeseries.single_enabledIds .kafka Kafka.backend
    rw [Program.timeseriesSetSingle, hids, Program.setSingleLoop]
    generalize (kafkaProgram batchMode).callSetSingle .kafka pt
      { s with points := s.points ++ [pt] } = r
    obtain ⟨r, s'⟩ := r
    cases r <;> rfl
  rw [hcall]
  refine ⟨new, hproduced, ?_⟩
  rcases hres with ⟨hok, hall⟩ | ⟨hfail, hpart⟩
  · exact .inl ⟨hok, by rw [writesOf, hall, htagged]⟩
  · exact .inr ⟨hfail, htagged ▸ (hpart.map asWrite).subset⟩

/-- A run of single mode. -/
theorem single_arrives (pts : List Point) (hpts : ∀ pt ∈ pts, pt.time ≠ 0 ∧ pt.key.strlen < keyBufLen)
    {sent : List Kafka.Batch} {s : State Kafka.State}
    (h : Produced s.env.world conf keyBufLen sent) :
    let r := (kafkaProgram false).process pts s
    ∃ new, Arrives conf sent new r.1 r.2.env.world (toolWrites false pts) := by
  induction pts generalizing s sent with
  | nil => exact ⟨[], arrives_nil h⟩
  | cons pt pts ih =>
    obtain ⟨⟨htime, hkey⟩, hpts'⟩ := List.forall_mem_cons.mp hpts
    obtain ⟨new, hproduced, hres⟩ := setSingle_wrote hfmt false h htime hkey
    have hinsert : (kafkaProgram false).insertPoint pt s
        = (kafkaProgram false).timeseriesSetSingle pt s := rfl
    rcases hres with ⟨hok, hall⟩ | ⟨hfail, hpart⟩
    · obtain ⟨new', harrives⟩ := ih hpts' hproduced
      have hinsert' : (kafkaProgram false).insertPoint pt s
          = (.ok, ((kafkaProgram false).timeseriesSetSingle pt s).2) := by
        rw [hinsert, ← hok]
      rw [Program.process_cons_of_ok _ pts hinsert']
      exact ⟨_, harrives.cons (hall ▸ .refl _ _)⟩
    · have hne : ((kafkaProgram false).insertPoint pt s).1 ≠ .ok := by
        rw [hinsert, hfail]
        rintro ⟨⟩
      rw [Program.process_cons_of_ne _ pts hne, hinsert]
      dsimp only
      rw [hfail]
      exact ⟨new, arrives_fail hproduced (.refl _ _) hpart _⟩

end Single

/-! ## Batch mode -/

/-- Setting a point adds no other key. -/
theorem setPoint_allKeys {P : Bytes → Prop} {s : State W} (h : s.kp.AllKeys P) {pt : Point}
    (hkey : P pt.key.bytes) : (Program.setPoint pt s).2.kp.AllKeys P := by
  have hkeyId : (Program.keyId s.kp pt.key).2.AllKeys P := by
    rw [Program.keyId]
    split
    · exact h.addKey hkey
    · exact h
  rw [Program.setPoint]
  split
  · exact hkeyId
  split
  · exact hkeyId
  have hset := hkeyId.set (Program.keyId s.kp pt.key).1.toNat pt.value
  generalize (Program.keyId s.kp pt.key).2.set (Program.keyId s.kp pt.key).1.toNat pt.value = r
    at hset ⊢
  obtain ⟨ret, kp⟩ := r
  cases ret <;> exact hset

theorem insertBatch_allKeys {P : Bytes → Prop} (p : Program W) {s : State W}
    (hwf : s.kp.WellFormed) (h : s.kp.AllKeys P) {pt : Point} (hkey : P pt.key.bytes) :
    (p.insertBatch pt s).2.kp.AllKeys P := by
  have hflush : (p.kpFlush s).2.kp.AllKeys P := h.flush hwf p.ts s.gtime s.env
  rw [Program.insertBatch]
  by_cases hzero : s.gtime = 0
  · rw [if_pos hzero, if_neg (by simp)]
    exact setPoint_allKeys (s := { s with gtime := pt.time }) h hkey
  · rw [if_neg hzero]
    split
    · generalize p.kpFlush s = r at hflush ⊢
      obtain ⟨ret, s₁⟩ := r
      cases ret with
      | ok =>
        exact setPoint_allKeys (s := { s₁ with gtime := pt.time, pointsPending := 0 }) hflush hkey
      | fail => exact hflush
      | stop why => exact hflush
    · exact setPoint_allKeys h hkey

/-- The time of a batch whose points have times. -/
theorem lastTime_ne_zero {cur : List Point} (hcur : ∀ pt ∈ cur, pt.time ≠ 0) (hne : cur ≠ []) :
    lastTime cur ≠ 0 := by
  rw [lastTime, List.getLast?_eq_some_getLast hne]
  exact hcur _ (List.getLast_mem hne)

/-- The first point of the next batch comes after a flush, and setting it calls
nothing. -/
theorem Pending.insertBatch_flushes {keys : List Bytes} {cur : List Point} {s : State W}
    (p : Program W) (h : Pending keys cur s) {pt : Point} (hchanges : changesTime cur pt = true) :
    (p.insertBatch pt s).1 = (p.kpFlush s).1 ∧
      (p.insertBatch pt s).2.env = (p.kpFlush s).2.env := by
  obtain ⟨hne, hother⟩ := Bool.and_eq_true_iff.mp hchanges
  rw [← h.gtime] at hne hother
  rw [Program.insertBatch, if_neg (of_decide_eq_true hne), if_pos (of_decide_eq_true hother)]
  obtain ⟨-, -, -, hkp⟩ := h.kpFlush p
  generalize p.kpFlush s = r at hkp ⊢
  obtain ⟨ret, s₁⟩ := r
  cases ret with
  | fail => exact ⟨rfl, rfl⟩
  | stop why => exact ⟨rfl, rfl⟩
  | ok =>
    obtain ⟨kp, hset, -⟩ := Collects.setPoint
      (s := { s₁ with gtime := pt.time, pointsPending := 0 }) (hkp rfl) pt
    dsimp only
    rw [hset]
    exact ⟨rfl, rfl⟩

section Batch

variable {conf : Kafka.Conf} (hfmt : conf.format ≠ .ascii)

include hfmt

/-- `timeseries_kp_flush` with the Kafka backend alone. -/
theorem kpFlush_wrote {sent : List Kafka.Batch} {kp : Kp}
    (hkeys : kp.AllKeys KeyFits) {time : UInt32} (htime : time ≠ 0) {e : Env Kafka.State}
    (h : Produced e.world conf keyBufLen sent) :
    let r := kp.flush (.single .kafka Kafka.backend) time e
    ∃ new, Produced r.2.2.world conf keyBufLen (sent ++ new) ∧
      ((r.1 = .ok ∧ writesOf new = flushWrites (time, kp.enabledPairs)) ∨
        (r.1 = .fail ∧ writesOf new ⊆ flushWrites (time, kp.enabledPairs))) := by
  -- updating the ids of a dirty package does nothing
  obtain ⟨e', hworld, hfirst⟩ : ∃ e' : Env Kafka.State, e'.world = e.world ∧
      (if kp.dirty then (Timeseries.single .kafka Kafka.backend).callKpKiUpdate .kafka
          { kp with dirty := false } e
        else (.ok, { kp with dirty := false }, e)) = (.ok, { kp with dirty := false }, e') := by
    cases kp.dirty with
    | false => exact ⟨e, rfl, rfl⟩
    | true =>
      exact ⟨((Timeseries.single .kafka Kafka.backend).callKpKiUpdate .kafka
        { kp with dirty := false } e).2.2, rfl, rfl⟩
  have hkeys' : ({ kp with dirty := false } : Kp).AllKeys KeyFits :=
    hkeys.of_core (Kp.core_dirty kp false)
  obtain ⟨new, hproduced, hres⟩ := Produced.step_wrote (hworld.symm ▸ h) hfmt (by decide)
    (c := .kpFlush { kp with dirty := false } time) htime
    fun ki hki => hkeys' ki.key (List.mem_map_of_mem hki)
  have htagged : (Kafka.ProducerCall.kpFlush { kp with dirty := false } time).tagged.map asWrite
      = flushWrites (time, kp.enabledPairs) := by
    rw [Kafka.ProducerCall.tagged, List.map_map]
    rfl
  have hcall : (Timeseries.single .kafka Kafka.backend).callKpFlush .kafka
      { kp with dirty := false } time e'
        = ((Kafka.kpFlush { kp with dirty := false } time e'.world).1, { kp with dirty := false },
          ((Timeseries.single .kafka Kafka.backend).callKpFlush .kafka
            { kp with dirty := false } time e').2.2) := by
    exact Prod.ext rfl (Prod.ext (Kafka.kpFlush_kp _ time e'.world) rfl)
  have hret : (Kafka.kpFlush { kp with dirty := false } time e'.world).1
      = (Kafka.ProducerCall.kpFlush { kp with dirty := false } time).ret e'.world := rfl
  rw [Kp.flush, Timeseries.single_enabledIds, Kp.flushLoop, hfirst]
  dsimp only
  rw [hcall, hret]
  rcases hres with ⟨hok, hall⟩ | ⟨hfail, hpart⟩
  · rw [hok]
    exact ⟨new, hproduced, .inl ⟨rfl, by rw [writesOf, hall, htagged]⟩⟩
  · rw [hfail]
    exact ⟨new, hproduced, .inr ⟨rfl, htagged ▸ (hpart.map asWrite).subset⟩⟩

/-- The tool has collected the points `cur`, and its calls have produced `sent`. -/
structure Collected (conf : Kafka.Conf) (keys : List Bytes) (cur : List Point)
    (sent : List Kafka.Batch) (s : State Kafka.State) : Prop where
  pending : Pending keys cur s
  keys : s.kp.AllKeys KeyFits
  produced : Produced s.env.world conf keyBufLen sent

/-- A flush of the batch. -/
theorem Collected.kpFlush {keys : List Bytes} {cur : List Point} {sent : List Kafka.Batch}
    {s : State Kafka.State} (h : Collected conf keys cur sent s) (htime : lastTime cur ≠ 0) :
    let r := (kafkaProgram true).kpFlush s
    ∃ new ps, Produced r.2.env.world conf keyBufLen (sent ++ new) ∧
      AgreeOff [] ps ((sticky 0 keys (tagged cur).2).map fun w => ((w.1, (tagged cur).1), w.2)) ∧
      ((r.1 = .ok ∧ writesOf new = ps) ∨ (r.1 = .fail ∧ writesOf new ⊆ ps)) := by
  have hgtime := h.pending.gtime
  obtain ⟨new, hproduced, hres⟩ := kpFlush_wrote hfmt h.keys (hgtime.symm ▸ htime) h.produced
  refine ⟨new, flushWrites (s.gtime, s.kp.enabledPairs), hproduced, ?_, hres⟩
  rintro ⟨k, t⟩ -
  rw [flushWrites, lastValue_tag, lastValue_tag, hgtime, h.pending.kp.holds.last]
  rfl

/-- A run of batch mode. -/
theorem batch_arrives (pts : List Point)
    (hpts : ∀ pt ∈ pts, pt.time ≠ 0 ∧ pt.key.strlen < keyBufLen) {keys : List Bytes}
    {cur : List Point} (hcur : ∀ pt ∈ cur, pt.time ≠ 0) {sent : List Kafka.Batch}
    {s : State Kafka.State} (h : Collected conf keys cur sent s) :
    let r := (kafkaProgram true).process pts s
    ∃ new, Arrives conf sent new r.1 r.2.env.world
      (stickyFlushes 0 keys ((batchesFrom cur pts).map tagged)) := by
  induction pts generalizing keys cur sent s with
  | nil =>
    have hprocess : (kafkaProgram true).process [] s = (kafkaProgram true).finish s := rfl
    rw [hprocess, Program.finish]
    by_cases hne : cur = []
    · subst hne
      have hpending : ¬ ((kafkaProgram true).batchMode && decide (0 < s.pointsPending)) = true := by
        rw [Bool.and_eq_true, decide_eq_true_eq, h.pending.pending]
        exact fun hand => hand.2 rfl
      rw [if_neg hpending]
      exact ⟨[], arrives_nil h.produced⟩
    · have hpending : ((kafkaProgram true).batchMode && decide (0 < s.pointsPending)) = true := by
        rw [Bool.and_eq_true, decide_eq_true_eq, h.pending.pending]
        exact ⟨rfl, hne⟩
      rw [if_pos hpending, batchesFrom, cut_nil_of_ne _ _ hne]
      obtain ⟨new, ps, hproduced, hsame, hres⟩ := h.kpFlush hfmt (lastTime_ne_zero hcur hne)
      exact ⟨new, arrives_last hproduced hsame hres⟩
  | cons pt pts ih =>
    obtain ⟨⟨htime, hkey⟩, hpts'⟩ := List.forall_mem_cons.mp hpts
    have hkeyFits : KeyFits pt.key.bytes := ⟨pt.key.nulFree, hkey⟩
    cases hchanges : changesTime cur pt with
    | false =>
      obtain ⟨s₁, hinsert, henv, hpending⟩ := h.pending.insertBatch_same (kafkaProgram true) hchanges
      have hkeys := insertBatch_allKeys (kafkaProgram true) h.pending.kp.wf h.keys hkeyFits
      rw [hinsert] at hkeys
      have hinsert' : (kafkaProgram true).insertPoint pt s = (.ok, s₁) := hinsert
      rw [Program.process_cons_of_ok _ pts hinsert', batchesFrom_cons_same hchanges]
      exact ih hpts' (List.forall_mem_append.mpr ⟨hcur, List.forall_mem_singleton.mpr htime⟩)
        ⟨hpending, hkeys, henv ▸ h.produced⟩
    | true =>
      have hlast : lastTime cur ≠ 0 := of_decide_eq_true (Bool.and_eq_true_iff.mp hchanges).1
      have hkeys := insertBatch_allKeys (kafkaProgram true) h.pending.kp.wf h.keys hkeyFits
      obtain ⟨hret, henv⟩ := h.pending.insertBatch_flushes (kafkaProgram true) hchanges
      obtain ⟨-, -, -, hpending⟩ := h.pending.insertBatch_changes (kafkaProgram true) hchanges
      obtain ⟨new, ps, hproduced, hsame, hres⟩ := h.kpFlush hfmt hlast
      rw [← henv] at hproduced
      have hinsert : (kafkaProgram true).insertPoint pt s = (kafkaProgram true).insertBatch pt s := rfl
      rw [batchesFrom_cons_changes hchanges]
      rcases hres with ⟨hok, hall⟩ | ⟨hfail, hpart⟩
      · have hret' : ((kafkaProgram true).insertBatch pt s).1 = .ok := hret.trans hok
        have hinsert' : (kafkaProgram true).insertPoint pt s
            = (.ok, ((kafkaProgram true).insertBatch pt s).2) := by
          rw [hinsert, ← hret']
        obtain ⟨new', harrives⟩ := ih hpts' (List.forall_mem_singleton.mpr htime)
          ⟨hpending hret', hkeys, hproduced⟩
        rw [Program.process_cons_of_ok _ pts hinsert']
        exact ⟨_, harrives.cons (hall ▸ hsame)⟩
      · have hret' : ((kafkaProgram true).insertBatch pt s).1 = .fail := hret.trans hfail
        have hne : ((kafkaProgram true).insertPoint pt s).1 ≠ .ok := by
          rw [hinsert, hret']
          rintro ⟨⟩
        rw [Program.process_cons_of_ne _ pts hne, hinsert]
        dsimp only
        rw [hret']
        exact ⟨new, arrives_fail hproduced hsame hpart _⟩

end Batch

/-! ## The whole way -/

/-- What is assumed of `wandio_fgets` here: it does not overrun the buffer. -/
def Bounded (fgets : Nat → Bytes → Option (Bytes × Bytes)) : Prop :=
  ∀ input line rest, fgets bufferLen input = some (line, rest) → line.length < bufferLen

theorem bounded_fgetsOf : Bounded fgetsOf := by
  intro input line rest h
  have hlen : bufferLen = 1024 := rfl
  rw [fgetsOf] at h
  split at h
  · cases h
  split at h
  · obtain ⟨rfl, -⟩ := Prod.mk.inj (Option.some.inj h)
    rw [List.length_take]
    omega
  · obtain ⟨rfl, -⟩ := Prod.mk.inj (Option.some.inj h)
    rw [List.length_take]
    omega

/-- The key is a part of its line. -/
theorem strlen_key_of_parse {erange erange' : Bool} {line : CString} {pt : Point}
    (h : parse erange (some line) = (some pt, erange')) : pt.key.strlen ≤ line.strlen := by
  have hkey : (line.take (line.strcspn 32)).strlen ≤ line.strlen := by
    rw [CString.strlen, CString.take, List.length_take]
    exact Nat.min_le_right _ _
  rw [parse, strsep] at h
  dsimp only at h
  split at h
  · cases h
  split at h
  · cases h
  split at h
  · cases h
  split at h
  · cases h
  · obtain rfl := Option.some.inj (Prod.mk.inj h).1
    exact hkey

/-- The keys of a file fit the buffer. -/
theorem strlen_key_of_accepted {fgets : Nat → Bytes → Option (Bytes × Bytes)}
    (hfgets : Bounded fgets) {fuel : Nat} {input : Bytes} {erange : Bool} {pts : List Point}
    (h : accepted fgets fuel input erange = some pts) : ∀ pt ∈ pts, pt.key.strlen < bufferLen := by
  induction fuel generalizing input erange pts with
  | zero => cases h
  | succ fuel ih =>
    rw [accepted] at h
    split at h
    · obtain rfl := Option.some.inj h
      exact List.forall_mem_nil _
    · next buffer input' hline =>
      split at h
      · exact ih h
      · split at h
        · exact ih h
        · next pt erange' hparse =>
          obtain ⟨pts', hpts', rfl⟩ := Option.map_eq_some_iff.mp h
          refine List.forall_mem_cons.mpr ⟨?_, ih hpts'⟩
          calc pt.key.strlen ≤ (CString.ofBytes buffer).strlen := strlen_key_of_parse hparse
            _ ≤ buffer.length := (List.takeWhile_sublist _).length_le
            _ < bufferLen := hfgets _ _ _ hline

/-- **From a file to the database**: whatever Kafka answers, and in whatever order the
partitions are read, once `tsk-proxy` has handled every message and has returned 0,
DBATS holds what the calls of `timeseries-insert` up to the first that failed were to
write, as far as it passes the filters, on top of what was there. Only what the call
that failed was to write may be there or not. -/
theorem file_arrives (conf : Kafka.Conf) (hfmt : conf.format ≠ .ascii)
    (results : List Kafka.ProduceResult) (batchMode : Bool)
    (fgets : Nat → Bytes → Option (Bytes × Bytes)) (hfgets : Bounded fgets) (input : Bytes)
    (pts : List Point) (hpts : accepted fgets (input.length + 1) input false = some pts)
    (htimes : ∀ pt ∈ pts, pt.time ≠ 0) (partitionCnt : Nat) (cfg : TskProxy.Config)
    (hchannel : cfg.kafkaChannel = conf.channelName) (delivered : List (Bytes × Bytes))
    (hqueues : SameQueues (TskProxy.partitionOf partitionCnt)
      ((kafkaProgram batchMode).main fgets input
        (State.init (Kafka.State.init conf results))).2.env.world.messages delivered)
    (statsKeyPrefix : CString) {V : Type} (stats : TskProxy.Stats V) (db : Dbats.Db) (v : V)
    (statsTime : Int32) (ticks : List TskProxy.Tick) :
    let r := (kafkaProgram batchMode).main fgets input (State.init (Kafka.State.init conf results))
    let s := TskProxy.dbatsRun cfg statsKeyPrefix stats db v statsTime ticks
    s.handled = delivered.map Prod.fst → s.place = .returned 0 →
      ∃ done rest, toolWrites batchMode pts = done ++ rest ∧
        ((r.1 = .ok ∧ rest = []) ∨ (r.1 = .fail ∧ rest ≠ [])) ∧
        ∀ kt, kt ∉ (rest.headD []).map Prod.fst →
          s.proxy.env.world.db.data kt
            = if cfg.passes kt.1 then applyWrites db.data done.flatten kt else db.data kt := by
  intro r s hhandled hplace
  have hkeys : ∀ pt ∈ pts, pt.time ≠ 0 ∧ pt.key.strlen < keyBufLen :=
    fun pt hpt => ⟨htimes pt hpt, strlen_key_of_accepted hfgets hpts pt hpt⟩
  -- the file
  have hprocess : ∃ new, Arrives conf [] new
      ((kafkaProgram batchMode).process pts (State.init (Kafka.State.init conf results))).1
      ((kafkaProgram batchMode).process pts (State.init (Kafka.State.init conf results))).2.env.world
      (toolWrites batchMode pts) := by
    have hproduced := Kafka.produced_init conf keyBufLen results
    cases batchMode with
    | false => exact single_arrives hfmt pts hkeys hproduced
    | true =>
      exact batch_arrives hfmt pts hkeys (List.forall_mem_nil _)
        ⟨⟨collects_init, rfl, by simp [State.init]⟩, List.forall_mem_nil _, hproduced⟩
  obtain ⟨erange, hmain⟩ := (kafkaProgram batchMode).main_accepted fgets
    (s := State.init (Kafka.State.init conf results)) hpts
  have hr : r = _ := hmain
  obtain ⟨new, hproduced, ok, hret, hwrites⟩ := hprocess
  obtain ⟨done, rest, hcalls, hok, hagree⟩ := hwrites.split
  -- the topic
  rw [hmain] at hqueues
  obtain ⟨ms, hcarries, hlast⟩ := TskProxy.exists_carried hchannel hproduced hqueues
  rw [← hhandled] at hcarries
  refine ⟨done, rest, hcalls, ?_, fun kt hkt => ?_⟩
  · have hret' : r.1 = returned ok := by
      rw [hr]
      exact hret
    cases ok with
    | true => exact .inl ⟨hret', hok.mp rfl⟩
    | false => exact .inr ⟨hret', fun h => by cases hok.mpr h⟩
  -- the database
  rw [TskProxy.dbats_returned cfg statsKeyPrefix stats db v statsTime ticks hcarries hplace,
    applyWrites_apply, hlast, TskProxy.storeWrites_eq_filter, List.nil_append]
  have hfilter := hagree.filter (fun kt => cfg.passes kt.1) kt hkt
  have hpasses : lastValue kt (done.flatten.filter fun w => cfg.passes w.1.1)
      = if cfg.passes kt.1 then lastValue kt done.flatten else none :=
    lastValue_filter (fun kt => cfg.passes kt.1) kt done.flatten
  rw [writesOf] at hfilter
  rw [hfilter, hpasses]
  split
  · rw [applyWrites_apply]
  · rfl

/-- The time changes, and Kafka's queue is full at first. -/
def twoTimes : Bytes := (CString.ofAscii "a 1 60\na 2 120\n").bytes

/-- The messages are read in the other order. -/
theorem file_arrives_batch :
    let r := (kafkaProgram true).main fgetsOf twoTimes
      (State.init (Kafka.State.init TskProxy.connectedState.conf [.queueFull]))
    let s := TskProxy.dbatsRun TskProxy.idleProxy.cfg TskProxy.idleProxy.statsKeyPrefix
      (TskProxy.idleStats 60) Dbats.Db.empty () 0 TskProxy.crossedTicks
    ∃ done rest, toolWrites true [⟨CString.ofAscii "a", 1, 60⟩, ⟨CString.ofAscii "a", 2, 120⟩]
        = done ++ rest ∧
      ((r.1 = .ok ∧ rest = []) ∨ (r.1 = .fail ∧ rest ≠ [])) ∧
      ∀ kt, kt ∉ (rest.headD []).map Prod.fst →
        s.proxy.env.world.db.data kt
          = if TskProxy.idleProxy.cfg.passes kt.1 then
              applyWrites Dbats.Db.empty.data done.flatten kt
            else Dbats.Db.empty.data kt := by
  have hmessages : ((kafkaProgram true).main fgetsOf twoTimes
      (State.init (Kafka.State.init TskProxy.connectedState.conf [.queueFull]))).2.env.world.messages
        = [TskProxy.batchA 60 1, TskProxy.batchA 120 2] := by
    decide +kernel
  refine file_arrives TskProxy.connectedState.conf (by decide) [.queueFull] true fgetsOf
    bounded_fgetsOf twoTimes _ (by decide +kernel) (by decide) 2 TskProxy.idleProxy.cfg rfl
    [TskProxy.batchA 120 2, TskProxy.batchA 60 1] ?_ TskProxy.idleProxy.statsKeyPrefix
    (TskProxy.idleStats 60) Dbats.Db.empty () 0 TskProxy.crossedTicks (by decide +kernel)
    (by decide +kernel)
  rw [hmessages]
  exact sameQueues_swap (by decide +kernel)

/-- Both points are there. -/
example :
    let s := TskProxy.dbatsRun TskProxy.idleProxy.cfg TskProxy.idleProxy.statsKeyPrefix
      (TskProxy.idleStats 60) Dbats.Db.empty () 0 TskProxy.crossedTicks
    s.proxy.env.world.db.data ([97], 60) = some 1 ∧
      s.proxy.env.world.db.data ([97], 120) = some 2 := by
  decide +kernel

end Insert

end Libtimeseries
