import Libtimeseries.TskPartitions

/-!
# Retried flushes

`timeseries_kp_flush` can fail in the middle of the messages of a package, when
some of them are in Kafka already. The caller may simply call it again: the
package is as it was, the backend is idle, and all keys are sent once more. What
the proxy makes of the messages of all the attempts is what it makes of those of
one attempt that succeeds.
-/

namespace Libtimeseries

open ByteLib LastWrite RunLib

namespace TskProxy

variable {W : Type}

/-! ## Attempts -/

/-- The Kafka backend as the only one that is enabled. -/
def kafkaOnly : Timeseries Kafka.State := .single .kafka Kafka.backend

/-- `timeseries_kp_flush` is called until it succeeds, and nothing else is done in
between. -/
inductive Retries (time : UInt32) : Kp → Env Kafka.State → Kp → Env Kafka.State → Prop
  | succeeds {kp : Kp} {e : Env Kafka.State} (ok : (kp.flush kafkaOnly time e).1 = .ok) :
      Retries time kp e (kp.flush kafkaOnly time e).2.1 (kp.flush kafkaOnly time e).2.2
  | fails {kp kp' : Kp} {e e' : Env Kafka.State} (fail : (kp.flush kafkaOnly time e).1 = .fail)
      (rest : Retries time (kp.flush kafkaOnly time e).2.1 (kp.flush kafkaOnly time e).2.2 kp' e') :
      Retries time kp e kp' e'

/-- One attempt is a flush of the Kafka backend; if it fails the package is as
before, apart from `dirty`. -/
theorem flush_kafkaOnly (kp : Kp) (time : UInt32) (e : Env Kafka.State) :
    let kp₀ : Kp := { kp with dirty := false }
    let r := kp.flush kafkaOnly time e
    r.1 = (Kafka.kpFlush kp₀ time e.world).1 ∧
      r.2.2.world = (Kafka.kpFlush kp₀ time e.world).2.2 ∧ (r.1 ≠ .ok → r.2.1 = kp₀) := by
  intro kp₀ r
  have hkp := Kafka.kpFlush_kp kp₀ time e.world
  -- the update before it does nothing
  obtain ⟨e₁, hup, hworld⟩ : ∃ e₁, (if kp.dirty then kafkaOnly.callKpKiUpdate .kafka kp₀ e
      else (.ok, kp₀, e)) = (.ok, kp₀, e₁) ∧ e₁.world = e.world := by
    cases kp.dirty with
    | false => exact ⟨e, rfl, rfl⟩
    | true => exact ⟨_, rfl, rfl⟩
  have hr : r = kp.flush kafkaOnly time e := rfl
  rw [Kp.flush, show kafkaOnly.enabledIds = [.kafka] from Timeseries.single_enabledIds _ _,
    Kp.flushLoop, hup] at hr
  obtain ⟨calls, hcall⟩ : ∃ calls, kafkaOnly.callKpFlush .kafka kp₀ time e₁
      = ((Kafka.kpFlush kp₀ time e.world).1, (Kafka.kpFlush kp₀ time e.world).2.1,
          ⟨(Kafka.kpFlush kp₀ time e.world).2.2, calls⟩) := by
    rw [← hworld]
    exact ⟨_, rfl⟩
  dsimp only at hr
  rw [hcall] at hr
  generalize Kafka.kpFlush kp₀ time e.world = r' at hkp hr ⊢
  obtain ⟨ret, kp', st⟩ := r'
  obtain rfl : kp' = kp₀ := hkp
  cases ret with
  | ok =>
    rw [hr]
    exact ⟨rfl, rfl, fun hne => absurd rfl hne⟩
  | fail =>
    rw [hr]
    exact ⟨rfl, rfl, fun _ => rfl⟩
  | stop why =>
    rw [hr]
    exact ⟨rfl, rfl, fun _ => rfl⟩

/-! ## What all attempts send -/

/-- The keys of a package fit the proxy's buffer. -/
def KeysFit (kp : Kp) : Prop := ∀ ki ∈ kp.keyInfos, (0 : UInt8) ∉ ki.key ∧ ki.key.length < keyBufLen

/-- What one attempt sends, and that it leaves the package as it was if it fails. -/
theorem attempt_sends {time : UInt32} {kp : Kp} {e : Env Kafka.State}
    (hfmt : e.world.conf.format ≠ .ascii) (hempty : e.world.bufferWritten = 0)
    (hkeys : KeysFit kp) :
    let r := kp.flush kafkaOnly time e
    ∃ sent, Kafka.Sends e.world r.2.2.world time sent ∧
      (r.1 = .ok → Kafka.recordsOf sent = kp.enabledPairs) ∧
      (r.1 = .fail → Kafka.recordsOf sent <+: kp.enabledPairs ∧ r.2.1 = { kp with dirty := false }) := by
  intro r
  obtain ⟨hret, hworld, hkp⟩ := flush_kafkaOnly kp time e
  have hkeys' : ∀ ki ∈ ({ kp with dirty := false } : Kp).keyInfos,
      (0 : UInt8) ∉ ki.key ∧ ki.key.length < 65535 := by
    intro ki hki
    obtain ⟨hnul, hlen⟩ := hkeys ki hki
    exact ⟨hnul, Nat.lt_trans hlen (by decide)⟩
  obtain ⟨sent, hsends, hres⟩ := Kafka.kpFlush_spec hfmt hempty hkeys' time
  rw [← hworld] at hsends
  rw [← hret] at hres
  refine ⟨sent, hsends, ?_, ?_⟩
  · intro hok
    rcases hres with ⟨-, hrecords⟩ | ⟨hfail, -⟩
    · exact hrecords
    · rw [hok] at hfail
      cases hfail
  · intro hfail
    rcases hres with ⟨hok, -⟩ | ⟨-, -, hpre⟩
    · rw [hfail] at hok
      cases hok
    · exact ⟨hpre, hkp (by rw [hfail]; rintro ⟨⟩)⟩

/-- All the attempts together send some of the records, and then all of them. -/
theorem Retries.sends {time : UInt32} {kp kp' : Kp} {e e' : Env Kafka.State}
    (h : Retries time kp e kp' e') (hfmt : e.world.conf.format ≠ .ascii)
    (hempty : e.world.bufferWritten = 0) (hkeys : KeysFit kp) :
    ∃ sent before, Kafka.Sends e.world e'.world time sent ∧
      Kafka.recordsOf sent = before ++ kp.enabledPairs ∧ ∀ r ∈ before, r ∈ kp.enabledPairs := by
  induction h with
  | succeeds ok =>
    obtain ⟨sent, hsends, hok, -⟩ := attempt_sends hfmt hempty hkeys
    exact ⟨sent, [], hsends, hok ok, List.forall_mem_nil _⟩
  | @fails kp kp' e e' fail rest ih =>
    obtain ⟨sent₁, hsends₁, -, hfail⟩ := attempt_sends hfmt hempty hkeys
    obtain ⟨hpre, hkp⟩ := hfail fail
    rw [hkp] at ih
    obtain ⟨sent₂, before, hsends₂, hrecords, hsub⟩ :=
      ih (by rw [hsends₁.conf]; exact hfmt) hsends₁.empty hkeys
    refine ⟨sent₁ ++ sent₂, Kafka.recordsOf sent₁ ++ before, hsends₁.trans hsends₂, ?_, ?_⟩
    · rw [Kafka.recordsOf, List.flatMap_append, List.append_assoc]
      exact congrArg (Kafka.recordsOf sent₁ ++ ·) hrecords
    · exact List.forall_mem_append.mpr ⟨fun r hr => hpre.subset hr, hsub⟩

/-! ## What the proxy makes of it -/

/-- Batches of one time write what their records write. -/
theorem flatMap_batchWrites (cfg : Config) {time : UInt32} {bs : List Kafka.Batch}
    (htime : ∀ b ∈ bs, b.time = time) :
    bs.flatMap (batchWrites cfg)
      = (cfg.passing (Kafka.recordsOf bs)).map fun r => ((r.1, time), r.2) := by
  induction bs with
  | nil => rfl
  | cons b bs ih =>
    obtain ⟨hb, hbs⟩ := List.forall_mem_cons.mp htime
    rw [List.flatMap_cons, ih hbs, batchWrites, hb,
      show Kafka.recordsOf (b :: bs) = b.records ++ Kafka.recordsOf bs from rfl,
      Config.passing_append, List.map_append]
    exact congrArg (· ++ _) (storeWrites_tagged cfg ⟨time, b.records⟩)

/-- The store the proxy leaves for all the attempts: the last value of every enabled
key that passes the filters, at the time of the flush. -/
theorem Retries.store {time : UInt32} {kp kp' : Kp} {e e' : Env Kafka.State}
    (h : Retries time kp e kp' e') (hfmt : e.world.conf.format ≠ .ascii)
    (hempty : e.world.bufferWritten = 0) (hkeys : KeysFit kp) (htime : time ≠ 0) (p : Proxy W)
    (hchannel : p.cfg.kafkaChannel = e.world.conf.channelName) {ds : List Delivery}
    (hds : ds.filterMap Delivery.message? = e'.world.messages.drop e.world.messages.length) (w : W)
    (hok : ∀ c ∈ (p.deliver w ds).env.calls, c.ret = .ok) (k : Bytes) (t : UInt32) :
    (p.deliver w ds).store (k, t)
      = if time = t then lastValue k (p.cfg.passing kp.enabledPairs) else none := by
  obtain ⟨sent, before, hsends, hrecords, hsub⟩ := h.sends hfmt hempty hkeys
  rw [hsends.messages, List.drop_left] at hds
  have hpairs := Kafka.enabledPairs_keys hkeys
  have hsentKeys : ∀ b ∈ sent, ∀ r ∈ b.records, (0 : UInt8) ∉ r.1 ∧ r.1.length < keyBufLen := by
    intro b hb r hr
    have hmem : r ∈ before ++ kp.enabledPairs := hrecords ▸ List.mem_flatMap_of_mem hb hr
    rcases List.mem_append.mp hmem with hmem | hmem
    · exact hpairs r (hsub r hmem)
    · exact hpairs r hmem
  have hmessages : List.Forall₂ (WellFormedWrites p.cfg) (ds.filterMap Delivery.message?)
      (sent.map (batchWrites p.cfg)) := by
    rw [hds]
    refine List.forall₂_map_left_iff.mpr (List.forall₂_map_right_iff.mpr
      (List.forall₂_same.mpr fun b hb => ?_))
    exact wellFormedWrites_batch hchannel (hsends.sentOk b hb) htime (hsentKeys b hb)
  rw [store_deliver p hmessages w hok, applyWrites_apply, Option.or_none, ← List.flatMap_def,
    flatMap_batchWrites _ fun b hb => (hsends.sentOk b hb).time, lastValue_sameTime, hrecords,
    Config.passing_append]
  refine congrArg (fun v => if time = t then v else none) ?_
  -- the last attempt writes every key again
  refine lastValue_append_of_subset (fun r hr => ?_) k
  obtain ⟨hmem, hpass⟩ := List.mem_filter.mp hr
  exact List.mem_map_of_mem (List.mem_filter.mpr ⟨hsub r hmem, hpass⟩)

/-- **Retrying is idempotent**: when a flush in a TSK format fails any number of times
and then succeeds, and the messages of all the attempts are fed to the proxy in
order, with forced flushes anywhere and one at the end, the store is the same as
for a single attempt that succeeds. -/
theorem retry_idempotent {time : UInt32} (htime : time ≠ 0) {kp kp' : Kp} (hkeys : KeysFit kp)
    {e e' e₁ : Env Kafka.State} (hretries : Retries time kp e kp' e')
    (hsingle : (kp.flush kafkaOnly time e₁).1 = .ok) (hconf : e₁.world.conf = e.world.conf)
    (hfmt : e.world.conf.format ≠ .ascii) (hempty : e.world.bufferWritten = 0)
    (hempty₁ : e₁.world.bufferWritten = 0) (p : Proxy W)
    (hchannel : p.cfg.kafkaChannel = e.world.conf.channelName) {ds ds₁ : List Delivery}
    (hds : ds.filterMap Delivery.message? = e'.world.messages.drop e.world.messages.length)
    (hds₁ : ds₁.filterMap Delivery.message?
      = (kp.flush kafkaOnly time e₁).2.2.world.messages.drop e₁.world.messages.length) (w w₁ : W)
    (hok : ∀ c ∈ (p.deliver w ds).env.calls, c.ret = .ok)
    (hok₁ : ∀ c ∈ (p.deliver w₁ ds₁).env.calls, c.ret = .ok) :
    (p.deliver w ds).store = (p.deliver w₁ ds₁).store := by
  funext ⟨k, t⟩
  rw [← hconf] at hchannel
  rw [hretries.store hfmt hempty hkeys htime p (hconf ▸ hchannel) hds w hok,
    (Retries.succeeds hsingle).store (hconf ▸ hfmt) hempty₁ hkeys htime p hchannel hds₁ w₁ hok₁]

/-- Two keys that go to different messages in key-partition mode. -/
def twoSeries : Kp :=
  ((((Kp.init 0).addKey .success (CString.ofAscii "a.x")).2.addKey .success
    (CString.ofAscii "b.x")).2.set 0 1).2

/-- An idle Kafka backend in key-partition mode. -/
def keypartEnv (results : List Kafka.ProduceResult) : Env Kafka.State :=
  ⟨.init { connectedState.conf with format := .tskKeypart } results, []⟩

/-- An attempt that fails at its second message. -/
def failedAttempt : Ret × Kp × Env Kafka.State :=
  twoSeries.flush kafkaOnly 60 (keypartEnv [.ok, .fatal])

/-- The attempt after it. -/
def secondAttempt : Ret × Kp × Env Kafka.State :=
  failedAttempt.2.1.flush kafkaOnly 60 failedAttempt.2.2

/-- An attempt that succeeds at once. -/
def singleAttempt : Ret × Kp × Env Kafka.State := twoSeries.flush kafkaOnly 60 (keypartEnv [])

theorem retry_idempotent_twoSeries :
    (idleProxy.deliver () (secondAttempt.2.2.world.messages.map .message)).store
      = (idleProxy.deliver () (singleAttempt.2.2.world.messages.map .message)).store := by
  have hretries : Retries 60 twoSeries (keypartEnv [.ok, .fatal]) secondAttempt.2.1
      secondAttempt.2.2 := .fails (by decide +kernel) (.succeeds (by decide +kernel))
  have hsingle : (twoSeries.flush kafkaOnly 60 (keypartEnv [])).1 = .ok := by decide +kernel
  have hkeys : KeysFit twoSeries := by
    show ∀ ki ∈ twoSeries.keyInfos, (0 : UInt8) ∉ ki.key ∧ ki.key.length < keyBufLen
    decide +kernel
  have hds : (secondAttempt.2.2.world.messages.map Delivery.message).filterMap Delivery.message?
      = secondAttempt.2.2.world.messages.drop
          (keypartEnv [.ok, .fatal]).world.messages.length := by decide +kernel
  have hds₁ : (singleAttempt.2.2.world.messages.map Delivery.message).filterMap Delivery.message?
      = singleAttempt.2.2.world.messages.drop (keypartEnv []).world.messages.length := by
    decide +kernel
  exact retry_idempotent (by decide) hkeys hretries hsingle rfl (by decide) rfl rfl idleProxy rfl
    hds hds₁ () () (by decide +kernel) (by decide +kernel)

end TskProxy

end Libtimeseries
