import Libtimeseries.KpRetries
import Libtimeseries.TskRun

/-!
# What the main loop delivers

The main loop keeps its promise whatever its backend does, because it ends with
the first flush that fails.

- `Answered`: a function of the proxy succeeds if and only if its callbacks do;
- `ReadAs`: what a payload stands for, a well-formed message or one that is
  rejected;
- `Running`, `AtRest`, `GaveUp`: what has been delivered while the loop runs, when
  nothing is left to flush, and after a failure;
- `run_delivers`, `run_accounts`: the two ways in which `run` returns.
-/

namespace Libtimeseries

open ByteLib GroupLib LastWrite RunLib

namespace TskProxy

variable {W V : Type}

/-! ## Callbacks and results -/

/-- From `s` to `s'` a function made callbacks and returned `r`: either all of them
succeeded, or it did not and no flush was carried out. -/
structure Answered (s s' : State W) (new : List (Call W)) (r : Ret) : Prop where
  calls : s'.env.calls = s.env.calls ++ new
  ok : r = .ok → ∀ c ∈ new, c.ret = .ok
  failed : r ≠ .ok → new.filterMap Call.flushed? = []

theorem Answered.none {s s' : State W} (h : s'.env.calls = s.env.calls) (r : Ret) :
    Answered s s' [] r :=
  ⟨by rw [h, List.append_nil], fun _ c hc => absurd hc List.not_mem_nil, fun _ => rfl⟩

/-- Only the calls matter. -/
theorem Answered.of_env {s s' t t' : State W} {new : List (Call W)} {r : Ret}
    (h : Answered s s' new r) (hs : t.env = s.env) (hs' : t'.env = s'.env) :
    Answered t t' new r :=
  ⟨by rw [hs, hs', h.calls], h.ok, h.failed⟩

theorem kpFlush_answered (p : Proxy W) (s : State W) :
    ∃ new, Answered s (p.kpFlush s).2 new (p.kpFlush s).1 := by
  obtain ⟨new, n, hcalls, htakes⟩ :=
    Kp.flush_takes p.timeseries s.kp s.currentTime.toUInt32 s.env
  have hids : p.timeseries.enabledIds = [p.backendId] := Timeseries.single_enabledIds _ _
  refine ⟨new, hcalls, ?_, ?_⟩
  · intro hok
    have hattempt := htakes.attempt
    rw [show (s.kp.flush p.timeseries s.currentTime.toUInt32 s.env).1 = .ok from hok] at hattempt
    exact hattempt.all_ok
  · intro hne
    -- there is one backend, so nothing was carried out
    have hlt : n ≠ 1 := by
      intro hn
      exact hne (htakes.all_iff.mp (by rw [hids, hn]; rfl))
    have hle := htakes.le
    rw [hids, List.length_singleton] at hle
    obtain rfl : n = 0 := by omega
    exact htakes.flushed

theorem flushGroup_answered (p : Proxy W) {s : State W} (h : s.WellFormed) :
    ∃ new, Answered s (p.flushGroup s).2 new (p.flushGroup s).1 := by
  obtain ⟨new', hext', -, hres⟩ := flushGroup_spec p h
  have hbad : (p.flushGroup s).1 ≠ .ok → ∃ c ∈ new', c.ret ≠ .ok := by
    rintro hne
    rcases hres with ⟨hok, -⟩ | ⟨-, -, ⟨c, hc, hret⟩, -⟩
    · exact absurd hok hne
    · exact ⟨c, hc, hret ▸ hne⟩
  have hcalls' := hext'.calls
  clear hres hext'
  unfold Proxy.flushGroup at hbad hcalls' ⊢
  split at hbad
  · next hpos =>
    rw [if_pos hpos] at hcalls' ⊢
    obtain ⟨st₁, hinc₁, hst₁⟩ := incStat_spec p "flush_cnt" Int.one_pos h
    have hcnt : (0 : Int) < ({ s with statsKp := st₁ } : State W).kp.enabledSize := by
      exact_mod_cast hpos
    obtain ⟨st₂, hinc₂, -⟩ := incStat_spec p "flushed_key_cnt" hcnt (h.withStats hst₁)
    rw [hinc₁, andThen_ok, hinc₂, andThen_ok] at hbad hcalls' ⊢
    obtain ⟨new, hanswered⟩ := kpFlush_answered p { s with statsKp := st₂ }
    generalize p.kpFlush _ = r at hanswered hbad hcalls' ⊢
    obtain ⟨r, s'⟩ := r
    by_cases hok : r = .ok
    · subst hok
      rw [andThen_ok] at hbad hcalls' ⊢
      obtain rfl : new' = new := List.append_cancel_left (hcalls'.symm.trans hanswered.calls)
      have hall := hanswered.ok rfl
      refine ⟨new', hanswered.calls, fun _ => hall, fun hne => ?_⟩
      obtain ⟨c, hc, hret⟩ := hbad hne
      exact absurd (hall c hc) hret
    · rw [andThen_of_ne hok]
      exact ⟨new, hanswered.of_env rfl rfl⟩
  · next hpos =>
    rw [if_neg hpos]
    exact ⟨[], .none rfl _⟩

theorem maybeFlush_answered (p : Proxy W) (flushTime : Int32) {s : State W} (h : s.WellFormed) :
    ∃ new, Answered s (p.maybeFlush flushTime s).2 new (p.maybeFlush flushTime s).1 := by
  by_cases hzero : s.currentTime = 0
  · rw [maybeFlush_idle p flushTime hzero]
    refine ⟨[], .none ?_ _⟩
    rfl
  by_cases hsame : flushTime = s.currentTime
  · rw [maybeFlush_same p flushTime hzero hsame]
    refine ⟨[], .none ?_ _⟩
    rfl
  · rw [maybeFlush_other p flushTime hzero hsame]
    obtain ⟨new, hanswered⟩ := flushGroup_answered p (h.log (.maybeFlush flushTime))
    generalize p.flushGroup _ = r at hanswered ⊢
    obtain ⟨r, s'⟩ := r
    by_cases hok : r = .ok
    · subst hok
      exact ⟨new, hanswered.of_env rfl rfl⟩
    · rw [andThen_of_ne hok]
      exact ⟨new, hanswered.of_env rfl rfl⟩

theorem recordLoop_env (cfg : Config) (payload : Bytes) (fuel : Nat) (c : Cursor) (s : State W) :
    (recordLoop cfg payload fuel c s).2.env = s.env := by
  have hparse : ∀ (c : Cursor) (s : State W), (parseKeyValue cfg payload c s).2.2.env = s.env := by
    intro c s
    unfold parseKeyValue
    split
    · rfl
    · rfl
    · rfl
    · split <;> rfl
  induction fuel generalizing c s with
  | zero => rfl
  | succ fuel ih =>
    specialize hparse c s
    rw [recordLoop]
    split
    · generalize parseKeyValue cfg payload c s = r at hparse ⊢
      obtain ⟨r, c', s'⟩ := r
      cases r with
      | ok => exact (ih c' s').trans hparse
      | fail => exact hparse
      | stop why => exact hparse
    · rfl

theorem andThen_env {r : Ret × State W} {next : State W → Ret × State W}
    (hnext : ∀ s, (next s).2.env = s.env) : (andThen r next).2.env = r.2.env := by
  obtain ⟨r, s⟩ := r
  cases r with
  | ok => exact hnext s
  | fail => rfl
  | stop why => rfl

/-- A message or a forced flush. Of a message the backend sees nothing but
`maybe_flush`. -/
theorem act_answered (p : Proxy W) {s : State W} (h : s.WellFormed) (item : Item p.cfg) :
    ∃ new, Answered s (p.act s item.input).2 new (p.act s item.input).1 := by
  cases item with
  | forceFlush => exact maybeFlush_answered p TskProxy.forceFlush h
  | message m =>
    obtain ⟨new, hanswered⟩ := maybeFlush_answered p m.time.toInt32 h
    obtain ⟨c, -, hhandle⟩ := handleMessage_accepted p m s
    obtain ⟨hret, -⟩ := handleMessage_spec p m h
    have henv : (p.handleMessage m.payload s).2.env = (p.maybeFlush m.time.toInt32 s).2.env := by
      rw [hhandle, andThen_env fun s => recordLoop_env _ _ _ _ s]
      unfold Proxy.beginRecords
      exact andThen_env fun s => andThen_env fun s => rfl
    refine ⟨new, ?_⟩
    show Answered s (p.handleMessage m.payload s).2 new (p.handleMessage m.payload s).1
    rw [hret]
    exact hanswered.of_env rfl henv

/-! ## Groups -/

/-- The closed groups in which a record passed the filters have been flushed, and
nothing else has. -/
def Delivered (cfg : Config) (g : Groups UInt32 (Bytes × UInt64)) (s : State W) : Prop :=
  List.Forall₂ (Flushes cfg) (g.closed.filter fun g => cfg.passing g.items ≠ []) s.env.flushed

theorem Follows.delivered {cfg : Config} {g : Groups UInt32 (Bytes × UInt64)} {s : State W}
    (h : Follows cfg g s) (hok : ∀ c ∈ s.env.calls, c.ret = .ok) : Delivered cfg g s := by
  rw [Delivered, Env.flushed, flushed_of_ok hok]
  exact h.flushes

/-- An action that succeeds follows the groups. -/
theorem Follows.act_ok (p : Proxy W) {g : Groups UInt32 (Bytes × UInt64)} {s : State W}
    (h : Follows p.cfg g s) (hcalls : ∀ c ∈ s.env.calls, c.ret = .ok) (item : Item p.cfg)
    (htime : ∀ m, item = .message m → m.time ≠ 0) (hok : (p.act s item.input).1 = .ok) :
    Follows p.cfg (item.group g) (p.act s item.input).2 ∧
      ∀ c ∈ (p.act s item.input).2.env.calls, c.ret = .ok := by
  obtain ⟨new, hanswered⟩ := act_answered p h.collects.wf item
  have hnew := hanswered.ok hok
  obtain ⟨-, hfollows⟩ := h.step p item htime hanswered.calls hnew
  refine ⟨hfollows, ?_⟩
  rw [hanswered.calls]
  exact List.forall_mem_append.mpr ⟨hcalls, hnew⟩

/-- After a failure: the current group is still there, and has not been flushed. -/
structure Stuck (cfg : Config) (g : Groups UInt32 (Bytes × UInt64)) (s : State W) : Prop where
  tag : ∀ cur, g.current = some cur → cur.tag ≠ 0
  collects : Collects s (g.current.elim 0 Group.tag) (cfg.passing (g.current.elim [] Group.items))
  delivered : Delivered cfg g s
  failure : ∃ c ∈ s.env.calls, c.ret ≠ .ok

/-- An action that fails leaves the groups. -/
theorem Follows.act_failed (p : Proxy W) {g : Groups UInt32 (Bytes × UInt64)} {s : State W}
    (h : Follows p.cfg g s) (hcalls : ∀ c ∈ s.env.calls, c.ret = .ok) (item : Item p.cfg)
    (htime : ∀ m, item = .message m → m.time ≠ 0) (hne : (p.act s item.input).1 ≠ .ok) :
    Stuck p.cfg g (p.act s item.input).2 := by
  have hzero : item.flushTime = 0 → item.writes = [] := by
    cases item with
    | message m => exact fun hzero => absurd hzero (htime m rfl)
    | forceFlush => exact fun _ => rfl
  obtain ⟨new, hanswered⟩ := act_answered p h.collects.wf item
  obtain ⟨new', hcalls', hacts⟩ := h.collects.act p item hzero
  obtain rfl : new' = new := List.append_cancel_left (hcalls'.symm.trans hanswered.calls)
  have hflushed : (p.act s item.input).2.env.flushed = s.env.flushed := by
    rw [Env.flushed_of_calls hcalls', ← List.map_filterMap, hanswered.failed hne, List.map_nil,
      List.append_nil]
  have hdelivered := h.delivered hcalls
  generalize p.act s item.input = r at hne hcalls' hacts hflushed ⊢
  obtain ⟨r, s'⟩ := r
  cases hacts with
  | done => exact absurd rfl hne
  | failed _ hcall hcollects =>
    obtain ⟨c, hc, hret⟩ := hcall
    refine ⟨h.tag, hcollects, ?_, c, ?_, hret ▸ hne⟩
    · rw [Delivered, hflushed]
      exact hdelivered
    · rw [hcalls']
      exact List.mem_append_right _ hc

/-- The flush of the current group, behind those of the closed ones. -/
theorem delivered_close {cfg : Config} {g : Groups UInt32 (Bytes × UInt64)}
    {fs : List (UInt32 × List (Bytes × UInt64))} {kp : Kp}
    (h : List.Forall₂ (Flushes cfg) (g.closed.filter fun g => cfg.passing g.items ≠ []) fs)
    (htag : ∀ cur, g.current = some cur → cur.tag ≠ 0)
    (hholds : kp.Holds (cfg.passing (g.current.elim [] Group.items))) :
    List.Forall₂ (Flushes cfg) (g.close.closed.filter fun g => cfg.passing g.items ≠ [])
      (fs ++ if g.current.elim 0 Group.tag ≠ 0 ∧ cfg.passing (g.current.elim [] Group.items) ≠ []
        then [(g.current.elim 0 Group.tag, kp.enabledPairs)] else []) := by
  show List.Forall₂ _ ((g.closed ++ g.current.toList).filter _) _
  rw [List.filter_append]
  refine List.rel_append h ?_
  cases hcur : g.current with
  | none =>
    rw [if_neg fun hand => hand.1 rfl]
    exact .nil
  | some cur =>
    rw [hcur] at hholds
    show List.Forall₂ _ ([cur].filter _)
      (if cur.tag ≠ 0 ∧ cfg.passing cur.items ≠ [] then [(cur.tag, kp.enabledPairs)] else [])
    by_cases hnil : cfg.passing cur.items = []
    · rw [if_neg fun hand => hand.2 hnil, List.filter_cons_of_neg (by simpa using hnil)]
      exact .nil
    · rw [if_pos ⟨htag cur hcur, hnil⟩, List.filter_cons_of_pos (by simpa using hnil)]
      exact .cons ⟨rfl, hholds.nodup, hholds.last⟩ .nil

/-- The forced flush of `cleanup` delivers the current group, or nothing. -/
theorem Stuck.cleanup (p : Proxy W) {g : Groups UInt32 (Bytes × UInt64)} {s : State W}
    (h : Stuck p.cfg g s) :
    let s' := (p.maybeFlush forceFlush s).2
    (∃ c ∈ s'.env.calls, c.ret ≠ .ok) ∧ (Delivered p.cfg g s' ∨ Delivered p.cfg g.close s') := by
  obtain ⟨new, hanswered⟩ := act_answered p h.collects.wf .forceFlush
  obtain ⟨new', hcalls', hacts⟩ := h.collects.act p .forceFlush fun _ => rfl
  obtain rfl : new' = new := List.append_cancel_left (hcalls'.symm.trans hanswered.calls)
  have hflushed := Env.flushed_of_calls hcalls'
  rw [← List.map_filterMap] at hflushed
  obtain ⟨c, hc, hret⟩ := h.failure
  show (∃ c ∈ (p.act s (Item.forceFlush : Item p.cfg).input).2.env.calls, c.ret ≠ .ok) ∧
    (Delivered p.cfg g (p.act s (Item.forceFlush : Item p.cfg).input).2 ∨
      Delivered p.cfg g.close (p.act s (Item.forceFlush : Item p.cfg).input).2)
  generalize p.act s (Item.forceFlush : Item p.cfg).input = r at hanswered hcalls' hacts hflushed ⊢
  obtain ⟨r, s'⟩ := r
  dsimp only at hcalls' hflushed ⊢
  refine ⟨⟨c, ?_, hret⟩, ?_⟩
  · rw [hcalls']
    exact List.mem_append_left _ hc
  · by_cases hok : r = .ok
    · subst hok
      cases hacts with
      | failed hne => exact absurd rfl hne
      | done _ hnew =>
        right
        rw [List.map_filterMap, flushed_of_ok (hanswered.ok rfl), hnew] at hflushed
        rw [Delivered, hflushed]
        exact delivered_close h.delivered h.tag h.collects.holds
    · left
      rw [hanswered.failed hok, List.map_nil, List.append_nil] at hflushed
      rw [Delivered, hflushed]
      exact h.delivered

/-! ## Progress -/

/-- What a payload stands for: a well-formed message, or one that is rejected. -/
def ReadAs (cfg : Config) (payload : Bytes) : Option (Message cfg) → Prop
  | some m => payload = m.payload ∧ m.time ≠ 0
  | none => ¬ Accepts cfg payload

/-- The messages that payloads carry. -/
def Carries (cfg : Config) (payloads : List Bytes) (ms : List (Message cfg)) : Prop :=
  ∃ xs, List.Forall₂ (ReadAs cfg) payloads xs ∧ xs.filterMap id = ms

theorem Carries.concat {cfg : Config} {payloads : List Bytes} {payload : Bytes}
    {ms : List (Message cfg)} (h : Carries cfg (payloads ++ [payload]) ms) :
    ∃ ms' x, Carries cfg payloads ms' ∧ ReadAs cfg payload x ∧ ms = ms' ++ x.toList := by
  obtain ⟨xs, hxs, rfl⟩ := h
  have hflip : List.Forall₂ (flip (ReadAs cfg)) xs (payloads ++ [payload]) := hxs.flip
  have htake := (List.forall₂_take_append _ _ _ hflip).flip
  have hdrop := (List.forall₂_drop_append _ _ _ hflip).flip
  have hsplit := List.take_append_drop payloads.length xs
  obtain ⟨x, hx⟩ : ∃ x, xs.drop payloads.length = [x] := by
    have hlen := hdrop.length_eq
    exact List.length_eq_one_iff.mp hlen.symm
  rw [hx] at hdrop hsplit
  refine ⟨(xs.take payloads.length).filterMap id, x, ⟨_, htake, rfl⟩, ?_, ?_⟩
  · cases hdrop with
    | cons hread _ => exact hread
  · rw [← hsplit, List.filterMap_append, hsplit]
    cases x <;> rfl

/-- The messages among some items. -/
def Item.message? {cfg : Config} : Item cfg → Option (Message cfg)
  | message m => some m
  | forceFlush => none

/-- The items of a run in which every action has succeeded. -/
structure Running (cfg : Config) (ms : List (Message cfg)) (items : List (Item cfg))
    (s : State W) : Prop where
  messages : items.filterMap Item.message? = ms
  follows : Follows cfg (groupsOf items) s
  ok : ∀ c ∈ s.env.calls, c.ret = .ok

/-- Every group has been flushed. -/
def AtRest (cfg : Config) (ms : List (Message cfg)) (s : State W) : Prop :=
  ∃ items, Running cfg ms items s ∧ (groupsOf items).current = none

/-- The items before the one that failed. The last group may have been flushed at the
end, and is lost otherwise. -/
structure GaveUp (cfg : Config) (ms : List (Message cfg)) (items : List (Item cfg))
    (s : State W) : Prop where
  messages : items.filterMap Item.message? = ms ∨
    ∃ m, ms = items.filterMap Item.message? ++ [m]
  failure : ∃ c ∈ s.env.calls, c.ret ≠ .ok
  delivered : Delivered cfg (groupsOf items) s ∨ Delivered cfg (groupsOf items).close s

/-- What has been delivered wherever the program is: the closed groups, and maybe the
last one. -/
structure Settled (cfg : Config) (ms : List (Message cfg)) (items : List (Item cfg))
    (s : State W) : Prop where
  messages : items.filterMap Item.message? = ms ∨
    ∃ m, ms = items.filterMap Item.message? ++ [m]
  delivered : Delivered cfg (groupsOf items) s ∨ Delivered cfg (groupsOf items).close s

/-- What is known at each place, about the messages read so far. -/
def Progress (cfg : Config) (ms : List (Message cfg)) (s : State W) : Place → Prop
  | .outerTest => AtRest cfg ms s
  | .returned rc => (rc = 0 ∧ AtRest cfg ms s) ∨ (rc = -1 ∧ ∃ items, GaveUp cfg ms items s)
  | .stopped _ => ∃ items, Settled cfg ms items s
  | _ => ∃ items, Running cfg ms items s

theorem Follows.withStats {cfg : Config} {g : Groups UInt32 (Bytes × UInt64)} {s : State W}
    (h : Follows cfg g s) {statsKp : Kp} (hstats : statsKp.WellFormed) :
    Follows cfg g { s with statsKp := statsKp } :=
  ⟨h.tag, ⟨h.collects.wf.withStats hstats, h.collects.currentTime, h.collects.idle,
    h.collects.holds⟩, h.flushes⟩

section Running

variable {cfg : Config} {ms : List (Message cfg)} {items : List (Item cfg)} {s : State W}

theorem Running.withStats (h : Running cfg ms items s) {statsKp : Kp}
    (hstats : statsKp.WellFormed) : Running cfg ms items { s with statsKp := statsKp } :=
  ⟨h.messages, h.follows.withStats hstats, h.ok⟩

/-- A message that is rejected does not change anything but the trace. -/
theorem Running.log (h : Running cfg ms items s) (e : Event) : Running cfg ms items (s.log e) :=
  ⟨h.messages, ⟨h.follows.tag, ⟨h.follows.collects.wf.log e, h.follows.collects.currentTime,
    h.follows.collects.idle, h.follows.collects.holds⟩, h.follows.flushes⟩, h.ok⟩

theorem Running.settled (h : Running cfg ms items s) : Settled cfg ms items s :=
  ⟨.inl h.messages, .inl (h.follows.delivered h.ok)⟩

theorem GaveUp.settled (h : GaveUp cfg ms items s) : Settled cfg ms items s :=
  ⟨h.messages, h.delivered⟩

theorem Stuck.settled (h : Stuck cfg (groupsOf items) s)
    (hmessages : items.filterMap Item.message? = ms ∨
      ∃ m, ms = items.filterMap Item.message? ++ [m]) : Settled cfg ms items s :=
  ⟨hmessages, .inl h.delivered⟩

end Running

section Steps

variable {m : Program W V} {s : Main W V} {ms : List (Message m.proxy.cfg)}
  {items : List (Item m.proxy.cfg)}

/-- A forced flush that succeeds leaves nothing. -/
theorem Running.forceFlush (h : Running m.proxy.cfg ms items s.proxy)
    (hok : (m.proxy.maybeFlush forceFlush s.proxy).1 = .ok) :
    AtRest m.proxy.cfg ms (m.proxy.maybeFlush forceFlush s.proxy).2 := by
  obtain ⟨hfollows, hcalls⟩ := h.follows.act_ok m.proxy h.ok .forceFlush (by rintro m ⟨⟩) hok
  refine ⟨items ++ [.forceFlush], ⟨?_, ?_, hcalls⟩, ?_⟩
  · rw [List.filterMap_append, h.messages]
    exact List.append_nil ms
  · rw [groupsOf_concat]
    exact hfollows
  · rw [groupsOf_concat]
    rfl

/-- After a failure `run` returns -1. -/
theorem Stuck.progress (h : Stuck m.proxy.cfg (groupsOf items) s.proxy)
    (hmessages : items.filterMap Item.message? = ms ∨
      ∃ m, ms = items.filterMap Item.message? ++ [m]) :
    Progress m.proxy.cfg ms (m.cleanup (-1) s).proxy (m.cleanup (-1) s).place := by
  obtain ⟨hfailure, hdelivered⟩ := h.cleanup m.proxy
  obtain ⟨place, heq, rfl | ⟨why, rfl⟩⟩ := cleanup_eq m s (-1)
  · rw [heq]
    exact .inr ⟨rfl, items, hmessages, hfailure, hdelivered⟩
  · rw [heq]
    exact ⟨items, hmessages, hdelivered⟩

theorem Running.top (h : Running m.proxy.cfg ms items s.proxy) (now : Int) :
    Progress m.proxy.cfg ms (m.top now s).proxy (m.top now s).place := by
  have hok := h.forceFlush (m := m)
  have hfailed := h.follows.act_failed m.proxy h.ok .forceFlush (by rintro m ⟨⟩)
  have hfailed' : (m.proxy.maybeFlush TskProxy.forceFlush s.proxy).1 ≠ .ok →
    Stuck m.proxy.cfg (groupsOf items) (m.proxy.maybeFlush TskProxy.forceFlush s.proxy).2 := hfailed
  unfold Program.top
  generalize m.proxy.maybeFlush TskProxy.forceFlush s.proxy = r at hok hfailed' ⊢
  obtain ⟨r, t⟩ := r
  cases r with
  | stop why => exact ⟨items, (hfailed' (by rintro ⟨⟩)).settled (.inl h.messages)⟩
  | fail =>
    exact Stuck.progress (s := s.setProxy t) (hfailed' (by rintro ⟨⟩)) (.inl h.messages)
  | ok =>
    obtain ⟨items', hrest, hnone⟩ := hok rfl
    dsimp only
    obtain ⟨s', statsKp, hwf, hproxy, -, ⟨why, heq⟩ | heq⟩ := afterStats_cases m now
      (s := s.setProxy t) hrest.follows.collects.wf.statsKp fun s => s.goto .outerTest
    · rw [heq]
      show ∃ items, Settled m.proxy.cfg ms items s'.proxy
      rw [hproxy]
      exact ⟨items', (hrest.withStats hwf).settled⟩
    · rw [heq]
      show AtRest m.proxy.cfg ms s'.proxy
      rw [hproxy]
      exact ⟨items', hrest.withStats hwf, hnone⟩

theorem Running.burst (h : Running m.proxy.cfg ms items s.proxy) (eofSinceData : Nat)
    (poll : Option Polled) :
    Progress m.proxy.cfg ms (Program.burst eofSinceData poll s).proxy
      (Program.burst eofSinceData poll s).place := by
  cases poll with
  | none => exact ⟨items, h⟩
  | some rkmessage => exact ⟨items, h⟩

theorem AtRest.outerTest (h : AtRest m.proxy.cfg ms s.proxy) (poll : Option Polled) :
    Progress m.proxy.cfg ms (m.outerTest poll s).proxy (m.outerTest poll s).place := by
  obtain ⟨items, hrun, hnone⟩ := h
  unfold Program.outerTest
  split
  · -- nothing is left for the last flush
    have hidle : s.proxy.currentTime = 0 := by
      rw [hrun.follows.collects.currentTime, hnone]
      rfl
    have hrest := hrun.forceFlush (m := m) (by rw [maybeFlush_idle m.proxy _ hidle])
    obtain ⟨place, heq, rfl | ⟨why, rfl⟩⟩ := cleanup_eq m s 0
    · rw [heq]
      exact .inl ⟨rfl, hrest⟩
    · rw [heq]
      obtain ⟨items', hrun', -⟩ := hrest
      exact ⟨items', hrun'.settled⟩
  · exact hrun.burst 0 poll

/-- A message is handled. -/
theorem Running.process (h : Running m.proxy.cfg ms items s.proxy) (eofSinceData : Nat)
    {payload : Bytes} {x : Option (Message m.proxy.cfg)} (hread : ReadAs m.proxy.cfg payload x) :
    let s' := m.process eofSinceData (.data payload) s
    Progress m.proxy.cfg (ms ++ x.toList) s'.proxy s'.place := by
  unfold Program.process
  dsimp only
  cases x with
  | none =>
    rw [handleMessage_eq, if_neg hread, Option.toList_none, List.append_nil]
    rcases rejects_cases m.proxy.cfg payload with hrejects | hrejects
    · rw [hrejects]
      exact ⟨items, h.log .error⟩
    · rw [hrejects]
      exact ⟨items, (h.log .error).settled⟩
  | some msg =>
    obtain ⟨rfl, htime⟩ := hread
    have htimes : ∀ m', Item.message msg = .message m' → m'.time ≠ 0 := by
      rintro m' ⟨⟩
      exact htime
    have hok := h.follows.act_ok m.proxy h.ok (.message msg) htimes
    have hfailed := h.follows.act_failed m.proxy h.ok (.message msg) htimes
    rw [show m.proxy.act s.proxy (Item.message msg).input
      = m.proxy.handleMessage msg.payload s.proxy from rfl] at hok hfailed
    generalize m.proxy.handleMessage msg.payload s.proxy = r at hok hfailed ⊢
    obtain ⟨r, t⟩ := r
    have hmessages : ms ++ (some msg).toList = items.filterMap Item.message? ++ [msg] := by
      rw [h.messages]
      rfl
    cases r with
    | stop why => exact ⟨items, (hfailed (by rintro ⟨⟩)).settled (.inr ⟨msg, hmessages⟩)⟩
    | fail =>
      exact Stuck.progress (s := Main.setProxy { s with handled := s.handled ++ [msg.payload] } t)
        (hfailed (by rintro ⟨⟩)) (.inr ⟨msg, hmessages⟩)
    | ok =>
      obtain ⟨hfollows, hcalls⟩ := hok rfl
      refine ⟨items ++ [.message msg], ?_, ?_, hcalls⟩
      · rw [List.filterMap_append, h.messages]
        rfl
      · rw [groupsOf_concat]
        exact hfollows

theorem Running.innerTest (h : Running m.proxy.cfg ms items s.proxy) (eofSinceData : Nat)
    (now : Int) (poll : Option Polled) :
    Progress m.proxy.cfg ms (m.innerTest eofSinceData now poll s).proxy
      (m.innerTest eofSinceData now poll s).place := by
  unfold Program.innerTest
  split
  · exact ⟨items, h⟩
  · obtain ⟨s', statsKp, hwf, hproxy, -, heq⟩ := afterStats_cases m now
      h.follows.collects.wf.statsKp fun s => Program.burst eofSinceData poll s
    have hrun : Running m.proxy.cfg ms items s'.proxy := hproxy ▸ h.withStats hwf
    rcases heq with ⟨why, heq⟩ | heq
    · rw [heq]
      exact ⟨items, hrun.settled⟩
    · rw [heq]
      exact hrun.burst eofSinceData poll

/-- At places that are not final every action has succeeded. -/
theorem Progress.running {cfg : Config} {ms : List (Message cfg)} {s : State W} {place : Place}
    (h : Progress cfg ms s place) (hplace : place.isFinal = false) :
    ∃ items, Running cfg ms items s := by
  cases place with
  | top => exact h
  | outerTest =>
    obtain ⟨items, hrun, -⟩ := h
    exact ⟨items, hrun⟩
  | process eofSinceData rkmessage => exact h
  | innerTest eofSinceData => exact h
  | returned rc => cases hplace
  | exited status => cases hplace
  | stopped why => cases hplace

end Steps

/-- **One step of `run`** keeps its progress. -/
theorem progress_step (m : Program W V) {s : Main W V}
    (h : ∀ ms, Carries m.proxy.cfg s.handled ms → Progress m.proxy.cfg ms s.proxy s.place)
    (tick : Tick) {ms : List (Message m.proxy.cfg)}
    (hms : Carries m.proxy.cfg (m.step s tick).handled ms) :
    Progress m.proxy.cfg ms (m.step s tick).proxy (m.step s tick).place := by
  by_cases hfinal : s.place.isFinal = true
  · rw [step_final m s hfinal] at hms ⊢
    exact h ms hms
  have hrunning : ∀ ms, Carries m.proxy.cfg s.handled ms →
      ∃ items, Running m.proxy.cfg ms items s.proxy :=
    fun ms hms => (h ms hms).running (by simpa using hfinal)
  cases tick with
  | sigint =>
    rw [step_sigint m s (by simpa using hfinal)] at hms ⊢
    unfold Main.catchSigint at hms ⊢
    dsimp only at hms ⊢
    split at hms
    · rw [if_pos ‹_›]
      exact hrunning ms hms
    · rw [if_neg ‹_›]
      exact h ms hms
  | go now poll =>
    rw [step_go] at hms ⊢
    cases hplace : s.place with
    | top =>
      rw [hplace] at hms
      obtain ⟨items, hrun⟩ := hrunning ms (top_handled m s now ▸ hms)
      exact hrun.top now
    | outerTest =>
      rw [hplace] at h hms
      exact (h ms (outerTest_handled m s poll ▸ hms)).outerTest poll
    | process eofSinceData rkmessage =>
      rw [hplace] at hms
      cases rkmessage with
      | data payload =>
        obtain ⟨ms', x, hms', hread, rfl⟩ :=
          Carries.concat (process_data_handled m s eofSinceData payload ▸ hms)
        obtain ⟨items, hrun⟩ := hrunning ms' hms'
        exact hrun.process eofSinceData hread
      | partitionEof =>
        dsimp only at hms ⊢
        rw [process_eof] at hms ⊢
        have hrun := hrunning ms hms
        split
        · exact hrun
        · exact hrun
      | error => exact hrunning ms hms
    | innerTest eofSinceData =>
      rw [hplace] at hms
      obtain ⟨items, hrun⟩ := hrunning ms (innerTest_handled m s now poll eofSinceData ▸ hms)
      exact hrun.innerTest eofSinceData now poll
    | returned rc => exact absurd (congrArg Place.isFinal hplace) hfinal
    | exited status => exact absurd (congrArg Place.isFinal hplace) hfinal
    | stopped why => exact absurd (congrArg Place.isFinal hplace) hfinal

/-- Runs keep the progress. -/
theorem progress_run (m : Program W V) (w : W) (v : V) (statsTime : Int32) (ticks : List Tick)
    {ms : List (Message m.proxy.cfg)}
    (hms : Carries m.proxy.cfg (run m.step (Main.init w v statsTime) ticks).handled ms) :
    Progress m.proxy.cfg ms (run m.step (Main.init w v statsTime) ticks).proxy
      (run m.step (Main.init w v statsTime) ticks).place := by
  have hinit : ∀ ms, Carries m.proxy.cfg (Main.init w v statsTime).handled ms →
      Progress m.proxy.cfg ms (Main.init w v statsTime : Main W V).proxy .top := by
    rintro ms ⟨xs, hxs, rfl⟩
    cases hxs
    exact ⟨[], rfl, follows_init m.proxy.cfg w, by rintro c ⟨⟩⟩
  exact run_always
    (fun s : Main W V =>
      ∀ ms, Carries m.proxy.cfg s.handled ms → Progress m.proxy.cfg ms s.proxy s.place)
    (fun s tick h ms hms => progress_step m h tick hms) hinit ticks ms hms

/-! ## The ways `run` returns -/

/-- The records of a message, with their time. -/
def Message.tagged {cfg : Config} (m : Message cfg) : List (UInt32 × Bytes × UInt64) :=
  m.records.map fun r => (m.time, r)

theorem flatMap_records {cfg : Config} (items : List (Item cfg)) :
    items.flatMap Item.records = (items.filterMap Item.message?).flatMap Message.tagged := by
  induction items with
  | nil => rfl
  | cons item items ih =>
    rw [List.flatMap_cons, ih]
    cases item with
    | message m => rfl
    | forceFlush => rfl

/-- **A run that returns 0 has delivered everything**: whatever the backend may do, it
has never failed, nothing is left in the key package, and the last-write-wins store
holds what the records of the messages write, in the order in which they were
handled. -/
theorem run_delivers (m : Program W V) (w : W) (v : V) (statsTime : Int32) (ticks : List Tick)
    {ms : List (Message m.proxy.cfg)} :
    let s := run m.step (Main.init w v statsTime) ticks
    Carries m.proxy.cfg s.handled ms → s.place = .returned 0 →
      (∀ c ∈ s.proxy.env.calls, c.ret = .ok) ∧ s.proxy.kp.enabledPairs = [] ∧
        s.proxy.store
          = applyWrites (fun _ => none) (storeWrites m.proxy.cfg (ms.flatMap Message.tagged)) := by
  intro s hms hplace
  have hprogress := progress_run m w v statsTime ticks hms
  rw [show (run m.step (Main.init w v statsTime) ticks).place = .returned 0 from hplace]
    at hprogress
  obtain ⟨-, items, hrun, hnone⟩ | ⟨hrc, -⟩ := hprogress
  · refine ⟨hrun.ok, ?_, applyWrites_congr ?_ _⟩
    · have hholds := hrun.follows.collects.holds
      rw [hnone] at hholds
      exact hholds.nil_iff.mpr rfl
    · intro kt
      have hclosed : (groupsOf items).closed = (groupsOf items).all := by
        rw [Groups.all, hnone, Option.toList_none, List.append_nil]
      rw [lastValue_flushes hrun.follows.flushes, hclosed, tagged_groupsOf, flatMap_records,
        hrun.messages]
  · cases hrc

/-- **Accounts of a run**: it returns 0 if and only if no callback of the backend failed,
and -1 otherwise. Then all but the last message have been grouped, each closed group
has been delivered once and under its time, and the last group once or not at
all. -/
theorem run_accounts (m : Program W V) (w : W) (v : V) (statsTime : Int32) (ticks : List Tick)
    {ms : List (Message m.proxy.cfg)} {rc : Int} :
    let s := run m.step (Main.init w v statsTime) ticks
    Carries m.proxy.cfg s.handled ms → s.place = .returned rc →
      (rc = 0 ↔ ∀ c ∈ s.proxy.env.calls, c.ret = .ok) ∧
        ((rc = 0 ∧ AtRest m.proxy.cfg ms s.proxy) ∨
          (rc = -1 ∧ ∃ items, GaveUp m.proxy.cfg ms items s.proxy)) := by
  intro s hms hplace
  have hprogress := progress_run m w v statsTime ticks hms
  rw [show (run m.step (Main.init w v statsTime) ticks).place = .returned rc from hplace]
    at hprogress
  refine ⟨?_, hprogress⟩
  rcases hprogress with ⟨rfl, items, hrun, -⟩ | ⟨rfl, items, hgaveUp⟩
  · exact ⟨fun _ => hrun.ok, fun _ => rfl⟩
  · obtain ⟨c, hc, hret⟩ := hgaveUp.failure
    exact ⟨by rintro ⟨⟩, fun hall => absurd (hall c hc) hret⟩

/-- A proxy whose backend fails to flush. -/
def brokenProxy : Proxy Unit :=
  { idleProxy with
    backend :=
      { idleProxy.backend with
        kpFlush := fun kp _ w => (.fail, kp, w)
        kpFlush_erase := idleProxy.backend.kpFlush_erase } }

/-- A message, then one that is rejected, then a signal. -/
def burstOfTwo : List Tick :=
  [.go 0 none, .go 0 (some (.data (messageA 60 1).payload)), .go 0 none, .go 0 (some (.data [])),
    .sigint, .go 0 none, .go 0 none, .go 0 none, .go 0 none]

theorem carries_burstOfTwo :
    Carries idleProxy.cfg [(messageA 60 1).payload, []] [messageA 60 1] := by
  refine ⟨[some (messageA 60 1), none], .cons ⟨rfl, by decide⟩ (.cons ?_ .nil), rfl⟩
  show ¬ Accepts idleProxy.cfg []
  decide

theorem run_delivers_burstOfTwo :
    let s := run (Program.step ⟨idleProxy, idleStats 60⟩) (Main.init () () 0) burstOfTwo
    (∀ c ∈ s.proxy.env.calls, c.ret = .ok) ∧ s.proxy.kp.enabledPairs = [] ∧
      s.proxy.store = applyWrites (fun _ => none)
        (storeWrites idleProxy.cfg ([messageA 60 1].flatMap Message.tagged)) := by
  refine run_delivers ⟨idleProxy, idleStats 60⟩ () () 0 burstOfTwo ?_ (by decide +kernel)
  have hhandled : (run (Program.step ⟨idleProxy, idleStats 60⟩) (Main.init () () 0)
      burstOfTwo).handled = [(messageA 60 1).payload, []] := by
    decide +kernel
  rw [hhandled]
  exact carries_burstOfTwo

theorem run_accounts_broken :
    let s := run (Program.step ⟨brokenProxy, idleStats 60⟩) (Main.init () () 0) burstOfTwo
    ((-1 : Int) = 0 ↔ ∀ c ∈ s.proxy.env.calls, c.ret = .ok) ∧
      (((-1 : Int) = 0 ∧ AtRest brokenProxy.cfg [messageA 60 1] s.proxy) ∨
        ((-1 : Int) = -1 ∧ ∃ items, GaveUp brokenProxy.cfg [messageA 60 1] items s.proxy)) := by
  refine run_accounts ⟨brokenProxy, idleStats 60⟩ () () 0 burstOfTwo ?_ (by decide +kernel)
  have hhandled : (run (Program.step ⟨brokenProxy, idleStats 60⟩) (Main.init () () 0)
      burstOfTwo).handled = [(messageA 60 1).payload, []] := by
    decide +kernel
  rw [hhandled]
  exact carries_burstOfTwo

end TskProxy

end Libtimeseries
