import Libtimeseries.Base.Groups
import Libtimeseries.TskMessage

/-!
# Whole runs of the proxy

Well-formed messages and forced flushes are grouped by time (`groupsOf`): that
is what the proxy is for. Its state follows the groups with `current_time` and
the enabled keys of its package (`Collects`), whatever keys the package has kept
from earlier groups.

The sentinel 0 of `current_time` means that there is no group. A message of time
0 must therefore not carry any record that passes the filters.
-/

namespace Libtimeseries

open ByteLib GroupLib LastWrite RunLib

namespace TskProxy

variable {W : Type}

/-! ## The purpose -/

/-- What the main loop is given: a well-formed message, or a forced flush. -/
inductive Item (cfg : Config) where
  | message (m : Message cfg)
  | forceFlush

namespace Item

variable {cfg : Config}

/-- As the program sees it. -/
def input : Item cfg → Input
  | message m => .message m.payload
  | forceFlush => .forceFlush

/-- The argument of `maybe_flush`. -/
def flushTime : Item cfg → UInt32
  | message m => m.time
  | forceFlush => 0

/-- The records that pass the filters. -/
def writes : Item cfg → List (Bytes × UInt64)
  | message m => cfg.passing m.records
  | forceFlush => []

end Item

/-- The groups after one more item. -/
def Item.group {cfg : Config} (g : Groups UInt32 (Bytes × UInt64)) :
    Item cfg → Groups UInt32 (Bytes × UInt64)
  | .message m => g.add m.time m.records
  | .forceFlush => g.close

/-- The groups of a run: consecutive messages of equal time that no forced flush
separates. -/
def groupsOf {cfg : Config} (items : List (Item cfg)) : Groups UInt32 (Bytes × UInt64) :=
  run Item.group Groups.empty items

/-- The flush of a group: under its time, with exactly the keys received in it,
each once and with its last value. -/
structure Flushes (cfg : Config) (g : Group UInt32 (Bytes × UInt64))
    (f : UInt32 × List (Bytes × UInt64)) : Prop where
  time : f.1 = g.tag
  nodup : (f.2.map Prod.fst).Nodup
  last : ∀ k, lastValue k f.2 = lastValue k (cfg.passing g.items)

/-! ## The state of a group -/

/-- The proxy collects the writes of a group of the given time; with time 0 there
is no group. -/
structure Collects (s : State W) (time : UInt32) (writes : List (Bytes × UInt64)) : Prop where
  wf : s.WellFormed
  currentTime : s.currentTime = time.toInt32
  idle : time = 0 → writes = []
  holds : s.kp.Holds writes

theorem collects_init (w : W) : Collects (State.init w) 0 [] where
  wf := State.wellFormed_init w
  currentTime := rfl
  idle _ := rfl
  holds := ⟨List.nodup_nil, fun _ => rfl⟩

theorem toInt32_inj {a b : UInt32} : a.toInt32 = b.toInt32 ↔ a = b := by
  constructor
  · intro h
    simpa using congrArg Int32.toUInt32 h
  · rintro rfl
    rfl

theorem toInt32_eq_zero {a : UInt32} : a.toInt32 = 0 ↔ a = 0 := toInt32_inj (b := 0)

/-- What an action does to a group, with the calls `new` of the backend. -/
inductive Acts (time : UInt32) (writes pairs : List (Bytes × UInt64)) (time' : UInt32)
    (writes' : List (Bytes × UInt64)) (new : List (Call W)) : Ret → State W → Prop
  /-- the group goes on if the times agree, and is flushed otherwise -/
  | done {s' : State W}
      (collects : Collects s' time' ((if time = time' then writes else []) ++ writes'))
      (flushes : new.filterMap Call.flush?
        = if time ≠ time' ∧ writes ≠ [] then [(time, pairs)] else []) :
      Acts time writes pairs time' writes' new .ok s'
  /-- the backend does not succeed, and the group stays as it is -/
  | failed {r : Ret} {s' : State W} (ret : r ≠ .ok) (call : ∃ c ∈ new, c.ret = r)
      (collects : Collects s' time writes)
      (flushes : ∀ f ∈ new.filterMap Call.flush?, f = (time, pairs)) :
      Acts time writes pairs time' writes' new r s'

theorem Collects.maybeFlush {s s' : State W} {time time' : UInt32}
    {writes : List (Bytes × UInt64)} (h : Collects s time writes) (hwf : s'.WellFormed)
    {new : List (Call W)} {r : Ret} (hflush : MaybeFlush time'.toInt32 s new r s') :
    Acts time writes s.kp.enabledPairs time' [] new r s' := by
  cases hflush with
  | stays hsame htime hkp hcalls =>
    -- with other times there was no group, hence nothing to lose
    rw [h.currentTime, toInt32_eq_zero, toInt32_inj] at hsame
    have hwrites : (if time = time' then writes else []) = writes := by
      split
      · rfl
      · next hne => exact (h.idle (hsame.resolve_right (Ne.symm hne))).symm
    have hnone : ¬ (time ≠ time' ∧ writes ≠ []) := by
      rintro ⟨hne, hwrites⟩
      exact hwrites (h.idle (hsame.resolve_right (Ne.symm hne)))
    refine .done ⟨hwf, htime, ?_, ?_⟩ ?_
    · intro hzero
      rw [hwrites, List.append_nil]
      exact h.idle (hsame.elim id fun heq => heq ▸ hzero)
    · rw [hwrites, List.append_nil]
      exact h.holds.congr (by rw [hkp])
    · rw [if_neg hnone, hcalls]
      rfl
  | ends hopen hother htime hkp hflushes =>
    rw [h.currentTime] at hother
    have hne : time ≠ time' := by
      rintro rfl
      exact hother rfl
    refine .done ⟨hwf, htime, ?_, ?_⟩ ?_
    · intro _
      rw [if_neg hne]
      rfl
    · rw [if_neg hne]
      constructor
      · rw [hkp]
        exact List.nodup_nil
      · intro k
        rw [hkp]
        rfl
    · rw [hflushes, h.currentTime, UInt32.toUInt32_toInt32]
      by_cases hnil : writes = []
      · rw [if_pos (h.holds.nil_iff.mpr hnil), if_neg fun hand => hand.2 hnil]
      · rw [if_neg fun hpairs => hnil (h.holds.nil_iff.mp hpairs), if_pos ⟨hne, hnil⟩]
  | fails hret htime hkp hcall _ hflushes =>
    rw [h.currentTime, UInt32.toUInt32_toInt32] at hflushes
    have hholds := h.holds.congr (Kp.enabledPairs_of_core hkp)
    exact .failed hret hcall ⟨hwf, htime.trans h.currentTime, h.idle, hholds⟩ hflushes

/-- **One action**: a message or a forced flush, whatever the backend does. -/
theorem Collects.act (p : Proxy W) {s : State W} {time : UInt32} {writes : List (Bytes × UInt64)}
    (h : Collects s time writes) (item : Item p.cfg)
    (hzero : item.flushTime = 0 → item.writes = []) :
    ∃ new, (p.act s item.input).2.env.calls = s.env.calls ++ new ∧
      Acts time writes s.kp.enabledPairs item.flushTime item.writes new (p.act s item.input).1
        (p.act s item.input).2 := by
  cases item with
  | forceFlush =>
    obtain ⟨new, hext, hflush⟩ := maybeFlush_spec p forceFlush h.wf
    rw [show forceFlush = (0 : UInt32).toInt32 from rfl] at hext hflush
    exact ⟨new, hext.calls, h.maybeFlush hext.wf hflush⟩
  | message m =>
    obtain ⟨-, new, s₁, hext, hres⟩ := handleMessage_spec p m h.wf
    show ∃ new, (p.handleMessage m.payload s).2.env.calls = _ ∧
      Acts time writes s.kp.enabledPairs m.time (p.cfg.passing m.records) new
        (p.handleMessage m.payload s).1 (p.handleMessage m.payload s).2
    generalize p.handleMessage m.payload s = r at hres ⊢
    obtain ⟨r, s'⟩ := r
    rcases hres with ⟨hok, hflush, happ⟩ | ⟨hne, hflush, hs'⟩
    · obtain rfl : r = .ok := hok
      refine ⟨new, by rw [happ.env, hext.calls], ?_⟩
      cases h.maybeFlush hext.wf hflush with
      | done hcollects hflushes =>
        refine .done ⟨happ.wf, happ.time.trans hcollects.currentTime, ?_, ?_⟩ hflushes
        · intro htime
          have hidle := hcollects.idle htime
          rw [List.append_nil] at hidle
          rw [hidle, List.nil_append]
          exact hzero htime
        · have hholds := hcollects.holds
          rw [List.append_nil] at hholds
          exact happ.holds _ hholds
      | failed hret => exact absurd rfl hret
    · obtain rfl : s' = s₁ := hs'
      refine ⟨new, hext.calls, ?_⟩
      cases h.maybeFlush hext.wf hflush with
      | done => exact absurd rfl hne
      | failed hret hcall hcollects hflushes => exact .failed hret hcall hcollects hflushes

/-! ## Runs -/

/-- The inputs of a run. -/
def inputs {cfg : Config} (items : List (Item cfg)) : List Input := items.map Item.input

/-- The proxy collects the current group and has flushed the closed ones. -/
structure Follows (cfg : Config) (g : Groups UInt32 (Bytes × UInt64)) (s : State W) : Prop where
  tag : ∀ cur, g.current = some cur → cur.tag ≠ 0
  collects : Collects s (g.current.elim 0 Group.tag) (cfg.passing (g.current.elim [] Group.items))
  flushes : List.Forall₂ (Flushes cfg) (g.closed.filter fun g => cfg.passing g.items ≠ [])
    s.env.flushes

theorem follows_init (cfg : Config) (w : W) : Follows cfg Groups.empty (State.init w) :=
  ⟨by rintro _ ⟨⟩, collects_init w, .nil⟩

section Group

variable {cfg : Config} {g : Groups UInt32 (Bytes × UInt64)} {cur : Group UInt32 (Bytes × UInt64)}

/-- After an item the current group is that of its time. -/
theorem Item.group_time (item : Item cfg) (g : Groups UInt32 (Bytes × UInt64)) :
    (item.group g).current.elim 0 Group.tag = item.flushTime := by
  cases item with
  | forceFlush => rfl
  | message m =>
    show (g.add m.time m.records).current.elim 0 Group.tag = m.time
    cases hcur : g.current with
    | none => rw [Groups.add_of_none g m.records hcur]; rfl
    | some cur =>
      by_cases hsame : cur.tag = m.time
      · rw [Groups.add_of_eq g m.records hcur hsame]
        rfl
      · rw [Groups.add_of_ne g m.records hcur hsame]
        rfl

/-- Its writes are those of the item, behind those of the group that goes on. -/
theorem Item.group_writes (item : Item cfg)
    (htag : ∀ cur, g.current = some cur → cur.tag ≠ 0) :
    cfg.passing ((item.group g).current.elim [] Group.items)
      = (if g.current.elim 0 Group.tag = item.flushTime then
          cfg.passing (g.current.elim [] Group.items) else []) ++ item.writes := by
  cases item with
  | forceFlush =>
    show [] = _ ++ []
    cases hcur : g.current with
    | none => rfl
    | some cur =>
      have hne : ¬ Option.elim (some cur) 0 Group.tag = (Item.forceFlush : Item cfg).flushTime :=
        htag cur hcur
      rw [if_neg hne]
      rfl
  | message m =>
    show cfg.passing ((g.add m.time m.records).current.elim [] Group.items) = _
    cases hcur : g.current with
    | none =>
      rw [Groups.add_of_none g m.records hcur]
      show cfg.passing m.records = (if _ then cfg.passing [] else []) ++ _
      split <;> rfl
    | some cur =>
      by_cases hsame : cur.tag = m.time
      · rw [Groups.add_of_eq g m.records hcur hsame]
        show cfg.passing (cur.items ++ m.records) = (if cur.tag = m.time then _ else []) ++ _
        rw [if_pos hsame, cfg.passing_append]
        rfl
      · rw [Groups.add_of_ne g m.records hcur hsame]
        show cfg.passing m.records = (if cur.tag = m.time then _ else []) ++ _
        rw [if_neg hsame]
        rfl

/-- An item of another time closes the current group. -/
theorem Item.group_closed (item : Item cfg) (hcur : g.current = some cur) (htag : cur.tag ≠ 0) :
    (item.group g).closed
      = if cur.tag = item.flushTime then g.closed else g.closed ++ [cur] := by
  cases item with
  | forceFlush =>
    show g.closed ++ g.current.toList = if cur.tag = 0 then _ else _
    rw [hcur, if_neg htag]
    rfl
  | message m =>
    show (g.add m.time m.records).closed = if cur.tag = m.time then _ else _
    split
    · next hsame => rw [Groups.add_of_eq g m.records hcur hsame]
    · next hsame => rw [Groups.add_of_ne g m.records hcur hsame]

theorem Item.group_closed_none (item : Item cfg) (hcur : g.current = none) :
    (item.group g).closed = g.closed := by
  cases item with
  | forceFlush =>
    show g.closed ++ g.current.toList = g.closed
    rw [hcur, Option.toList_none, List.append_nil]
  | message m =>
    show (g.add m.time m.records).closed = g.closed
    rw [Groups.add_of_none g m.records hcur]

end Group

/-- The flush that closes the current group. -/
theorem Follows.close {cfg : Config} {g : Groups UInt32 (Bytes × UInt64)} {s : State W}
    (h : Follows cfg g s) {cur : Group UInt32 (Bytes × UInt64)} (hcur : g.current = some cur) :
    List.Forall₂ (Flushes cfg) ((g.closed ++ [cur]).filter fun g => cfg.passing g.items ≠ [])
      (s.env.flushes ++
        if cfg.passing cur.items ≠ [] then [(cur.tag, s.kp.enabledPairs)] else []) := by
  have hholds := h.collects.holds
  rw [hcur] at hholds
  rw [List.filter_append]
  refine List.rel_append h.flushes ?_
  by_cases hnil : cfg.passing cur.items = []
  · rw [if_neg (not_not.mpr hnil), List.filter_cons_of_neg (by simpa using hnil)]
    exact .nil
  · rw [if_pos hnil, List.filter_cons_of_pos (by simpa using hnil)]
    exact .cons ⟨rfl, hholds.nodup, hholds.last⟩ .nil

/-- One action follows the groups, if the backend does not fail. -/
theorem Follows.step (p : Proxy W) {g : Groups UInt32 (Bytes × UInt64)} {s : State W}
    (h : Follows p.cfg g s) (item : Item p.cfg)
    (htime : ∀ m, item = .message m → m.time ≠ 0) {new : List (Call W)}
    (hcalls : (p.act s item.input).2.env.calls = s.env.calls ++ new)
    (hok : ∀ c ∈ new, c.ret = .ok) :
    (p.act s item.input).1 = .ok ∧ Follows p.cfg (item.group g) (p.act s item.input).2 := by
  have hzero : item.flushTime = 0 → item.writes = [] := by
    cases item with
    | message m => exact fun hzero => absurd hzero (htime m rfl)
    | forceFlush => exact fun _ => rfl
  obtain ⟨new', hcalls', hacts⟩ := h.collects.act p item hzero
  obtain rfl : new' = new := List.append_cancel_left (hcalls'.symm.trans hcalls)
  have hflushes := Env.flushes_of_calls hcalls
  generalize p.act s item.input = r at hflushes hacts ⊢
  obtain ⟨r, s'⟩ := r
  cases hacts with
  | failed hne hcall =>
    obtain ⟨c, hc, hret⟩ := hcall
    exact absurd (hret.symm.trans (hok c hc)) hne
  | done hcollects hnew =>
    rw [hnew] at hflushes
    dsimp only at hflushes ⊢
    refine ⟨rfl, ?_, ?_, ?_⟩
    · intro cur hcur
      cases item with
      | forceFlush => cases hcur
      | message m =>
        have hcurrent := Item.group_time (.message m) g
        rw [hcur] at hcurrent
        rw [show cur.tag = m.time from hcurrent]
        exact htime m rfl
    · rw [item.group_time, item.group_writes h.tag]
      exact hcollects
    · cases hcur : g.current with
      | none =>
        -- no group: nothing is flushed
        rw [hcur, if_neg fun hand => hand.2 rfl, List.append_nil] at hflushes
        rw [item.group_closed_none hcur, hflushes]
        exact h.flushes
      | some cur =>
        have hclose := h.close hcur
        rw [item.group_closed hcur (h.tag cur hcur), hflushes, hcur]
        show List.Forall₂ _ _ (_ ++ if cur.tag ≠ item.flushTime ∧ p.cfg.passing cur.items ≠ [] then
          [(cur.tag, s.kp.enabledPairs)] else [])
        by_cases hsame : cur.tag = item.flushTime
        · rw [if_pos hsame, if_neg fun hand => hand.1 hsame, List.append_nil]
          exact h.flushes
        · rw [if_neg hsame]
          simpa [hsame] using hclose

/-- Callbacks are only ever added. -/
theorem Item.calls_act (p : Proxy W) {s : State W} (h : s.WellFormed) (item : Item p.cfg) :
    ∃ new, (p.act s item.input).2.env.calls = s.env.calls ++ new := by
  cases item with
  | forceFlush =>
    obtain ⟨new, hext, -⟩ := maybeFlush_spec p TskProxy.forceFlush h
    exact ⟨new, hext.calls⟩
  | message m =>
    obtain ⟨-, new, s₁, hext, ⟨-, -, happ⟩ | ⟨-, -, hs₁⟩⟩ := handleMessage_spec p m h
    · exact ⟨new, (congrArg Env.calls happ.env).trans hext.calls⟩
    · exact ⟨new, (congrArg (fun s => s.env.calls) hs₁).trans hext.calls⟩

theorem groupsOf_concat {cfg : Config} (items : List (Item cfg)) (item : Item cfg) :
    groupsOf (items ++ [item]) = item.group (groupsOf items) :=
  run_append _ _ _ _

theorem inputs_concat {cfg : Config} (items : List (Item cfg)) (item : Item cfg) :
    inputs (items ++ [item]) = inputs items ++ [item.input] :=
  List.map_append

/-- Runs follow the groups, and every action succeeds. -/
theorem follows_run (p : Proxy W) (w : W) (items : List (Item p.cfg))
    (htimes : ∀ m, .message m ∈ items → m.time ≠ 0)
    (hok : ∀ c ∈ (run p.step (State.init w) (inputs items)).env.calls, c.ret = .ok) :
    Follows p.cfg (groupsOf items) (run p.step (State.init w) (inputs items)) ∧
      Along p.step (fun s i => (p.act s i).1 = .ok) (State.init w) (inputs items) := by
  induction items using List.reverseRecOn with
  | nil => exact ⟨follows_init p.cfg w, along_nil _⟩
  | append_singleton items item ih =>
    rw [inputs_concat, run_append] at hok
    rw [groupsOf_concat, inputs_concat, run_append, along_append]
    obtain ⟨new, hcalls⟩ := item.calls_act p (wellFormed_run p w (inputs items))
    generalize run p.step (State.init w) (inputs items) = s at hok hcalls ih ⊢
    have hok' : ∀ c ∈ s.env.calls ++ new, c.ret = .ok := hcalls ▸ hok
    obtain ⟨hok₁, hok₂⟩ := List.forall_mem_append.mp hok'
    obtain ⟨hfollows, halong⟩ := ih (fun m hm => htimes m (List.mem_append_left _ hm)) hok₁
    have htime : ∀ m, item = .message m → m.time ≠ 0 := by
      rintro m rfl
      exact htimes m (List.mem_append_right _ List.mem_cons_self)
    obtain ⟨hret, hfollows'⟩ := hfollows.step p item htime hcalls hok₂
    exact ⟨hfollows', halong, hret, trivial⟩

/-- **Whole runs of the proxy**: for every sequence of well-formed messages with
non-zero times and forced flushes, the flushes that reach the backend are those
of the closed groups in which a record passed the filters, in order; and the
proxy never fails. -/
theorem flushes_groups (p : Proxy W) (w : W) (items : List (Item p.cfg))
    (htimes : ∀ m, .message m ∈ items → m.time ≠ 0)
    (hok : ∀ c ∈ (run p.step (State.init w) (inputs items)).env.calls, c.ret = .ok) :
    List.Forall₂ (Flushes p.cfg)
        ((groupsOf items).closed.filter fun g => p.cfg.passing g.items ≠ [])
        (run p.step (State.init w) (inputs items)).env.flushes ∧
      Along p.step (fun s i => (p.act s i).1 = .ok) (State.init w) (inputs items) := by
  obtain ⟨hfollows, halong⟩ := follows_run p w items htimes hok
  exact ⟨hfollows.flushes, halong⟩

/-- A message to the idle proxy with one record, for the key `a`. -/
def messageA (time : UInt32) (value : UInt64) : Message idleProxy.cfg where
  magic := Tsk.batchMagic
  time := time
  channel := [99]
  records := [([97], value)]
  magic_length := batchMagic_length
  channel_lt := by decide
  accepted := rfl
  keys := by simp [keyBufLen]
  size_lt := by simp [Tsk.message, Tsk.batchMagic]

/-- Two groups, the second of which goes back to the time of the first. -/
theorem flushes_groups_threeMessages :
    let items : List (Item idleProxy.cfg) :=
      [.message (messageA 60 1), .message (messageA 120 2), .message (messageA 60 3), .forceFlush]
    List.Forall₂ (Flushes idleProxy.cfg)
        ((groupsOf items).closed.filter fun g => idleProxy.cfg.passing g.items ≠ [])
        (run idleProxy.step (State.init ()) (inputs items)).env.flushes ∧
      Along idleProxy.step (fun s i => (idleProxy.act s i).1 = .ok) (State.init ())
        (inputs items) := by
  intro items
  refine flushes_groups idleProxy () items ?_ (by decide +kernel)
  intro m hm
  simp only [items, List.mem_cons, Item.message.injEq, List.not_mem_nil, or_false,
    reduceCtorEq] at hm
  rcases hm with rfl | rfl | rfl
  · decide
  · decide
  · decide

end TskProxy

end Libtimeseries
