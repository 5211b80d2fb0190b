import Mathlib.Logic.Function.Basic
import Libtimeseries.Base.Ledgers
import Libtimeseries.Base.Scanning
import Libtimeseries.Kp

/-!
# An instance of the library (`timeseries.c`, `timeseries_backend.c`)

`timeseries_init` allocates the backends that are built in, `timeseries_enable_backend`
initialises one of them, whose callbacks are then called by the loops over the enabled
backends, and `timeseries_free` frees those that are enabled.

Modelling choices:

- a backend is its callbacks and its state, which each of them has for itself;
- `parse_cmd` is a parameter, and `getopt` gives a list of options;
- a data callback is split into the calls it makes of the library behind the backend,
  `Op.call`, each for the bytes that are there to be written;
- a handle that such a library returns is the number of the call that returned it, and
  what the code does with handles is recorded in a ledger (`Io`).

`Managed` is the rule for a property of the backends: if it holds from a successful
`init` to `free`, for all that each of these callbacks does, it holds in every run.
-/

namespace Libtimeseries

open ByteLib LedgerLib RunLib

namespace Registry

/-- What `getopt` returns, option by option: the letter and the argument. Anything but a
letter that the backend knows stands for `?` and `:`. -/
abbrev Options := List (UInt8 × CString)

/-- The callbacks of a backend that work on its connection. -/
structure Callbacks (σ : Type) where
  init : Options → σ → Ret × σ
  /-- the calls of the library behind the backend for that many bytes -/
  call : Nat → σ → σ
  free : σ → σ

/-- `struct timeseries`, with the states of the backends. -/
structure Instance (σ : BackendId → Type) where
  /-- is `backends[id - 1]` not NULL? -/
  allocated : BackendId → Bool
  enabled : BackendId → Bool
  state : ∀ id, σ id

/-- `BACKEND_NAME` -/
def nameOf : BackendId → CString
  | .ascii => CString.ofAscii "ascii"
  | .dbats => CString.ofAscii "dbats"
  | .kafka => CString.ofAscii "kafka"

/-- C's `tolower`. -/
def toLower (b : UInt8) : UInt8 := if 65 ≤ b ∧ b ≤ 90 then b + 32 else b

/-- `strcasecmp(s, t) == 0` -/
def strcasecmpEq (s t : CString) : Bool := s.bytes.map toLower = t.bytes.map toLower

variable {σ : BackendId → Type}

/-- `timeseries_init`: `available` says which backends are built in, and could be
allocated. -/
def Instance.init (available : BackendId → Bool) (s : ∀ id, σ id) : Instance σ :=
  ⟨available, fun _ => false, s⟩

/-- `timeseries_get_backend_by_name` -/
def Instance.getBackendByName (i : Instance σ) (name : CString) : Option BackendId :=
  BackendId.all.find? fun id => i.allocated id && strcasecmpEq (nameOf id) name

section Calls

variable (cb : ∀ id, Callbacks (σ id))

/-- `timeseries_enable_backend`, which is `timeseries_backend_init` on the parsed
options. -/
def enableBackend (id : BackendId) (options : Options) (i : Instance σ) : Ret × Instance σ :=
  if i.enabled id then
    -- it is already initialized, and the new settings are ignored
    (.ok, i)
  else
    let r := (cb id).init options (i.state id)
    (r.1, { i with
      enabled := if r.1 = .ok then Function.update i.enabled id true else i.enabled
      state := Function.update i.state id r.2 })

/-- `init_timeseries` of `timeseries-insert`: the name ends at the first space. -/
def initTimeseries (parseCmd : Option CString → Options) (tsBackend : CString) (i : Instance σ) :
    Ret × Instance σ :=
  let n := tsBackend.strcspn 32
  let args := if n < tsBackend.strlen then some (tsBackend.drop (n + 1)) else none
  match i.getBackendByName (tsBackend.take n) with
  | none => (.fail, i)
  | some id => enableBackend cb id (parseCmd args) i

/-- `timeseries_backend_free` -/
def backendFree (i : Instance σ) (id : BackendId) : Instance σ where
  allocated := Function.update i.allocated id false
  enabled := Function.update i.enabled id false
  state :=
    if i.allocated id && i.enabled id then
      Function.update i.state id ((cb id).free (i.state id))
    else i.state

/-- `timeseries_free` -/
def timeseriesFree (i : Instance σ) : Instance σ := BackendId.all.foldl (backendFree cb) i

/-- What an application does with an instance. -/
inductive Op where
  | enable (id : BackendId) (options : Options)
  | enableByName (tsBackend : CString)
  | call (id : BackendId) (written : Nat)

/-- One step of the application. Only backends that are there can be enabled, and the
loops over the backends skip those that are not enabled. -/
def step (parseCmd : Option CString → Options) (i : Instance σ) : Op → Instance σ
  | .enable id options => if i.allocated id then (enableBackend cb id options i).2 else i
  | .enableByName tsBackend => (initTimeseries cb parseCmd tsBackend i).2
  | .call id written =>
    if i.enabled id then
      { i with state := Function.update i.state id ((cb id).call written (i.state id)) }
    else i

end Calls

/-! ## Names -/

/-- A name stands for at most one backend. -/
theorem nameOf_inj {id id' : BackendId} {name : CString} (h : strcasecmpEq (nameOf id) name = true)
    (h' : strcasecmpEq (nameOf id') name = true) : id = id' := by
  have hsame : (nameOf id).bytes.map toLower = (nameOf id').bytes.map toLower :=
    (of_decide_eq_true h).trans (of_decide_eq_true h').symm
  cases id <;> cases id' <;> first | rfl | exact absurd hsame (by decide)

/-- A backend is found by its name in capital or small letters, if it is there. -/
theorem Instance.getBackendByName_eq_some (i : Instance σ) (name : CString) (id : BackendId) :
    i.getBackendByName name = some id ↔
      i.allocated id = true ∧ strcasecmpEq (nameOf id) name = true := by
  rw [getBackendByName]
  constructor
  · intro h
    have hfound := List.find?_some (p := fun id => i.allocated id && strcasecmpEq (nameOf id) name) h
    exact Bool.and_eq_true_iff.mp hfound
  · intro h
    obtain ⟨id', hid'⟩ : ∃ id', BackendId.all.find? (fun id =>
        i.allocated id && strcasecmpEq (nameOf id) name) = some id' := by
      rw [← Option.isSome_iff_exists, List.find?_isSome]
      exact ⟨id, BackendId.mem_all id, Bool.and_eq_true_iff.mpr h⟩
    have hfound := List.find?_some (p := fun id => i.allocated id && strcasecmpEq (nameOf id) name) hid'
    rw [hid', nameOf_inj (Bool.and_eq_true_iff.mp hfound).2 h.2]

/-! ## The rule -/

/-- A backend is `Idle` until `init` succeeds, `Ready` from then on, and `Idle` again
behind `free`. -/
structure Managed (cb : ∀ id, Callbacks (σ id)) (Idle Ready : ∀ id, σ id → Prop) : Prop where
  initOk : ∀ id options s, Idle id s → ((cb id).init options s).1 = .ok →
    Ready id ((cb id).init options s).2
  initFail : ∀ id options s, Idle id s → ((cb id).init options s).1 ≠ .ok →
    Idle id ((cb id).init options s).2
  call : ∀ id written s, Ready id s → Ready id ((cb id).call written s)
  free : ∀ id s, Ready id s → Idle id ((cb id).free s)

/-- Enabled backends are there and ready, the others idle. -/
structure Inv (Idle Ready : ∀ id, σ id → Prop) (i : Instance σ) : Prop where
  allocated : ∀ id, i.enabled id = true → i.allocated id = true
  ready : ∀ id, i.enabled id = true → Ready id (i.state id)
  idle : ∀ id, i.enabled id = false → Idle id (i.state id)

section Rule

variable {cb : ∀ id, Callbacks (σ id)} {Idle Ready : ∀ id, σ id → Prop}
  (hm : Managed cb Idle Ready)

/-- One backend changes. -/
theorem Inv.update {i i' : Instance σ} (h : Inv Idle Ready i) {id : BackendId} {s : σ id}
    (hallocated : i'.enabled id = true → i'.allocated id = true)
    (hothers : ∀ id' ≠ id, i'.enabled id' = i.enabled id' ∧ i'.allocated id' = i.allocated id')
    (hstate : i'.state = Function.update i.state id s)
    (hready : i'.enabled id = true → Ready id s) (hidle : i'.enabled id = false → Idle id s) :
    Inv Idle Ready i' := by
  constructor
  · intro id' hid'
    by_cases heq : id' = id
    · subst heq
      exact hallocated hid'
    · rw [(hothers id' heq).2]
      exact h.allocated id' ((hothers id' heq).1 ▸ hid')
  · intro id' hid'
    rw [hstate]
    by_cases heq : id' = id
    · subst heq
      rw [Function.update_self]
      exact hready hid'
    · rw [Function.update_of_ne heq]
      exact h.ready id' ((hothers id' heq).1 ▸ hid')
  · intro id' hid'
    rw [hstate]
    by_cases heq : id' = id
    · subst heq
      rw [Function.update_self]
      exact hidle hid'
    · rw [Function.update_of_ne heq]
      exact h.idle id' ((hothers id' heq).1 ▸ hid')

theorem inv_init (available : BackendId → Bool) {s : ∀ id, σ id} (h : ∀ id, Idle id (s id)) :
    Inv Idle Ready (Instance.init available s) :=
  ⟨fun _ hen => Bool.noConfusion hen, fun _ hen => Bool.noConfusion hen, fun id _ => h id⟩

include hm

theorem Inv.enableBackend {i : Instance σ} (h : Inv Idle Ready i) {id : BackendId}
    (hid : i.allocated id = true) (options : Options) :
    Inv Idle Ready (Registry.enableBackend cb id options i).2 := by
  rw [Registry.enableBackend]
  cases henabled : i.enabled id with
  | true => exact h
  | false =>
    have hidle := h.idle id henabled
    rw [if_neg (by simp)]
    by_cases hok : ((cb id).init options (i.state id)).1 = .ok
    · refine h.update (fun _ => hid) (fun id' hne => ⟨?_, rfl⟩) rfl
        (fun _ => hm.initOk id options _ hidle hok) ?_
      · dsimp only
        rw [if_pos hok, Function.update_of_ne hne]
      · dsimp only
        rw [if_pos hok, Function.update_self]
        rintro ⟨⟩
    · refine h.update (fun _ => hid) (fun id' hne => ⟨?_, rfl⟩) rfl ?_
        fun _ => hm.initFail id options _ hidle hok
      · dsimp only
        rw [if_neg hok]
      · dsimp only
        rw [if_neg hok, henabled]
        rintro ⟨⟩

theorem Inv.step {i : Instance σ} (h : Inv Idle Ready i) (parseCmd : Option CString → Options)
    (op : Op) : Inv Idle Ready (Registry.step cb parseCmd i op) := by
  cases op with
  | enable id options =>
    rw [Registry.step]
    split
    · next hid => exact h.enableBackend hm hid options
    · exact h
  | enableByName tsBackend =>
    rw [Registry.step, initTimeseries]
    split
    · exact h
    · next id hname =>
      exact h.enableBackend hm ((i.getBackendByName_eq_some _ id).mp hname).1 _
  | call id written =>
    rw [Registry.step]
    split
    · next hid =>
      refine h.update (h.allocated id) (fun _ _ => ⟨rfl, rfl⟩) rfl (fun _ => ?_) fun hdisabled => ?_
      · exact hm.call id written _ (h.ready id hid)
      · rw [show i.enabled id = false from hdisabled] at hid
        cases hid
    · exact h

theorem Inv.backendFree {i : Instance σ} (h : Inv Idle Ready i) (id : BackendId) :
    Inv Idle Ready (Registry.backendFree cb i id) := by
  have hdisabled : (Registry.backendFree cb i id).enabled id = false := Function.update_self ..
  have hothers : ∀ id' ≠ id, (Registry.backendFree cb i id).enabled id' = i.enabled id' ∧
      (Registry.backendFree cb i id).allocated id' = i.allocated id' :=
    fun id' hne => ⟨Function.update_of_ne hne _ _, Function.update_of_ne hne _ _⟩
  have hnot : ∀ P : Prop, (Registry.backendFree cb i id).enabled id = true → P := by
    intro P hen
    rw [hdisabled] at hen
    cases hen
  cases henabled : i.enabled id with
  | true =>
    have hstate : (Registry.backendFree cb i id).state
        = Function.update i.state id ((cb id).free (i.state id)) := by
      rw [Registry.backendFree, h.allocated id henabled, henabled]
      rfl
    exact h.update (hnot _) hothers hstate (hnot _) fun _ => hm.free id _ (h.ready id henabled)
  | false =>
    have hstate : (Registry.backendFree cb i id).state
        = Function.update i.state id (i.state id) := by
      rw [Registry.backendFree, henabled, Bool.and_false, Function.update_eq_self]
      rfl
    exact h.update (hnot _) hothers hstate (hnot _) fun _ => h.idle id henabled

/-- **The rule**: in every run of an application enabled backends are ready and the others
idle, and `timeseries_free` leaves all of them idle. -/
theorem managed_run (parseCmd : Option CString → Options) (available : BackendId → Bool)
    {s : ∀ id, σ id} (hs : ∀ id, Idle id (s id)) (ops : List Op) :
    let i := run (Registry.step cb parseCmd) (Instance.init available s) ops
    Inv Idle Ready i ∧ ∀ id, Idle id ((timeseriesFree cb i).state id) := by
  intro i
  have hinv : Inv Idle Ready i :=
    run_always (Inv Idle Ready) (fun _ op h => h.step hm parseCmd op) (inv_init available hs) ops
  have hfreed : Inv Idle Ready (timeseriesFree cb i) :=
    ((hinv.backendFree hm .ascii).backendFree hm .dbats).backendFree hm .kafka
  refine ⟨hinv, fun id => hfreed.idle id ?_⟩
  cases id <;> rfl

end Rule

/-! ## The libraries behind the backends -/

/-- The calls of a library so far. -/
structure Io where
  /-- how many they were -/
  calls : Nat
  /-- what they did with handles -/
  log : List (Entry Nat)
  /-- not a variable of the program: the live handles that no pointer points to any
  more -/
  lost : List Nat
  /-- the seconds of the calls of `sleep` -/
  sleeps : List Nat

def Io.init : Io := ⟨0, [], [], []⟩

/-- A call that has nothing to do with handles. -/
def Io.tick (io : Io) : Io := { io with calls := io.calls + 1 }

def Io.enter (io : Io) (e : Entry Nat) : Io :=
  { io with calls := io.calls + 1, log := io.log ++ [e] }

/-- The last pointer to a handle, if it is not NULL, is overwritten or forgotten. -/
def Io.lose (io : Io) (h : Option Nat) : Io := { io with lost := io.lost ++ h.toList }

/-- The backend of a library: its state, if it is registered, and the library. -/
structure Link (α : Type) where
  state : Option α
  io : Io

def Link.init {α : Type} : Link α := ⟨none, .init⟩

/-- The library was called, but nothing was lost and nobody slept. -/
structure Io.Quiet (io io' : Io) : Prop where
  lost : io'.lost = io.lost
  sleeps : io'.sleeps = io.sleeps

theorem Io.Quiet.refl (io : Io) : io.Quiet io := ⟨rfl, rfl⟩

theorem Io.Quiet.trans {a b c : Io} (h : a.Quiet b) (h' : b.Quiet c) : a.Quiet c :=
  ⟨h'.lost.trans h.lost, h'.sleeps.trans h.sleeps⟩

/-- Every handle was used within its life, and those that are live are the ones the
pointers `own` point to, and those that are lost. -/
structure Io.Holds (io : Io) (own : Holdings Nat) : Prop where
  keeps : Keeps io.log (io.lost.map (fun h => (h, none)) ++ own)
  /-- later calls have larger numbers -/
  increasing : (io.lost ++ own.map Prod.fst).Pairwise (· < ·)
  past : ∀ h ∈ io.lost ++ own.map Prod.fst, h < io.calls

namespace Io

theorem holds_init : Io.init.Holds [] := ⟨keeps_nil, .nil, List.forall_mem_nil _⟩

variable {io : Io} {own : Holdings Nat} {h : Nat} {on : Option Nat}

theorem map_fst_holdings (lost : List Nat) (own : Holdings Nat) :
    (lost.map (fun h => (h, (none : Option Nat))) ++ own).map Prod.fst
      = lost ++ own.map Prod.fst := by
  rw [List.map_append, List.map_map]
  exact congrArg (· ++ _) (List.map_id lost)

theorem Holds.tick (hio : io.Holds own) : io.tick.Holds own :=
  ⟨hio.keeps, hio.increasing, fun h hh => Nat.lt_succ_of_lt (hio.past h hh)⟩

theorem Holds.sleep (hio : io.Holds own) (seconds : List Nat) :
    ({ io with sleeps := seconds } : Io).Holds own :=
  ⟨hio.keeps, hio.increasing, hio.past⟩

/-- A call that returns a handle. -/
theorem Holds.acquire (hio : io.Holds own) (hon : ∀ p, on = some p → p ∈ own.map Prod.fst) :
    (io.enter (.acquire io.calls on)).Holds (own ++ [(io.calls, on)]) := by
  have hids : io.lost ++ (own ++ [(io.calls, on)]).map Prod.fst
      = (io.lost ++ own.map Prod.fst) ++ [io.calls] := by
    rw [List.map_append, List.append_assoc]
    rfl
  refine ⟨?_, ?_, ?_⟩
  · rw [← List.append_assoc]
    refine hio.keeps.acquire ?_ ?_
    · intro e he heq
      have hmem := List.mem_map_of_mem (f := Prod.fst) he
      rw [map_fst_holdings, heq] at hmem
      exact Nat.lt_irrefl _ (hio.past _ hmem)
    · intro p hp
      obtain ⟨e, he, heq⟩ := List.mem_map.mp (hon p hp)
      exact ⟨e, List.mem_append_right _ he, heq⟩
  · show (io.lost ++ (own ++ [(io.calls, on)]).map Prod.fst).Pairwise (· < ·)
    rw [hids]
    refine List.pairwise_append.mpr ⟨hio.increasing, List.pairwise_singleton _ _, ?_⟩
    intro a ha b hb
    rw [List.mem_singleton.mp hb]
    exact hio.past a ha
  · show ∀ h ∈ io.lost ++ (own ++ [(io.calls, on)]).map Prod.fst, h < io.calls + 1
    rw [hids]
    refine List.forall_mem_append.mpr ⟨fun h hh => Nat.lt_succ_of_lt (hio.past h hh), ?_⟩
    exact List.forall_mem_singleton.mpr (Nat.lt_succ_self _)

/-- A call with a handle. -/
theorem Holds.use (hio : io.Holds own) (hmem : (h, on) ∈ own) :
    (io.enter (.use (some h))).Holds own :=
  ⟨hio.keeps.use (e := (h, on)) (List.mem_append_right _ hmem), hio.increasing,
    fun h hh => Nat.lt_succ_of_lt (hio.past h hh)⟩

/-- The call that releases the handle that was acquired last. -/
theorem Holds.release (hio : io.Holds (own ++ [(h, on)])) (hon : on ≠ some h)
    (hown : ∀ e ∈ own, e.2 ≠ some h) : (io.enter (.release (some h))).Holds own := by
  have hids : io.lost ++ (own ++ [(h, on)]).map Prod.fst
      = (io.lost ++ own.map Prod.fst) ++ [h] := by
    rw [List.map_append, List.append_assoc]
    rfl
  have hincreasing := hio.increasing
  have hpast := hio.past
  rw [hids] at hincreasing hpast
  obtain ⟨hrest, -, hlast⟩ := List.pairwise_append.mp hincreasing
  have hkeeps := hio.keeps
  rw [← List.append_assoc] at hkeeps
  refine ⟨hkeeps.release ?_ ?_, hrest, fun h' hh' =>
    Nat.lt_succ_of_lt (hpast h' (List.mem_append_left _ hh'))⟩
  · intro e he heq
    have hmem := List.mem_map_of_mem (f := Prod.fst) he
    rw [map_fst_holdings, heq] at hmem
    exact Nat.lt_irrefl _ (hlast h hmem h (List.mem_singleton_self h))
  · refine List.forall_mem_append.mpr ⟨List.forall_mem_append.mpr ⟨?_, hown⟩,
      List.forall_mem_singleton.mpr hon⟩
    intro e he heq
    obtain ⟨h', -, rfl⟩ := List.mem_map.mp he
    cases heq

theorem Holds.lose (hio : io.Holds [(h, none)]) : (io.lose (some h)).Holds [] := by
  have hlost : io.lost.map (fun h => (h, (none : Option Nat))) ++ [(h, none)]
      = (io.lost ++ [h]).map (fun h => (h, none)) ++ [] := by
    rw [List.map_append, List.append_nil]
    rfl
  refine ⟨hlost ▸ hio.keeps, ?_, ?_⟩
  · show ((io.lost ++ [h]) ++ []).Pairwise (· < ·)
    rw [List.append_nil]
    exact hio.increasing
  · show ∀ h' ∈ (io.lost ++ [h]) ++ [], h' < io.calls
    rw [List.append_nil]
    exact hio.past

end Io

end Registry

end Libtimeseries
