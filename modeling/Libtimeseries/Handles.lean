import Libtimeseries.KafkaConnect

/-!
# The handles of the backends

The other two backends have a handle as well: the ASCII backend the file it writes to,
if one is given, and the DBATS backend a database. This module has their `init` and
`free`, and what all three backends do with their handles in the runs of an application.

Modelling choices:

- the calls are numbered for each library on its own, and `Outside` says what they
  return, as for Kafka;
- the data callbacks are the calls they make with the handle. Those with a snapshot are
  in the model of the DBATS backend.
-/

namespace Libtimeseries

open ByteLib LedgerLib RunLib

namespace Handles

open Registry

/-- What a pointer points to. -/
def own (h : Option Nat) : Holdings Nat := h.toList.map fun h => (h, none)

/-- A call with a pointer that is not NULL. -/
theorem holds_use {io : Io} {h : Option Nat} (hh : h ≠ none) (hio : io.Holds (own h)) :
    (io.enter (.use h)).Holds (own h) := by
  cases h with
  | none => exact absurd rfl hh
  | some h => exact hio.use (List.mem_singleton_self (h, none))

/-- The call that destroys a handle. -/
theorem holds_release {io : Io} {h : Nat} (hio : io.Holds (own (some h))) :
    (io.enter (.release (some h))).Holds [] :=
  (hio : io.Holds ([] ++ [(h, none)])).release (by rintro ⟨⟩) (List.forall_mem_nil _)

/-- The call that returns a handle. -/
theorem holds_acquire {io : Io} (hio : io.Holds []) :
    (io.enter (.acquire io.calls none)).Holds (own (some io.calls)) :=
  hio.acquire fun p (hp : none = some p) => nomatch hp

/-! ## The ASCII backend (`timeseries_backend_ascii.c`) -/

namespace Ascii

/-- What the functions outside return. -/
structure Outside where
  malloc : Nat → Bool
  /-- for a file, and a compression level other than the default -/
  wcreate : Nat → CString → Option CString → Bool

/-- The fields of `struct timeseries_backend_ascii_state` that concern the file. -/
structure Setup where
  /-- The filename to write metrics out to -/
  asciiFile : Option CString
  /-- A wandio output file pointer to write metrics to -/
  outfile : Option Nat
  /-- The compression level to use of the outfile is compressed, as the argument of
  `atoi` -/
  compressLevel : Option CString

/-- `parse_args` -/
def parseArgs : Options → Setup → Ret × Setup
  | [], c => (.ok, c)
  | (opt, optarg) :: options, c =>
    -- c, f
    if opt = 99 then parseArgs options { c with compressLevel := some optarg }
    else if opt = 102 then parseArgs options { c with asciiFile := some optarg }
    else (.fail, c)

/-- `timeseries_backend_ascii_init` -/
def init (out : Outside) (options : Options) (l : Link Setup) : Ret × Link Setup :=
  if out.malloc l.io.calls then
    let io := l.io.tick
    match parseArgs options ⟨none, none, none⟩ with
    | (.ok, c) =>
      match c.asciiFile with
      | none => (.ok, ⟨some c, io⟩)
      | some file =>
        if out.wcreate io.calls file c.compressLevel then
          (.ok, ⟨some { c with outfile := some io.calls }, io.enter (.acquire io.calls none)⟩)
        else
          (.fail, ⟨some c, io.tick⟩)
    | (r, c) => (r, ⟨some c, io⟩)
  else
    (.fail, { l with io := l.io.tick })

/-- A line of output (`DUMP_METRIC`), which goes to `stdout` if there is no file. -/
def dump (_written : Nat) (l : Link Setup) : Link Setup :=
  match l.state with
  | none => { l with io := l.io.enter (.use none) }
  | some c => { l with io := if c.outfile = none then l.io.tick else l.io.enter (.use c.outfile) }

/-- `timeseries_backend_ascii_free` -/
def free (l : Link Setup) : Link Setup :=
  match l.state with
  | none => l
  | some c => ⟨none, if c.outfile = none then l.io else l.io.enter (.release c.outfile)⟩

/-- The backend can write. -/
def Open (l : Link Setup) : Prop := ∃ c, l.state = some c ∧ l.io.Holds (own c.outfile)

/-- `parse_args` opens nothing. -/
theorem parseArgs_outfile (options : Options) (c : Setup) :
    (parseArgs options c).2.outfile = c.outfile := by
  induction options generalizing c with
  | nil => rfl
  | cons option options ih =>
    obtain ⟨opt, optarg⟩ := option
    rw [parseArgs]
    split
    · exact ih { c with compressLevel := some optarg }
    split
    · exact ih { c with asciiFile := some optarg }
    · rfl

theorem init_kept (out : Outside) (options : Options) {l : Link Setup} (hio : l.io.Holds []) :
    let r := init out options l
    (r.1 = .ok → Open r.2) ∧ (r.1 ≠ .ok → r.2.io.Holds []) ∧ r.2.io.lost = l.io.lost := by
  have hclosed := parseArgs_outfile options ⟨none, none, none⟩
  rw [init]
  split
  · generalize parseArgs options ⟨none, none, none⟩ = p at hclosed ⊢
    obtain ⟨ret, c⟩ := p
    have hnone : own c.outfile = [] := congrArg own hclosed
    cases ret with
    | ok =>
      dsimp only
      split
      · refine ⟨fun _ => ⟨c, rfl, ?_⟩, fun h => absurd rfl h, rfl⟩
        rw [hnone]
        exact hio.tick
      · split
        · exact ⟨fun _ => ⟨_, rfl, holds_acquire hio.tick⟩, fun h => absurd rfl h, rfl⟩
        · exact ⟨by rintro ⟨⟩, fun _ => hio.tick.tick, rfl⟩
    | fail => exact ⟨by rintro ⟨⟩, fun _ => hio.tick, rfl⟩
    | stop why => exact ⟨by rintro ⟨⟩, fun _ => hio.tick, rfl⟩
  · exact ⟨by rintro ⟨⟩, fun _ => hio.tick, rfl⟩

theorem Open.dump {l : Link Setup} (h : Open l) (written : Nat) :
    Open (dump written l) ∧ (Ascii.dump written l).io.lost = l.io.lost := by
  obtain ⟨c, hstate, hio⟩ := h
  rw [Ascii.dump, hstate]
  dsimp only
  by_cases hfile : c.outfile = none
  · rw [if_pos hfile]
    exact ⟨⟨c, rfl, hio.tick⟩, rfl⟩
  · rw [if_neg hfile]
    exact ⟨⟨c, rfl, holds_use hfile hio⟩, rfl⟩

theorem Open.free {l : Link Setup} (h : Open l) :
    (free l).io.Holds [] ∧ (Ascii.free l).io.lost = l.io.lost := by
  obtain ⟨c, hstate, hio⟩ := h
  rw [Ascii.free, hstate]
  dsimp only
  cases hfile : c.outfile with
  | none =>
    rw [hfile] at hio
    exact ⟨hio, rfl⟩
  | some h =>
    rw [hfile] at hio
    exact ⟨holds_release hio, rfl⟩

end Ascii

/-! ## The DBATS backend (`timeseries_backend_dbats.c`) -/

namespace Dbats

/-- The flags of `dbats_open` that can be given. -/
structure Flags where
  uncompressed : Bool
  exclusive : Bool
  noTxn : Bool
  updatable : Bool

/-- What the functions outside return. -/
structure Outside where
  malloc : Nat → Bool
  /-- for a path and flags -/
  dbatsOpen : Nat → CString → Flags → Bool
  commitOpen : Nat → Bool

/-- The fields of `struct timeseries_backend_dbats_state` that concern the database. -/
structure Setup where
  /-- Path to the DBATS database we are writing to -/
  dbatsPath : Option CString
  /-- Pointer to a DBATS handler object -/
  dbatsHandler : Option Nat
  /-- Flags to be passed to dbats_open -/
  dbatsFlags : Flags

/-- The state that `timeseries_backend_dbats_init` starts from. -/
def Setup.init : Setup := ⟨none, none, ⟨false, false, false, false⟩⟩

/-- Does the argument of `-f` start with this flag? -/
def flagIs (flag : CString) (optarg : CString) : Bool := strncmpEq optarg flag flag.strlen

/-- `parse_args` -/
def parseArgs : Options → Setup → Ret × Setup
  | [], c => if c.dbatsPath = none then (.fail, c) else (.ok, c)
  | (opt, optarg) :: options, c =>
    -- f, p
    if opt = 102 then
      if flagIs (CString.ofAscii "uncompressed") optarg then
        parseArgs options { c with dbatsFlags := { c.dbatsFlags with uncompressed := true } }
      else if flagIs (CString.ofAscii "exclusive") optarg then
        parseArgs options { c with dbatsFlags := { c.dbatsFlags with exclusive := true } }
      else if flagIs (CString.ofAscii "no-txn") optarg then
        parseArgs options { c with dbatsFlags := { c.dbatsFlags with noTxn := true } }
      else if flagIs (CString.ofAscii "updatable") optarg then
        parseArgs options { c with dbatsFlags := { c.dbatsFlags with updatable := true } }
      else (.fail, c)
    else if opt = 112 then parseArgs options { c with dbatsPath := some optarg }
    else (.fail, c)

/-- `timeseries_backend_dbats_init`. A handler whose `dbats_commit_open` fails is not
closed, and the next `init` overwrites the pointer to it. -/
def init (out : Outside) (options : Options) (l : Link Setup) : Ret × Link Setup :=
  if out.malloc l.io.calls then
    let io := l.io.tick
    match parseArgs options .init with
    | (.ok, c) =>
      if out.dbatsOpen io.calls (c.dbatsPath.getD (CString.ofAscii "")) c.dbatsFlags then
        let h := some io.calls
        let io' := io.enter (.acquire io.calls none)
        if out.commitOpen io'.calls then
          (.ok, ⟨some { c with dbatsHandler := h }, io'.enter (.use h)⟩)
        else
          (.fail, ⟨some { c with dbatsHandler := h }, (io'.enter (.use h)).lose h⟩)
      else
        (.fail, ⟨some c, io.tick⟩)
    | (r, c) => (r, ⟨some c, io⟩)
  else
    (.fail, { l with io := l.io.tick })

/-- A call of DBATS with the handler. -/
def call (_written : Nat) (l : Link Setup) : Link Setup :=
  { l with io := l.io.enter (.use (l.state.bind Setup.dbatsHandler)) }

/-- `timeseries_backend_dbats_free` -/
def free (l : Link Setup) : Link Setup :=
  match l.state with
  | none => l
  | some c =>
    ⟨none, if c.dbatsHandler = none then l.io else l.io.enter (.release c.dbatsHandler)⟩

/-- The database is open. -/
def Open (l : Link Setup) : Prop :=
  ∃ c h, l.state = some c ∧ c.dbatsHandler = some h ∧ l.io.Holds (own (some h))

/-- The handlers that are lost are those whose `dbats_commit_open`, which is the next
call, failed. -/
def Uncommitted (out : Outside) (io : Io) : Prop :=
  ∀ h, h ∈ io.lost ↔ .acquire h none ∈ io.log ∧ out.commitOpen (h + 1) = false

section Uncommitted

variable {out : Outside} {io : Io}

theorem uncommitted_init (out : Outside) : Uncommitted out Io.init := by
  intro h
  constructor
  · intro hmem
    cases hmem
  · rintro ⟨hmem, -⟩
    cases hmem

/-- Other calls than `dbats_open`. -/
theorem Uncommitted.enter (h : Uncommitted out io) {e : Entry Nat}
    (he : ∀ h, e ≠ .acquire h none) : Uncommitted out (io.enter e) := by
  intro h'
  rw [show (io.enter e).lost = io.lost from rfl, h h', show (io.enter e).log = io.log ++ [e] from rfl,
    List.mem_append, List.mem_singleton]
  constructor
  · exact fun ⟨hmem, hcommit⟩ => ⟨.inl hmem, hcommit⟩
  · rintro ⟨hmem | rfl, hcommit⟩
    · exact ⟨hmem, hcommit⟩
    · exact absurd rfl (he h')

theorem mem_acquired {h : Nat} :
    Entry.acquire h none ∈ (io.enter (.acquire io.calls none)).log ↔
      Entry.acquire h none ∈ io.log ∨ h = io.calls := by
  show _ ∈ io.log ++ [.acquire io.calls none] ↔ _
  rw [List.mem_append, List.mem_singleton, Entry.acquire.injEq]
  simp

/-- A database is opened, and the transaction is committed. -/
theorem Uncommitted.commit (h : Uncommitted out io) (hcommit : out.commitOpen (io.calls + 1) = true) :
    Uncommitted out (io.enter (.acquire io.calls none)) := by
  intro h'
  rw [mem_acquired, show (io.enter _).lost = io.lost from rfl, h h']
  constructor
  · exact fun ⟨hmem, hfailed⟩ => ⟨.inl hmem, hfailed⟩
  · rintro ⟨hmem | rfl, hfailed⟩
    · exact ⟨hmem, hfailed⟩
    · rw [hcommit] at hfailed
      cases hfailed

/-- A database is opened, but the transaction is not committed. -/
theorem Uncommitted.fail (h : Uncommitted out io) (hcommit : out.commitOpen (io.calls + 1) = false) :
    Uncommitted out ((io.enter (.acquire io.calls none)).lose (some io.calls)) := by
  intro h'
  show h' ∈ io.lost ++ [io.calls] ↔ _ ∈ (io.enter (.acquire io.calls none)).log ∧ _
  rw [mem_acquired, List.mem_append, List.mem_singleton, h h']
  constructor
  · rintro (⟨hmem, hfailed⟩ | rfl)
    · exact ⟨.inl hmem, hfailed⟩
    · exact ⟨.inr rfl, hcommit⟩
  · rintro ⟨hmem | heq, hfailed⟩
    · exact .inl ⟨hmem, hfailed⟩
    · exact .inr heq

end Uncommitted

theorem init_kept (out : Outside) (options : Options) {l : Link Setup} (hio : l.io.Holds [])
    (huncommitted : Uncommitted out l.io) :
    let r := init out options l
    (r.1 = .ok → Open r.2) ∧ (r.1 ≠ .ok → r.2.io.Holds []) ∧ Uncommitted out r.2.io := by
  rw [init]
  split
  · generalize parseArgs options .init = p
    obtain ⟨ret, c⟩ := p
    cases ret with
    | ok =>
      dsimp only
      split
      · have hopened := holds_acquire hio.tick
        have hused : (Io.enter _ _).Holds _ := holds_use (by rintro ⟨⟩) hopened
        have hbefore : Uncommitted out l.io.tick := huncommitted
        split
        · next hcommit =>
          exact ⟨fun _ => ⟨_, _, rfl, rfl, hused⟩, fun h => absurd rfl h,
            (hbefore.commit hcommit).enter (by rintro h ⟨⟩)⟩
        · next hcommit =>
          exact ⟨by rintro ⟨⟩, fun _ => Io.Holds.lose hused,
            (hbefore.fail (Bool.eq_false_iff.mpr hcommit)).enter (by rintro h ⟨⟩)⟩
      · exact ⟨by rintro ⟨⟩, fun _ => hio.tick.tick, huncommitted⟩
    | fail => exact ⟨by rintro ⟨⟩, fun _ => hio.tick, huncommitted⟩
    | stop why => exact ⟨by rintro ⟨⟩, fun _ => hio.tick, huncommitted⟩
  · exact ⟨by rintro ⟨⟩, fun _ => hio.tick, huncommitted⟩

theorem Open.call {l : Link Setup} (h : Open l) {out : Outside} (hlost : Uncommitted out l.io)
    (written : Nat) : Open (call written l) ∧ Uncommitted out (Dbats.call written l).io := by
  obtain ⟨c, h, hstate, hh, hio⟩ := h
  have hhandler : l.state.bind Setup.dbatsHandler = some h := by
    rw [hstate]
    exact hh
  refine ⟨⟨c, h, hstate, hh, ?_⟩, hlost.enter (by rintro h ⟨⟩)⟩
  rw [Dbats.call, hhandler]
  exact holds_use (by rintro ⟨⟩) hio

theorem Open.free {l : Link Setup} (h : Open l) {out : Outside} (hlost : Uncommitted out l.io) :
    (free l).io.Holds [] ∧ Uncommitted out (Dbats.free l).io := by
  obtain ⟨c, h, hstate, hh, hio⟩ := h
  rw [Dbats.free, hstate]
  dsimp only
  rw [hh, if_neg (by rintro ⟨⟩)]
  exact ⟨holds_release hio, hlost.enter (by rintro h ⟨⟩)⟩

end Dbats

/-! ## All backends -/

/-- What the functions outside the backends return. -/
structure Outside where
  ascii : Ascii.Outside
  dbats : Dbats.Outside
  kafka : Kafka.Outside

/-- The state of a backend. -/
def LinkOf : BackendId → Type
  | .ascii => Link Ascii.Setup
  | .dbats => Link Dbats.Setup
  | .kafka => Link Kafka.Setup

/-- The state before anything happens. -/
def LinkOf.init : ∀ id, LinkOf id
  | .ascii => Link.init
  | .dbats => Link.init
  | .kafka => Link.init

/-- The callbacks of the backends. -/
def callbacks (out : Outside) : ∀ id, Callbacks (LinkOf id)
  | .ascii => ⟨Ascii.init out.ascii, Ascii.dump, Ascii.free⟩
  | .dbats => ⟨Dbats.init out.dbats, Dbats.call, Dbats.free⟩
  | .kafka => ⟨Kafka.init out.kafka, Kafka.send out.kafka, Kafka.free out.kafka⟩

/-- A backend that is not enabled holds nothing but what is lost. -/
def Idle (out : Outside) : ∀ id, LinkOf id → Prop
  | .ascii, l => Io.Holds (Link.io l) [] ∧ (Link.io l).lost = []
  | .dbats, l => Io.Holds (Link.io l) [] ∧ Dbats.Uncommitted out.dbats (Link.io l)
  | .kafka, l => Io.Holds (Link.io l) [] ∧ Kafka.Spared (Link.io l)

/-- A backend that is enabled has its handle. -/
def Ready (out : Outside) : ∀ id, LinkOf id → Prop
  | .ascii, l => Ascii.Open l ∧ (Link.io l).lost = []
  | .dbats, l => Dbats.Open l ∧ Dbats.Uncommitted out.dbats (Link.io l)
  | .kafka, l => Kafka.Linked l ∧ Kafka.Spared (Link.io l)

theorem idle_init (out : Outside) : ∀ id, Idle out id (LinkOf.init id)
  | .ascii => ⟨Io.holds_init, rfl⟩
  | .dbats => ⟨Io.holds_init, Dbats.uncommitted_init out.dbats⟩
  | .kafka => ⟨Io.holds_init, Nat.le_refl 0⟩

/-- The backends manage their handles. -/
theorem managed (out : Outside) : Managed (callbacks out) (Idle out) (Ready out) where
  initOk id options s h hok := by
    cases id with
    | ascii =>
      obtain ⟨hopen, -, hlost⟩ := Ascii.init_kept out.ascii options h.1
      exact ⟨hopen hok, hlost.trans h.2⟩
    | dbats =>
      obtain ⟨hopen, -, hlost⟩ := Dbats.init_kept out.dbats options h.1 h.2
      exact ⟨hopen hok, hlost⟩
    | kafka =>
      obtain ⟨hlinked, -, hspared⟩ := Kafka.init_kept out.kafka options h.1 h.2
      exact ⟨hlinked hok, hspared⟩
  initFail id options s h hfail := by
    cases id with
    | ascii =>
      obtain ⟨-, hholds, hlost⟩ := Ascii.init_kept out.ascii options h.1
      exact ⟨hholds hfail, hlost.trans h.2⟩
    | dbats =>
      obtain ⟨-, hholds, hlost⟩ := Dbats.init_kept out.dbats options h.1 h.2
      exact ⟨hholds hfail, hlost⟩
    | kafka =>
      obtain ⟨-, hholds, hspared⟩ := Kafka.init_kept out.kafka options h.1 h.2
      exact ⟨hholds hfail, hspared⟩
  call id written s h := by
    cases id with
    | ascii =>
      obtain ⟨hopen, hlost⟩ := h.1.dump written
      exact ⟨hopen, hlost.trans h.2⟩
    | dbats => exact h.1.call h.2 written
    | kafka =>
      obtain ⟨hlinked, hquiet⟩ := h.1.send out.kafka written
      exact ⟨hlinked, h.2.quiet hquiet⟩
  free id s h := by
    cases id with
    | ascii =>
      obtain ⟨hclosed, hlost⟩ := h.1.free
      exact ⟨hclosed, hlost.trans h.2⟩
    | dbats => exact h.1.free h.2
    | kafka =>
      obtain ⟨hclosed, hquiet⟩ := h.1.free out.kafka
      exact ⟨hclosed, h.2.quiet hquiet⟩

/-- What is live when no pointer points to anything is lost. -/
theorem live_lost {io : Io} (h : io.Holds []) : live io.log = io.lost.map fun h => (h, none) :=
  h.keeps.live.trans (List.append_nil _)

/-- **Handles**: however an application enables the backends, with options that may be
wrong, on libraries that may fail, and whatever it writes, no file, database, connection
or topic is used before it is there or after it is gone. Behind `timeseries_free` every
file and every topic is closed, the databases that are not are those whose
`dbats_commit_open` failed, and there are not more connections than breaks were made
between attempts to connect. -/
theorem run_handles (out : Outside) (parseCmd : Option CString → Options)
    (available : BackendId → Bool) (ops : List Op) :
    let i := timeseriesFree (callbacks out)
      (run (step (callbacks out) parseCmd) (Instance.init available LinkOf.init) ops)
    let ascii := Link.io (i.state .ascii)
    let dbats := Link.io (i.state .dbats)
    let kafka := Link.io (i.state .kafka)
    (Sound ascii.log ∧ live ascii.log = []) ∧
      (Sound dbats.log ∧ ∀ h, (h, none) ∈ live dbats.log ↔
        .acquire h none ∈ dbats.log ∧ out.dbats.commitOpen (h + 1) = false) ∧
      Sound kafka.log ∧ (∀ e ∈ live kafka.log, e.2 = none) ∧
        (live kafka.log).length ≤ kafka.sleeps.length := by
  intro i ascii dbats kafka
  obtain ⟨-, hidle⟩ := managed_run (managed out) parseCmd available (idle_init out) ops
  obtain ⟨hascii, hlost⟩ : Idle out .ascii (i.state .ascii) := hidle .ascii
  obtain ⟨hdbats, huncommitted⟩ : Idle out .dbats (i.state .dbats) := hidle .dbats
  obtain ⟨hkafka, hspared⟩ : Idle out .kafka (i.state .kafka) := hidle .kafka
  refine ⟨⟨hascii.keeps.sound, ?_⟩, ⟨hdbats.keeps.sound, fun h => ?_⟩, hkafka.keeps.sound, ?_, ?_⟩
  · rw [live_lost hascii, show ascii.lost = [] from hlost]
    rfl
  · rw [live_lost hdbats, ← huncommitted h, List.mem_map]
    constructor
    · rintro ⟨h', hmem, heq⟩
      rwa [← (Prod.mk.inj heq).1]
    · exact fun hmem => ⟨h, hmem, rfl⟩
  · intro e he
    rw [live_lost hkafka] at he
    obtain ⟨h, -, rfl⟩ := List.mem_map.mp he
    rfl
  · rw [live_lost hkafka, List.length_map]
    exact hspared

end Handles

end Libtimeseries
