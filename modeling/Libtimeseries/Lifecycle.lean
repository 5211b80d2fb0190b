import Libtimeseries.World

/-!
# The life of a key package

`timeseries_kp_init` announces a package to the enabled backends (`kp_init`), later
calls go to whatever backends are enabled by then, and `timeseries_kp_free` says
goodbye (`kp_ki_free`, `kp_free`). The set of enabled backends can grow in between,
since every loop looks at the flags again.

- `Op`, `step`: the calls of an application, on any number of packages;
- `Notice`: a callback that concerns a package, recorded in the log.
-/

namespace Libtimeseries

open ByteLib

variable {W : Type}

namespace Lifecycle

/-- The function table of a backend, as far as packages and enabling go. The callbacks
that free cannot fail, only stop. -/
structure Plugin (W : Type) extends Backend W where
  init : W → Ret × W
  kpInit : Kp → W → Ret × W
  /-- of the key at an index, which is behind the others if it could not be added -/
  kpKiFree : Kp → Nat → W → Option Stop × W
  kpFree : Kp → W → Option Stop × W

/-- The callbacks that concern a package. -/
inductive Callback where
  | kpInit
  | kpKiUpdate
  | kpFlush (time : UInt32)
  | kpKiFree
  | kpFree
deriving DecidableEq

/-- A callback of a backend for a package. -/
structure Notice where
  pkg : Nat
  backend : BackendId
  callback : Callback
deriving DecidableEq

/-- The world, and the callbacks so far. -/
structure Io (W : Type) where
  world : W
  log : List Notice

/-- The application: its packages are numbered in the order of their creation. -/
structure State (W : Type) where
  enabled : BackendId → Bool
  kps : Nat → Option Kp
  /-- the backends that were enabled when a package was created -/
  atInit : Nat → BackendId → Bool
  next : Nat
  io : Io W
  halted : Option Stop

/-- After `timeseries_init`. -/
def State.init (w : W) : State W where
  enabled := fun _ => false
  kps := fun _ => none
  atInit := fun _ _ => false
  next := 0
  io := ⟨w, []⟩
  halted := none

/-- The calls of the application. -/
inductive Op where
  | enableBackend (id : BackendId)
  | kpInit (flags : Nat)
  | addKey (pkg : Nat) (al : AllocResult) (key : CString)
  | set (pkg id : Nat) (value : UInt64)
  | enableKey (pkg id : Nat)
  | disableKey (pkg id : Nat)
  | resolve (pkg : Nat)
  | flush (pkg : Nat) (time : UInt32)
  | kpFree (pkg : Nat)

/-- `TIMESERIES_FOREACH_ENABLED_BACKEND` -/
def State.enabledIds (s : State W) : List BackendId := BackendId.all.filter s.enabled

/-- The backends as a package sees them now. -/
def State.timeseries (s : State W) (plugin : BackendId → Plugin W) : Timeseries W :=
  ⟨fun id => (plugin id).toBackend, s.enabled⟩

/-! ## Callbacks -/

/-- A callback that may fail. -/
def call (n : Notice) (f : W → Ret × W) (io : Io W) : Ret × Io W :=
  ((f io.world).1, ⟨(f io.world).2, io.log ++ [n]⟩)

/-- A callback that returns nothing. -/
def callVoid (n : Notice) (f : W → Option Stop × W) (io : Io W) : Option Stop × Io W :=
  ((f io.world).1, ⟨(f io.world).2, io.log ++ [n]⟩)

/-- A callback of `timeseries_kp_resolve` or `timeseries_kp_flush`. -/
def noticeOf (pkg : Nat) (c : Call W) : Notice :=
  ⟨pkg, c.backend, match c.callback with
    | .kpKiUpdate => .kpKiUpdate
    | .kpFlush time => .kpFlush time⟩

/-- The log grows by the callbacks of a key package call. -/
def Io.extend (io : Io W) (pkg : Nat) (e : Env W) : Io W :=
  ⟨e.world, io.log ++ e.calls.map (noticeOf pkg)⟩

section Loops

variable (plugin : BackendId → Plugin W) (pkg : Nat)

/-- The loop of `timeseries_kp_init`. -/
def kpInitLoop (kp : Kp) : List BackendId → Io W → Ret × Io W
  | [], io => (.ok, io)
  | id :: ids, io =>
    match call ⟨pkg, id, .kpInit⟩ ((plugin id).kpInit kp) io with
    | (.ok, io) => kpInitLoop kp ids io
    | (r, io) => (r, io)

/-- `kp_ki_free`, of the key info at an index: the loop. -/
def kpKiFree (i : Nat) : List BackendId → Kp → Io W → Option Stop × Kp × Io W
  | [], kp, io => (none, kp, io)
  | id :: ids, kp, io =>
    match callVoid ⟨pkg, id, .kpKiFree⟩ ((plugin id).kpKiFree kp i) io with
    | (none, io) => kpKiFree i ids (kp.modifyKi i (·.setBackendState id none)) io
    | (some why, io) => (some why, kp, io)

/-- The loop of `timeseries_kp_free` over the keys. -/
def freeKeys (ids : List BackendId) : List Nat → Kp → Io W → Option Stop × Kp × Io W
  | [], kp, io => (none, kp, io)
  | i :: is, kp, io =>
    match kpKiFree plugin pkg i ids kp io with
    | (none, kp, io) => freeKeys ids is kp io
    | (some why, kp, io) => (some why, kp, io)

/-- The loop of `timeseries_kp_free` over the backends. -/
def kpFreeLoop (kp : Kp) : List BackendId → Io W → Option Stop × Io W
  | [], io => (none, io)
  | id :: ids, io =>
    match callVoid ⟨pkg, id, .kpFree⟩ ((plugin id).kpFree kp) io with
    | (none, io) => kpFreeLoop kp ids io
    | (some why, io) => (some why, io)

end Loops

/-! ## Calls -/

section Calls

variable (plugin : BackendId → Plugin W)

/-- `timeseries_enable_backend`: a backend that is enabled stays as it is. -/
def enableBackend (id : BackendId) (s : State W) : State W :=
  if s.enabled id then
    s
  else
    let r := (plugin id).init s.io.world
    { s with
      enabled := if r.1 = .ok then Function.update s.enabled id true else s.enabled
      io := { s.io with world := r.2 }
      halted := r.1.stopped }

/-- `timeseries_kp_init`: NULL, so no package, if a backend fails. -/
def kpInit (flags : Nat) (s : State W) : State W :=
  let kp := Kp.init flags
  let r := kpInitLoop plugin s.next kp s.enabledIds s.io
  { s with
    kps := if r.1 = .ok then Function.update s.kps s.next (some kp) else s.kps
    atInit := Function.update s.atInit s.next s.enabled
    next := s.next + 1
    io := r.2
    halted := r.1.stopped }

/-- Put a package back after a call. -/
def State.put (s : State W) (pkg : Nat) (kp : Kp) : State W :=
  { s with kps := Function.update s.kps pkg (some kp) }

/-- `timeseries_kp_add_key`. When `strdup` fails, `kp_ki_init` frees the key info. -/
def addKey (pkg : Nat) (al : AllocResult) (key : CString) (kp : Kp) (s : State W) : State W :=
  if al.realloc && !al.strdup then
    let r := kpKiFree plugin pkg kp.keyInfosCnt s.enabledIds kp s.io
    { s.put pkg r.2.1 with io := r.2.2, halted := r.1 }
  else
    s.put pkg (kp.addKey al key).2

/-- `timeseries_kp_set` -/
def set (pkg id : Nat) (value : UInt64) (kp : Kp) (s : State W) : State W :=
  let r := kp.set id value
  { s.put pkg r.2 with halted := r.1.stopped }

/-- `timeseries_kp_resolve` -/
def resolve (pkg : Nat) (kp : Kp) (s : State W) : State W :=
  let r := kp.resolve (s.timeseries plugin) ⟨s.io.world, []⟩
  { s.put pkg r.2.1 with io := s.io.extend pkg r.2.2, halted := r.1.stopped }

/-- `timeseries_kp_flush` -/
def flush (pkg : Nat) (time : UInt32) (kp : Kp) (s : State W) : State W :=
  let r := kp.flush (s.timeseries plugin) time ⟨s.io.world, []⟩
  { s.put pkg r.2.1 with io := s.io.extend pkg r.2.2, halted := r.1.stopped }

/-- `timeseries_kp_free` -/
def kpFree (pkg : Nat) (kp : Kp) (s : State W) : State W :=
  match freeKeys plugin pkg s.enabledIds (List.range kp.keyInfosCnt) kp s.io with
  | (some why, _, io) => { s with io := io, halted := some why }
  | (none, kp, io) =>
    let r := kpFreeLoop plugin pkg { kp with keyInfos := [], keyInfosCnt := 0 } s.enabledIds io
    { s with kps := Function.update s.kps pkg none, io := r.2, halted := r.1 }

/-- A call on a package. Calls on NULL and on freed packages, undefined in C, change
nothing. -/
def State.on (s : State W) (pkg : Nat) (f : Kp → State W → State W) : State W :=
  match s.kps pkg with
  | none => s
  | some kp => f kp s

/-- One call of the application. -/
def step (s : State W) (op : Op) : State W :=
  if s.halted.isSome then s
  else
    match op with
    | .enableBackend id => enableBackend plugin id s
    | .kpInit flags => kpInit plugin flags s
    | .addKey pkg al key => s.on pkg (addKey plugin pkg al key)
    | .set pkg id value => s.on pkg (set pkg id value)
    | .enableKey pkg id => s.on pkg fun kp s => s.put pkg (kp.enableKey id)
    | .disableKey pkg id => s.on pkg fun kp s => s.put pkg (kp.disableKey id)
    | .resolve pkg => s.on pkg (resolve plugin pkg)
    | .flush pkg time => s.on pkg (flush plugin pkg time)
    | .kpFree pkg => s.on pkg (kpFree plugin pkg)

end Calls

end Lifecycle

end Libtimeseries
