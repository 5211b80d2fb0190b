import Libtimeseries.Base.Runs
import Libtimeseries.Dbats
import Libtimeseries.Kafka

/-!
# Programs that use a key package

The three backends side by side, and runs of an application: any sequence of
key package calls, on any set of enabled backends. A failed assertion or a NULL
dereference halts the run.
-/

namespace Libtimeseries

open ByteLib RunLib

/-- A backend that acts on one part of the world. -/
def Backend.focus {W S : Type} (get : W → S) (put : W → S → W) (b : Backend S) : Backend W where
  kpKiUpdate := fun kp w =>
    let r := b.kpKiUpdate kp (get w)
    (r.1, r.2.1, put w r.2.2)
  kpFlush := fun kp time w =>
    let r := b.kpFlush kp time (get w)
    (r.1, r.2.1, put w r.2.2)
  kpKiUpdate_erase := fun kp w => b.kpKiUpdate_erase kp (get w)
  kpFlush_erase := fun kp time w => b.kpFlush_erase kp time (get w)

/-- The states of the three backends. -/
structure World where
  ascii : Ascii.State
  dbats : Dbats.State
  kafka : Kafka.State

/-- The backends of the library. -/
def World.backend : BackendId → Backend World
  | .ascii => Ascii.backend.focus World.ascii fun w s => { w with ascii := s }
  | .dbats => Dbats.backend.focus World.dbats fun w s => { w with dbats := s }
  | .kafka => Kafka.backend.focus World.kafka fun w s => { w with kafka := s }

/-- `struct timeseries` with some of them enabled. -/
def World.timeseries (enabled : BackendId → Bool) : Timeseries World :=
  ⟨World.backend, enabled⟩

/-- A call of the application on its package. Allocations succeed. -/
inductive KpOp where
  | addKey (key : CString)
  | set (id : Nat) (value : UInt64)
  | enableKey (id : Nat)
  | disableKey (id : Nat)
  | getKey (key : CString)
  | resolve
  | flush (time : UInt32)

/-- A run in progress: the package, the world, the keys added so far with the
ids they were given, and why the process stopped if it did. -/
structure KpRun (W : Type) where
  kp : Kp
  env : Env W
  added : List (CString × Int)
  halted : Option Stop

/-- A fresh package. -/
def KpRun.init {W : Type} (flags : Nat) (w : W) : KpRun W :=
  ⟨Kp.init flags, ⟨w, []⟩, [], none⟩

/-- Does this return value mean that the process has stopped? -/
def Ret.stopped : Ret → Option Stop
  | .stop why => some why
  | _ => none

/-- One call. Ids out of range, undefined in C, change nothing. -/
def KpRun.step {W : Type} (ts : Timeseries W) (s : KpRun W) (op : KpOp) : KpRun W :=
  if s.halted.isSome then s
  else
    match op with
    | .addKey key =>
      let r := s.kp.addKey .success key
      { s with kp := r.2, added := s.added ++ [(key, r.1)] }
    | .set id value =>
      let r := s.kp.set id value
      { s with kp := r.2, halted := r.1.stopped }
    | .enableKey id => { s with kp := s.kp.enableKey id }
    | .disableKey id => { s with kp := s.kp.disableKey id }
    | .getKey _ => s
    | .resolve =>
      let r := s.kp.resolve ts s.env
      { s with kp := r.2.1, env := r.2.2, halted := r.1.stopped }
    | .flush time =>
      let r := s.kp.flush ts time s.env
      { s with kp := r.2.1, env := r.2.2, halted := r.1.stopped }

end Libtimeseries
