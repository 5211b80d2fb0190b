import Libtimeseries.Base.Runs

/-!
# Ledgers of handles

A program acquires handles of a library, uses them and releases them. A handle may live
on another one, which has to outlive it. `none` stands for a pointer that is NULL.

- `live log`: the handles that are acquired and not released, in their order;
- `Sound log`: no handle is used or released before it is acquired or after it is
  released, and none is released before those that live on it;
- `Keeps log holdings`: the log is sound and leaves the holdings. A program keeps its
  log step by step (`Keeps.acquire`, `Keeps.use`, `Keeps.release`).
-/

namespace LedgerLib

open RunLib

universe u

variable {η : Type u} [DecidableEq η]

/-- What is done with a handle. -/
inductive Entry (η : Type u) where
  /-- it is new, and may live on another one -/
  | acquire (h : η) (on : Option η)
  | use (h : Option η)
  | release (h : Option η)

/-- The live handles, each with the one it lives on. -/
abbrev Holdings (η : Type u) := List (η × Option η)

/-- The handles that are live after an entry. -/
def track (live : Holdings η) : Entry η → Holdings η
  | .acquire h on => live ++ [(h, on)]
  | .use _ => live
  | .release h => live.filter fun e => some e.1 ≠ h

/-- What may be done when these handles are live. -/
def Allowed (live : Holdings η) : Entry η → Prop
  | .acquire h on => (∀ e ∈ live, e.1 ≠ h) ∧ ∀ p, on = some p → ∃ e ∈ live, e.1 = p
  | .use h => ∃ e ∈ live, some e.1 = h
  | .release h => (∃ e ∈ live, some e.1 = h) ∧ ∀ e ∈ live, e.2 ≠ h

/-- The handles that a log leaves. -/
def live (log : List (Entry η)) : Holdings η := run track [] log

/-- Every handle is used within its life. -/
def Sound (log : List (Entry η)) : Prop := Along track Allowed [] log

/-- The log is sound and leaves these handles. -/
structure Keeps (log : List (Entry η)) (holdings : Holdings η) : Prop where
  sound : Sound log
  live : live log = holdings

theorem keeps_nil : Keeps ([] : List (Entry η)) [] := ⟨trivial, rfl⟩

section Keeps

variable {log : List (Entry η)} {holdings : Holdings η}

/-- One more entry. -/
theorem Keeps.concat (h : Keeps log holdings) {e : Entry η} (hallowed : Allowed holdings e) :
    Keeps (log ++ [e]) (track holdings e) := by
  constructor
  · refine along_append.mpr ⟨h.sound, ?_, trivial⟩
    have hlive : run track [] log = holdings := h.live
    rwa [hlive]
  · rw [LedgerLib.live, run_append]
    exact congrArg (fun l => track l e) h.live

theorem Keeps.acquire (h : Keeps log holdings) {a : η} {on : Option η}
    (hnew : ∀ e ∈ holdings, e.1 ≠ a) (hon : ∀ p, on = some p → ∃ e ∈ holdings, e.1 = p) :
    Keeps (log ++ [.acquire a on]) (holdings ++ [(a, on)]) :=
  h.concat ⟨hnew, hon⟩

theorem Keeps.use (h : Keeps log holdings) {e : η × Option η} (he : e ∈ holdings) :
    Keeps (log ++ [.use (some e.1)]) holdings :=
  h.concat ⟨e, he, rfl⟩

/-- The last handle that was acquired is released. -/
theorem Keeps.release {a : η} {on : Option η} (h : Keeps log (holdings ++ [(a, on)]))
    (hother : ∀ e ∈ holdings, e.1 ≠ a) (hlast : ∀ e ∈ holdings ++ [(a, on)], e.2 ≠ some a) :
    Keeps (log ++ [.release (some a)]) holdings := by
  have hkept := h.concat (e := .release (some a))
    ⟨⟨(a, on), List.mem_append_right _ (List.mem_singleton_self _), rfl⟩, hlast⟩
  have htrack : track (holdings ++ [(a, on)]) (.release (some a)) = holdings := by
    rw [track, List.filter_append, List.filter_eq_self.mpr, List.filter_cons_of_neg, List.filter_nil,
      List.append_nil]
    · simp
    · intro e he
      simpa using hother e he
  rwa [htrack] at hkept

end Keeps

end LedgerLib
