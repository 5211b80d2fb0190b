import Mathlib.Data.List.Basic
import Mathlib.Logic.Function.Basic

/-!
# Runs of a deterministic machine

The induction principles for programs that are driven by a list of inputs:

- `run step s is`: the state after the inputs `is`;
- `Along step P s is`: the condition `P` (on the state before the step and the
  input) holds at every step of the run;
- `run_always`, `run_invariant`: an invariant that every step (every step meeting
  the condition) preserves holds at the end of the run;
- `run_rel`: a reflexive transitive relation respected by every step relates
  the first state to the last (monotone logs, growing tables);
- `along_congr`: two conditions that agree wherever an invariant holds pick out the
  same runs;
- `run_simulates`: two machines that keep a relation between their states;
- `run_measure`: inputs that bring a measure down;
- `outputs step out s is`: what the machine puts out, and `outputs_eq_of_rel`, by
  which states that a bisimulation relates cannot be told apart;
- `Preceded needs log`: every entry of a log comes after the entries it needs.
-/

namespace RunLib

universe u v

variable {σ : Type u} {ι : Type v}

/-- The state after running the inputs from left to right. -/
def run (step : σ → ι → σ) (s : σ) (is : List ι) : σ := is.foldl step s

@[simp] theorem run_nil (step : σ → ι → σ) (s : σ) : run step s [] = s := rfl

@[simp] theorem run_cons (step : σ → ι → σ) (s : σ) (i : ι) (is : List ι) :
    run step s (i :: is) = run step (step s i) is := rfl

theorem run_append (step : σ → ι → σ) (s : σ) (is js : List ι) :
    run step s (is ++ js) = run step (run step s is) js :=
  List.foldl_append

/-- `P` holds of the state and the input at every step of the run. -/
def Along (step : σ → ι → σ) (P : σ → ι → Prop) : σ → List ι → Prop
  | _, [] => True
  | s, i :: is => P s i ∧ Along step P (step s i) is

variable {step : σ → ι → σ} {P : σ → ι → Prop} {Inv : σ → Prop}

@[simp] theorem along_nil (s : σ) : Along step P s [] := trivial

@[simp] theorem along_cons {s : σ} {i : ι} {is : List ι} :
    Along step P s (i :: is) ↔ P s i ∧ Along step P (step s i) is := Iff.rfl

theorem along_append {s : σ} {is js : List ι} :
    Along step P s (is ++ js) ↔ Along step P s is ∧ Along step P (run step s is) js := by
  induction is generalizing s with
  | nil => simp
  | cons i is ih => simp [ih, and_assoc]

/-- **Invariants of runs**: preserved by every step that meets `P`, hence true
at the end of a run that meets `P` all along. -/
theorem run_invariant (hstep : ∀ s i, Inv s → P s i → Inv (step s i))
    {s : σ} {is : List ι} (hs : Inv s) (hP : Along step P s is) :
    Inv (run step s is) := by
  induction is generalizing s with
  | nil => exact hs
  | cons i is ih => exact ih (hstep s i hs hP.1) hP.2

/-- An invariant of every step is one of every run. -/
theorem run_always (Inv : σ → Prop) (hstep : ∀ s i, Inv s → Inv (step s i)) {s : σ}
    (hs : Inv s) (is : List ι) : Inv (run step s is) := by
  induction is generalizing s with
  | nil => exact hs
  | cons i is ih => exact ih (hstep s i hs)

/-- A reflexive transitive relation respected by the steps relates the ends of
a run. -/
theorem run_rel (R : σ → σ → Prop) (hrefl : ∀ s, R s s)
    (htrans : ∀ a b c, R a b → R b c → R a c) (hstep : ∀ s i, R s (step s i))
    (s : σ) (is : List ι) : R s (run step s is) := by
  induction is generalizing s with
  | nil => exact hrefl s
  | cons i is ih => exact htrans _ _ _ (hstep s i) (ih (step s i))

/-- Two conditions that agree wherever an invariant holds, which the steps that meet
the second one preserve, hold along the same runs. -/
theorem along_congr {Q : σ → ι → Prop} (hiff : ∀ s i, Inv s → (P s i ↔ Q s i))
    (hstep : ∀ s i, Inv s → Q s i → Inv (step s i)) {s : σ} (hs : Inv s) (is : List ι) :
    Along step P s is ↔ Along step Q s is := by
  induction is generalizing s with
  | nil => exact Iff.rfl
  | cons i is ih =>
    rw [along_cons, along_cons, hiff s i hs]
    exact and_congr_right fun hQ => ih (hstep s i hs hQ)

/-- **Progress**: if inputs of one kind bring a measure down until it is 0, and the
others do not raise it, so do runs. -/
theorem run_measure (Inv : σ → Prop) (μ : σ → Nat) (counts : ι → Bool)
    (hinv : ∀ s i, Inv s → Inv (step s i))
    (hstep : ∀ s i, Inv s → μ (step s i) ≤ μ s - if counts i then 1 else 0) {s : σ} (hs : Inv s)
    (is : List ι) : μ (run step s is) ≤ μ s - is.countP counts := by
  induction is generalizing s with
  | nil => exact Nat.le_refl _
  | cons i is ih =>
    have hfirst := hstep s i hs
    have hrest := ih (hinv s i hs)
    rw [run_cons, List.countP_cons]
    omega

/-- **Simulation**: if steps on related inputs lead from related states to related
states, runs on related inputs end in related states. -/
theorem run_simulates {σ' ι' : Type*} {step' : σ' → ι' → σ'} (R : σ → σ' → Prop)
    (T : ι → ι' → Prop)
    (hstep : ∀ s s' i i', R s s' → T i i' → R (step s i) (step' s' i')) {s : σ} {s' : σ'}
    (h : R s s') {is : List ι} {is' : List ι'} (hT : List.Forall₂ T is is') :
    R (run step s is) (run step' s' is') := by
  induction hT generalizing s s' with
  | nil => exact h
  | cons hi _ ih => exact ih (hstep _ _ _ _ h hi)

/-! ## Outputs -/

section Outputs

variable {ο : Type*}

/-- What is put out along a run, one output for each input. -/
def outputs (step : σ → ι → σ) (out : σ → ι → ο) : σ → List ι → List ο
  | _, [] => []
  | s, i :: is => out s i :: outputs step out (step s i) is

/-- **Bisimulation**: if related states put out the same and step to related states,
their runs put out the same and end in related states. -/
theorem outputs_eq_of_rel {out : σ → ι → ο} (R : σ → σ → Prop)
    (hout : ∀ s t i, R s t → out s i = out t i)
    (hstep : ∀ s t i, R s t → R (step s i) (step t i)) {s t : σ} (h : R s t) (is : List ι) :
    outputs step out s is = outputs step out t is ∧ R (run step s is) (run step t is) := by
  induction is generalizing s t with
  | nil => exact ⟨rfl, h⟩
  | cons i is ih =>
    obtain ⟨houts, hrun⟩ := ih (hstep s t i h)
    exact ⟨by rw [outputs, outputs, hout s t i h, houts], hrun⟩

/-- A machine that is a relation, from the first state to the last of some outputs. -/
inductive Trace {τ : Type*} (Step : τ → ο → τ → Prop) : τ → List ο → τ → Prop
  | nil {t : τ} : Trace Step t [] t
  | cons {t t' t'' : τ} {o : ο} {os : List ο} (first : Step t o t')
      (others : Trace Step t' os t'') : Trace Step t (o :: os) t''

/-- **Refinement**: if each step puts out what the machine can put out next, a whole run
does, and ends in a state that represents the one of the machine. -/
theorem run_refines {τ : Type*} {Step : τ → ο → τ → Prop} {P : σ → ι → Prop} {out : σ → ι → ο}
    (R : σ → τ → Prop)
    (hstep : ∀ s t i, R s t → P s i → ∃ t', Step t (out s i) t' ∧ R (step s i) t') {s : σ} {t : τ}
    {is : List ι} (h : R s t) (hP : Along step P s is) :
    ∃ t', Trace Step t (outputs step out s is) t' ∧ R (run step s is) t' := by
  induction is generalizing s t with
  | nil => exact ⟨t, .nil, h⟩
  | cons i is ih =>
    obtain ⟨hi, his⟩ := along_cons.mp hP
    obtain ⟨t', hfirst, h'⟩ := hstep s t i h hi
    obtain ⟨t'', hothers, h''⟩ := ih h' his
    exact ⟨t'', .cons hfirst hothers, h''⟩

end Outputs

/-! ## Logs -/

/-- What an entry of the log needs comes before it. -/
def Preceded (needs : ι → ι → Prop) (log : List ι) : Prop :=
  ∀ n i, log[n]? = some i → ∀ j, needs i j → j ∈ log.take n

theorem preceded_nil (needs : ι → ι → Prop) : Preceded needs [] := by
  intro n i hi
  cases hi

/-- Entries may be added once what they need is there. -/
theorem Preceded.append {needs : ι → ι → Prop} {log new : List ι} (h : Preceded needs log)
    (hnew : ∀ i ∈ new, ∀ j, needs i j → j ∈ log) : Preceded needs (log ++ new) := by
  intro n i hi j hj
  rcases Nat.lt_or_ge n log.length with hn | hn
  · rw [List.getElem?_append_left hn] at hi
    rw [List.take_append_of_le_length (Nat.le_of_lt hn)]
    exact h n i hi j hj
  · rw [List.getElem?_append_right hn] at hi
    rw [List.take_append, List.take_of_length_le hn]
    exact List.mem_append_left _ (hnew i (List.mem_of_getElem? hi) j hj)

end RunLib
