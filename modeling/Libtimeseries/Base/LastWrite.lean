import Mathlib.Data.List.Basic
import Mathlib.Logic.Function.Basic

/-!
# Last-write-wins stores

A store is a partial map; a list of writes is applied from left to right and
the last write to a key wins.

- `applyWrites_apply`: the value at a key is the last one written to it
  (`lastValue`), else the old one;
- `applyWrites_congr`: only the order of writes *to one key* matters;
- `UntilFailure.split`: what calls leave behind that stop at the first failure;
- `lastValue_sameQueues`: when messages travel over FIFO queues and all writers
  of a key use one queue, every interleaving of the queues writes the same last
  value, hence leaves the same store.
-/

namespace LastWrite

universe u v w x

variable {κ : Type u} {β : Type v} [DecidableEq κ]

/-- A store from keys to values. -/
abbrev Store (κ : Type u) (β : Type v) := κ → Option β

/-- Apply writes from left to right. -/
def applyWrites (s : Store κ β) (ws : List (κ × β)) : Store κ β :=
  ws.foldl (fun s w => Function.update s w.1 (some w.2)) s

/-- The last value written to `k`. -/
def lastValue (k : κ) : List (κ × β) → Option β
  | [] => none
  | w :: ws => (lastValue k ws).or (if w.1 = k then some w.2 else none)

@[simp] theorem applyWrites_cons (s : Store κ β) (w : κ × β) (ws : List (κ × β)) :
    applyWrites s (w :: ws) = applyWrites (Function.update s w.1 (some w.2)) ws := rfl

theorem applyWrites_append (s : Store κ β) (ws ws' : List (κ × β)) :
    applyWrites s (ws ++ ws') = applyWrites (applyWrites s ws) ws' :=
  List.foldl_append

@[simp] theorem lastValue_nil (k : κ) : lastValue k ([] : List (κ × β)) = none := rfl

@[simp] theorem lastValue_cons (k : κ) (w : κ × β) (ws : List (κ × β)) :
    lastValue k (w :: ws) = (lastValue k ws).or (if w.1 = k then some w.2 else none) := rfl

theorem lastValue_append (k : κ) (ws ws' : List (κ × β)) :
    lastValue k (ws ++ ws') = (lastValue k ws').or (lastValue k ws) := by
  induction ws with
  | nil => simp
  | cons w ws ih => rw [List.cons_append, lastValue_cons, ih, lastValue_cons, Option.or_assoc]

theorem lastValue_concat (k : κ) (ws : List (κ × β)) (w : κ × β) :
    lastValue k (ws ++ [w]) = if w.1 = k then some w.2 else lastValue k ws := by
  rw [lastValue_append]
  by_cases h : w.1 = k <;> simp [h]

theorem lastValue_eq_none {k : κ} {ws : List (κ × β)} :
    lastValue k ws = none ↔ k ∉ ws.map Prod.fst := by
  induction ws with
  | nil => simp
  | cons w ws ih =>
    rw [lastValue_cons, Option.or_eq_none_iff, ih, List.map_cons, List.mem_cons, not_or]
    by_cases h : w.1 = k
    · simp [h]
    · simp [h, Ne.symm h]

theorem exists_lastValue {k : κ} {ws : List (κ × β)} (h : k ∈ ws.map Prod.fst) :
    ∃ v, lastValue k ws = some v := by
  rw [← Option.ne_none_iff_exists', ne_eq, lastValue_eq_none]
  exact fun hnot => hnot h

/-- Writes do not matter if all their keys are written again. -/
theorem lastValue_append_of_subset {ws ws' : List (κ × β)}
    (h : ∀ w ∈ ws, w.1 ∈ ws'.map Prod.fst) (k : κ) :
    lastValue k (ws ++ ws') = lastValue k ws' := by
  rw [lastValue_append]
  cases hk : lastValue k ws' with
  | some v => rw [Option.some_or]
  | none =>
    rw [Option.none_or, lastValue_eq_none]
    intro hmem
    obtain ⟨w, hw, rfl⟩ := List.mem_map.mp hmem
    exact lastValue_eq_none.mp hk (h w hw)

/-- The last value of a key was written to it. -/
theorem lastValue_mem {k : κ} {v : β} {ws : List (κ × β)} (h : lastValue k ws = some v) :
    (k, v) ∈ ws := by
  induction ws with
  | nil => cases h
  | cons w ws ih =>
    rw [lastValue_cons, Option.or_eq_some_iff] at h
    rcases h with h | ⟨-, h⟩
    · exact List.mem_cons_of_mem _ (ih h)
    · by_cases hk : w.1 = k
      · rw [if_pos hk, Option.some.injEq] at h
        obtain ⟨k', v'⟩ := w
        obtain rfl : k' = k := hk
        obtain rfl : v' = v := h
        exact List.mem_cons_self
      · rw [if_neg hk] at h
        cases h

/-- **What a store holds after writes**: the last value written, else the old. -/
theorem applyWrites_apply (s : Store κ β) (ws : List (κ × β)) (k : κ) :
    applyWrites s ws k = (lastValue k ws).or (s k) := by
  induction ws generalizing s with
  | nil => rfl
  | cons w ws ih =>
    rw [applyWrites_cons, ih, lastValue_cons, Option.or_assoc]
    by_cases h : w.1 = k
    · subst h
      simp
    · rw [Function.update_of_ne (Ne.symm h), if_neg h, Option.none_or]

/-- In a list of writes with distinct keys every write is the last of its key. -/
theorem lastValue_of_nodup {ws : List (κ × β)} (hnd : (ws.map Prod.fst).Nodup)
    {k : κ} {v : β} (h : (k, v) ∈ ws) : lastValue k ws = some v := by
  induction ws with
  | nil => cases h
  | cons w ws ih =>
    obtain ⟨hw, hnd'⟩ := List.nodup_cons.mp hnd
    rw [lastValue_cons]
    rcases List.mem_cons.mp h with rfl | h
    · rw [lastValue_eq_none.mpr hw, Option.none_or, if_pos rfl]
    · rw [ih hnd' h, Option.some_or]

/-- Renaming keys injectively, and values in any way. -/
theorem lastValue_map {κ' : Type w} {β' : Type x} [DecidableEq κ'] {f : κ → κ'}
    (hf : Function.Injective f) (g : β → β') (k : κ) (ws : List (κ × β)) :
    lastValue (f k) (ws.map fun w => (f w.1, g w.2)) = (lastValue k ws).map g := by
  induction ws with
  | nil => rfl
  | cons w ws ih =>
    rw [List.map_cons, lastValue_cons, ih, lastValue_cons, Option.map_or]
    by_cases h : w.1 = k
    · simp [h]
    · simp [h, hf.ne h]

/-- Writes under one tag. -/
theorem lastValue_tag {τ : Type w} [DecidableEq τ] (tag t : τ) (k : κ) (ws : List (κ × β)) :
    lastValue (k, t) (ws.map fun w => ((w.1, tag), w.2))
      = if tag = t then lastValue k ws else none := by
  split
  · next h =>
    subst h
    have hinj : Function.Injective fun k : κ => (k, tag) := by
      intro a b hab
      exact congrArg Prod.fst hab
    exact (lastValue_map hinj (fun v : β => v) k ws).trans Option.map_id'
  · next h =>
    rw [lastValue_eq_none]
    intro hmem
    refine h ?_
    obtain ⟨e, he, heq⟩ := List.mem_map.mp hmem
    obtain ⟨r, -, rfl⟩ := List.mem_map.mp he
    exact congrArg Prod.snd heq

/-- Lists of writes with the same last values have the same effect. -/
theorem applyWrites_congr {ws ws' : List (κ × β)}
    (h : ∀ k, lastValue k ws = lastValue k ws') (s : Store κ β) :
    applyWrites s ws = applyWrites s ws' := by
  funext k
  rw [applyWrites_apply, applyWrites_apply, h k]

/-- Writes that are selected by their keys. -/
theorem lastValue_filter (p : κ → Bool) (k : κ) (ws : List (κ × β)) :
    lastValue k (ws.filter fun w => p w.1) = if p k then lastValue k ws else none := by
  induction ws with
  | nil => simp
  | cons w ws ih =>
    rw [List.filter_cons]
    by_cases hw : w.1 = k
    · subst hw
      by_cases hp : p w.1 = true
      · simp only [hp, if_true, lastValue_cons, ih]
      · simp only [hp, Bool.false_eq_true, if_false, ih]
    · by_cases hp : p w.1 = true
      · simp only [hp, if_true, lastValue_cons, ih, if_neg hw, Option.or_none]
      · simp only [hp, Bool.false_eq_true, if_false, ih, lastValue_cons, if_neg hw, Option.or_none]

/-! ## Writes under way -/

/-- The same last values, except for the keys `ks`. -/
def AgreeOff (ks : List κ) (ws ws' : List (κ × β)) : Prop :=
  ∀ k, k ∉ ks → lastValue k ws = lastValue k ws'

namespace AgreeOff

variable {ks ks' : List κ} {ws ws' ps : List (κ × β)}

theorem refl (ks : List κ) (ws : List (κ × β)) : AgreeOff ks ws ws := fun _ _ => rfl

theorem mono (h : AgreeOff ks ws ws') (hsub : ks ⊆ ks') : AgreeOff ks' ws ws' :=
  fun k hk => h k fun hmem => hk (hsub hmem)

/-- A part of the writes that are under way. -/
theorem append (h : AgreeOff ks ws ws') (hps : ∀ w ∈ ps, w.1 ∈ ks) :
    AgreeOff ks (ws ++ ps) ws' := by
  intro k hk
  have hnone : lastValue k ps = none := by
    rw [lastValue_eq_none, List.mem_map]
    rintro ⟨w, hw, rfl⟩
    exact hk (hps w hw)
  rw [lastValue_append, hnone, Option.none_or, h k hk]

/-- All of them: whatever came before no longer matters. -/
theorem settle (h : AgreeOff (ps.map Prod.fst) ws ws') : AgreeOff [] (ws ++ ps) (ws' ++ ps) := by
  intro k _
  rw [lastValue_append, lastValue_append]
  by_cases hk : k ∈ ps.map Prod.fst
  · obtain ⟨v, hv⟩ := exists_lastValue hk
    rw [hv, Option.some_or, Option.some_or]
  · rw [h k hk]

theorem filter (h : AgreeOff ks ws ws') (p : κ → Bool) :
    AgreeOff ks (ws.filter fun w => p w.1) (ws'.filter fun w => p w.1) := by
  intro k hk
  rw [lastValue_filter, lastValue_filter, h k hk]

end AgreeOff

/-! ## Calls that stop at the first failure -/

/-- What calls have written that stop at the first one that fails: the calls before it
all of their writes, or others with the same last values, and that one a part of
them. -/
inductive UntilFailure : Bool → List (κ × β) → List (List (κ × β)) → Prop
  | done : UntilFailure true [] []
  | ok {ok : Bool} {ps ws call : List (κ × β)} {calls : List (List (κ × β))}
      (same : AgreeOff [] ps call) (rest : UntilFailure ok ws calls) :
      UntilFailure ok (ps ++ ws) (call :: calls)
  | fail {ps part call : List (κ × β)} {calls : List (List (κ × β))}
      (same : AgreeOff [] ps call) (sub : part ⊆ ps) : UntilFailure false part (call :: calls)

/-- Outside the call that failed, the calls before it have written what they are to
write. -/
theorem UntilFailure.split {ok : Bool} {ws : List (κ × β)} {calls : List (List (κ × β))}
    (h : UntilFailure ok ws calls) :
    ∃ done rest, calls = done ++ rest ∧ (ok = true ↔ rest = []) ∧
      AgreeOff ((rest.headD []).map Prod.fst) ws done.flatten := by
  induction h with
  | done => exact ⟨[], [], rfl, by simp, .refl _ _⟩
  | @ok ok ps ws call calls same _ ih =>
    obtain ⟨done, rest, hcalls, hok, hagree⟩ := ih
    refine ⟨call :: done, rest, by rw [hcalls]; rfl, hok, fun k hk => ?_⟩
    rw [List.flatten_cons, lastValue_append, lastValue_append, hagree k hk,
      same k List.not_mem_nil]
  | @fail ps part call calls same sub =>
    refine ⟨[], call :: calls, rfl, by simp, fun k hk => ?_⟩
    have hnone : lastValue k ps = none := by
      rw [same k List.not_mem_nil]
      exact lastValue_eq_none.mpr hk
    have hnot := lastValue_eq_none.mp hnone
    rw [List.flatten_nil, lastValue_nil, lastValue_eq_none]
    exact fun hmem => hnot (List.map_subset _ sub hmem)

/-! ## Writes carried by messages over FIFO queues -/

variable {μ : Type w} {π : Type x} [DecidableEq π]

/-- Two sequences of messages agree on every queue: each is an interleaving of
the same FIFO queues. -/
def SameQueues (queue : μ → π) (ms ms' : List μ) : Prop :=
  ∀ p, ms.filter (fun m => queue m = p) = ms'.filter (fun m => queue m = p)

theorem SameQueues.mem_iff {queue : μ → π} {ms ms' : List μ}
    (h : SameQueues queue ms ms') (m : μ) : m ∈ ms ↔ m ∈ ms' := by
  have hq := congrArg (m ∈ ·) (h (queue m))
  simpa using hq

/-- Leaving messages out leaves them out of their queues. -/
theorem SameQueues.filter {queue : μ → π} {ms ms' : List μ} (h : SameQueues queue ms ms')
    (p : μ → Bool) : SameQueues queue (ms.filter p) (ms'.filter p) := by
  intro q
  have hcomm : ∀ l : List μ, (l.filter p).filter (fun m => queue m = q)
      = (l.filter fun m => queue m = q).filter p := by
    intro l
    rw [List.filter_filter, List.filter_filter]
    exact List.filter_congr fun m _ => Bool.and_comm _ _
  rw [hcomm, hcomm, h q]

/-- Two messages of different queues may come in either order. -/
theorem sameQueues_swap {queue : μ → π} {a b : μ} (h : queue a ≠ queue b) :
    SameQueues queue [a, b] [b, a] := by
  intro p
  by_cases ha : queue a = p
  · have hb : queue b ≠ p := fun hb => h (ha.trans hb.symm)
    simp [ha, hb]
  · simp [ha, List.filter_cons]

/-- Only the messages of one queue decide the last value of `k` when all its
writers use that queue. -/
theorem lastValue_flatMap_filter (queue : μ → π) (writes : μ → List (κ × β)) {k : κ} (p : π)
    {ms : List μ} (h : ∀ m ∈ ms, k ∈ (writes m).map Prod.fst → queue m = p) :
    lastValue k ((ms.filter fun m => queue m = p).flatMap writes)
      = lastValue k (ms.flatMap writes) := by
  induction ms with
  | nil => rfl
  | cons m ms ih =>
    have ih' := ih fun m' hm' => h m' (List.mem_cons_of_mem _ hm')
    by_cases hp : queue m = p
    · rw [List.filter_cons_of_pos (by simpa using hp), List.flatMap_cons, List.flatMap_cons,
        lastValue_append, lastValue_append, ih']
    · -- a message that was filtered out does not write the key
      have hnone : lastValue k (writes m) = none := by
        rw [lastValue_eq_none]
        intro hk
        exact hp (h m List.mem_cons_self hk)
      rw [List.filter_cons_of_neg (by simpa using hp), List.flatMap_cons, lastValue_append,
        ih', hnone, Option.or_none]

/-- **Order independence**: if all writers of a key share a queue, every
interleaving of the queues writes the same last value to it. -/
theorem lastValue_sameQueues {queue : μ → π} (writes : μ → List (κ × β)) {ms ms' : List μ}
    (hq : SameQueues queue ms ms') (k : κ)
    (hshare : ∀ m ∈ ms, ∀ m' ∈ ms, k ∈ (writes m).map Prod.fst →
      k ∈ (writes m').map Prod.fst → queue m = queue m') :
    lastValue k (ms.flatMap writes) = lastValue k (ms'.flatMap writes) := by
  by_cases hw : ∃ m₀ ∈ ms, k ∈ (writes m₀).map Prod.fst
  · -- the queue of one writer decides on both sides, and is the same there
    obtain ⟨m₀, hm₀, hk₀⟩ := hw
    rw [← lastValue_flatMap_filter queue writes (queue m₀)
        (fun m hm hk => hshare m hm m₀ hm₀ hk hk₀),
      ← lastValue_flatMap_filter queue writes (queue m₀)
        (fun m hm hk => hshare m ((hq.mem_iff m).mpr hm) m₀ hm₀ hk hk₀),
      hq (queue m₀)]
  · -- nobody writes the key
    have hnone : ∀ ms'' : List μ, (∀ m ∈ ms'', m ∈ ms) →
        lastValue k (ms''.flatMap writes) = none := by
      intro ms'' hsub
      rw [lastValue_eq_none]
      intro hk
      obtain ⟨e, he, rfl⟩ := List.mem_map.mp hk
      obtain ⟨m, hm, hem⟩ := List.mem_flatMap.mp he
      exact hw ⟨m, hsub m hm, List.mem_map_of_mem hem⟩
    rw [hnone ms fun _ h => h, hnone ms' fun m h => (hq.mem_iff m).mpr h]

end LastWrite
