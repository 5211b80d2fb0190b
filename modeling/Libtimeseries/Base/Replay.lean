import Libtimeseries.Base.LastWrite

/-!
# Replaying queues

A store is fed from FIFO queues that keep their messages. Each session of the reader
goes on in every queue from some offset, and writes what it reads, or a part of it.

- `Replays`: the offsets and the store after some sessions. Offsets only go past what
  was written as a whole; they may go back at any time;
- `Replays.settled`: a key that no unread message writes holds what all the messages
  give it, however often and in whatever order they were read;
- `Replays.complete`: so does the whole store once nothing is unread.
-/

namespace LastWrite

universe u v w x

variable {κ : Type u} {β : Type v} {μ : Type w} {π : Type x} [DecidableEq π]

/-- The messages of one queue. -/
def queueOf (queue : μ → π) (ms : List μ) (p : π) : List μ := ms.filter fun m => queue m = p

section Readers

variable (queue : μ → π) (ms : List μ) (offsets : π → Nat)

/-- A message behind the offsets. -/
def Unread (m : μ) : Prop := m ∈ (queueOf queue ms (queue m)).drop (offsets (queue m))

/-- What is read from the offsets on: in every queue one message after the other. -/
def ReadsOn (read : List μ) : Prop :=
  ∀ p, queueOf queue read p <+: (queueOf queue ms p).drop (offsets p)

/-- The offsets behind what was read. -/
def advance (read : List μ) : π → Nat := fun p => offsets p + (queueOf queue read p).length

end Readers

/-- All writers of a key use one queue. -/
def Shared (queue : μ → π) (writes : μ → List (κ × β)) (ms : List μ) : Prop :=
  ∀ k, ∀ m ∈ ms, ∀ m' ∈ ms, k ∈ (writes m).map Prod.fst → k ∈ (writes m').map Prod.fst →
    queue m = queue m'

theorem mem_map_flatMap {writes : μ → List (κ × β)} {ms : List μ} {k : κ} :
    k ∈ (ms.flatMap writes).map Prod.fst ↔ ∃ m ∈ ms, k ∈ (writes m).map Prod.fst := by
  rw [List.map_flatMap, List.mem_flatMap]

variable [DecidableEq κ]

/-- The offsets and the store after some sessions, from the store `s₀` on. -/
inductive Replays (queue : μ → π) (writes : μ → List (κ × β)) (ms : List μ) (s₀ : Store κ β) :
    (π → Nat) → Store κ β → Prop
  | start : Replays queue writes ms s₀ (fun _ => 0) s₀
  | back {offsets offsets' : π → Nat} {s : Store κ β} (h : Replays queue writes ms s₀ offsets s)
      (le : ∀ p, offsets' p ≤ offsets p) : Replays queue writes ms s₀ offsets' s
  | part {offsets : π → Nat} {s : Store κ β} {read : List μ} {ws : List (κ × β)}
      (h : Replays queue writes ms s₀ offsets s) (reads : ReadsOn queue ms offsets read)
      (sub : ∀ k, k ∈ ws.map Prod.fst → k ∈ (read.flatMap writes).map Prod.fst) :
      Replays queue writes ms s₀ offsets (applyWrites s ws)
  | whole {offsets : π → Nat} {s : Store κ β} {read : List μ} {ws : List (κ × β)}
      (h : Replays queue writes ms s₀ offsets s) (reads : ReadsOn queue ms offsets read)
      (same : ∀ k, lastValue k ws = lastValue k (read.flatMap writes)) :
      Replays queue writes ms s₀ (advance queue offsets read) (applyWrites s ws)

section

variable {queue : μ → π} {writes : μ → List (κ × β)} {ms read : List μ} {s₀ s : Store κ β}
  {offsets : π → Nat}

theorem mem_queueOf {m : μ} {p : π} : m ∈ queueOf queue ms p ↔ m ∈ ms ∧ queue m = p := by
  rw [queueOf, List.mem_filter, decide_eq_true_iff]

/-- What is read was unread. -/
theorem ReadsOn.unread (h : ReadsOn queue ms offsets read) {m : μ} (hm : m ∈ read) :
    Unread queue ms offsets m :=
  (h (queue m)).subset (mem_queueOf.mpr ⟨hm, rfl⟩)

theorem Unread.mem {m : μ} (h : Unread queue ms offsets m) : m ∈ ms :=
  (mem_queueOf.mp (List.mem_of_mem_drop h)).1

/-- A message that was unread has been read, or is unread still. -/
theorem ReadsOn.split (h : ReadsOn queue ms offsets read) {m : μ} (hm : Unread queue ms offsets m) :
    m ∈ read ∨ Unread queue ms (advance queue offsets read) m := by
  obtain ⟨rest, hrest⟩ := h (queue m)
  rw [Unread, ← hrest, List.mem_append] at hm
  rcases hm with hm | hm
  · exact .inl (mem_queueOf.mp hm).1
  · refine .inr ?_
    rwa [Unread, advance, ← List.drop_drop, ← hrest, List.drop_left]

theorem lastValue_none_of_unwritten {k : κ} {l : List μ}
    (h : ∀ m ∈ l, k ∉ (writes m).map Prod.fst) : lastValue k (l.flatMap writes) = none := by
  rw [lastValue_eq_none, mem_map_flatMap]
  rintro ⟨m, hm, hk⟩
  exact h m hm hk

/-- The last value of a key among all messages is the last among those read just now, if
they write it and no unread message does. -/
theorem ReadsOn.lastValue_eq (h : ReadsOn queue ms offsets read)
    (hshared : Shared queue writes ms) {k : κ}
    (hread : k ∈ (read.flatMap writes).map Prod.fst)
    (hunread : ∀ m, Unread queue ms (advance queue offsets read) m → k ∉ (writes m).map Prod.fst) :
    lastValue k (ms.flatMap writes) = lastValue k (read.flatMap writes) := by
  obtain ⟨m₀, hm₀, hk₀⟩ := mem_map_flatMap.mp hread
  -- every writer of the key is in the queue of this one
  have hwriters : ∀ m ∈ ms, k ∈ (writes m).map Prod.fst → queue m = queue m₀ := fun m hm hk =>
    hshared k m hm m₀ (h.unread hm₀).mem hk hk₀
  obtain ⟨rest, hrest⟩ := h (queue m₀)
  have hsplit : queueOf queue ms (queue m₀)
      = (queueOf queue ms (queue m₀)).take (offsets (queue m₀)) ++
        (queueOf queue read (queue m₀) ++ rest) := by
    rw [hrest, List.take_append_drop]
  have hnone : lastValue k (rest.flatMap writes) = none := by
    refine lastValue_none_of_unwritten fun m hm => hunread m ?_
    have hdrop : m ∈ (queueOf queue ms (queue m₀)).drop (offsets (queue m₀)) :=
      hrest ▸ List.mem_append_right _ hm
    have hqueue : queue m = queue m₀ := (mem_queueOf.mp (List.mem_of_mem_drop hdrop)).2
    rwa [Unread, advance, hqueue, ← List.drop_drop, ← hrest, List.drop_left]
  rw [← lastValue_flatMap_filter queue writes (queue m₀) hwriters,
    ← lastValue_flatMap_filter queue writes (queue m₀) fun m hm => hwriters m (h.unread hm).mem]
  show lastValue k ((queueOf queue ms (queue m₀)).flatMap writes)
    = lastValue k ((queueOf queue read (queue m₀)).flatMap writes)
  obtain ⟨v, hv⟩ : ∃ v, lastValue k ((queueOf queue read (queue m₀)).flatMap writes) = some v :=
    exists_lastValue (mem_map_flatMap.mpr ⟨m₀, mem_queueOf.mpr ⟨hm₀, rfl⟩, hk₀⟩)
  rw [hsplit, List.flatMap_append, List.flatMap_append, lastValue_append, lastValue_append, hnone,
    Option.none_or, hv, Option.some_or]

theorem applyWrites_unwritten {k : κ} {ws : List (κ × β)} (h : k ∉ ws.map Prod.fst) :
    applyWrites s ws k = s k := by
  rw [applyWrites_apply, lastValue_eq_none.mpr h, Option.none_or]

/-- **What is settled**: a key that no unread message writes holds what all the messages
give it. -/
theorem Replays.settled (h : Replays queue writes ms s₀ offsets s) (hshared : Shared queue writes ms)
    (k : κ) (hk : ∀ m, Unread queue ms offsets m → k ∉ (writes m).map Prod.fst) :
    s k = applyWrites s₀ (ms.flatMap writes) k := by
  induction h with
  | start =>
    refine (applyWrites_unwritten ?_).symm
    rw [mem_map_flatMap]
    rintro ⟨m, hm, hwrites⟩
    exact hk m (mem_queueOf.mpr ⟨hm, rfl⟩) hwrites
  | back h le ih =>
    refine ih fun m hm => hk m ?_
    exact (List.drop_subset_drop_left _ (le (queue m))) hm
  | part h reads sub ih =>
    rw [← ih hk]
    refine applyWrites_unwritten fun hws => ?_
    obtain ⟨m, hm, hwrites⟩ := mem_map_flatMap.mp (sub k hws)
    exact hk m (reads.unread hm) hwrites
  | @whole offsets s read ws h reads same ih =>
    by_cases hread : k ∈ (read.flatMap writes).map Prod.fst
    · obtain ⟨v, hv⟩ := exists_lastValue hread
      rw [applyWrites_apply, applyWrites_apply, same, reads.lastValue_eq hshared hread hk, hv,
        Option.some_or, Option.some_or]
    · have hws : k ∉ ws.map Prod.fst := by
        rw [← lastValue_eq_none, same, lastValue_eq_none]
        exact hread
      rw [applyWrites_unwritten hws]
      refine ih fun m hm hwrites => ?_
      rcases reads.split hm with hmem | hunread
      · exact hread (mem_map_flatMap.mpr ⟨m, hmem, hwrites⟩)
      · exact hk m hunread hwrites

/-- Once nothing is unread, the store is what all the messages make of it. -/
theorem Replays.complete (h : Replays queue writes ms s₀ offsets s)
    (hshared : Shared queue writes ms) (hend : ∀ p, (queueOf queue ms p).length ≤ offsets p) :
    s = applyWrites s₀ (ms.flatMap writes) := by
  funext k
  refine h.settled hshared k fun m hm => ?_
  rw [Unread, List.drop_eq_nil_of_le (hend (queue m))] at hm
  exact absurd hm List.not_mem_nil

end

end LastWrite
