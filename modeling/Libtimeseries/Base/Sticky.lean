import Libtimeseries.Base.LastWrite

/-!
# Buffers that keep their keys

A buffer collects writes and is flushed batch by batch, each batch under a tag.
After a flush it keeps its keys with a default value, so the next flush writes
the keys of all batches so far.

- `sticky`: what the buffer holds;
- `stickyWrites`: what the flushes write;
- `lastValue_stickyWrites_of_mem`: for a key the buffer has from the start, the
  last batch under a tag decides, with the default if the key is not in it;
- `lastValue_stickyWrites`: the same for a key of any batch, unless the tag is
  only used before that batch.
-/

namespace LastWrite

universe u v w

variable {κ : Type u} {β : Type v} {τ : Type w}

/-- What the buffer holds: its old keys with the default value, then the batch. -/
def sticky (default : β) (keys : List κ) (batch : List (κ × β)) : List (κ × β) :=
  keys.map (fun k => (k, default)) ++ batch

/-- What the flushes of some batches, each with its tag, write. The buffer has some
keys already. -/
def stickyWrites (default : β) : List κ → List (τ × List (κ × β)) → List ((κ × τ) × β)
  | _, [] => []
  | keys, b :: bs =>
    (sticky default keys b.2).map (fun w => ((w.1, b.1), w.2)) ++
      stickyWrites default (keys ++ b.2.map Prod.fst) bs

/-- The same, flush by flush. -/
def stickyFlushes (default : β) : List κ → List (τ × List (κ × β)) → List (List ((κ × τ) × β))
  | _, [] => []
  | keys, b :: bs =>
    (sticky default keys b.2).map (fun w => ((w.1, b.1), w.2)) ::
      stickyFlushes default (keys ++ b.2.map Prod.fst) bs

/-- The keys of some batches. -/
def batchKeys (bs : List (τ × List (κ × β))) : List κ := bs.flatMap fun b => b.2.map Prod.fst

variable {default : β}

theorem stickyWrites_append (keys : List κ) (bs bs' : List (τ × List (κ × β))) :
    stickyWrites default keys (bs ++ bs')
      = stickyWrites default keys bs ++ stickyWrites default (keys ++ batchKeys bs) bs' := by
  induction bs generalizing keys with
  | nil => rw [batchKeys, List.flatMap_nil, List.append_nil]; rfl
  | cons b bs ih =>
    have hkeys : keys ++ batchKeys (b :: bs) = keys ++ b.2.map Prod.fst ++ batchKeys bs :=
      (List.append_assoc ..).symm
    rw [List.cons_append, stickyWrites, ih, stickyWrites, hkeys]
    exact (List.append_assoc ..).symm

variable [DecidableEq κ] [DecidableEq τ] {keys : List κ} {k : κ} {t : τ}
  {b : τ × List (κ × β)} {bs bs' : List (τ × List (κ × β))}

theorem lastValue_default (keys : List κ) (k : κ) :
    lastValue k (keys.map fun k => (k, default)) = if k ∈ keys then some default else none := by
  induction keys with
  | nil => rfl
  | cons k' keys ih =>
    rw [List.map_cons, lastValue_cons, ih]
    by_cases hmem : k ∈ keys
    · rw [if_pos hmem, if_pos (List.mem_cons_of_mem _ hmem), Option.some_or]
    · by_cases hk : k' = k
      · subst hk
        simp [hmem]
      · simp [hk, Ne.symm hk, hmem]

/-- The value of a key in the buffer. -/
theorem lastValue_sticky (keys : List κ) (batch : List (κ × β)) (k : κ) :
    lastValue k (sticky default keys batch)
      = (lastValue k batch).or (if k ∈ keys then some default else none) := by
  rw [sticky, lastValue_append, lastValue_default]

/-- After a flush the buffer holds its keys with the default value. -/
theorem lastValue_sticky_flushed (keys : List κ) (batch : List (κ × β)) (k : κ) :
    lastValue k (sticky default (keys ++ batch.map Prod.fst) [])
      = (lastValue k (sticky default keys batch)).map fun _ => default := by
  rw [lastValue_sticky, lastValue_sticky, lastValue_nil, Option.none_or]
  cases hlast : lastValue k batch with
  | none =>
    have hnot := lastValue_eq_none.mp hlast
    by_cases hk : k ∈ keys
    · rw [if_pos (List.mem_append_left _ hk), if_pos hk]
      rfl
    · rw [if_neg (fun h => (List.mem_append.mp h).elim hk hnot), if_neg hk]
      rfl
  | some v =>
    have hmem : k ∈ batch.map Prod.fst := List.mem_map_of_mem (lastValue_mem hlast)
    rw [if_pos (List.mem_append_right _ hmem)]
    rfl

/-- A tag that no batch has is not written. -/
theorem lastValue_stickyWrites_of_none (h : lastValue t bs = none) (keys : List κ) :
    lastValue (k, t) (stickyWrites default keys bs) = none := by
  induction bs generalizing keys with
  | nil => rfl
  | cons b bs ih =>
    rw [lastValue_cons, Option.or_eq_none_iff] at h
    obtain ⟨hbs, hb⟩ := h
    have htag : b.1 ≠ t := by
      intro htag
      rw [if_pos htag] at hb
      cases hb
    rw [stickyWrites, lastValue_append, ih hbs, lastValue_tag, if_neg htag, Option.none_or]

/-- For a key of the buffer the last batch under a tag decides. -/
theorem lastValue_stickyWrites_of_mem (hk : k ∈ keys) :
    lastValue (k, t) (stickyWrites default keys bs)
      = (lastValue t bs).map fun batch => (lastValue k batch).getD default := by
  induction bs generalizing keys with
  | nil => rfl
  | cons b bs ih =>
    rw [stickyWrites, lastValue_append, ih (List.mem_append_left _ hk), lastValue_tag,
      lastValue_sticky, if_pos hk, Option.or_some, lastValue_cons, Option.map_or]
    by_cases htag : b.1 = t
    · rw [if_pos htag, if_pos htag]
      rfl
    · rw [if_neg htag, if_neg htag]
      rfl

theorem lastValue_stickyWrites_cons (hk : k ∈ b.2.map Prod.fst) :
    lastValue (k, t) (stickyWrites default keys (b :: bs))
      = (lastValue t (b :: bs)).map fun batch => (lastValue k batch).getD default := by
  obtain ⟨v, hv⟩ := exists_lastValue hk
  rw [stickyWrites, lastValue_append,
    lastValue_stickyWrites_of_mem (List.mem_append_right _ hk), lastValue_tag, lastValue_sticky, hv,
    Option.some_or, lastValue_cons, Option.map_or]
  by_cases htag : b.1 = t
  · rw [if_pos htag, if_pos htag, Option.map_some, hv]
    rfl
  · rw [if_neg htag, if_neg htag]
    rfl

/-- **What the flushes leave** of a key of a batch: its value in the last batch under
the tag, the default if it is not in it, provided that the tag is not used before
the batch only. -/
theorem lastValue_stickyWrites (hk : k ∈ b.2.map Prod.fst)
    (htag : lastValue t (b :: bs') = none → lastValue t bs = none) :
    lastValue (k, t) (stickyWrites default keys (bs ++ b :: bs'))
      = (lastValue t (bs ++ b :: bs')).map fun batch => (lastValue k batch).getD default := by
  rw [stickyWrites_append, lastValue_append, lastValue_stickyWrites_cons hk, lastValue_append]
  cases hlast : lastValue t (b :: bs') with
  | some batch => rfl
  | none =>
    have hbs := htag hlast
    rw [hbs, lastValue_stickyWrites_of_none hbs]
    rfl

end LastWrite
