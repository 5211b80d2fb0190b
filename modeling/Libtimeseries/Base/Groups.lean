import Mathlib.Data.List.Basic

/-!
# Groups of consecutive equals

A stream of tagged batches is cut into groups: batches with equal tags that
follow each other form one group, and a group can also be closed from outside.

- `Groups.add`, `Groups.close`: the two events of the stream;
- `Groups.all`: every group so far, the current one included;
- `flatMap_tagged_add`: grouping neither loses nor reorders anything.
-/

namespace GroupLib

universe u v

/-- The items collected under one tag. -/
structure Group (τ : Type u) (α : Type v) where
  tag : τ
  items : List α

/-- The items with their tag. -/
def Group.tagged {τ : Type u} {α : Type v} (g : Group τ α) : List (τ × α) :=
  g.items.map fun a => (g.tag, a)

/-- The groups of a stream: the closed ones and the one that still grows. -/
structure Groups (τ : Type u) (α : Type v) where
  closed : List (Group τ α)
  current : Option (Group τ α)

namespace Groups

variable {τ : Type u} {α : Type v}

/-- Nothing has arrived. -/
def empty : Groups τ α := ⟨[], none⟩

/-- Close the current group, if there is one. -/
def close (g : Groups τ α) : Groups τ α := ⟨g.closed ++ g.current.toList, none⟩

/-- A batch joins the current group if the tags agree, and otherwise closes it and
opens its own. -/
def add [DecidableEq τ] (g : Groups τ α) (tag : τ) (items : List α) : Groups τ α :=
  match g.current with
  | none => ⟨g.closed, some ⟨tag, items⟩⟩
  | some cur =>
    if cur.tag = tag then ⟨g.closed, some ⟨tag, cur.items ++ items⟩⟩
    else ⟨g.closed ++ [cur], some ⟨tag, items⟩⟩

/-- Every group, the current one last. -/
def all (g : Groups τ α) : List (Group τ α) := g.closed ++ g.current.toList

@[simp] theorem all_close (g : Groups τ α) : g.close.all = g.all := by
  simp [all, close]

section Add

variable [DecidableEq τ] (g : Groups τ α) {cur : Group τ α} {tag : τ} (items : List α)

theorem add_of_none (h : g.current = none) : g.add tag items = ⟨g.closed, some ⟨tag, items⟩⟩ := by
  rw [add, h]

theorem add_of_eq (h : g.current = some cur) (htag : cur.tag = tag) :
    g.add tag items = ⟨g.closed, some ⟨tag, cur.items ++ items⟩⟩ := by
  rw [add, h]
  exact if_pos htag

theorem add_of_ne (h : g.current = some cur) (htag : cur.tag ≠ tag) :
    g.add tag items = ⟨g.closed ++ [cur], some ⟨tag, items⟩⟩ := by
  rw [add, h]
  exact if_neg htag

/-- **Grouping keeps the stream**: the new batch comes behind what was there. -/
theorem flatMap_tagged_add :
    (g.add tag items).all.flatMap Group.tagged
      = g.all.flatMap Group.tagged ++ items.map fun a => (tag, a) := by
  cases hcur : g.current with
  | none =>
    rw [add_of_none g items hcur]
    simp [all, hcur, Group.tagged]
  | some cur =>
    by_cases htag : cur.tag = tag
    · rw [add_of_eq g items hcur htag]
      simp [all, hcur, Group.tagged, htag]
    · rw [add_of_ne g items hcur htag]
      simp [all, hcur, Group.tagged]

end Add

end Groups

end GroupLib
