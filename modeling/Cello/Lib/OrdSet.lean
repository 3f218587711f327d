import Mathlib.Data.List.Nodup

/-!
# Insertion-ordered finite sets

A JavaScript `Set`: its members in the order they first arrived, none of them twice.
-/

namespace Lib

/-- A finite set whose members keep their insertion order. -/
structure OrdSet (α : Type*) where
  members : List α
  nodup : members.Nodup
deriving DecidableEq

namespace OrdSet

variable {α : Type*}

/-- `new Set()`. -/
def empty : OrdSet α := ⟨[], List.nodup_nil⟩

instance : Membership α (OrdSet α) := ⟨fun s a => a ∈ s.members⟩

instance [DecidableEq α] (a : α) (s : OrdSet α) : Decidable (a ∈ s) :=
  inferInstanceAs (Decidable (a ∈ s.members))

/-- `set.size`. -/
def size (s : OrdSet α) : ℕ := s.members.length

/-- `set.add(a)`. -/
def add [DecidableEq α] (s : OrdSet α) (a : α) : OrdSet α :=
  if h : a ∈ s.members then s
  else ⟨s.members ++ [a], List.nodup_append.2 ⟨s.nodup, List.nodup_singleton a, by
    intro x hx y hy
    rw [List.mem_singleton] at hy
    rintro rfl
    exact h (hy ▸ hx)⟩⟩

/-- `set.delete(a)`. -/
def delete [DecidableEq α] (s : OrdSet α) (a : α) : OrdSet α :=
  ⟨s.members.filter fun x => decide (x ≠ a), s.nodup.filter _⟩

@[simp] theorem not_mem_empty (a : α) : a ∉ (empty : OrdSet α) := List.not_mem_nil

@[simp] theorem mem_add [DecidableEq α] (s : OrdSet α) (a x : α) : x ∈ s.add a ↔ x = a ∨ x ∈ s := by
  change x ∈ (s.add a).members ↔ x = a ∨ x ∈ s.members
  rw [add]
  split
  · rename_i h
    refine ⟨Or.inr, ?_⟩
    rintro (rfl | hx)
    · exact h
    · exact hx
  · rw [List.mem_append, List.mem_singleton, or_comm]

theorem mem_foldl_add [DecidableEq α] {β : Type*} (f : β → α) {l : List β} {s : OrdSet α} {x : α} :
    x ∈ l.foldl (fun s b => s.add (f b)) s ↔ x ∈ s ∨ ∃ b ∈ l, f b = x := by
  induction l generalizing s with
  | nil => simp
  | cons b l ih =>
    rw [List.foldl_cons, ih, mem_add]
    simp only [List.mem_cons, exists_eq_or_imp]
    grind

@[simp] theorem mem_delete [DecidableEq α] (s : OrdSet α) (a x : α) :
    x ∈ s.delete a ↔ x ≠ a ∧ x ∈ s := by
  change x ∈ (s.delete a).members ↔ x ≠ a ∧ x ∈ s.members
  rw [delete, List.mem_filter, decide_eq_true_eq, and_comm]

theorem size_eq_zero {s : OrdSet α} : s.size = 0 ↔ ∀ a, a ∉ s := by
  rw [size, List.length_eq_zero_iff, List.eq_nil_iff_forall_not_mem]
  rfl

end OrdSet

end Lib
