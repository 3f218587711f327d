import Mathlib.Data.List.Chain

/-!
# Trails

A list of edges is a trail when each edge starts where the one before it ended.
Two trails over the same edges can differ, but only where an edge has a choice:
`eq_of_edgesFrom_eq` says that the first edge, together with the order in which the
edges out of each vertex are taken, determines the trail.
-/

namespace Lib.Trail

variable {α β : Type*} [DecidableEq β] (src dst : α → β)

def IsTrail (l : List α) : Prop := l.IsChain fun a b => src b = dst a

/-- The edges out of `x`, in the order they are taken. -/
def edgesFrom (x : β) (l : List α) : List α := l.filter fun a => decide (src a = x)

variable {src dst}

theorem head?_tail_eq {a : α} {l : List α} (h : IsTrail src dst (a :: l)) :
    l.head? = (edgesFrom src (dst a) l).head? := by
  cases l with
  | nil => rfl
  | cons b r =>
    have hb : src b = dst a := (List.isChain_cons_cons.1 h).1
    simp [edgesFrom, hb]

theorem eq_of_edgesFrom_eq : ∀ {l₁ l₂ : List α}, IsTrail src dst l₁ → IsTrail src dst l₂ →
    l₁.head? = l₂.head? → (∀ x, edgesFrom src x l₁ = edgesFrom src x l₂) → l₁ = l₂ := by
  intro l₁
  induction l₁ with
  | nil =>
    intro l₂ _ _ hh _
    exact (List.head?_eq_none_iff.1 hh.symm).symm
  | cons a r ih =>
    intro l₂ h₁ h₂ hh hx
    cases l₂ with
    | nil => simp at hh
    | cons b s =>
      obtain rfl : a = b := by simpa using hh
      have hrest : ∀ x, edgesFrom src x r = edgesFrom src x s := by
        intro x
        have := hx x
        simp only [edgesFrom, List.filter_cons] at this ⊢
        split at this
        · exact (List.cons.inj this).2
        · exact this
      have hhead : r.head? = s.head? := by
        rw [head?_tail_eq h₁, head?_tail_eq h₂, hrest]
      rw [ih (List.IsChain.tail h₁) (List.IsChain.tail h₂) hhead hrest, List.tail_cons]

end Lib.Trail
