import Mathlib.Order.Lattice
import Mathlib.Data.List.Basic

/-!
# Picking by a key

Of two values, the one with the greater key, and the first of two with one key.  The pick is idempotent and
associative whatever the key is; it is commutative on two values exactly if their keys tell them apart
(`pick_comm_iff`).

A merge that acts on what is seen of its arguments as a pick by an injective key is a semilattice there: what is
gathered from a list depends only on what the list holds (`Settles.of_pick`).
-/

namespace Lib

variable {α β κ : Type*} [LinearOrder κ]

def pick (key : α → κ) (a b : α) : α := if key b ≤ key a then a else b

section

variable {key : α → κ}

theorem pick_eq_or (key : α → κ) (a b : α) : pick key a b = a ∨ pick key a b = b := by
  unfold pick
  split_ifs
  · exact Or.inl rfl
  · exact Or.inr rfl

theorem pick_of_le {a b : α} (h : key b ≤ key a) : pick key a b = a := if_pos h

theorem pick_of_lt {a b : α} (h : key a < key b) : pick key a b = b := if_neg (not_le.2 h)

theorem key_pick (key : α → κ) (a b : α) : key (pick key a b) = max (key a) (key b) := by
  rcases le_or_gt (key b) (key a) with h | h
  · rw [pick_of_le h, max_eq_left h]
  · rw [pick_of_lt h, max_eq_right h.le]

theorem pick_self (a : α) : pick key a a = a := pick_of_le le_rfl

theorem pick_assoc (a b c : α) : pick key a (pick key b c) = pick key (pick key a b) c := by
  rcases le_or_gt (key b) (key a) with hba | hab
  · rw [pick_of_le hba]
    rcases le_or_gt (key c) (key b) with hcb | hbc
    · rw [pick_of_le hcb, pick_of_le hba, pick_of_le (hcb.trans hba)]
    · rw [pick_of_lt hbc]
  · rw [pick_of_lt hab]
    rcases le_or_gt (key c) (key b) with hcb | hbc
    · rw [pick_of_le hcb, pick_of_lt hab]
    · rw [pick_of_lt hbc, pick_of_lt (hab.trans hbc)]

theorem pick_comm_iff {a b : α} : pick key a b = pick key b a ↔ (key a = key b → a = b) := by
  rcases lt_trichotomy (key a) (key b) with h | h | h
  · rw [pick_of_lt h, pick_of_le h.le]
    exact iff_of_true rfl fun he => absurd he h.ne
  · rw [pick_of_le h.ge, pick_of_le h.le]
    exact ⟨fun hab _ => hab, fun hab => hab h⟩
  · rw [pick_of_le h.le, pick_of_lt h]
    exact iff_of_true rfl fun he => absurd he h.ne'

/-! ### What is gathered from a list -/

theorem foldl_pick_mem (a : α) (l : List α) : l.foldl (pick key) a ∈ a :: l := by
  induction l generalizing a with
  | nil => exact List.mem_cons_self
  | cons b l ih =>
    rcases List.mem_cons.1 (ih (pick key a b)) with h | h
    · rw [List.foldl_cons, h]
      rcases pick_eq_or key a b with hp | hp
      · rw [hp]
        exact List.mem_cons_self
      · rw [hp]
        exact List.mem_cons_of_mem _ List.mem_cons_self
    · exact List.mem_cons_of_mem _ (List.mem_cons_of_mem _ h)

theorem le_foldl_pick {a x : α} {l : List α} (hx : x ∈ a :: l) : key x ≤ key (l.foldl (pick key) a) := by
  induction l generalizing a x with
  | nil => rw [List.mem_singleton.1 hx, List.foldl_nil]
  | cons b l ih =>
    have hpick : key (pick key a b) ≤ key (l.foldl (pick key) (pick key a b)) := ih List.mem_cons_self
    rw [key_pick key] at hpick
    rw [List.foldl_cons]
    rcases List.mem_cons.1 hx with rfl | hx
    · exact (le_max_left _ _).trans hpick
    · rcases List.mem_cons.1 hx with rfl | hx
      · exact (le_max_right _ _).trans hpick
      · exact ih (List.mem_cons_of_mem _ hx)

theorem foldl_pick_congr (hkey : Function.Injective key) {a : α} {l l' : List α} (h : ∀ x, x ∈ l ↔ x ∈ l') :
    l.foldl (pick key) a = l'.foldl (pick key) a := by
  have hmem : ∀ x, x ∈ a :: l ↔ x ∈ a :: l' := by
    intro x
    rw [List.mem_cons, List.mem_cons, h x]
  refine hkey (le_antisymm ?_ ?_)
  · exact le_foldl_pick ((hmem _).1 (foldl_pick_mem a l))
  · exact le_foldl_pick ((hmem _).2 (foldl_pick_mem a l'))

end

/-! ### Merges -/

/-- Seen through `view`, the merge is idempotent, commutative and associative, and neither the order nor the
repetition of what comes in shows. -/
structure Settles (view : α → β) (merge : α → α → α) : Prop where
  idem : ∀ a, view (merge a a) = view a
  comm : ∀ a b, view (merge a b) = view (merge b a)
  assoc : ∀ a b c, view (merge a (merge b c)) = view (merge (merge a b) c)
  gather : ∀ (own : α) (l l' : List α), (∀ v, v ∈ l.map view ↔ v ∈ l'.map view) →
    view (l.foldl merge own) = view (l'.foldl merge own)

theorem Settles.of_pick {view : α → β} {merge : α → α → α} {key : β → κ} (hkey : Function.Injective key)
    (h : ∀ a b, view (merge a b) = pick key (view a) (view b)) : Settles view merge where
  idem a := by rw [h, pick_self]
  comm a b := by
    rw [h, h]
    exact pick_comm_iff.2 fun he => hkey he
  assoc a b c := by rw [h, h, h, h, pick_assoc]
  gather own l l' hmem := by
    have hfold : ∀ (l : List α) (own : α),
        view (l.foldl merge own) = (l.map view).foldl (pick key) (view own) := by
      intro l
      induction l with
      | nil => intro own; rfl
      | cons b l ih => intro own; rw [List.foldl_cons, ih, h, List.map_cons, List.foldl_cons]
    rw [hfold, hfold, foldl_pick_congr hkey hmem]

end Lib
