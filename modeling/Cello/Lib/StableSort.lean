import Mathlib.Data.List.Sort

/-!
# Stable sorting

An insertion sort by a key keeps elements with the same key in their order.  So it gives the one
rearrangement that is sorted by the key and keeps that order.
-/

namespace Lib

variable {α β : Type*} [LinearOrder β]

/-- In order by the key, and by the place in `l` where the keys are equal. -/
def StablyBefore (key : α → β) (l : List α) (a b : α) : Prop :=
  key a < key b ∨ key a = key b ∧ [a, b].Sublist l

theorem not_sublist_swap {l : List α} (hl : l.Nodup) {a b : α} (hab : [a, b].Sublist l) :
    ¬[b, a].Sublist l := by
  intro hba
  induction l with
  | nil => cases hab
  | cons x rest ih =>
    rw [List.nodup_cons] at hl
    have hfirst : ∀ y z : α, [y, z].Sublist rest → y ∈ rest ∧ z ∈ rest := fun y z h =>
      ⟨h.subset List.mem_cons_self, h.subset (List.mem_cons_of_mem _ List.mem_cons_self)⟩
    rcases List.sublist_cons_iff.1 hab with hab' | ⟨r, heq, hr⟩
    · rcases List.sublist_cons_iff.1 hba with hba' | ⟨r, heq, -⟩
      · exact ih hl.2 hab' hba'
      · obtain ⟨rfl, rfl⟩ := List.cons.inj heq
        exact hl.1 (hfirst _ _ hab').2
    · obtain ⟨rfl, rfl⟩ := List.cons.inj heq
      rcases List.sublist_cons_iff.1 hba with hba' | ⟨r, heq', -⟩
      · exact hl.1 (hfirst _ _ hba').2
      · obtain ⟨rfl, rfl⟩ := List.cons.inj heq'
        exact hl.1 (hr.subset List.mem_cons_self)

theorem sublist_or_sublist {l : List α} {a b : α} (ha : a ∈ l) (hb : b ∈ l) (hne : a ≠ b) :
    [a, b].Sublist l ∨ [b, a].Sublist l := by
  induction l with
  | nil => cases ha
  | cons x rest ih =>
    rcases List.mem_cons.1 ha with rfl | ha'
    · have hb' := (List.mem_cons.1 hb).resolve_left (Ne.symm hne)
      exact .inl ((List.singleton_sublist.2 hb').cons_cons a)
    · rcases List.mem_cons.1 hb with rfl | hb'
      · exact .inr ((List.singleton_sublist.2 ha').cons_cons b)
      · exact (ih ha' hb').imp (fun h => h.cons x) fun h => h.cons x

theorem pairwise_stable_insertionSort (key : α → β) {l : List α} (hl : l.Nodup) :
    (l.insertionSort fun a b => key a ≤ key b).Pairwise (StablyBefore key l) := by
  have hperm := List.perm_insertionSort (fun a b => key a ≤ key b) l
  have hnodup : (l.insertionSort fun a b => key a ≤ key b).Nodup := hperm.nodup_iff.2 hl
  have : Std.Total fun a b : α => key a ≤ key b := ⟨fun a b => le_total _ _⟩
  have : IsTrans α fun a b => key a ≤ key b := ⟨fun _ _ _ => le_trans⟩
  have hsorted := List.pairwise_insertionSort (fun a b : α => key a ≤ key b) l
  rw [List.pairwise_iff_forall_sublist] at hsorted ⊢
  intro a b hab
  rcases (hsorted hab).lt_or_eq with hlt | heq
  · exact .inl hlt
  · have hne : a ≠ b := by
      rintro rfl
      exact not_sublist_swap hnodup hab hab
    have ha : a ∈ l := hperm.mem_iff.1 (hab.subset List.mem_cons_self)
    have hb : b ∈ l := hperm.mem_iff.1 (hab.subset (List.mem_cons_of_mem _ List.mem_cons_self))
    refine .inr ⟨heq, (sublist_or_sublist ha hb hne).resolve_right fun hba => ?_⟩
    exact not_sublist_swap hnodup hab
      (List.pair_sublist_insertionSort (r := fun a b => key a ≤ key b) heq.ge hba)

theorem insertionSort_eq_of_stable (key : α → β) {l m : List α} (hl : l.Nodup) (hperm : m.Perm l)
    (hm : m.Pairwise (StablyBefore key l)) : l.insertionSort (fun a b => key a ≤ key b) = m := by
  have hsorted := pairwise_stable_insertionSort key hl
  refine List.Perm.eq_of_pairwise ?_ hsorted hm ((List.perm_insertionSort _ l).trans hperm.symm)
  rintro a b - - (hlt | ⟨heq, hab⟩) (hlt' | ⟨heq', hba⟩)
  · exact absurd hlt hlt'.asymm
  · exact absurd hlt (heq' ▸ lt_irrefl _)
  · exact absurd hlt' (heq ▸ lt_irrefl _)
  · exact absurd hba (not_sublist_swap hl hab)

end Lib
