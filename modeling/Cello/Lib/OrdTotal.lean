import Cello.Lib.OrdMap
import Mathlib.Algebra.BigOperators.Group.Finset.Basic
import Mathlib.Algebra.Order.Group.Int
import Mathlib.Tactic.Ring
import Mathlib.Tactic.Abel

/-!
# Totals over a finite map

The sum of a size over the values of an `OrdMap`, and what a write and a removal do to it.  A running total
that is changed by these amounts stays the sum.
-/

namespace Lib.OrdMap

variable {κ ν : Type*} [DecidableEq κ]

def total (m : OrdMap κ ν) (size : ν → ℤ) : ℤ := (m.entries.map fun e => size e.2).sum

/-- The size of what stands at `k`. -/
def sizeAt (m : OrdMap κ ν) (size : ν → ℤ) (k : κ) : ℤ := ((m.get k).map size).getD 0

variable {size : ν → ℤ}

theorem sizeAt_some {m : OrdMap κ ν} {k : κ} {v : ν} (h : m.get k = some v) :
    m.sizeAt size k = size v := by
  rw [sizeAt, h]
  rfl

theorem sizeAt_none {m : OrdMap κ ν} {k : κ} (h : m.get k = none) : m.sizeAt size k = 0 := by
  rw [sizeAt, h]
  rfl

theorem sizeAt_eq_getD (m : OrdMap κ ν) (k : κ) {v : ν} (hempty : size v = 0) :
    m.sizeAt size k = size ((m.get k).getD v) := by
  cases hget : m.get k with
  | none => rw [sizeAt_none hget, Option.getD_none, hempty]
  | some w => rw [sizeAt_some hget, Option.getD_some]

omit [DecidableEq κ] in
theorem total_one (m : OrdMap κ ν) : m.total (fun _ => 1) = m.entries.length := by
  rw [total, List.map_const', List.sum_replicate, nsmul_one]

theorem sum_setList (k : κ) (v : ν) (l : List (κ × ν)) :
    ((setList k v l).map fun e => size e.2).sum =
      (l.map fun e => size e.2).sum - ((getList k l).map size).getD 0 + size v := by
  induction l with
  | nil => simp [setList, getList]
  | cons e rest ih =>
    by_cases he : e.1 = k
    · simp only [setList, getList, if_pos he, List.map_cons, List.sum_cons, Option.map_some,
        Option.getD_some]
      ring
    · simp only [setList, getList, if_neg he, List.map_cons, List.sum_cons, ih]
      ring

theorem total_set (m : OrdMap κ ν) (k : κ) (v : ν) (size : ν → ℤ) :
    (m.set k v).total size = m.total size - m.sizeAt size k + size v :=
  sum_setList k v m.entries

theorem sum_filter_key (k : κ) (l : List (κ × ν)) (hnodup : (l.map Prod.fst).Nodup) :
    ((l.filter fun e => decide (e.1 ≠ k)).map fun e => size e.2).sum =
      (l.map fun e => size e.2).sum - ((getList k l).map size).getD 0 := by
  induction l with
  | nil => simp [getList]
  | cons e rest ih =>
    rw [List.map_cons, List.nodup_cons] at hnodup
    by_cases he : e.1 = k
    · have hrest : rest.filter (fun e => decide (e.1 ≠ k)) = rest := by
        refine List.filter_eq_self.2 fun x hx => decide_eq_true fun hk => hnodup.1 ?_
        rw [he, ← hk]
        exact List.mem_map_of_mem hx
      rw [List.filter_cons_of_neg (by simp [he]), hrest, getList, if_pos he, List.map_cons,
        List.sum_cons, Option.map_some, Option.getD_some]
      ring
    · rw [List.filter_cons_of_pos (by simp [he]), List.map_cons, List.sum_cons, ih hnodup.2, getList,
        if_neg he, List.map_cons, List.sum_cons]
      ring

theorem total_erase (m : OrdMap κ ν) (k : κ) (size : ν → ℤ) :
    (m.erase k).total size = m.total size - m.sizeAt size k :=
  sum_filter_key k m.entries m.nodup

theorem total_eq_sum (m : OrdMap κ ν) : m.total size = ∑ k ∈ m.keys.toFinset, m.sizeAt size k := by
  rw [keys, List.sum_toFinset _ m.nodup, total, List.map_map]
  congr 1
  refine List.map_congr_left fun e he => ?_
  exact (sizeAt_some ((get_eq_some_iff m e.1 e.2).2 he)).symm

theorem total_eq_sum_of_subset (m : OrdMap κ ν) {S : Finset κ} (hS : m.keys.toFinset ⊆ S) :
    m.total size = ∑ k ∈ S, m.sizeAt size k := by
  rw [total_eq_sum]
  refine Finset.sum_subset hS fun k _ hk => sizeAt_none ?_
  rwa [List.mem_toFinset, mem_keys_iff, Bool.not_eq_true, Option.isSome_eq_false_iff,
    Option.isNone_iff_eq_none] at hk

theorem total_congr {μ : Type*} {size' : μ → ℤ} {m : OrdMap κ ν} {m' : OrdMap κ μ}
    (h : ∀ k, m.sizeAt size k = m'.sizeAt size' k) : m.total size = m'.total size' := by
  rw [m.total_eq_sum_of_subset Finset.subset_union_left,
    m'.total_eq_sum_of_subset (S := m.keys.toFinset ∪ m'.keys.toFinset) Finset.subset_union_right]
  exact Finset.sum_congr rfl fun k _ => h k

theorem entries_erase_of_none {m : OrdMap κ ν} {k : κ} (h : m.get k = none) :
    (m.erase k).entries = m.entries := by
  refine List.filter_eq_self.2 fun e he => decide_eq_true fun hk => ?_
  rw [(get_eq_some_iff m k e.2).2 (hk ▸ he)] at h
  cases h

theorem entries_erase_head {m : OrdMap κ ν} {e : κ × ν} {rest : List (κ × ν)}
    (h : m.entries = e :: rest) : (m.erase e.1).entries = rest := by
  have hnodup := m.nodup
  rw [h, List.map_cons, List.nodup_cons] at hnodup
  show m.entries.filter (fun x => decide (x.1 ≠ e.1)) = rest
  rw [h, List.filter_cons_of_neg (by simp)]
  refine List.filter_eq_self.2 fun x hx => decide_eq_true fun hk => hnodup.1 ?_
  rw [← hk]
  exact List.mem_map_of_mem hx

end Lib.OrdMap
