import Cello.Directory.Mmr.Completeness

/-!
# The shape of the directory's mountain range

Leaf positions come from a closed formula over the bits of the leaf index, and the position of an
internal node from the node to its right.  `WellShaped` says that the two fit together: peaks stand
at the ones of the leaf count, leaves and nodes take up the positions from `0` on without a gap, a
node is the hash of the two nodes below it, and the positions below `2 * M - popcount M` are the
range as it was at `M` leaves.  The last is what the store relies on when it serves a proof against
an earlier checkpoint.

All of it is read off `build_eq`; the arithmetic is in `Lib.MountainRange`.
-/

namespace Cello.Directory.Mmr

open Lib Lib.MountainRange

/-! ### What the store selects -/

/-- `WHERE leaf_index < $1`. -/
def leavesBefore (M : ℕ) (leaves : List MmrLeaf) : List MmrLeaf :=
  leaves.filter fun l => l.leafIndex < M

/-- `WHERE n.mmr_position < 2 * $1 - bit_count($1::bit(64))`. -/
def nodesBefore (M : ℕ) (nodes : List MmrNode) : List MmrNode :=
  nodes.filter fun n => n.mmrPosition < 2 * (M : ℤ) - popcount M

/-! ### The law -/

def Rows.hashed (rows : Rows) : List (ℤ × String) :=
  rows.leaves.map (fun l => (l.mmrPosition, l.leafHash)) ++
    rows.nodes.map (fun n => (n.mmrPosition, n.hash))

/-- The structural invariant of the range built over `pairs`. -/
structure WellShaped (sha : Sha256) (pairs : List (String × String)) : Prop where
  /-- Peaks fall strictly from left to right. -/
  peaks_decreasing : ((Rows.build sha pairs).peaks.map MmrPeak.height).Pairwise (· > ·)
  /-- Peaks stand at the ones of the leaf count. -/
  peaks_bits : ∀ h, h ∈ (Rows.build sha pairs).peaks.map MmrPeak.height ↔
    pairs.length.testBit h = true
  /-- Positions are taken from `0` on, each once. -/
  positions : ((Rows.build sha pairs).hashed.map Prod.fst).Perm
    ((List.range (2 * pairs.length - popcount pairs.length)).map fun i : ℕ => (i : ℤ))
  /-- A node hashes the two nodes below it. -/
  children : ∀ n ∈ (Rows.build sha pairs).nodes, ∃ left right,
    (n.mmrPosition - 2 ^ n.height, left) ∈ (Rows.build sha pairs).hashed ∧
    (n.mmrPosition - 1, right) ∈ (Rows.build sha pairs).hashed ∧
    n.hash = computeNodeHash sha left right
  /-- Cutting back to `M` leaves gives the range over the first `M`. -/
  cut : ∀ M ≤ pairs.length,
    (Rows.build sha pairs).leaves.take M = (Rows.build sha (pairs.take M)).leaves ∧
    leavesBefore M (Rows.build sha pairs).leaves = (Rows.build sha (pairs.take M)).leaves ∧
    nodesBefore M (Rows.build sha pairs).nodes = (Rows.build sha (pairs.take M)).nodes

section Parts

variable (sha : Sha256) (f : ℕ → String × String) (N : ℕ)

theorem heights_peakRows :
    (((peaksFrom 0 N).map (peakRow sha f)).reverse.map MmrPeak.height) =
      ((peaksFrom 0 N).map Prod.fst).reverse := by
  rw [List.map_reverse, List.map_map]
  rfl

variable {N} (hN : N ≤ 2 ^ 31)

include hN

theorem map_mmrPosition_leafRow :
    (List.range N).map (fun n => (leafRow sha f n).mmrPosition) = (List.range N).map pos := by
  refine List.map_congr_left fun n hn => ?_
  have hlt := List.mem_range.1 hn
  exact computeMmrPosition_eq (by omega)

theorem mmrPosition_nodeRow {p : ℕ × ℕ} (hp : p ∈ (List.range N).flatMap (mergedFrom 0)) :
    (nodeRow sha f p).mmrPosition = nodePos p.1 p.2 :=
  codePos_eq (((mem_created_iff N p.1 p.2).1 hp).2.trans hN)

theorem perm_positions_build :
    ((Rows.build sha ((List.range N).map f)).hashed.map Prod.fst).Perm
      ((List.range (size N)).map fun i : ℕ => (i : ℤ)) := by
  have hnodes : ((List.range N).flatMap (mergedFrom 0)).map
      (fun p => (nodeRow sha f p).mmrPosition) =
      ((List.range N).flatMap (mergedFrom 0)).map fun p => nodePos p.1 p.2 :=
    List.map_congr_left fun p hp => mmrPosition_nodeRow sha f hN hp
  have hpos : (Rows.build sha ((List.range N).map f)).hashed.map Prod.fst =
      (List.range N).map pos ++
        ((List.range N).flatMap (mergedFrom 0)).map fun p => nodePos p.1 p.2 := by
    rw [build_eq, Rows.hashed, List.map_append, List.map_map, List.map_map, List.map_map,
      List.map_map, ← map_mmrPosition_leafRow sha f hN, ← hnodes]
    rfl
  rw [hpos]
  exact perm_positions N

theorem mem_hashed_build {h j : ℕ} (hfit : (j + 1) * 2 ^ h ≤ N) :
    (nodePos h j, treeHash sha f h j) ∈ (Rows.build sha ((List.range N).map f)).hashed := by
  have hw := (mem_written sha f (fun _ => none) N hN).2 ⟨h, j, hfit, rfl, rfl⟩
  simp only [leafRows, stampCheckpoints, List.map_map] at hw
  rw [build_eq, Rows.hashed, List.map_map]
  exact hw

theorem children_build {n : MmrNode} (hn : n ∈ (Rows.build sha ((List.range N).map f)).nodes) :
    ∃ left right,
      (n.mmrPosition - 2 ^ n.height, left) ∈ (Rows.build sha ((List.range N).map f)).hashed ∧
      (n.mmrPosition - 1, right) ∈ (Rows.build sha ((List.range N).map f)).hashed ∧
      n.hash = computeNodeHash sha left right := by
  rw [build_eq] at hn
  obtain ⟨⟨h, j⟩, hp, rfl⟩ := List.mem_map.1 hn
  obtain ⟨hpos, hfit⟩ := (mem_created_iff N h j).1 hp
  obtain ⟨h, rfl⟩ : ∃ k, h = k + 1 := ⟨h - 1, by omega⟩
  rw [mmrPosition_nodeRow sha f hN hp]
  have hpair : (2 * j + 1 + 1) * 2 ^ h ≤ N := by
    calc (2 * j + 1 + 1) * 2 ^ h = (j + 1) * 2 ^ (h + 1) := by ring
      _ ≤ N := hfit
  have hleft : (2 * j + 1) * 2 ^ h ≤ N :=
    (Nat.mul_le_mul_right _ (by omega)).trans hpair
  refine ⟨treeHash sha f h (2 * j), treeHash sha f h (2 * j + 1), ?_, ?_, rfl⟩
  · have hat : nodePos (h + 1) j - 2 ^ (h + 1) = nodePos h (2 * j) := by
      rw [nodePos_parent_left]
      ring
    simp only [nodeRow]
    rw [hat]
    exact mem_hashed_build sha f hN hleft
  · have hat : nodePos (h + 1) j - 1 = nodePos h (2 * j + 1) := by
      rw [nodePos_parent_right]
      ring
    rw [hat]
    exact mem_hashed_build sha f hN hpair

omit hN in
theorem created_split {M : ℕ} (hM : M ≤ N) :
    (List.range N).flatMap (mergedFrom 0) = (List.range M).flatMap (mergedFrom 0) ++
      ((List.range (N - M)).map (M + ·)).flatMap (mergedFrom 0) := by
  rw [← List.flatMap_append, ← List.range_add, Nat.add_sub_cancel' hM]
/-- **The bound is exact.**  Below it lie the nodes that the first `M` leaves complete, and no
others. -/
theorem nodesBefore_build {M : ℕ} (hM : M ≤ N) :
    nodesBefore M (Rows.build sha ((List.range N).map f)).nodes =
      (Rows.build sha ((List.range M).map f)).nodes := by
  rw [build_eq, build_eq]
  have hbelow : ∀ p ∈ (List.range M).flatMap (mergedFrom 0),
      (nodeRow sha f p).mmrPosition < 2 * (M : ℤ) - popcount M := by
    intro p hp
    rw [mmrPosition_nodeRow sha f (hM.trans hN) hp]
    exact nodePos_lt_pos_iff.2 ((mem_created_iff M p.1 p.2).1 hp).2
  have habove : ∀ p ∈ ((List.range (N - M)).map (M + ·)).flatMap (mergedFrom 0),
      ¬(nodeRow sha f p).mmrPosition < 2 * (M : ℤ) - popcount M := by
    intro p hp hlt
    have hmem : p ∈ (List.range N).flatMap (mergedFrom 0) := by
      rw [created_split hM]
      exact List.mem_append_right _ hp
    rw [mmrPosition_nodeRow sha f hN hmem] at hlt
    have hfit := nodePos_lt_pos_iff.1 hlt
    -- but the node was created by a later leaf
    obtain ⟨n, hn, hp⟩ := List.mem_flatMap.1 hp
    obtain ⟨i, -, rfl⟩ := List.mem_map.1 hn
    obtain ⟨d, hd, hlast⟩ := (mem_mergedFrom_iff (M + i) 0 p).1 hp
    rw [show p.1 = d + 1 by omega] at hfit
    omega
  simp only [nodesBefore, created_split hM, List.map_append, List.filter_append]
  rw [List.filter_eq_self.2, List.filter_eq_nil_iff.2, List.append_nil]
  · intro n hn
    obtain ⟨p, hp, rfl⟩ := List.mem_map.1 hn
    simpa using habove p hp
  · intro n hn
    obtain ⟨p, hp, rfl⟩ := List.mem_map.1 hn
    simpa using hbelow p hp

omit hN in
theorem leavesBefore_build {M : ℕ} (hM : M ≤ N) :
    leavesBefore M (Rows.build sha ((List.range N).map f)).leaves =
      (Rows.build sha ((List.range M).map f)).leaves := by
  rw [build_eq, build_eq]
  simp only [leavesBefore, List.filter_map]
  refine congrArg (List.map (leafRow sha f)) ?_
  have hsplit : List.range N = List.range M ++ (List.range (N - M)).map (M + ·) := by
    rw [← List.range_add, Nat.add_sub_cancel' hM]
  rw [hsplit, List.filter_append, List.filter_eq_self.2, List.filter_eq_nil_iff.2, List.append_nil]
  · intro n hn
    obtain ⟨i, -, rfl⟩ := List.mem_map.1 hn
    simp [leafRow]
  · intro n hn
    exact decide_eq_true (List.mem_range.1 hn)

end Parts

/-- **The shape of the range**, over any sequence of fewer than `2 ^ 31` appends. -/
theorem appendLeafToMmr_wellShaped (sha : Sha256) (pairs : List (String × String))
    (hN : pairs.length < 2 ^ 31) : WellShaped sha pairs := by
  have hbuild : ∀ M ≤ pairs.length, Rows.build sha (pairs.take M) =
      Rows.build sha ((List.range M).map (pairAt pairs)) := by
    intro M hM
    conv_lhs => rw [← map_pairAt pairs]
    rw [← List.map_take, List.take_range, Nat.min_eq_left hM]
  have hall : Rows.build sha pairs =
      Rows.build sha ((List.range pairs.length).map (pairAt pairs)) := by
    rw [map_pairAt]
  constructor
  · rw [hall, build_eq, heights_peakRows, List.pairwise_reverse]
    exact pairwise_peaksFrom _ 0
  · intro h
    rw [hall, build_eq, heights_peakRows, List.mem_reverse, mem_heights_peaksFrom]
    simp
  · rw [hall]
    exact perm_positions_build sha (pairAt pairs) hN.le
  · intro n hn
    rw [hall] at hn ⊢
    exact children_build sha (pairAt pairs) hN.le hn
  · intro M hM
    rw [hbuild M hM, hall]
    refine ⟨?_, leavesBefore_build sha (pairAt pairs) hM,
      nodesBefore_build sha (pairAt pairs) hN.le hM⟩
    rw [build_eq, build_eq, ← List.map_take, List.take_range, Nat.min_eq_left hM]

/-- Eleven leaves: the shape is that of `1011` in binary, with peaks of height 3, 1 and 0. -/
theorem appendLeafToMmr_eleven :
    WellShaped constSha (List.replicate 11 ("r", "t")) :=
  appendLeafToMmr_wellShaped _ _ (by decide)

end Cello.Directory.Mmr
