import Cello.Directory.Mmr.Basic
import Cello.Lib.MountainRange

/-!
# What appending leaves behind

`build_eq` computes the rows of a range appended leaf by leaf: the internal nodes
are the trees that fit, the peaks are the trees the binary expansion of the leaf
count names, and a tree of height `h` sits `h` positions after its last leaf.  The
heart of it is `mergePeaks_peaksFrom`: the merge loop on the peaks of `j` blocks is
binary increment.

For the first `2 ^ 31` leaves these are the positions of `Lib.MountainRange`
(`codePos_eq`).  From leaf `2 ^ 31` on they are not: `computeMmrPosition` shifts with
`>>=`, which turns such an index negative, and no longer counts its bits.

`get_posMap` and `has_posMap` restate the result for the position map the inclusion
proof reads, and are all the climb needs to know about it.
-/

namespace Cello.Directory.Mmr

open Lib Lib.Int32 Lib.MountainRange

theorem popcountLoop_eq : ∀ (fuel n : ℕ) (c : ℤ), n < fuel → n < 2 ^ 31 →
    popcountLoop fuel n c = c + popcount n := by
  intro fuel
  induction fuel with
  | zero => intro n c h; omega
  | succ fuel ih =>
    intro n c h hn
    rw [popcountLoop]
    rcases Nat.eq_zero_or_pos n with rfl | hpos
    · simp
    · have hb : (n : ℤ) < 2 ^ 31 := by exact_mod_cast hn
      rw [if_pos (by exact_mod_cast hpos), shrOne_of_lt (by omega) hb, andOne_of_lt (by omega) hb,
        show ((n : ℤ) / 2) = ((n / 2 : ℕ) : ℤ) by omega, ih (n / 2) _ (by omega) (by omega),
        popcount_eq n hpos]
      push_cast
      ring

theorem computeMmrPosition_eq {n : ℕ} (h : n < 2 ^ 31) : computeMmrPosition n = pos n := by
  rw [computeMmrPosition, popcountLoop_eq (n + 1) n 0 (by omega) h, zero_add, pos]

/-- The position the append loop gives to the tree `(h, j)`. -/
def codePos (h j : ℕ) : ℤ := computeMmrPosition ((j + 1) * 2 ^ h - 1) + h

theorem codePos_zero (j : ℕ) : codePos 0 j = computeMmrPosition j := by
  simp [codePos]

theorem codePos_parent (h m : ℕ) : codePos (h + 1) m = codePos h (2 * m + 1) + 1 := by
  rw [codePos, codePos, show (2 * m + 1 + 1) * 2 ^ h = (m + 1) * 2 ^ (h + 1) by ring]
  push_cast
  ring

theorem codePos_eq {h j : ℕ} (hj : (j + 1) * 2 ^ h ≤ 2 ^ 31) : codePos h j = nodePos h j := by
  have hpos : 1 ≤ (j + 1) * 2 ^ h := Nat.one_le_iff_ne_zero.2 (by positivity)
  rw [codePos, computeMmrPosition_eq (by omega), pos_add_height]

section Rows

variable (sha : Sha256) (f : ℕ → String × String)

/-- The hash of the tree `(h, j)` when leaf `n` seals the pair `f n`. -/
def treeHash : ℕ → ℕ → String
  | 0, j => computeLeafHash sha j (f j).1 (f j).2
  | h + 1, j => computeNodeHash sha (treeHash h (2 * j)) (treeHash h (2 * j + 1))

theorem treeHash_ne_empty (h j : ℕ) : treeHash sha f h j ≠ "" := by
  cases h with
  | zero => exact sha.hex_ne_empty _
  | succ h => exact sha.hex_ne_empty _

def leafRow (n : ℕ) : MmrLeaf :=
  { leafIndex := n, mmrPosition := computeMmrPosition n, leafHash := treeHash sha f 0 n
    sealMerkleRoot := (f n).1, recordedAt := (f n).2 }

def nodeRow (p : ℕ × ℕ) : MmrNode :=
  { mmrPosition := codePos p.1 p.2, hash := treeHash sha f p.1 p.2, height := p.1 }

def peakRow (p : ℕ × ℕ) : MmrPeak :=
  { position := codePos p.1 p.2, hash := treeHash sha f p.1 p.2, height := p.1 }

/-- **The merge loop is binary increment.** -/
theorem mergePeaks_peaksFrom : ∀ j h : ℕ,
    mergePeaks sha (peakRow sha f (h, j)) ((peaksFrom h j).map (peakRow sha f)) =
      ((peaksFrom h (j + 1)).map (peakRow sha f), (mergedFrom h j).map (nodeRow sha f)) := by
  intro j
  induction j using Nat.strong_induction_on with
  | _ j ih =>
    intro h
    obtain ⟨m, rfl | rfl⟩ : ∃ m, j = 2 * m ∨ j = 2 * m + 1 := ⟨j / 2, by omega⟩
    · -- nothing of height `h` waits on the left
      rw [mergedFrom_two_mul, peaksFrom_two_mul, peaksFrom_two_mul_add_one, List.map_cons]
      cases hp : peaksFrom (h + 1) m with
      | nil => rfl
      | cons p r =>
        have hh : h + 1 ≤ p.1 := (mem_peaksFrom_bound m (h + 1) p (by simp [hp])).1
        have hne : (peakRow sha f p).height ≠ (peakRow sha f (h, 2 * m)).height := by
          show p.1 ≠ h
          omega
        rw [List.map_cons, mergePeaks, if_pos hne, List.map_nil]
    · rw [mergedFrom_two_mul_add_one, peaksFrom_two_mul_add_one,
        show 2 * m + 1 + 1 = 2 * (m + 1) by ring, peaksFrom_two_mul, List.map_cons, mergePeaks,
        if_neg (by simp [peakRow])]
      have hparent : ({ position := (peakRow sha f (h, 2 * m + 1)).position + 1
                        hash := computeNodeHash sha (peakRow sha f (h, 2 * m)).hash
                          (peakRow sha f (h, 2 * m + 1)).hash
                        height := (peakRow sha f (h, 2 * m)).height + 1 } : MmrPeak) =
          peakRow sha f (h + 1, m) := by
        simp only [peakRow, codePos_parent, treeHash]
      simp only [hparent]
      rw [ih m (by omega) (h + 1)]
      simp only [List.map_cons, nodeRow, peakRow, codePos_parent, treeHash]

theorem build_eq : ∀ N : ℕ,
    Rows.build sha ((List.range N).map f) =
      { leaves := (List.range N).map (leafRow sha f)
        nodes := ((List.range N).flatMap (mergedFrom 0)).map (nodeRow sha f)
        peaks := ((peaksFrom 0 N).map (peakRow sha f)).reverse } := by
  intro N
  induction N with
  | zero => simp [Rows.build]
  | succ N ih =>
    have hmerge := mergePeaks_peaksFrom sha f N 0
    simp only [peakRow, codePos_zero, treeHash] at hmerge
    rw [Rows.build, List.range_succ, List.map_append, List.foldl_append, ← Rows.build, ih]
    simp only [List.map_cons, List.map_nil, List.foldl_cons, List.foldl_nil, Rows.append,
      appendLeafToMmr, List.length_map, List.length_range, List.reverse_reverse]
    simp [hmerge, leafRow, treeHash, List.flatMap_append]

/-! ### The position map -/

/-- The leaf rows of `N` appends, with their checkpoints. -/
def leafRows (checkpointOf : ℕ → Option String) (N : ℕ) : List MmrLeaf :=
  stampCheckpoints checkpointOf ((List.range N).map (leafRow sha f))

/-- The node rows of `N` appends. -/
def nodeRows (N : ℕ) : List MmrNode :=
  ((List.range N).flatMap (mergedFrom 0)).map (nodeRow sha f)

variable (checkpointOf : ℕ → Option String) (N : ℕ)

/-- The position map of `N` appends. -/
def posMap : OrdMap ℤ String :=
  nodeByPosition (leafRows sha f checkpointOf N) (nodeRows sha f N)

theorem mem_leafRows {l : MmrLeaf} : l ∈ leafRows sha f checkpointOf N ↔
    ∃ n < N, l = { leafRow sha f n with checkpointId := checkpointOf n } := by
  simp only [leafRows, stampCheckpoints, List.mem_map, List.mem_range, exists_exists_and_eq_and]
  exact ⟨fun ⟨n, hn, he⟩ => ⟨n, hn, he.symm⟩, fun ⟨n, hn, he⟩ => ⟨n, hn, he.symm⟩⟩

variable (hN31 : N ≤ 2 ^ 31)

include hN31

theorem mem_written {p : ℤ} {s : String} :
    (p, s) ∈ (leafRows sha f checkpointOf N).map (fun l => (l.mmrPosition, l.leafHash)) ++
        (nodeRows sha f N).map (fun n => (n.mmrPosition, n.hash)) ↔
      ∃ h j, (j + 1) * 2 ^ h ≤ N ∧ p = nodePos h j ∧ s = treeHash sha f h j := by
  rw [List.mem_append, List.mem_map, List.mem_map]
  constructor
  · rintro (⟨l, hl, he⟩ | ⟨n, hn, he⟩)
    · obtain ⟨n, hn, rfl⟩ := (mem_leafRows sha f checkpointOf N).1 hl
      obtain ⟨rfl, rfl⟩ := Prod.mk.inj he
      refine ⟨0, n, by simpa using hn, ?_, rfl⟩
      rw [nodePos_zero]
      exact computeMmrPosition_eq (by omega)
    · obtain ⟨⟨h, j⟩, hp, rfl⟩ := List.mem_map.1 hn
      obtain ⟨rfl, rfl⟩ := Prod.mk.inj he
      have hfit := ((mem_created_iff N h j).1 hp).2
      exact ⟨h, j, hfit, codePos_eq (hfit.trans hN31), rfl⟩
  · rintro ⟨h, j, hN, rfl, rfl⟩
    cases h with
    | zero =>
      refine Or.inl ⟨_, (mem_leafRows sha f checkpointOf N).2 ⟨j, by simpa using hN, rfl⟩, ?_⟩
      rw [nodePos_zero, ← computeMmrPosition_eq (by omega)]
      rfl
    | succ h =>
      refine Or.inr ⟨nodeRow sha f (h + 1, j), ?_, ?_⟩
      · exact List.mem_map_of_mem ((mem_created_iff N (h + 1) j).2 ⟨by omega, hN⟩)
      · rw [← codePos_eq (hN.trans hN31)]
        rfl

theorem written_consistent : OrdMap.Consistent
    ((leafRows sha f checkpointOf N).map (fun l => (l.mmrPosition, l.leafHash)) ++
      (nodeRows sha f N).map (fun n => (n.mmrPosition, n.hash))) := by
  rintro ⟨p, s⟩ hp ⟨q, t⟩ hq hpq
  obtain ⟨h, j, -, rfl, rfl⟩ := (mem_written sha f checkpointOf N hN31).1 hp
  obtain ⟨h', j', -, rfl, rfl⟩ := (mem_written sha f checkpointOf N hN31).1 hq
  obtain ⟨rfl, rfl⟩ := nodePos_inj hpq
  rfl

theorem get_posMap {h j : ℕ} (hN : (j + 1) * 2 ^ h ≤ N) :
    (posMap sha f checkpointOf N).get (nodePos h j) = some (treeHash sha f h j) :=
  OrdMap.get_ofList (written_consistent sha f checkpointOf N hN31)
    ((mem_written sha f checkpointOf N hN31).2 ⟨h, j, hN, rfl, rfl⟩)

theorem has_posMap {p : ℤ} : (posMap sha f checkpointOf N).has p = true ↔
    ∃ h j, (j + 1) * 2 ^ h ≤ N ∧ p = nodePos h j := by
  rw [posMap, nodeByPosition, OrdMap.has_ofList, List.mem_map]
  constructor
  · rintro ⟨⟨q, s⟩, hq, rfl⟩
    obtain ⟨h, j, hN, hp, -⟩ := (mem_written sha f checkpointOf N hN31).1 hq
    exact ⟨h, j, hN, hp⟩
  · rintro ⟨h, j, hN, rfl⟩
    exact ⟨_, (mem_written sha f checkpointOf N hN31).2 ⟨h, j, hN, rfl, rfl⟩, rfl⟩

theorem siblingHash_posMap {h j : ℕ} (hN : (j + 1) * 2 ^ h ≤ N) :
    siblingHash (posMap sha f checkpointOf N) (nodePos h j) = some (treeHash sha f h j) := by
  rw [siblingHash, get_posMap sha f checkpointOf N hN31 hN]
  simp [treeHash_ne_empty sha f h j]

end Rows

end Cello.Directory.Mmr
