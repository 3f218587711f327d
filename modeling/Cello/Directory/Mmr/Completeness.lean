import Cello.Directory.Mmr.Labelling

/-!
# When an inclusion proof exists

A leaf of a checkpointed range can be proved exactly when its peak can be found
and the climb to it makes no wrong turn.

Finding the peak (`reachable_covers`) is a comparison of positions, with the size
of the peak's tree computed by `1 << (height + 1)`.  That is right up to height
`29`; at height `30` the shift is negative and at `31` it is `1`, and no position
lies in the interval it gives.  So a found peak is the leaf's own.

The climb is `Mmr.Inclusion`.  Its wrong turns are fatal for some hash and not for
every one (a constant hash forgives them), which is why the result quantifies over
the hash on the side of the code.
-/

namespace Cello.Directory.Mmr

open Lib Lib.Int32 Lib.MountainRange

/-! ### Searching a list -/

theorem find?_of_unique {α : Type*} {p : α → Bool} {x : α} : ∀ {l : List α}, x ∈ l → p x = true →
    (∀ y ∈ l, p y = true → y = x) → l.find? p = some x := by
  intro l hx hp hu
  cases hf : l.find? p with
  | none => exact absurd hp (by simpa using List.find?_eq_none.1 hf x hx)
  | some y => rw [hu y (List.mem_of_find?_eq_some hf) (List.find?_some hf)]

theorem findIdx?_of_unique {α : Type*} {p : α → Bool} {x : α} {l : List α} (hx : x ∈ l)
    (hp : p x = true) (hu : ∀ y ∈ l, p y = true → y = x) :
    ∃ k, l.findIdx? p = some k ∧ l[k]? = some x := by
  cases hf : l.findIdx? p with
  | none => exact absurd hp (by simpa using List.findIdx?_eq_none_iff.1 hf x hx)
  | some k =>
    obtain ⟨hk, hpk, -⟩ := List.findIdx?_eq_some_iff_getElem.1 hf
    refine ⟨k, rfl, ?_⟩
    rw [List.getElem?_eq_getElem hk, hu _ (List.getElem_mem hk) hpk]

/-! ### Bounds on the positions the code computes -/

theorem toInt32_bounds (n : ℤ) : -2 ^ 31 ≤ toInt32 n ∧ toInt32 n < 2 ^ 31 := by
  have h1 := Int.le_bmod (x := n) (m := 2 ^ 32) (by norm_num)
  have h2 := Int.bmod_lt (x := n) (m := 2 ^ 32) (by norm_num)
  rw [toInt32]
  norm_num at h1 h2 ⊢
  omega

theorem andOne_le_one (n : ℤ) : andOne n ≤ 1 := by
  rw [andOne]
  omega

theorem shrOne_lt (n : ℤ) : shrOne n < 2 ^ 30 := by
  have := toInt32_bounds n
  rw [shrOne]
  norm_num at this ⊢
  omega

theorem popcountLoop_le : ∀ (k : ℕ), k ≤ 31 → ∀ (fuel : ℕ) (n c : ℤ), n < 2 ^ k →
    popcountLoop fuel n c ≤ c + k := by
  intro k
  induction k with
  | zero =>
    intro _ fuel n c hn
    cases fuel with
    | zero => simp [popcountLoop]
    | succ fuel => rw [popcountLoop, if_neg (by simp at hn; omega)]; simp
  | succ k ih =>
    intro hk fuel n c hn
    cases fuel with
    | zero => rw [popcountLoop]; omega
    | succ fuel =>
      rw [popcountLoop]
      split
      · have h31 : (2 : ℤ) ^ (k + 1) ≤ 2 ^ 31 := pow_le_pow_right₀ (by norm_num) hk
        have hs : shrOne n < 2 ^ k := by
          rw [shrOne_of_lt (by omega) (by omega)]
          rw [pow_succ] at hn
          omega
        have := ih (by omega) fuel (shrOne n) (c + andOne n) hs
        have := andOne_le_one n
        push_cast
        omega
      · omega

theorem computeMmrPosition_ge (n : ℕ) : 2 * (n : ℤ) - 31 ≤ computeMmrPosition n := by
  suffices h : popcountLoop (n + 1) n 0 ≤ 31 by
    rw [computeMmrPosition]
    omega
  rw [popcountLoop]
  split
  · have h1 := popcountLoop_le 30 (by norm_num) n (shrOne n) (0 + andOne n) (shrOne_lt n)
    have h2 := andOne_le_one n
    norm_num at h1 ⊢
    omega
  · norm_num

theorem codePos_ge (h j : ℕ) : 2 * (((j + 1) * 2 ^ h : ℕ) : ℤ) - 33 + h ≤ codePos h j := by
  have hpos : 1 ≤ (j + 1) * 2 ^ h := Nat.one_le_iff_ne_zero.2 (by positivity)
  have := computeMmrPosition_ge ((j + 1) * 2 ^ h - 1)
  rw [codePos]
  push_cast [Nat.cast_sub hpos] at this ⊢
  omega

theorem pos_le_of_lt {i : ℕ} (hi : i < 2 ^ 31) : pos i ≤ 2 ^ 32 - 33 := by
  have h1 : pos i ≤ pos (2 ^ 31 - 1) := pos_strictMono.monotone (by omega)
  have h2 : popcount (2 ^ 31 - 1) = 31 := by
    have := popcount_block 0 31
    simpa using this
  have h3 : pos (2 ^ 31 - 1) = 2 ^ 32 - 33 := by
    rw [pos, h2]
    norm_num
  omega

/-! ### Finding the peak -/

/-- **A peak found for a leaf among the first `2 ^ 31` is no higher than `29` and covers it.** -/
theorem reachable_covers {i h j : ℕ} {byPos : OrdMap ℤ String} (hi : i < 2 ^ 31)
    (hr : reachableFromPeak (pos i) (codePos h j) h byPos = true) :
    h ≤ 29 ∧ j = i / 2 ^ h := by
  rw [reachableFromPeak, Bool.and_eq_true, Bool.and_eq_true, decide_eq_true_eq,
    decide_eq_true_eq] at hr
  obtain ⟨⟨hlo, hhi⟩, -⟩ := hr
  have hge := codePos_ge h j
  have hpi := pos_le_of_lt hi
  rcases Nat.lt_or_ge h 30 with h30 | h30
  · refine ⟨by omega, ?_⟩
    rw [oneShl_of_le (by omega)] at hlo
    by_cases hj : (j + 1) * 2 ^ h ≤ 2 ^ 31
    · rw [codePos_eq hj] at hlo hhi
      rw [nodePos_leftmost] at hlo
      have hlow : j * 2 ^ h ≤ i := pos_strictMono.le_iff_le.1 hlo
      have hup : i < (j + 1) * 2 ^ h :=
        pos_strictMono.lt_iff_lt.1 (lt_of_le_of_lt hhi (nodePos_lt_pos h j))
      exact (Nat.div_eq_of_lt_le hlow hup).symm
    · -- the tree starts at or after leaf `2 ^ 31`
      exfalso
      have hd : 2 ^ 31 = 2 ^ (31 - h) * 2 ^ h := by rw [← pow_add]; congr 1; omega
      have hj' : 2 ^ (31 - h) ≤ j := by
        by_contra hlt
        exact hj (hd ▸ Nat.mul_le_mul_right _ (by omega))
      have hstart : 2 ^ 31 ≤ j * 2 ^ h := hd ▸ Nat.mul_le_mul_right _ hj'
      have hsplit : (j + 1) * 2 ^ h = j * 2 ^ h + 2 ^ h := by ring
      have hdouble : (2 : ℤ) ^ (h + 1) = 2 * ((2 ^ h : ℕ) : ℤ) := by push_cast; ring
      rw [hsplit] at hge
      rw [hdouble] at hlo
      push_cast at hge hlo hpi
      have hstart' : (2 : ℤ) ^ 31 ≤ (j : ℤ) * 2 ^ h := by exact_mod_cast hstart
      norm_num at hstart' hpi
      omega
  · exfalso
    rcases Nat.lt_or_ge h 32 with h32 | h32
    · -- the two heights whose size wraps to a value below one
      obtain rfl | rfl : h = 30 ∨ h = 31 := by omega
      · rw [oneShl_thirty_one] at hlo
        norm_num at hlo
        omega
      · rw [oneShl_thirty_two] at hlo
        omega
    · have hsize := (toInt32_bounds (2 ^ ((h + 1) % 32))).2
      rw [← oneShl] at hsize
      have hpow : 2 ^ 32 ≤ (j + 1) * 2 ^ h :=
        le_trans (Nat.pow_le_pow_right (by norm_num) h32) (Nat.le_mul_of_pos_left _ (by omega))
      have hpow' : (2 : ℤ) ^ 32 ≤ (((j + 1) * 2 ^ h : ℕ) : ℤ) := by exact_mod_cast hpow
      norm_num at hpow' hpi hsize
      push_cast at hge
      omega

theorem peak_mem {N i : ℕ} (hi : i < N) :
    (peakHeight N i, i / 2 ^ peakHeight N i) ∈ peaksFrom 0 N := by
  have := (mem_peaksFrom_iff N 0 i (peakHeight N i) hi).2 rfl
  rwa [zero_add] at this

theorem peak_fits {N i : ℕ} (hi : i < N) :
    (i / 2 ^ peakHeight N i + 1) * 2 ^ peakHeight N i ≤ N := by
  simpa using (mem_peaksFrom_bound N 0 _ (peak_mem hi)).2

section Proof

variable (sha : Sha256) (f : ℕ → String × String) (checkpointOf : ℕ → Option String)

/-- The peaks of `N` appends, left to right. -/
def peakRows (N : ℕ) : List MmrPeak := ((peaksFrom 0 N).map (peakRow sha f)).reverse

/-- The row of leaf `i`. -/
def leafRowAt (i : ℕ) : MmrLeaf := { leafRow sha f i with checkpointId := checkpointOf i }

theorem find?_leafRows {N i : ℕ} (hi : i < N) :
    (leafRows sha f checkpointOf N).find? (fun l => decide (l.leafIndex = i)) =
      some (leafRowAt sha f checkpointOf i) := by
  refine find?_of_unique ((mem_leafRows sha f checkpointOf N).2 ⟨i, hi, rfl⟩)
    (decide_eq_true rfl) ?_
  intro l hl hd
  obtain ⟨n, -, rfl⟩ := (mem_leafRows sha f checkpointOf N).1 hl
  obtain rfl : n = i := of_decide_eq_true hd
  rfl

theorem reachable_peak {N i : ℕ} {byPos : OrdMap ℤ String} (hi : i < N) (hi31 : i < 2 ^ 31)
    {p : MmrPeak} (hp : p ∈ peakRows sha f N)
    (hr : reachableFromPeak (pos i) p.position p.height byPos = true) :
    peakHeight N i ≤ 29 ∧ p = peakRow sha f (peakHeight N i, i / 2 ^ peakHeight N i) := by
  obtain ⟨⟨h, j⟩, hm, rfl⟩ := List.mem_map.1 (List.mem_reverse.1 hp)
  obtain ⟨h29, hj⟩ := reachable_covers hi31 hr
  have hh : h = peakHeight N i := by
    rw [← mem_peaksFrom_iff N 0 i h hi, zero_add, ← hj]
    exact hm
  rw [← hh, ← hj]
  exact ⟨h29, rfl⟩

theorem reachable_of_covers {N i h : ℕ} (hN31 : N ≤ 2 ^ 31) (hi : i < N) (hh : h ≤ 29) :
    reachableFromPeak (pos i) (nodePos h (i / 2 ^ h)) h (posMap sha f checkpointOf N) = true := by
  rw [reachableFromPeak, oneShl_of_le (by omega), nodePos_leftmost, Bool.and_eq_true,
    Bool.and_eq_true, decide_eq_true_eq, decide_eq_true_eq, has_posMap sha f checkpointOf N hN31]
  refine ⟨⟨pos_strictMono.monotone (Nat.div_mul_le_self _ _), ?_⟩,
    0, i, by simpa using hi, (nodePos_zero i).symm⟩
  rw [pos_add_height]
  have hlast : i ≤ (i / 2 ^ h + 1) * 2 ^ h - 1 := by
    have := Nat.lt_mul_div_succ i (show 0 < 2 ^ h by positivity)
    rw [mul_comm] at this
    omega
  have := pos_strictMono.monotone hlast
  omega

theorem computeInclusionProof_unreachable {N i : ℕ} (hi : i < N) (hi31 : i < 2 ^ 31)
    (hH : 29 < peakHeight N i) (fuel : ℕ) (c : Option String) :
    computeInclusionProof fuel i (leafRows sha f checkpointOf N) (nodeRows sha f N)
      (peakRows sha f N) c = some .notYetAvailable := by
  have hnone : ∀ p ∈ peakRows sha f N, reachableFromPeak (leafRowAt sha f checkpointOf i).mmrPosition
      p.position p.height (posMap sha f checkpointOf N) ≠ true := by
    intro p hp hr
    have hpos : (leafRowAt sha f checkpointOf i).mmrPosition = pos i := computeMmrPosition_eq hi31
    rw [hpos] at hr
    have := (reachable_peak sha f hi hi31 hp hr).1
    omega
  rw [computeInclusionProof, find?_leafRows sha f checkpointOf hi]
  have hfind := List.findIdx?_eq_none_iff.2 (fun p hp => Bool.eq_false_iff.2 (hnone p hp))
  rw [posMap] at hfind
  simp only [hfind]
  split <;> rfl

/-- **Otherwise the result is what the climb to the leaf's own peak makes of it.** -/
theorem computeInclusionProof_reachable {N i : ℕ} (hN31 : N ≤ 2 ^ 31) (hi : i < N)
    (hH : peakHeight N i ≤ 29) (c : String) :
    ∃ k : ℕ, (peakRows sha f N)[k]? =
        some (peakRow sha f (peakHeight N i, i / 2 ^ peakHeight N i)) ∧
      ∀ fuel, computeInclusionProof fuel i (leafRows sha f checkpointOf N) (nodeRows sha f N)
          (peakRows sha f N) (some c) =
        finishProof (leafRowAt sha f checkpointOf i) i k (peakRows sha f N)
          (climb (leafRows sha f checkpointOf N) (posMap sha f checkpointOf N)
            (nodePos (peakHeight N i) (i / 2 ^ peakHeight N i)) fuel (nodePos 0 i) 0) := by
  have hi31 : i < 2 ^ 31 := by omega
  have hpos : (leafRowAt sha f checkpointOf i).mmrPosition = pos i := computeMmrPosition_eq hi31
  have hcode := codePos_eq ((peak_fits hi).trans hN31)
  have hmem : peakRow sha f (peakHeight N i, i / 2 ^ peakHeight N i) ∈ peakRows sha f N :=
    List.mem_reverse.2 (List.mem_map_of_mem (peak_mem hi))
  have hcov : reachableFromPeak (pos i)
      (peakRow sha f (peakHeight N i, i / 2 ^ peakHeight N i)).position
      (peakRow sha f (peakHeight N i, i / 2 ^ peakHeight N i)).height
      (posMap sha f checkpointOf N) = true := by
    show reachableFromPeak (pos i) (codePos _ _) (peakHeight N i) _ = true
    rw [hcode]
    exact reachable_of_covers sha f checkpointOf hN31 hi hH
  have huniq : ∀ p ∈ peakRows sha f N, reachableFromPeak (pos i) p.position p.height
      (posMap sha f checkpointOf N) = true →
      p = peakRow sha f (peakHeight N i, i / 2 ^ peakHeight N i) :=
    fun p hp hr => (reachable_peak sha f hi hi31 hp hr).2
  have hfind := find?_of_unique (p := fun p : MmrPeak => reachableFromPeak (pos i) p.position
    p.height (posMap sha f checkpointOf N)) hmem hcov huniq
  obtain ⟨k, hk, hget⟩ := findIdx?_of_unique (p := fun p : MmrPeak => reachableFromPeak (pos i)
    p.position p.height (posMap sha f checkpointOf N)) hmem hcov huniq
  refine ⟨k, hget, fun fuel => ?_⟩
  have hmap : nodeByPosition (leafRows sha f checkpointOf N) (nodeRows sha f N) =
      posMap sha f checkpointOf N := rfl
  rw [computeInclusionProof, if_neg (by simp), find?_leafRows sha f checkpointOf hi]
  simp only [hmap, hpos, hfind, hk, nodePos_zero]
  rw [show (peakRow sha f (peakHeight N i, i / 2 ^ peakHeight N i)).position =
    nodePos (peakHeight N i) (i / 2 ^ peakHeight N i) from hcode]

/-! ### Proving and verifying -/

theorem verify_finishProof {N i k : ℕ} {l : List (String × Bool)} {checkpointId : String}
    {p : ConversationInclusionProof} {H J : ℕ}
    (hk : (peakRows sha f N)[k]? = some (peakRow sha f (H, J)))
    (hc : checkpointOf i = some checkpointId) (hne : checkpointId ≠ "")
    (hp : finishProof (leafRowAt sha f checkpointOf i) i k (peakRows sha f N) (.path l) =
      some (.proof p)) :
    verifyInclusionProof sha p (f i).1 (bagPeakHashes sha ((peakRows sha f N).map MmrPeak.hash)) =
        true ↔
      l.foldl (combine sha) (treeHash sha f 0 i) = treeHash sha f H J := by
  have hcp : (leafRowAt sha f checkpointOf i).checkpointId = some checkpointId := hc
  simp only [finishProof, hcp, if_neg hne, Option.some.injEq, ProofResult.proof.injEq] at hp
  have hlt : k < (peakRows sha f N).length := (List.getElem?_eq_some_iff.1 hk).1
  rw [← hp, verifyInclusionProof]
  have hleaf : computeLeafHash sha i (f i).1 (f i).2 = treeHash sha f 0 i := rfl
  have hwalk := walkToSubtreeRoot_eq sha l (treeHash sha f 0 i)
  simp only [leafRowAt, leafRow, hleaf, ne_eq, not_true_eq_false, if_false, hwalk,
    List.length_map, Int.toNat_natCast, List.getElem?_map, hk, Option.map_some, peakRow,
    Option.some.injEq]
  rw [if_neg (by omega), if_neg (by omega)]
  by_cases he : l.foldl (combine sha) (treeHash sha f 0 i) = treeHash sha f H J
  · simp [he]
  · simp [he]

end Proof

/-! ### The result -/

/-- Leaf `i` of the range over `pairs` can be proved, and the proof verifies against the bagged
peaks. -/
def InclusionProved (sha : Sha256) (pairs : List (String × String))
    (checkpointOf : ℕ → Option String) (i : ℕ) (sealMerkleRoot : String) : Prop :=
  let rows := Rows.build sha pairs
  let peakHash := bagPeakHashes sha (rows.peaks.map MmrPeak.hash)
  ∃ fuel p, computeInclusionProof fuel i (stampCheckpoints checkpointOf rows.leaves) rows.nodes
      rows.peaks (some peakHash) = some (.proof p) ∧
    verifyInclusionProof sha p sealMerkleRoot peakHash = true

/-- The leaf at `n`, as a function on all indices. -/
def pairAt (pairs : List (String × String)) (n : ℕ) : String × String := pairs.getD n ("", "")

theorem map_pairAt (pairs : List (String × String)) :
    (List.range pairs.length).map (pairAt pairs) = pairs := by
  refine List.ext_getElem (by simp) fun n h1 h2 => ?_
  rw [List.getElem_map, List.getElem_range, pairAt, List.getD_eq_getElem _ _ h2]

theorem inclusionProved_iff (sha : Sha256) (pairs : List (String × String))
    (checkpointOf : ℕ → Option String) (i : ℕ) (root : String) :
    InclusionProved sha pairs checkpointOf i root ↔
      ∃ fuel p, computeInclusionProof fuel i
          (leafRows sha (pairAt pairs) checkpointOf pairs.length)
          (nodeRows sha (pairAt pairs) pairs.length) (peakRows sha (pairAt pairs) pairs.length)
          (some (bagPeakHashes sha
            ((peakRows sha (pairAt pairs) pairs.length).map MmrPeak.hash))) = some (.proof p) ∧
        verifyInclusionProof sha p root (bagPeakHashes sha
          ((peakRows sha (pairAt pairs) pairs.length).map MmrPeak.hash)) = true := by
  have hb := build_eq sha (pairAt pairs) pairs.length
  rw [map_pairAt] at hb
  rw [InclusionProved, hb]
  rfl

theorem finishProof_path {leaf : MmrLeaf} {checkpointId : String}
    (hc : leaf.checkpointId = some checkpointId) (hne : checkpointId ≠ "") (i k : ℕ)
    (peaks : List MmrPeak) (l : List (String × Bool)) :
    ∃ p, finishProof leaf i k peaks (.path l) = some (.proof p) := by
  rw [finishProof]
  simp only [hc, if_neg hne]
  exact ⟨_, rfl⟩

theorem finishProof_eq_proof {leaf : MmrLeaf} {i k : ℕ} {peaks : List MmrPeak} {c : Climb}
    {p : ConversationInclusionProof} (h : finishProof leaf i k peaks c = some (.proof p)) :
    ∃ l, c = .path l ∧ leaf.checkpointId ≠ some "" := by
  cases c with
  | running => simp [finishProof] at h
  | unavailable => simp [finishProof] at h
  | path l =>
    refine ⟨l, rfl, fun he => ?_⟩
    simp [finishProof, he] at h

theorem lt_of_peakHeight_le {N i : ℕ} (hi31 : i < 2 ^ 31) (hH : peakHeight N i ≤ 29) :
    N < 2 ^ 31 := by
  by_contra hN
  have hdiv : (N ^^^ i) / 2 ^ 31 = N / 2 ^ 31 := by
    rw [Nat.xor_div_two_pow, Nat.div_eq_of_lt hi31, Nat.xor_zero]
  have hx : 2 ^ 31 ≤ N ^^^ i := by
    have : 0 < N / 2 ^ 31 := Nat.div_pos (by omega) (by norm_num)
    rw [← hdiv] at this
    by_contra hlt
    rw [Nat.div_eq_of_lt (by omega)] at this
    omega
  have : 31 ≤ peakHeight N i := (Nat.le_log2 (by omega)).2 hx
  omega

section Result

variable {pairs : List (String × String)} {checkpointOf : ℕ → Option String} {i : ℕ}
  {root recordedAt checkpointId : String}
  (hi : pairs[i]? = some (root, recordedAt)) (hc : checkpointOf i = some checkpointId)

include hi hc

theorem inclusionProved_of_climbable (hi31 : i < 2 ^ 31) (hne : checkpointId ≠ "")
    (hH : peakHeight pairs.length i ≤ 29) (hcl : Climbable (peakHeight pairs.length i) i)
    (sha : Sha256) : InclusionProved sha pairs checkpointOf i root := by
  have hN31 := (lt_of_peakHeight_le hi31 hH).le
  have hlt : i < pairs.length := (List.getElem?_eq_some_iff.1 hi).1
  have hpair : pairAt pairs i = (root, recordedAt) := by rw [pairAt, List.getD, hi]; rfl
  obtain ⟨k, hk, hrun⟩ := computeInclusionProof_reachable sha (pairAt pairs) checkpointOf hN31 hlt hH
    (bagPeakHashes sha ((peakRows sha (pairAt pairs) pairs.length).map MmrPeak.hash))
  obtain ⟨l, hl, hw⟩ := climb_complete sha (pairAt pairs) checkpointOf pairs.length hN31 hH
    (peak_fits hlt) hcl (peakHeight pairs.length i) 0 (by omega)
  rw [pow_zero, Nat.div_one] at hl hw
  have hleaf : (leafRowAt sha (pairAt pairs) checkpointOf i).checkpointId = some checkpointId := hc
  obtain ⟨p, hp⟩ := finishProof_path hleaf hne i k (peakRows sha (pairAt pairs) pairs.length) l
  rw [inclusionProved_iff]
  refine ⟨peakHeight pairs.length i + 1, p, by rw [hrun, hl, hp], ?_⟩
  rw [show root = (pairAt pairs i).1 by rw [hpair]]
  exact (verify_finishProof sha (pairAt pairs) checkpointOf hk hc hne hp).2 hw

theorem climbable_of_inclusionProved (hi31 : i < 2 ^ 31)
    (h : ∀ sha : Sha256, InclusionProved sha pairs checkpointOf i root) :
    checkpointId ≠ "" ∧ peakHeight pairs.length i ≤ 29 ∧
      Climbable (peakHeight pairs.length i) i := by
  have hlt : i < pairs.length := (List.getElem?_eq_some_iff.1 hi).1
  have hpair : pairAt pairs i = (root, recordedAt) := by rw [pairAt, List.getD, hi]; rfl
  have hH : peakHeight pairs.length i ≤ 29 := by
    by_contra hgt
    obtain ⟨fuel, p, hp, -⟩ := (inclusionProved_iff ⟨fun _ => Label.junk.str,
      fun _ => Label.length_str Label.ok_junk⟩ _ _ _ _).1 (h _)
    rw [computeInclusionProof_unreachable _ _ _ hlt hi31 (by omega)] at hp
    simp at hp
  have hN31 := (lt_of_peakHeight_le hi31 hH).le
  have h64 : peakHeight pairs.length i ≤ 64 := by omega
  have hdet := detects_labelSha (pairAt pairs) i h64
  obtain ⟨fuel, p, hp, hv⟩ := (inclusionProved_iff _ _ _ _ _).1 (h (labelSha (pairAt pairs) i h64))
  obtain ⟨k, hk, hrun⟩ := computeInclusionProof_reachable (labelSha (pairAt pairs) i h64)
    (pairAt pairs) checkpointOf hN31 hlt hH
    (bagPeakHashes (labelSha (pairAt pairs) i h64)
      ((peakRows (labelSha (pairAt pairs) i h64) (pairAt pairs) pairs.length).map MmrPeak.hash))
  rw [hrun] at hp
  obtain ⟨l, hl, hcp⟩ := finishProof_eq_proof hp
  have hne : checkpointId ≠ "" := fun he => hcp (by rw [← he]; exact hc)
  refine ⟨hne, hH, fun h h0 hlH => ?_⟩
  rw [hl] at hp
  rw [show root = (pairAt pairs i).1 by rw [hpair]] at hv
  have hw := (verify_finishProof _ _ _ hk hc hne hp).1 hv
  have hdir := climb_detects _ _ checkpointOf pairs.length hN31 hH (peak_fits hlt) hdet fuel 0 l
    (by omega) (by rwa [pow_zero, Nat.div_one]) (by rwa [pow_zero, Nat.div_one]) h (by omega) h0 hlH
  rw [Nat.testBit_eq_decide_div_mod_eq, decide_eq_true_eq]
  exact hdir.imp id fun h0 => (Nat.div_eq_zero_iff_lt (by positivity)).1 h0

end Result

/-- **When every hash gives leaf `i` a proof that verifies.**  Enough: the leaf is among the first
`2 ^ 31`, its checkpoint is not the empty string, its peak is no higher than `29`, and the climb
meets no left child of height at least one that is not leftmost.  Among the first `2 ^ 31` leaves
this is also necessary. -/
theorem inclusion_proof_complete_iff (pairs : List (String × String))
    (checkpointOf : ℕ → Option String) (i : ℕ) (root recordedAt checkpointId : String)
    (hi : pairs[i]? = some (root, recordedAt)) (hc : checkpointOf i = some checkpointId) :
    ((i < 2 ^ 31 ∧ checkpointId ≠ "" ∧ peakHeight pairs.length i ≤ 29 ∧
        Climbable (peakHeight pairs.length i) i) →
      ∀ sha : Sha256, InclusionProved sha pairs checkpointOf i root) ∧
    (i < 2 ^ 31 → (∀ sha : Sha256, InclusionProved sha pairs checkpointOf i root) →
      checkpointId ≠ "" ∧ peakHeight pairs.length i ≤ 29 ∧
        Climbable (peakHeight pairs.length i) i) :=
  ⟨fun ⟨hi31, hne, hH, hcl⟩ sha => inclusionProved_of_climbable hi hc hi31 hne hH hcl sha,
    climbable_of_inclusionProved hi hc⟩

/-- A constant hash. -/
def constSha : Sha256 where
  hex _ := Label.junk.str
  length_hex _ := Label.length_str Label.ok_junk

/-- Leaf `7` of eight is on the right at every height. -/
theorem inclusion_proof_complete_last_of_eight :
    Climbable (peakHeight 8 7) 7 ∧
      InclusionProved constSha (List.replicate 8 ("r", "t")) (fun _ => some "c") 7 "r" :=
  ⟨by decide, (inclusion_proof_complete_iff (List.replicate 8 ("r", "t")) (fun _ => some "c") 7 "r"
    "t" "c" rfl rfl).1 ⟨by norm_num, by decide, by decide, by decide⟩ constSha⟩

/-- **Leaf `4` of eight has no proof.**  At height one it is a left child and not leftmost; climbed
as a right child it overshoots the peak, until a sibling is missing. -/
theorem inclusion_proof_missing_of_eight :
    ¬ InclusionProved constSha (List.replicate 8 ("r", "t")) (fun _ => some "c") 4 "r" := by
  rintro ⟨fuel, p, hp, -⟩
  have h : computeInclusionProof 10 4
      (stampCheckpoints (fun _ => some "c")
        (Rows.build constSha (List.replicate 8 ("r", "t"))).leaves)
      (Rows.build constSha (List.replicate 8 ("r", "t"))).nodes
      (Rows.build constSha (List.replicate 8 ("r", "t"))).peaks
      (some (bagPeakHashes constSha
        ((Rows.build constSha (List.replicate 8 ("r", "t"))).peaks.map MmrPeak.hash))) =
        some .notYetAvailable := by decide
  have := computeInclusionProof_unique hp h
  simp at this

end Cello.Directory.Mmr
