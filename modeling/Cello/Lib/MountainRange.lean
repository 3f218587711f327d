import Mathlib.Data.Int.ConditionallyCompleteOrder
import Mathlib.Data.Nat.Digits.Lemmas
import Mathlib.Data.Nat.Bitwise

/-!
# The layout of a Merkle mountain range

A mountain range over `N` leaves is the forest of perfect binary trees that the
binary expansion of `N` names.  A node is a pair `(h, j)`: height `h`, and the
`j`-th block of `2 ^ h` leaves, so it covers the leaves in
`[j * 2 ^ h, (j + 1) * 2 ^ h)` and is present as soon as `(j + 1) * 2 ^ h ≤ N`.
Its parent is `(h + 1, j / 2)`.

The nodes are numbered in the order in which appending leaves creates them.
`nodePos h j` is that number in closed form, and everything about positions
follows from two bounds, `pos_add_height` and `nodePos_lt_pos`: node `(h, j)` is
created while leaf `(j + 1) * 2 ^ h - 1` is appended, after it and before the
next leaf.  So positions tell nodes apart (`nodePos_inj`).

`exists_node_before` is the fact a reader of positions has to know: the position
one subtree to the left of a node is never empty unless the node is the leftmost
one.  For a right child it is the sibling; for a left child it is the top of the
tree that ends there, of a greater height.
-/

namespace Lib.MountainRange

/-! ### The population count -/

/-- The number of ones in the binary expansion of `n`. -/
def popcount (n : ℕ) : ℕ := (Nat.digits 2 n).sum

@[simp] theorem popcount_zero : popcount 0 = 0 := by simp [popcount]

theorem popcount_eq (n : ℕ) (h : 0 < n) : popcount n = n % 2 + popcount (n / 2) := by
  rw [popcount, Nat.digits_def' (by norm_num) h, List.sum_cons, popcount]

@[simp] theorem popcount_two_mul (n : ℕ) : popcount (2 * n) = popcount n := by
  rcases Nat.eq_zero_or_pos n with rfl | h
  · rfl
  · rw [popcount_eq _ (by omega), Nat.mul_mod_right, Nat.mul_div_cancel_left _ (by norm_num),
      zero_add]

@[simp] theorem popcount_two_mul_add_one (n : ℕ) :
    popcount (2 * n + 1) = popcount n + 1 := by
  rw [popcount_eq _ (by omega), show (2 * n + 1) % 2 = 1 by omega,
    show (2 * n + 1) / 2 = n by omega, add_comm]

theorem popcount_succ_le : ∀ n : ℕ, popcount (n + 1) ≤ popcount n + 1 := by
  intro n
  induction n using Nat.strong_induction_on with
  | _ n ih =>
    obtain ⟨m, rfl | rfl⟩ : ∃ m, n = 2 * m ∨ n = 2 * m + 1 := ⟨n / 2, by omega⟩
    · rw [popcount_two_mul_add_one, popcount_two_mul]
    · have hm := ih m (by omega)
      rw [show 2 * m + 1 + 1 = 2 * (m + 1) by ring, popcount_two_mul, popcount_two_mul_add_one]
      omega

theorem popcount_le_self : ∀ n : ℕ, popcount n ≤ n := by
  intro n
  induction n with
  | zero => simp
  | succ n ih => exact (popcount_succ_le n).trans (by omega)

theorem popcount_mul_two_pow (j h : ℕ) : popcount (j * 2 ^ h) = popcount j := by
  induction h with
  | zero => simp
  | succ h ih => rw [show j * 2 ^ (h + 1) = 2 * (j * 2 ^ h) by ring, popcount_two_mul, ih]

theorem popcount_block (j h : ℕ) : popcount ((j + 1) * 2 ^ h - 1) = popcount j + h := by
  induction h with
  | zero => simp
  | succ h ih =>
    have hpos : 1 ≤ (j + 1) * 2 ^ h := Nat.one_le_iff_ne_zero.2 (by positivity)
    have hd : (j + 1) * 2 ^ (h + 1) = 2 * ((j + 1) * 2 ^ h) := by ring
    rw [hd, show 2 * ((j + 1) * 2 ^ h) - 1 = 2 * ((j + 1) * 2 ^ h - 1) + 1 by omega,
      popcount_two_mul_add_one, ih]
    omega

/-! ### Positions -/

/-- The position of leaf `n`: the number of nodes created before it. -/
def pos (n : ℕ) : ℤ := 2 * n - popcount n

/-- The position of the node of height `h` over block `j`. -/
def nodePos (h j : ℕ) : ℤ := 2 ^ (h + 1) * (j + 1) - 2 - popcount j

theorem pos_strictMono : StrictMono pos := by
  refine strictMono_nat_of_lt_succ fun n => ?_
  have h := popcount_succ_le n
  simp only [pos]
  push_cast
  omega

theorem nodePos_zero (j : ℕ) : nodePos 0 j = pos j := by
  simp only [nodePos, pos]
  ring

theorem nodePos_parent_left (h m : ℕ) :
    nodePos (h + 1) m = nodePos h (2 * m) + 2 ^ (h + 1) := by
  simp only [nodePos, popcount_two_mul]
  push_cast
  ring

theorem nodePos_parent_right (h m : ℕ) :
    nodePos (h + 1) m = nodePos h (2 * m + 1) + 1 := by
  simp only [nodePos, popcount_two_mul_add_one]
  push_cast
  ring

theorem nodePos_sibling (h m : ℕ) :
    nodePos h (2 * m + 1) = nodePos h (2 * m) + (2 ^ (h + 1) - 1) := by
  have hl := nodePos_parent_left h m
  have hr := nodePos_parent_right h m
  omega

theorem nodePos_leftmost (h j : ℕ) :
    nodePos h j - (2 ^ (h + 1) - 1) + 1 = pos (j * 2 ^ h) := by
  simp only [nodePos, pos, popcount_mul_two_pow]
  push_cast
  ring

theorem pos_add_height (h j : ℕ) : nodePos h j = pos ((j + 1) * 2 ^ h - 1) + h := by
  have hpos : 1 ≤ (j + 1) * 2 ^ h := Nat.one_le_iff_ne_zero.2 (by positivity)
  simp only [nodePos, pos, popcount_block]
  push_cast [Nat.cast_sub hpos]
  ring

theorem nodePos_lt_pos (h j : ℕ) : nodePos h j < pos ((j + 1) * 2 ^ h) := by
  have hp := popcount_succ_le j
  simp only [nodePos, pos, popcount_mul_two_pow]
  push_cast
  have : (popcount (j + 1) : ℤ) ≤ popcount j + 1 := by exact_mod_cast hp
  have he : (2 : ℤ) ^ (h + 1) * (j + 1) = 2 * ((j + 1) * 2 ^ h) := by ring
  rw [he]
  omega

theorem nodePos_lt_pos_iff {M h j : ℕ} : nodePos h j < pos M ↔ (j + 1) * 2 ^ h ≤ M := by
  have hpos : 1 ≤ (j + 1) * 2 ^ h := Nat.one_le_iff_ne_zero.2 (by positivity)
  constructor
  · intro hlt
    by_contra hnot
    -- the last leaf under the node is not among the first `M`
    have hlast : M ≤ (j + 1) * 2 ^ h - 1 := by omega
    have hle := pos_strictMono.monotone hlast
    have hat := pos_add_height h j
    omega
  · intro hfit
    exact (nodePos_lt_pos h j).trans_le (pos_strictMono.monotone hfit)

theorem nodePos_nonneg (h j : ℕ) : 0 ≤ nodePos h j := by
  rw [pos_add_height]
  have := popcount_le_self ((j + 1) * 2 ^ h - 1)
  simp only [pos]
  omega

theorem nodePos_inj {h j h' j' : ℕ} (he : nodePos h j = nodePos h' j') : h = h' ∧ j = j' := by
  -- the last leaf of a node is the last one at or before its position
  have key : ∀ h j h' j' : ℕ, nodePos h j = nodePos h' j' →
      (j + 1) * 2 ^ h ≤ (j' + 1) * 2 ^ h' := by
    intro h j h' j' he
    by_contra hlt
    have hle : (j' + 1) * 2 ^ h' ≤ (j + 1) * 2 ^ h - 1 := by omega
    have h1 := nodePos_lt_pos h' j'
    have h2 := pos_add_height h j
    have h3 := pos_strictMono.monotone hle
    omega
  have hn : (j + 1) * 2 ^ h = (j' + 1) * 2 ^ h' := le_antisymm (key _ _ _ _ he) (key _ _ _ _ he.symm)
  have hh : h = h' := by
    rw [pos_add_height, pos_add_height, hn] at he
    omega
  subst hh
  have := Nat.eq_of_mul_eq_mul_right (by positivity) hn
  exact ⟨rfl, by omega⟩

theorem exists_node_before (h : ℕ) : ∀ j : ℕ, 0 < j → ∃ a b : ℕ,
    (b + 1) * 2 ^ a = j ∧ (a = 0 ↔ j % 2 = 1) ∧
      nodePos h j - (2 ^ (h + 1) - 1) = nodePos (h + a) b := by
  intro j
  induction j using Nat.strong_induction_on generalizing h with
  | _ j ih =>
    intro hj
    obtain ⟨m, rfl | rfl⟩ : ∃ m, j = 2 * m ∨ j = 2 * m + 1 := ⟨j / 2, by omega⟩
    · obtain ⟨a, b, hab, -, hp⟩ := ih m (by omega) (h + 1) (by omega)
      refine ⟨a + 1, b, ?_, by omega, ?_⟩
      · rw [← hab]; ring
      · rw [show h + (a + 1) = h + 1 + a by ring, ← hp, nodePos_parent_left]
        ring
    · refine ⟨0, 2 * m, by ring, by omega, ?_⟩
      rw [nodePos_sibling, add_zero]
      ring

/-! ### Peaks -/

/-- The roots of the trees over `m` blocks of height `h`, smallest tree first. -/
def peaksFrom (h m : ℕ) : List (ℕ × ℕ) :=
  if m = 0 then []
  else if m % 2 = 1 then (h, m - 1) :: peaksFrom (h + 1) (m / 2)
  else peaksFrom (h + 1) (m / 2)
termination_by m

/-- The height of the tree that leaf `i` of `n` lies in. -/
def peakHeight (n i : ℕ) : ℕ := Nat.log2 (n ^^^ i)

@[simp] theorem peaksFrom_zero (h : ℕ) : peaksFrom h 0 = [] := by
  rw [peaksFrom, if_pos rfl]

theorem peaksFrom_two_mul (h m : ℕ) : peaksFrom h (2 * m) = peaksFrom (h + 1) m := by
  rcases Nat.eq_zero_or_pos m with rfl | hm
  · simp
  · rw [peaksFrom, if_neg (by omega), if_neg (by omega), Nat.mul_div_cancel_left _ (by norm_num)]

theorem peaksFrom_two_mul_add_one (h m : ℕ) :
    peaksFrom h (2 * m + 1) = (h, 2 * m) :: peaksFrom (h + 1) m := by
  rw [peaksFrom, if_neg (by omega), if_pos (by omega), show (2 * m + 1) / 2 = m by omega]
  rfl

theorem mem_peaksFrom_bound : ∀ m h : ℕ, ∀ p ∈ peaksFrom h m,
    h ≤ p.1 ∧ (p.2 + 1) * 2 ^ p.1 ≤ m * 2 ^ h := by
  intro m
  induction m using Nat.strong_induction_on with
  | _ m ih =>
    intro h p hp
    obtain ⟨k, rfl | rfl⟩ : ∃ k, m = 2 * k ∨ m = 2 * k + 1 := ⟨m / 2, by omega⟩
    · rcases Nat.eq_zero_or_pos k with rfl | hk
      · simp at hp
      · rw [peaksFrom_two_mul] at hp
        obtain ⟨h1, h2⟩ := ih k (by omega) (h + 1) p hp
        exact ⟨by omega, h2.trans (le_of_eq (by ring))⟩
    · rw [peaksFrom_two_mul_add_one, List.mem_cons] at hp
      rcases hp with rfl | hp
      · exact ⟨le_rfl, le_rfl⟩
      · obtain ⟨h1, h2⟩ := ih k (by omega) (h + 1) p hp
        refine ⟨by omega, h2.trans ?_⟩
        have : k * 2 ^ (h + 1) = 2 * k * 2 ^ h := by ring
        rw [this]
        exact Nat.mul_le_mul_right _ (by omega)

theorem pairwise_peaksFrom : ∀ m h : ℕ, ((peaksFrom h m).map Prod.fst).Pairwise (· < ·) := by
  intro m
  induction m using Nat.strong_induction_on with
  | _ m ih =>
    intro h
    obtain ⟨k, rfl | rfl⟩ : ∃ k, m = 2 * k ∨ m = 2 * k + 1 := ⟨m / 2, by omega⟩
    · rcases Nat.eq_zero_or_pos k with rfl | hk
      · simp
      · rw [peaksFrom_two_mul]
        exact ih k (by omega) (h + 1)
    · rw [peaksFrom_two_mul_add_one, List.map_cons, List.pairwise_cons]
      refine ⟨?_, ih k (by omega) (h + 1)⟩
      intro d hd
      obtain ⟨p, hp, rfl⟩ := List.mem_map.1 hd
      exact (mem_peaksFrom_bound k (h + 1) p hp).1

/-- **The heights of the peaks are the ones in the binary expansion.** -/
theorem mem_heights_peaksFrom : ∀ m h d : ℕ,
    d ∈ (peaksFrom h m).map Prod.fst ↔ ∃ e, d = h + e ∧ m.testBit e = true := by
  intro m
  induction m using Nat.strong_induction_on with
  | _ m ih =>
    intro h d
    -- the higher bits, one level up
    have climb : ∀ k, k = m / 2 → k < m → (d ∈ (peaksFrom (h + 1) k).map Prod.fst ↔
        ∃ e, d = h + (e + 1) ∧ m.testBit (e + 1) = true) := by
      intro k hk hkm
      rw [ih k hkm (h + 1) d]
      simp only [Nat.testBit_succ, ← hk, show ∀ e, h + 1 + e = h + (e + 1) by intro e; ring]
    obtain ⟨k, rfl | rfl⟩ : ∃ k, m = 2 * k ∨ m = 2 * k + 1 := ⟨m / 2, by omega⟩
    · rcases Nat.eq_zero_or_pos k with rfl | hk
      · simp
      · rw [peaksFrom_two_mul, climb k (by omega) (by omega)]
        constructor
        · rintro ⟨e, he, hbit⟩
          exact ⟨e + 1, he, hbit⟩
        · rintro ⟨e, he, hbit⟩
          cases e with
          | zero => simp [Nat.testBit_zero] at hbit
          | succ e => exact ⟨e, he, hbit⟩
    · rw [peaksFrom_two_mul_add_one, List.map_cons, List.mem_cons,
        climb k (by omega) (by omega)]
      constructor
      · rintro (rfl | ⟨e, he, hbit⟩)
        · exact ⟨0, rfl, by simp [Nat.testBit_zero]⟩
        · exact ⟨e + 1, he, hbit⟩
      · rintro ⟨e, he, hbit⟩
        cases e with
        | zero => exact Or.inl he
        | succ e => exact Or.inr ⟨e, he, hbit⟩

theorem peakHeight_of_div_ne {n i : ℕ} (h : n / 2 ≠ i / 2) :
    peakHeight n i = peakHeight (n / 2) (i / 2) + 1 := by
  have hne : n / 2 ^^^ i / 2 ≠ 0 := fun h0 => h (Nat.xor_eq_zero_iff.1 h0)
  have h2 : 2 ≤ n ^^^ i := by
    rw [← Nat.xor_div_two] at hne
    omega
  rw [peakHeight, Nat.log2_def, if_pos h2, Nat.xor_div_two, peakHeight]

theorem peakHeight_last (k : ℕ) : peakHeight (2 * k + 1) (2 * k) = 0 := by
  have hdiv : ((2 * k + 1) ^^^ (2 * k)) / 2 = 0 := by
    rw [Nat.xor_div_two, show (2 * k + 1) / 2 = k by omega, show 2 * k / 2 = k by omega,
      Nat.xor_self]
  have hmod : ((2 * k + 1) ^^^ (2 * k)) % 2 = 1 := by
    rw [Nat.xor_mod_two_eq]
    omega
  rw [peakHeight, show (2 * k + 1) ^^^ (2 * k) = 1 by omega]
  decide

theorem notMem_peaksFrom_last (h k d : ℕ) : (h + d, 2 * k / 2 ^ d) ∉ peaksFrom (h + 1) k := by
  intro hp
  have hb := (mem_peaksFrom_bound k (h + 1) _ hp).2
  have hlt : 2 * k < 2 ^ d * (2 * k / 2 ^ d + 1) := Nat.lt_mul_div_succ _ (by positivity)
  have hb' : 2 ^ d * (2 * k / 2 ^ d + 1) * 2 ^ h ≤ 2 * k * 2 ^ h := by
    calc 2 ^ d * (2 * k / 2 ^ d + 1) * 2 ^ h
        = (2 * k / 2 ^ d + 1) * 2 ^ (h + d) := by ring
      _ ≤ k * 2 ^ (h + 1) := hb
      _ = 2 * k * 2 ^ h := by ring
  have := Nat.le_of_mul_le_mul_right hb' (by positivity)
  omega

/-- **Exactly one peak covers a leaf**, the one of height `peakHeight`. -/
theorem mem_peaksFrom_iff : ∀ m h i d : ℕ, i < m →
    ((h + d, i / 2 ^ d) ∈ peaksFrom h m ↔ d = peakHeight m i) := by
  intro m
  induction m using Nat.strong_induction_on with
  | _ m ih =>
    intro h i d hi
    -- below the top block of an odd `m`, halving both numbers climbs one level
    have climb : ∀ k, k = m / 2 → i / 2 < k →
        ((h + d, i / 2 ^ d) ∈ peaksFrom (h + 1) k ↔ d = peakHeight m i) := by
      intro k hk hik
      rw [peakHeight_of_div_ne (by omega), ← hk]
      cases d with
      | zero =>
        refine ⟨fun hp => ?_, fun hp => by omega⟩
        have := (mem_peaksFrom_bound k (h + 1) _ hp).1
        simp at this
      | succ d =>
        have hd := ih k (by omega) (h + 1) (i / 2) d hik
        rw [Nat.div_div_eq_div_mul, ← pow_succ', show h + 1 + d = h + (d + 1) by ring] at hd
        rw [hd]
        omega
    obtain ⟨k, rfl | rfl⟩ : ∃ k, m = 2 * k ∨ m = 2 * k + 1 := ⟨m / 2, by omega⟩
    · rw [peaksFrom_two_mul]
      exact climb k (by omega) (by omega)
    · rw [peaksFrom_two_mul_add_one, List.mem_cons]
      by_cases hik : i / 2 < k
      · rw [climb k (by omega) hik]
        refine ⟨fun hp => hp.elim (fun he => ?_) id, Or.inr⟩
        have hd : d = 0 := by simpa using congrArg Prod.fst he
        have : i = 2 * k := by simpa [hd] using congrArg Prod.snd he
        omega
      · obtain rfl : i = 2 * k := by omega
        rw [peakHeight_last]
        refine ⟨fun hp => ?_, fun hd => Or.inl (by simp [hd])⟩
        rcases hp with he | hp
        · simpa using congrArg Prod.fst he
        · exact absurd hp (notMem_peaksFrom_last h k d)

/-! ### The nodes an append creates -/

/-- The parents created when block `j` of height `h` arrives, lowest first. -/
def mergedFrom (h j : ℕ) : List (ℕ × ℕ) :=
  if j % 2 = 1 then (h + 1, j / 2) :: mergedFrom (h + 1) (j / 2) else []
termination_by j

theorem mergedFrom_two_mul (h m : ℕ) : mergedFrom h (2 * m) = [] := by
  rw [mergedFrom, if_neg (by omega)]

theorem mergedFrom_two_mul_add_one (h m : ℕ) :
    mergedFrom h (2 * m + 1) = (h + 1, m) :: mergedFrom (h + 1) m := by
  rw [mergedFrom, if_pos (by omega), show (2 * m + 1) / 2 = m by omega]

theorem mem_mergedFrom_iff : ∀ j h : ℕ, ∀ p : ℕ × ℕ,
    p ∈ mergedFrom h j ↔ ∃ d, p.1 = h + (d + 1) ∧ (p.2 + 1) * 2 ^ (d + 1) = j + 1 := by
  intro j
  induction j using Nat.strong_induction_on with
  | _ j ih =>
    intro h p
    obtain ⟨m, rfl | rfl⟩ : ∃ m, j = 2 * m ∨ j = 2 * m + 1 := ⟨j / 2, by omega⟩
    · rw [mergedFrom_two_mul]
      refine ⟨fun hp => absurd hp List.not_mem_nil, fun ⟨d, _, hd⟩ => ?_⟩
      have : (p.2 + 1) * 2 ^ (d + 1) = 2 * ((p.2 + 1) * 2 ^ d) := by ring
      omega
    · rw [mergedFrom_two_mul_add_one, List.mem_cons, ih m (by omega)]
      constructor
      · rintro (rfl | ⟨d, h1, h2⟩)
        · exact ⟨0, rfl, by ring⟩
        · refine ⟨d + 1, by omega, ?_⟩
          have : (p.2 + 1) * 2 ^ (d + 1 + 1) = 2 * ((p.2 + 1) * 2 ^ (d + 1)) := by ring
          omega
      · rintro ⟨d, h1, h2⟩
        cases d with
        | zero => exact Or.inl (Prod.ext h1 (by omega))
        | succ d =>
          refine Or.inr ⟨d, by omega, ?_⟩
          have : (p.2 + 1) * 2 ^ (d + 1 + 1) = 2 * ((p.2 + 1) * 2 ^ (d + 1)) := by ring
          omega

theorem mem_created_iff (N h j : ℕ) :
    (h, j) ∈ (List.range N).flatMap (mergedFrom 0) ↔ 0 < h ∧ (j + 1) * 2 ^ h ≤ N := by
  simp only [List.mem_flatMap, List.mem_range, mem_mergedFrom_iff, zero_add]
  constructor
  · rintro ⟨n, hn, d, rfl, hd⟩
    exact ⟨by omega, by omega⟩
  · rintro ⟨h0, hN⟩
    have hpos : 1 ≤ (j + 1) * 2 ^ h := Nat.one_le_iff_ne_zero.2 (by positivity)
    refine ⟨(j + 1) * 2 ^ h - 1, by omega, h - 1, by omega, ?_⟩
    rw [Nat.sub_add_cancel h0]
    omega

theorem length_mergedFrom : ∀ j h : ℕ,
    (mergedFrom h j).length + popcount (j + 1) = popcount j + 1 := by
  intro j
  induction j using Nat.strong_induction_on with
  | _ j ih =>
    intro h
    obtain ⟨m, rfl | rfl⟩ : ∃ m, j = 2 * m ∨ j = 2 * m + 1 := ⟨j / 2, by omega⟩
    · rw [mergedFrom_two_mul, popcount_two_mul_add_one, popcount_two_mul, List.length_nil, zero_add]
    · have hm := ih m (by omega) (h + 1)
      rw [mergedFrom_two_mul_add_one, show 2 * m + 1 + 1 = 2 * (m + 1) by ring, popcount_two_mul,
        popcount_two_mul_add_one, List.length_cons]
      omega

theorem map_nodePos_mergedFrom : ∀ j h : ℕ,
    (mergedFrom h j).map (fun p => nodePos p.1 p.2) =
      (List.range (mergedFrom h j).length).map fun i : ℕ => nodePos h j + 1 + i := by
  intro j
  induction j using Nat.strong_induction_on with
  | _ j ih =>
    intro h
    obtain ⟨m, rfl | rfl⟩ : ∃ m, j = 2 * m ∨ j = 2 * m + 1 := ⟨j / 2, by omega⟩
    · rw [mergedFrom_two_mul]
      rfl
    · rw [mergedFrom_two_mul_add_one, List.map_cons, List.length_cons, List.range_succ_eq_map,
        List.map_cons, List.map_map, ih m (by omega) (h + 1), nodePos_parent_right]
      refine congrArg₂ List.cons (by simp) (List.map_congr_left fun i _ => ?_)
      simp only [Function.comp_apply, Nat.succ_eq_add_one]
      push_cast
      ring

/-- The number of nodes of a range over `n` leaves. -/
def size (n : ℕ) : ℕ := 2 * n - popcount n

theorem pos_eq_size (n : ℕ) : pos n = size n := by
  have h := popcount_le_self n
  rw [pos, size]
  omega

theorem size_succ (n : ℕ) : size (n + 1) = size n + (1 + (mergedFrom 0 n).length) := by
  have h := length_mergedFrom n 0
  have h1 := popcount_le_self n
  have h2 := popcount_le_self (n + 1)
  rw [size, size]
  omega

theorem positions_created (n : ℕ) :
    pos n :: (mergedFrom 0 n).map (fun p => nodePos p.1 p.2) =
      (List.range (1 + (mergedFrom 0 n).length)).map fun i : ℕ => ((size n + i : ℕ) : ℤ) := by
  rw [map_nodePos_mergedFrom, nodePos_zero, pos_eq_size, add_comm 1, List.range_succ_eq_map,
    List.map_cons, List.map_map]
  refine congrArg₂ List.cons (by simp) (List.map_congr_left fun i _ => ?_)
  simp only [Function.comp_apply, Nat.succ_eq_add_one]
  push_cast
  ring

theorem perm_positions : ∀ N : ℕ,
    ((List.range N).map pos ++
        ((List.range N).flatMap (mergedFrom 0)).map fun p => nodePos p.1 p.2).Perm
      ((List.range (size N)).map fun i : ℕ => (i : ℤ)) := by
  intro N
  induction N with
  | zero => exact List.Perm.refl _
  | succ N ih =>
    have hsplit : ((List.range (size (N + 1))).map fun i : ℕ => (i : ℤ)) =
        ((List.range (size N)).map fun i : ℕ => (i : ℤ)) ++
          (pos N :: (mergedFrom 0 N).map fun p => nodePos p.1 p.2) := by
      rw [size_succ, List.range_add, List.map_append, List.map_map, positions_created]
      rfl
    rw [hsplit, List.range_succ, List.map_append, List.flatMap_append, List.map_append]
    simp only [List.map_cons, List.map_nil, List.flatMap_cons, List.flatMap_nil, List.append_nil]
    refine List.Perm.trans ?_ (ih.append_right _)
    rw [List.append_assoc, List.append_assoc]
    refine List.Perm.append_left _ ?_
    rw [List.singleton_append]
    exact List.perm_middle.symm

end Lib.MountainRange
