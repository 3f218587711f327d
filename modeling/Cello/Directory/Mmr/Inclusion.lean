import Cello.Directory.Mmr.Layout

/-!
# The climb from a leaf to its peak

The climb decides left or right from what the position map holds.  At a leaf the
test is exact (`isRightChild_leaf`).  At an internal node it asks whether anything
sits one subtree to the left, and by `exists_node_before` something always does
unless the node is the leftmost of its height, so the test says "not leftmost"
(`isRightChild_node`).  A left child of height at least one that is not leftmost is
therefore climbed as if it were a right child.

`climb_complete` is the good case: when the path of leaf `i` has no such node, the
climb returns the siblings of the path and walking them from the leaf's hash ends
in the hash of the peak.
-/

namespace Cello.Directory.Mmr

open Lib Lib.Int32 Lib.MountainRange

/-- The path of leaf `i` has no left child of height at least one and below `H`
other than leftmost ones. -/
def Climbable (H i : ℕ) : Prop :=
  ∀ h, 0 < h → h < H → i.testBit h = true ∨ i < 2 ^ h

instance (H i : ℕ) : Decidable (Climbable H i) :=
  decidable_of_iff (∀ h < H, 0 < h → i.testBit h = true ∨ i < 2 ^ h)
    ⟨fun hc h h0 hH => hc h hH h0, fun hc h hH h0 => hc h h0 hH⟩

theorem Climb.push_eq_path {b : Bool} {c : Climb} {o : Option String} {l : List (String × Bool)}
    (h : c.push b o = .path l) : ∃ s r, o = some s ∧ c = .path r ∧ l = (s, b) :: r := by
  cases o with
  | none => simp [Climb.push] at h
  | some s =>
    cases c with
    | running => simp [Climb.push] at h
    | unavailable => simp [Climb.push] at h
    | path r => exact ⟨s, r, rfl, rfl, (Climb.path.inj h).symm⟩

def combine (sha : Sha256) (current : String) (e : String × Bool) : String :=
  if e.2 then computeNodeHash sha e.1 current else computeNodeHash sha current e.1

theorem walkToSubtreeRoot_eq (sha : Sha256) : ∀ (l : List (String × Bool)) (current : String),
    walkToSubtreeRoot sha (l.map Prod.fst) (l.map Prod.snd) current =
      some (l.foldl (combine sha) current) := by
  intro l
  induction l with
  | nil => intro current; rfl
  | cons e r ih => intro current; exact ih _

/-! ### The blocks around a leaf -/

theorem block_end_le (i : ℕ) {h H : ℕ} (hh : h ≤ H) :
    (i / 2 ^ h + 1) * 2 ^ h ≤ (i / 2 ^ H + 1) * 2 ^ H := by
  obtain ⟨d, rfl⟩ := Nat.exists_eq_add_of_le hh
  have hd : i / 2 ^ h + 1 ≤ (i / 2 ^ (h + d) + 1) * 2 ^ d := by
    rw [pow_add, ← Nat.div_div_eq_div_mul]
    have := Nat.lt_mul_div_succ (i / 2 ^ h) (show 0 < 2 ^ d by positivity)
    rw [mul_comm]
    omega
  calc (i / 2 ^ h + 1) * 2 ^ h ≤ (i / 2 ^ (h + d) + 1) * 2 ^ d * 2 ^ h :=
        Nat.mul_le_mul_right _ hd
    _ = (i / 2 ^ (h + d) + 1) * 2 ^ (h + d) := by ring

theorem siblings_le {N i h H : ℕ} (hh : h < H) (hN : (i / 2 ^ H + 1) * 2 ^ H ≤ N) :
    (2 * (i / 2 ^ (h + 1)) + 1 + 1) * 2 ^ h ≤ N := by
  refine le_trans (le_of_eq ?_) ((block_end_le i (show h + 1 ≤ H by omega)).trans hN)
  ring

theorem nodePos_ne_peak {i h H : ℕ} (hh : h < H) (j : ℕ) :
    nodePos h j ≠ nodePos H (i / 2 ^ H) := by
  intro he
  have := (nodePos_inj he).1
  omega

theorem climbable_iff_div {H i h : ℕ} (hc : Climbable H i) (h0 : 0 < h) (hH : h < H) :
    i / 2 ^ h % 2 = 1 ∨ i / 2 ^ h = 0 := by
  rcases hc h h0 hH with hb | hlt
  · exact Or.inl (by simpa [Nat.testBit_eq_decide_div_mod_eq] using hb)
  · exact Or.inr (Nat.div_eq_of_lt hlt)

theorem div_pow_succ (i h : ℕ) : i / 2 ^ (h + 1) = i / 2 ^ h / 2 := by
  rw [pow_succ, Nat.div_div_eq_div_mul]

section Climb

variable (sha : Sha256) (f : ℕ → String × String) (checkpointOf : ℕ → Option String) (N : ℕ)
  (hN31 : N ≤ 2 ^ 31)

include hN31

/-! ### Directions -/

theorem isRightChild_leaf {i : ℕ} (hi : i < N) :
    isRightChild (leafRows sha f checkpointOf N) (posMap sha f checkpointOf N) (nodePos 0 i) 0 =
      decide (i % 2 = 1) := by
  rw [isRightChild, if_pos rfl, isRightChildLeaf, nodePos_zero]
  rcases Nat.eq_zero_or_pos i with rfl | hpos
  · simp [pos]
  · have hne : pos i ≠ 0 := by
      have : pos 0 < pos i := pos_strictMono hpos
      simp [pos] at this ⊢
      omega
    rw [if_neg hne, Bool.eq_iff_iff, List.find?_isSome, decide_eq_true_eq]
    -- what sits one position to the left of a leaf
    obtain ⟨a, b, hab, ha, hp⟩ := exists_node_before 0 i hpos
    rw [nodePos_zero] at hp
    have hp' : pos i - 1 = nodePos a b := by simpa using hp
    constructor
    · rintro ⟨l, hl, hd⟩
      obtain ⟨n, hnN, rfl⟩ := (mem_leafRows sha f checkpointOf N).1 hl
      have hn : nodePos 0 n = nodePos a b := by
        rw [nodePos_zero, ← hp', ← computeMmrPosition_eq (by omega : n < 2 ^ 31)]
        exact of_decide_eq_true hd
      exact ha.1 (nodePos_inj hn).1.symm
    · intro hodd
      obtain rfl : a = 0 := ha.2 hodd
      refine ⟨_, (mem_leafRows sha f checkpointOf N).2 ⟨b, by omega, rfl⟩, ?_⟩
      have hb : b < 2 ^ 31 := by omega
      simp [leafRow, hp', nodePos_zero, computeMmrPosition_eq hb]

theorem isRightChild_node {h j : ℕ} (h0 : 0 < h) (h29 : h ≤ 29) (hN : (j + 1) * 2 ^ h ≤ N) :
    isRightChild (leafRows sha f checkpointOf N) (posMap sha f checkpointOf N) (nodePos h j) h =
      decide (0 < j) := by
  rw [isRightChild, if_neg (by omega), isRightChildNode, if_neg (by omega),
    oneShl_of_le (by omega), Bool.eq_iff_iff, has_posMap sha f checkpointOf N hN31,
    decide_eq_true_eq]
  constructor
  · rintro ⟨h', j', -, he⟩
    by_contra hj
    obtain rfl : j = 0 := by omega
    have h1 := nodePos_nonneg h' j'
    have h2 := nodePos_leftmost h 0
    simp [pos] at h2
    omega
  · intro hj
    obtain ⟨a, b, hab, -, hp⟩ := exists_node_before h j hj
    refine ⟨h + a, b, ?_, hp⟩
    calc (b + 1) * 2 ^ (h + a) = (b + 1) * 2 ^ a * 2 ^ h := by ring
      _ = j * 2 ^ h := by rw [hab]
      _ ≤ (j + 1) * 2 ^ h := Nat.mul_le_mul_right _ (by omega)
      _ ≤ N := hN

/-! ### One level of the climb -/

theorem climb_right {h m : ℕ} {P : ℤ} (h29 : h ≤ 29) (hN : (2 * m + 1 + 1) * 2 ^ h ≤ N)
    (hP : nodePos h (2 * m + 1) ≠ P) (fuel : ℕ) :
    climb (leafRows sha f checkpointOf N) (posMap sha f checkpointOf N) P (fuel + 1)
        (nodePos h (2 * m + 1)) h =
      Climb.push true (climb (leafRows sha f checkpointOf N) (posMap sha f checkpointOf N) P fuel
        (nodePos (h + 1) m) (h + 1)) (some (treeHash sha f h (2 * m))) := by
  have hdir : isRightChild (leafRows sha f checkpointOf N) (posMap sha f checkpointOf N)
      (nodePos h (2 * m + 1)) h = true := by
    rcases Nat.eq_zero_or_pos h with rfl | h0
    · rw [isRightChild_leaf sha f checkpointOf N hN31 (by omega)]
      exact decide_eq_true (by omega)
    · rw [isRightChild_node sha f checkpointOf N hN31 h0 h29 hN]
      exact decide_eq_true (by omega)
  have hsib : nodePos h (2 * m + 1) - (2 ^ (h + 1) - 1) = nodePos h (2 * m) := by
    rw [nodePos_sibling]
    ring
  have hle : (2 * m + 1) * 2 ^ h ≤ N := le_trans (Nat.mul_le_mul_right _ (by omega)) hN
  rw [climb, if_neg hP, if_pos hdir]
  simp only [oneShl_of_le (show h + 1 ≤ 30 by omega), hsib,
    siblingHash_posMap sha f checkpointOf N hN31 hle, nodePos_parent_right]

theorem climb_left {h m : ℕ} {P : ℤ} (h29 : h ≤ 29) (hN : (2 * m + 1 + 1) * 2 ^ h ≤ N)
    (hP : nodePos h (2 * m) ≠ P) (hgood : h = 0 ∨ m = 0) (fuel : ℕ) :
    climb (leafRows sha f checkpointOf N) (posMap sha f checkpointOf N) P (fuel + 1)
        (nodePos h (2 * m)) h =
      Climb.push false (climb (leafRows sha f checkpointOf N) (posMap sha f checkpointOf N) P fuel
        (nodePos (h + 1) m) (h + 1)) (some (treeHash sha f h (2 * m + 1))) := by
  have hle : (2 * m + 1) * 2 ^ h ≤ N := le_trans (Nat.mul_le_mul_right _ (by omega)) hN
  have hdir : isRightChild (leafRows sha f checkpointOf N) (posMap sha f checkpointOf N)
      (nodePos h (2 * m)) h = false := by
    rcases Nat.eq_zero_or_pos h with rfl | h0
    · rw [isRightChild_leaf sha f checkpointOf N hN31 (by omega)]
      exact decide_eq_false (by omega)
    · rw [isRightChild_node sha f checkpointOf N hN31 h0 h29 hle]
      exact decide_eq_false (by omega)
  have hparent : nodePos h (2 * m) + (2 ^ (h + 1) - 1) + 1 = nodePos (h + 1) m := by
    rw [nodePos_parent_left]
    ring
  rw [climb, if_neg hP, if_neg (by simp [hdir])]
  simp only [oneShl_of_le (show h + 1 ≤ 30 by omega), ← nodePos_sibling,
    siblingHash_posMap sha f checkpointOf N hN31 hN]
  rw [nodePos_sibling, hparent]

theorem climb_wrong {h m : ℕ} {P : ℤ} (h0 : 0 < h) (h29 : h ≤ 29) (hm : 0 < m)
    (hN : (2 * m + 1) * 2 ^ h ≤ N) (hP : nodePos h (2 * m) ≠ P) (fuel : ℕ) :
    ∃ h' j', (j' + 1) * 2 ^ h' ≤ 2 * m * 2 ^ h ∧
      climb (leafRows sha f checkpointOf N) (posMap sha f checkpointOf N) P (fuel + 1)
          (nodePos h (2 * m)) h =
        Climb.push true (climb (leafRows sha f checkpointOf N) (posMap sha f checkpointOf N) P fuel
          (nodePos h (2 * m) + 1) (h + 1)) (some (treeHash sha f h' j')) := by
  have hdir : isRightChild (leafRows sha f checkpointOf N) (posMap sha f checkpointOf N)
      (nodePos h (2 * m)) h = true := by
    rw [isRightChild_node sha f checkpointOf N hN31 h0 h29 hN]
    exact decide_eq_true (by omega)
  obtain ⟨a, b, hab, -, hp⟩ := exists_node_before h (2 * m) (by omega)
  have hend : (b + 1) * 2 ^ (h + a) = 2 * m * 2 ^ h := by
    rw [← hab]
    ring
  have hle : (b + 1) * 2 ^ (h + a) ≤ N := by
    rw [hend]
    exact le_trans (Nat.mul_le_mul_right _ (by omega)) hN
  refine ⟨h + a, b, hend.le, ?_⟩
  rw [climb, if_neg hP, if_pos hdir]
  simp only [oneShl_of_le (show h + 1 ≤ 30 by omega), hp,
    siblingHash_posMap sha f checkpointOf N hN31 hle]

/-! ### The whole climb -/

/-- **A climb without wrong turns returns the path to the peak.** -/
theorem climb_complete {i H : ℕ} (hH : H ≤ 29) (hN : (i / 2 ^ H + 1) * 2 ^ H ≤ N)
    (hc : Climbable H i) : ∀ d h, h + d = H →
    ∃ l, climb (leafRows sha f checkpointOf N) (posMap sha f checkpointOf N)
        (nodePos H (i / 2 ^ H)) (d + 1) (nodePos h (i / 2 ^ h)) h = .path l ∧
      l.foldl (combine sha) (treeHash sha f h (i / 2 ^ h)) = treeHash sha f H (i / 2 ^ H) := by
  intro d
  induction d with
  | zero =>
    intro h hd
    obtain rfl : h = H := by omega
    exact ⟨[], by rw [climb, if_pos rfl], rfl⟩
  | succ d ih =>
    intro h hd
    have hlt : h < H := by omega
    have hsib := siblings_le hlt hN
    obtain ⟨l, hl, hw⟩ := ih (h + 1) (by omega)
    rcases Nat.mod_two_eq_zero_or_one (i / 2 ^ h) with heven | hodd
    · -- an even block is a leaf or the leftmost one
      have hj : i / 2 ^ h = 2 * (i / 2 ^ (h + 1)) := by rw [div_pow_succ]; omega
      have hgood : h = 0 ∨ i / 2 ^ (h + 1) = 0 := by
        rcases Nat.eq_zero_or_pos h with h0 | h0
        · exact Or.inl h0
        · have := climbable_iff_div hc h0 hlt
          exact Or.inr (by omega)
      refine ⟨(treeHash sha f h (2 * (i / 2 ^ (h + 1)) + 1), false) :: l, ?_, ?_⟩
      · rw [hj, climb_left sha f checkpointOf N hN31 (by omega) hsib (nodePos_ne_peak hlt _) hgood, hl]
        rfl
      · rw [List.foldl_cons, ← hw, hj]
        rfl
    · have hj : i / 2 ^ h = 2 * (i / 2 ^ (h + 1)) + 1 := by rw [div_pow_succ]; omega
      refine ⟨(treeHash sha f h (2 * (i / 2 ^ (h + 1))), true) :: l, ?_, ?_⟩
      · rw [hj, climb_right sha f checkpointOf N hN31 (by omega) hsib (nodePos_ne_peak hlt _), hl]
        rfl
      · rw [List.foldl_cons, ← hw, hj]
        rfl

/-! ### A hash that notices wrong turns -/

omit hN31 in
theorem treeHash_digest (h j : ℕ) : ∃ t, treeHash sha f h j = sha.hex t := by
  cases h with
  | zero => exact ⟨_, rfl⟩
  | succ h => exact ⟨_, rfl⟩

theorem siblingHash_digest {p : ℤ} {s : String}
    (hs : siblingHash (posMap sha f checkpointOf N) p = some s) : ∃ t, s = sha.hex t := by
  rw [siblingHash, Option.filter_eq_some_iff] at hs
  have hhas : (posMap sha f checkpointOf N).has p = true := by
    rw [OrdMap.has, hs.1]
    rfl
  obtain ⟨h, j, hN, rfl⟩ := (has_posMap sha f checkpointOf N hN31).1 hhas
  rw [get_posMap sha f checkpointOf N hN31 hN] at hs
  rw [← Option.some.inj hs.1]
  exact treeHash_digest sha f h j

theorem climb_digest {P : ℤ} : ∀ (fuel : ℕ) (p : ℤ) (h : ℕ) (l : List (String × Bool)),
    climb (leafRows sha f checkpointOf N) (posMap sha f checkpointOf N) P fuel p h = .path l →
    ∀ e ∈ l, ∃ t, e.1 = sha.hex t := by
  intro fuel
  induction fuel with
  | zero => intro p h l hl; simp [climb] at hl
  | succ fuel ih =>
    intro p h l hl
    -- both directions push one looked-up sibling and go on
    have step : ∀ (q q' : ℤ) (b : Bool), Climb.push b (climb (leafRows sha f checkpointOf N)
        (posMap sha f checkpointOf N) P fuel q' (h + 1))
          (siblingHash (posMap sha f checkpointOf N) q) = .path l → ∀ e ∈ l, ∃ t, e.1 = sha.hex t := by
      intro q q' b hq e he
      obtain ⟨s, r, hs, hc, rfl⟩ := Climb.push_eq_path hq
      rcases List.mem_cons.1 he with rfl | he
      · exact siblingHash_digest sha f checkpointOf N hN31 hs
      · exact ih _ _ r hc e he
    rw [climb] at hl
    by_cases hp : p = P
    · rw [if_pos hp] at hl
      obtain rfl := Climb.path.inj hl
      simp
    · rw [if_neg hp] at hl
      by_cases hd : isRightChild (leafRows sha f checkpointOf N) (posMap sha f checkpointOf N) p h
      · rw [if_pos hd] at hl
        exact step _ _ true hl
      · rw [if_neg hd] at hl
        exact step _ _ false hl

/-- A hash under which one wrong turn on the way up from leaf `i` turns everything above it
into `junk`. -/
structure Detects (i H : ℕ) (junk : String) : Prop where
  left : ∀ t, computeNodeHash sha junk (sha.hex t) = junk
  right : ∀ t, computeNodeHash sha (sha.hex t) junk = junk
  wrong : ∀ h h' j', h < H → i / 2 ^ h % 2 = 0 → (j' + 1) * 2 ^ h' ≤ i →
    computeNodeHash sha (treeHash sha f h' j') (treeHash sha f h (i / 2 ^ h)) = junk
  peak : treeHash sha f H (i / 2 ^ H) ≠ junk

omit hN31 in
theorem Detects.foldl {i H : ℕ} {junk : String} (hd : Detects sha f i H junk) :
    ∀ l : List (String × Bool), (∀ e ∈ l, ∃ t, e.1 = sha.hex t) → l.foldl (combine sha) junk = junk := by
  intro l
  induction l with
  | nil => intro _; rfl
  | cons e r ih =>
    intro hl
    have he : combine sha junk e = junk := by
      obtain ⟨t, ht⟩ := hl e (by simp)
      rw [combine, ht]
      split
      · exact hd.right t
      · exact hd.left t
    rw [List.foldl_cons, he]
    exact ih fun e' he' => hl e' (List.mem_cons_of_mem _ he')

/-- **Under a detecting hash, a climb that verifies made no wrong turn.** -/
theorem climb_detects {i H : ℕ} {junk : String} (hH : H ≤ 29)
    (hN : (i / 2 ^ H + 1) * 2 ^ H ≤ N) (hd : Detects sha f i H junk) :
    ∀ (fuel h : ℕ) (l : List (String × Bool)), h ≤ H →
      climb (leafRows sha f checkpointOf N) (posMap sha f checkpointOf N)
        (nodePos H (i / 2 ^ H)) fuel (nodePos h (i / 2 ^ h)) h = .path l →
      l.foldl (combine sha) (treeHash sha f h (i / 2 ^ h)) = treeHash sha f H (i / 2 ^ H) →
      ∀ k, h ≤ k → 0 < k → k < H → i / 2 ^ k % 2 = 1 ∨ i / 2 ^ k = 0 := by
  intro fuel
  induction fuel with
  | zero => intro h l _ hl; simp [climb] at hl
  | succ fuel ih =>
    intro h l hh hl hw k hk hk0 hkH
    have hlt : h < H := by omega
    have hsib := siblings_le hlt hN
    rcases Nat.mod_two_eq_zero_or_one (i / 2 ^ h) with heven | hodd
    · have hj : i / 2 ^ h = 2 * (i / 2 ^ (h + 1)) := by rw [div_pow_succ]; omega
      by_cases hgood : h = 0 ∨ i / 2 ^ (h + 1) = 0
      · rw [hj, climb_left sha f checkpointOf N hN31 (by omega) hsib (nodePos_ne_peak hlt _)
          hgood] at hl
        obtain ⟨s, r, hs, hc, rfl⟩ := Climb.push_eq_path hl
        obtain rfl := Option.some.inj hs
        rcases Nat.eq_or_lt_of_le hk with rfl | hk
        · exact Or.inr (by omega)
        · refine ih (h + 1) r (by omega) hc ?_ k hk hk0 hkH
          rw [List.foldl_cons, hj] at hw
          exact hw
      · -- the wrong turn: everything above is junk, and the peak is not
        exfalso
        rw [not_or] at hgood
        have hle : (2 * (i / 2 ^ (h + 1)) + 1) * 2 ^ h ≤ N :=
          le_trans (Nat.mul_le_mul_right _ (by omega)) hsib
        obtain ⟨h', j', hb, hc⟩ := climb_wrong sha f checkpointOf N hN31 (by omega) (by omega)
          (Nat.pos_of_ne_zero hgood.2) hle (nodePos_ne_peak hlt _) fuel
        rw [hj, hc] at hl
        obtain ⟨s, r, hs, hr, rfl⟩ := Climb.push_eq_path hl
        obtain rfl := Option.some.inj hs
        have hleft : (j' + 1) * 2 ^ h' ≤ i :=
          hb.trans (by rw [← hj]; exact Nat.div_mul_le_self i (2 ^ h))
        have hjunk : combine sha (treeHash sha f h (i / 2 ^ h)) (treeHash sha f h' j', true) =
            junk := hd.wrong h h' j' hlt heven hleft
        rw [List.foldl_cons, hjunk,
          hd.foldl sha f r (climb_digest sha f checkpointOf N hN31 fuel _ _ r hr)] at hw
        exact hd.peak hw.symm
    · have hj : i / 2 ^ h = 2 * (i / 2 ^ (h + 1)) + 1 := by rw [div_pow_succ]; omega
      rw [hj, climb_right sha f checkpointOf N hN31 (by omega) hsib (nodePos_ne_peak hlt _)] at hl
      obtain ⟨s, r, hs, hc, rfl⟩ := Climb.push_eq_path hl
      obtain rfl := Option.some.inj hs
      rcases Nat.eq_or_lt_of_le hk with rfl | hk
      · exact Or.inl hodd
      · refine ih (h + 1) r (by omega) hc ?_ k hk hk0 hkH
        rw [List.foldl_cons, hj] at hw
        exact hw

end Climb

end Cello.Directory.Mmr
