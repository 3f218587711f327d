import Cello.Directory.ChainStore.Columns
import Cello.Directory.Mmr.Completeness
import Cello.Lib.HashTree

/-!
# What an inclusion proof proves

A proof object comes from anyone: its numbers are JavaScript numbers, its time is any text, and the
number of peaks and the length of the path are the prover's.  Leaves, internal nodes and bags share
one hash over hex text without a tag, and a single peak is not hashed at all.

What keeps the levels apart is that the text of a leaf has a colon and a group of digests has none,
and what keeps groups apart is the width of a digest.  So a walk that ends in the bagged peak hash
starts from a leaf of the range (`inclusion_proof_sound`); a group of two may be a node or a bag, and
it does not matter which.  Each leaf of a range makes such a walk, so two ranges of one peak hash are one
(`peak_hash_binds`).
-/

namespace Cello.Directory.Mmr

open Lib Lib.MountainRange HashChain ChainStore

/-! ### Verification of a proof from outside -/

/-- A `ConversationInclusionProof` as it is received. -/
structure ClaimedProof where
  leafIndex : Float64
  leafHash : String
  recordedAt : String
  siblingHashes : List String
  isRightSibling : List Bool
  peakIndex : Float64
  peaks : List String
  checkpointId : String

/-- The text that `computeLeafHash` hashes, for an index that is any number. -/
def ClaimedProof.leafText (proof : ClaimedProof) (sealMerkleRoot : String) : String :=
  numberText proof.leafIndex ++ ":" ++ sealMerkleRoot ++ ":" ++ proof.recordedAt

/-- `xs[n]`: an element for an index in range, `undefined` otherwise. -/
def elementAt {α : Type*} (xs : List α) (n : Float64) : Option α :=
  match n.1 with
  | .fin q => if q.den = 1 ∧ 0 ≤ q then xs[q.num.toNat]? else none
  | _ => none

/-- `verifyInclusionProof`. -/
def ClaimedProof.verify (sha : Sha256) (proof : ClaimedProof)
    (sealMerkleRoot checkpointPeakHash : String) : Bool :=
  if sha.hex (proof.leafText sealMerkleRoot) ≠ proof.leafHash then false
  else
    match walkToSubtreeRoot sha proof.siblingHashes proof.isRightSibling proof.leafHash with
    | none => false
    | some subtreeRoot =>
      if proof.peaks.length = 0 then false
      else if ((0 : ℕ) : JsNumber).gt proof.peakIndex.1 ||
          proof.peakIndex.1.ge (proof.peaks.length : JsNumber) then false
      else if some subtreeRoot ≠ elementAt proof.peaks proof.peakIndex then false
      else decide (bagPeakHashes sha proof.peaks = checkpointPeakHash)

/-- A proof of the directory, as it is received. -/
def ConversationInclusionProof.received (p : ConversationInclusionProof) : ClaimedProof where
  leafIndex := .ofInteger p.leafIndex
  leafHash := p.leafHash
  recordedAt := p.recordedAt
  siblingHashes := p.siblingHashes
  isRightSibling := p.isRightSibling
  peakIndex := .ofInteger p.peakIndex
  peaks := p.peaks
  checkpointId := p.checkpointId

theorem elementAt_ofInteger {α : Type*} (xs : List α) {k : ℤ} (hk : 0 ≤ k)
    (hdouble : (Float64.ofInteger k).1 = .fin k) :
    elementAt xs (.ofInteger k) = xs[k.toNat]? := by
  simp [elementAt, hdouble, hk]

theorem ConversationInclusionProof.verify_received (sha : Sha256) (p : ConversationInclusionProof)
    (hindex : numberText (.ofInteger p.leafIndex) = toString p.leafIndex)
    (hpeak : (Float64.ofInteger p.peakIndex).1 = .fin p.peakIndex) (root peakHash : String) :
    p.received.verify sha root peakHash = verifyInclusionProof sha p root peakHash := by
  have hleaf : sha.hex (p.received.leafText root) =
      computeLeafHash sha p.leafIndex root p.recordedAt := by
    rw [computeLeafHash, ← hindex, ClaimedProof.leafText, received]
  have hrange : ∀ n : JsNumber, n = .fin p.peakIndex →
      ((((0 : ℕ) : JsNumber).gt n || n.ge (p.peaks.length : JsNumber)) = true ↔
        p.peakIndex < 0 ∨ (p.peaks.length : ℤ) ≤ p.peakIndex) := by
    rintro n rfl
    rw [JsNumber.natCast_eq, JsNumber.natCast_eq, JsNumber.gt_fin, JsNumber.ge_fin,
      Bool.or_eq_true, decide_eq_true_eq, decide_eq_true_eq, Nat.cast_zero, Int.cast_lt_zero,
      ← Int.cast_natCast, Int.cast_le]
  unfold ClaimedProof.verify verifyInclusionProof
  rw [hleaf]
  refine if_congr Iff.rfl rfl ?_
  simp only [received]
  cases walkToSubtreeRoot sha p.siblingHashes p.isRightSibling p.leafHash with
  | none => rfl
  | some subtreeRoot =>
    refine if_congr Iff.rfl rfl ?_
    by_cases hrange' : p.peakIndex < 0 ∨ (p.peaks.length : ℤ) ≤ p.peakIndex
    · exact (if_pos ((hrange _ hpeak).2 hrange')).trans (if_pos hrange').symm
    · have hk : 0 ≤ p.peakIndex := by omega
      refine (if_neg (mt (hrange _ hpeak).1 hrange')).trans (Eq.trans ?_ (if_neg hrange').symm)
      exact if_congr (by rw [elementAt_ofInteger _ hk hpeak]) rfl rfl

/-- `#computePeakHash`. -/
def computePeakHash (sha : Sha256) : List MmrPeak → String
  | [] => String.ofList (List.replicate 64 '0')
  | [peak] => peak.hash
  | peaks => sha.hex (String.join (peaks.map MmrPeak.hash))

/-! ### What is hashed -/

def walkTexts (sha : Sha256) : List String → List Bool → String → List String
  | sibling :: siblings, isRight :: rest, current =>
    let text := if isRight then sibling ++ current else current ++ sibling
    text :: walkTexts sha siblings rest (sha.hex text)
  | _, _, _ => []

def bagTexts : List String → List String
  | [] => []
  | [_] => []
  | hs => [String.join hs]

/-- The texts that a verification hashes. -/
def ClaimedProof.texts (sha : Sha256) (proof : ClaimedProof) (sealMerkleRoot : String) :
    List String :=
  proof.leafText sealMerkleRoot ::
    (walkTexts sha proof.siblingHashes proof.isRightSibling proof.leafHash ++ bagTexts proof.peaks)

/-- The texts that the merge loop hashes. -/
def mergeTexts (sha : Sha256) (right : MmrPeak) : List MmrPeak → List String
  | [] => []
  | left :: rest =>
    if left.height ≠ right.height then []
    else
      (left.hash ++ right.hash) :: mergeTexts sha
        { position := right.position + 1
          hash := computeNodeHash sha left.hash right.hash
          height := left.height + 1 } rest

def appendTexts (sha : Sha256) (m : Rows) (pair : String × String) : List String :=
  let text := toString m.leaves.length ++ ":" ++ pair.1 ++ ":" ++ pair.2
  text :: mergeTexts sha
    { position := computeMmrPosition m.leaves.length, hash := sha.hex text, height := 0 }
    m.peaks.reverse

/-- The texts that are hashed to build the range and to bag its peaks. -/
def buildTexts (sha : Sha256) (pairs : List (String × String)) : List String :=
  (pairs.zipIdx.flatMap fun e => appendTexts sha (Rows.build sha (pairs.take e.2)) e.1) ++
    bagTexts ((Rows.build sha pairs).peaks.map MmrPeak.hash)

/-- Two different texts of a list with one digest. -/
def Collision (sha : Sha256) (texts : List String) : Prop :=
  ∃ x ∈ texts, ∃ y ∈ texts, x ≠ y ∧ sha.hex x = sha.hex y

/-! ### The range commits to its leaves -/

theorem concat_pair (a b : String) : Text.concat [a, b] = a ++ b := by
  apply String.toList_injective
  simp [Text.concat]

theorem join_eq_concat (ss : List String) : String.join ss = Text.concat ss := by
  rw [String.join_eq, Text.concat, List.flatMap_def]

section Range

variable (sha : Sha256) (f : ℕ → String × String)

/-- The text of node `p`. -/
def nodeText (p : ℕ × ℕ) : String :=
  treeHash sha f (p.1 - 1) (2 * p.2) ++ treeHash sha f (p.1 - 1) (2 * p.2 + 1)

theorem mergeTexts_peaksFrom : ∀ j h : ℕ,
    mergeTexts sha (peakRow sha f (h, j)) ((peaksFrom h j).map (peakRow sha f)) =
      (mergedFrom h j).map (nodeText sha f) := by
  intro j
  induction j using Nat.strong_induction_on with
  | _ j ih =>
    intro h
    obtain ⟨m, rfl | rfl⟩ : ∃ m, j = 2 * m ∨ j = 2 * m + 1 := ⟨j / 2, by omega⟩
    · rw [mergedFrom_two_mul, peaksFrom_two_mul]
      cases hp : peaksFrom (h + 1) m with
      | nil => rfl
      | cons p r =>
        have hh : h + 1 ≤ p.1 := (mem_peaksFrom_bound m (h + 1) p (by simp [hp])).1
        have hne : (peakRow sha f p).height ≠ (peakRow sha f (h, 2 * m)).height := by
          show p.1 ≠ h
          omega
        rw [List.map_cons, mergeTexts, if_pos hne, List.map_nil]
    · rw [mergedFrom_two_mul_add_one, peaksFrom_two_mul_add_one, List.map_cons, mergeTexts,
        if_neg (by simp [peakRow]), List.map_cons]
      have hparent : ({ position := (peakRow sha f (h, 2 * m + 1)).position + 1
                        hash := computeNodeHash sha (peakRow sha f (h, 2 * m)).hash
                          (peakRow sha f (h, 2 * m + 1)).hash
                        height := (peakRow sha f (h, 2 * m)).height + 1 } : MmrPeak) =
          peakRow sha f (h + 1, m) := by
        simp only [peakRow, codePos_parent, treeHash]
      rw [hparent, ih m (by omega) (h + 1)]
      rfl

theorem appendTexts_range (n : ℕ) :
    appendTexts sha (Rows.build sha ((List.range n).map f)) (f n) =
      leafInput f n :: (mergedFrom 0 n).map (nodeText sha f) := by
  have hmerge := mergeTexts_peaksFrom sha f n 0
  simp only [peakRow, codePos_zero, treeHash] at hmerge
  rw [build_eq]
  simp only [appendTexts, List.length_map, List.length_range, List.reverse_reverse]
  exact congrArg (_ :: ·) hmerge

end Range

section Build

variable (sha : Sha256) (pairs : List (String × String))

theorem take_eq_map_pairAt {n : ℕ} (hn : n ≤ pairs.length) :
    pairs.take n = (List.range n).map (pairAt pairs) := by
  conv_lhs => rw [← map_pairAt pairs]
  rw [← List.map_take, List.take_range, min_eq_left hn]

theorem mem_buildTexts {n : ℕ} (hn : n < pairs.length) {t : String}
    (ht : t ∈ leafInput (pairAt pairs) n :: (mergedFrom 0 n).map (nodeText sha (pairAt pairs))) :
    t ∈ buildTexts sha pairs := by
  rw [← appendTexts_range, ← take_eq_map_pairAt pairs hn.le] at ht
  refine List.mem_append_left _ (List.mem_flatMap.2 ⟨(pairAt pairs n, n), ?_, ht⟩)
  rw [List.mem_zipIdx_iff_getElem?, pairAt, List.getD_eq_getElem _ _ hn]
  exact List.getElem?_eq_getElem hn

/-- **Every tree of the range is committed to its leaves.** -/
theorem commits_treeHash {S : Set String} (hS : ∀ t ∈ buildTexts sha pairs, t ∈ S) :
    ∀ h j : ℕ, (j + 1) * 2 ^ h ≤ pairs.length →
      HashTree.Commits sha.hex 64 (fun t => ∃ i < pairs.length, t = leafInput (pairAt pairs) i) S
        (treeHash sha (pairAt pairs) h j) := by
  intro h
  induction h with
  | zero =>
    intro j hj
    rw [pow_zero, mul_one] at hj
    refine HashTree.Commits.leaf ⟨j, hj, rfl⟩ (hS _ (mem_buildTexts sha pairs hj ?_))
    exact List.mem_cons_self
  | succ h ih =>
    intro j hj
    have hfits : (2 * j + 1 + 1) * 2 ^ h ≤ pairs.length := by
      refine le_trans (le_of_eq ?_) hj
      ring
    have hleft : (2 * j + 1) * 2 ^ h ≤ pairs.length :=
      le_trans (Nat.mul_le_mul_right _ (Nat.le_succ _)) hfits
    have hmem : nodeText sha (pairAt pairs) (h + 1, j) ∈ buildTexts sha pairs := by
      have hcreated := (mem_created_iff pairs.length (h + 1) j).2 ⟨Nat.succ_pos h, hj⟩
      obtain ⟨n, hn, hmem⟩ := List.mem_flatMap.1 hcreated
      exact mem_buildTexts sha pairs (List.mem_range.1 hn)
        (List.mem_cons_of_mem _ (List.mem_map_of_mem hmem))
    have htext : nodeText sha (pairAt pairs) (h + 1, j) =
        Text.concat [treeHash sha (pairAt pairs) h (2 * j),
          treeHash sha (pairAt pairs) h (2 * j + 1)] := (concat_pair _ _).symm
    have hdigest : ∀ k, (treeHash sha (pairAt pairs) h k).length = 64 := by
      intro k
      obtain ⟨t, ht⟩ := treeHash_digest sha (pairAt pairs) h k
      rw [ht, sha.length_hex]
    rw [treeHash, computeNodeHash, ← concat_pair]
    refine HashTree.Commits.group ?_ ?_ (hS _ (htext ▸ hmem))
    · simp only [List.forall_mem_cons, List.not_mem_nil, false_imp_iff, implies_true, and_true]
      exact ⟨hdigest _, hdigest _⟩
    · simp only [List.forall_mem_cons, List.not_mem_nil, false_imp_iff, implies_true, and_true]
      exact ⟨ih _ hleft, ih _ hfits⟩

end Build

/-! ### Bags -/

section Bag

variable {sha : Sha256} {leaf : String → Prop} {S : Set String} {ds : List String}

theorem computePeakHash_eq (peaks : List MmrPeak) :
    computePeakHash sha peaks = bagPeakHashes sha (peaks.map MmrPeak.hash) := by
  cases peaks with
  | nil => rfl
  | cons peak rest =>
    cases rest with
    | nil => rfl
    | cons peak' rest => rfl

theorem bag_cases (sha : Sha256) (hne : ds ≠ []) :
    ds = [bagPeakHashes sha ds] ∨
      bagTexts ds = [Text.concat ds] ∧ bagPeakHashes sha ds = sha.hex (Text.concat ds) := by
  rw [← join_eq_concat]
  cases ds with
  | nil => exact absurd rfl hne
  | cons d rest =>
    cases rest with
    | nil => exact Or.inl rfl
    | cons e rest => exact Or.inr ⟨rfl, rfl⟩

theorem commits_bag (hne : ds ≠ []) (hlength : ∀ d ∈ ds, d.length = 64)
    (hds : ∀ d ∈ ds, HashTree.Commits sha.hex 64 leaf S d) (hS : ∀ t ∈ bagTexts ds, t ∈ S) :
    HashTree.Commits sha.hex 64 leaf S (bagPeakHashes sha ds) := by
  rcases bag_cases sha hne with hsingle | ⟨htexts, hbag⟩
  · exact hds _ (hsingle ▸ List.mem_singleton_self _)
  · rw [hbag]
    exact HashTree.Commits.group hlength hds (hS _ (htexts ▸ List.mem_singleton_self _))

theorem opens_bag {d : String} (hd : d ∈ ds) (hlength : ∀ d ∈ ds, d.length = 64 ∧ ':' ∉ d.toList)
    (hS : ∀ t ∈ bagTexts ds, t ∈ S) :
    HashTree.Opens sha.hex 64 ':' S d (bagPeakHashes sha ds) := by
  rcases bag_cases sha (List.ne_nil_of_mem hd) with hsingle | ⟨htexts, hbag⟩
  · rw [hsingle] at hd
    rw [List.mem_singleton.1 hd]
    exact HashTree.Opens.done _
  · rw [hbag]
    exact HashTree.Opens.climb hd hlength (hS _ (htexts ▸ List.mem_singleton_self _))
      (HashTree.Opens.done _)

end Bag

/-! ### The walk -/

theorem colon_notMem_of_isHex64 {s : String} (h : Bytes.isHex64 s = true) :
    s.length = 64 ∧ ':' ∉ s.toList := by
  rw [Bytes.isHex64, Bool.and_eq_true, decide_eq_true_eq, List.all_eq_true] at h
  refine ⟨h.1, fun hmem => ?_⟩
  have hdigit := h.2 _ hmem
  revert hdigit
  decide

theorem colon_notMem_hex (sha : HexSha256) (t : String) :
    (sha.hex t).length = 64 ∧ ':' ∉ (sha.hex t).toList := by
  refine ⟨sha.length_hex t, fun hmem => ?_⟩
  have hdigit := sha.hex_digits t _ hmem
  revert hdigit
  decide

theorem opens_walk (sha : HexSha256) {S : Set String} :
    ∀ (siblings : List String) (rights : List Bool) (current root : String),
      (∀ s ∈ siblings, Bytes.isHex64 s = true) → current.length = 64 ∧ ':' ∉ current.toList →
      (∀ t ∈ walkTexts sha.toSha256 siblings rights current, t ∈ S) →
      walkToSubtreeRoot sha.toSha256 siblings rights current = some root →
      HashTree.Opens sha.hex 64 ':' S current root := by
  intro siblings
  induction siblings with
  | nil =>
    intro rights current root _ _ _ h
    obtain rfl := Option.some.inj h
    exact HashTree.Opens.done _
  | cons sibling siblings ih =>
    intro rights current root hhex hcurrent hS h
    cases rights with
    | nil => cases h
    | cons isRight rights =>
      have hsibling := colon_notMem_of_isHex64 (hhex _ List.mem_cons_self)
      have hrest := fun s hs => hhex s (List.mem_cons_of_mem _ hs)
      cases isRight with
      | false =>
        have htext := hS _ List.mem_cons_self
        rw [if_neg Bool.false_ne_true, ← concat_pair] at htext
        have hgroup : ∀ e ∈ [current, sibling], e.length = 64 ∧ ':' ∉ e.toList := by
          simp only [List.forall_mem_cons, List.not_mem_nil, false_imp_iff, implies_true, and_true]
          exact ⟨hcurrent, hsibling⟩
        refine HashTree.Opens.climb List.mem_cons_self hgroup htext ?_
        refine ih rights _ root hrest (colon_notMem_hex sha _)
          (fun t ht => hS t (List.mem_cons_of_mem _ ?_)) (concat_pair current sibling ▸ h)
        rwa [concat_pair] at ht
      | true =>
        have htext := hS _ List.mem_cons_self
        rw [if_pos rfl, ← concat_pair] at htext
        have hgroup : ∀ e ∈ [sibling, current], e.length = 64 ∧ ':' ∉ e.toList := by
          simp only [List.forall_mem_cons, List.not_mem_nil, false_imp_iff, implies_true, and_true]
          exact ⟨hsibling, hcurrent⟩
        refine HashTree.Opens.climb (List.mem_cons_of_mem _ List.mem_cons_self) hgroup htext ?_
        refine ih rights _ root hrest (colon_notMem_hex sha _)
          (fun t ht => hS t (List.mem_cons_of_mem _ ?_)) (concat_pair sibling current ▸ h)
        rwa [concat_pair] at ht

/-! ### The result -/

theorem colon_notMem_numberText (n : Float64) : ':' ∉ (numberText n).toList := by
  obtain ⟨n, hn⟩ := n
  cases n with
  | nan => exact show ':' ∉ "NaN".toList by decide
  | negInf => exact show ':' ∉ "-Infinity".toList by decide
  | posInf => exact show ':' ∉ "Infinity".toList by decide
  | fin q =>
    change ':' ∉ (String.ofList (Number.text q)).toList
    rw [String.toList_ofList]
    intro hmem
    have hchar := Number.isNumberChar_of_mem_text (hn q rfl) hmem
    revert hchar
    decide

theorem eq_ofInteger_of_numberText {n : Float64} {i : ℕ} (h : numberText n = toString i) :
    n = Float64.ofInteger i := by
  have hi : integerText i = toString i := by
    rw [integerText, if_neg (by omega)]
    rfl
  obtain ⟨hdigits, hof⟩ := isIntegerText_integerText i
  have hn := numberOf_numberText (n := n) (h.trans hi.symm ▸ hdigits)
  rw [← hn, h, ← hi, numberOf, hof]

theorem leafText_eq {proof : ClaimedProof} {root : String} {f : ℕ → String × String} {i : ℕ}
    (hroot : ':' ∉ root.toList) (hi : ':' ∉ (f i).1.toList)
    (h : proof.leafText root = leafInput f i) :
    proof.leafIndex = Float64.ofInteger i ∧ root = (f i).1 := by
  have ht := congrArg String.toList h
  simp only [ClaimedProof.leafText, leafInput, String.toList_append, List.append_assoc] at ht
  obtain ⟨hindex, hrest⟩ := Text.split_at_sep (colon_notMem_numberText _)
    (Text.colon_notMem_repr i) ht
  obtain ⟨hseal, -⟩ := Text.split_at_sep hroot hi hrest
  exact ⟨eq_ofInteger_of_numberText (String.toList_injective hindex),
    String.toList_injective hseal⟩

theorem ClaimedProof.verify_true {sha : Sha256} {proof : ClaimedProof} {root peakHash : String}
    (h : proof.verify sha root peakHash = true) :
    sha.hex (proof.leafText root) = proof.leafHash ∧
      (∃ subtreeRoot ∈ proof.peaks, walkToSubtreeRoot sha proof.siblingHashes proof.isRightSibling
        proof.leafHash = some subtreeRoot) ∧
      bagPeakHashes sha proof.peaks = peakHash := by
  unfold ClaimedProof.verify at h
  by_cases hleaf : sha.hex (proof.leafText root) = proof.leafHash
  · rw [if_neg (not_not.2 hleaf)] at h
    cases hwalk : walkToSubtreeRoot sha proof.siblingHashes proof.isRightSibling proof.leafHash with
    | none => simp only [hwalk, Bool.false_eq_true] at h
    | some subtreeRoot =>
      simp only [hwalk] at h
      split_ifs at h with hlength hrange hpeak
      refine ⟨hleaf, ⟨subtreeRoot, ?_, rfl⟩, of_decide_eq_true h⟩
      have helement := not_not.1 hpeak
      unfold elementAt at helement
      split at helement
      · split_ifs at helement
        exact List.mem_of_getElem? helement.symm
      · cases helement
  · rw [if_pos hleaf] at h
    cases h

theorem ClaimedProof.opens {sha : HexSha256} {proof : ClaimedProof} {root peakHash : String}
    {S : Set String} (hS : ∀ t ∈ proof.texts sha.toSha256 root, t ∈ S)
    (hsiblings : ∀ s ∈ proof.siblingHashes, Bytes.isHex64 s = true)
    (hpeaks : ∀ s ∈ proof.peaks, Bytes.isHex64 s = true)
    (h : proof.verify sha.toSha256 root peakHash = true) :
    HashTree.Opens sha.hex 64 ':' S (sha.hex (proof.leafText root)) peakHash := by
  obtain ⟨hleaf, ⟨subtreeRoot, hmem, hwalk⟩, hbag⟩ := verify_true h
  rw [hleaf, ← hbag]
  refine HashTree.Opens.trans (b := subtreeRoot)
    (opens_walk sha _ _ _ _ hsiblings (hleaf ▸ colon_notMem_hex sha _) ?_ hwalk)
    (opens_bag hmem (fun d hd => colon_notMem_of_isHex64 (hpeaks d hd)) ?_)
  · exact fun t ht => hS t (List.mem_cons_of_mem _ (List.mem_append_left _ ht))
  · exact fun t ht => hS t (List.mem_cons_of_mem _ (List.mem_append_right _ ht))

theorem commits_computePeakHash {sha : Sha256} {pairs : List (String × String)} {S : Set String}
    (hpairs : pairs ≠ []) (hS : ∀ t ∈ buildTexts sha pairs, t ∈ S) :
    HashTree.Commits sha.hex 64 (fun t => ∃ i < pairs.length, t = leafInput (pairAt pairs) i) S
      (computePeakHash sha (Rows.build sha pairs).peaks) := by
  have hrows : (Rows.build sha pairs).peaks = peakRows sha (pairAt pairs) pairs.length := by
    conv_lhs => rw [← map_pairAt pairs, build_eq]
    rfl
  have hpeak : ∀ d ∈ (Rows.build sha pairs).peaks.map MmrPeak.hash,
      ∃ p ∈ peaksFrom 0 pairs.length, d = treeHash sha (pairAt pairs) p.1 p.2 := by
    intro d hd
    rw [hrows, peakRows, List.map_reverse, List.mem_reverse, List.map_map] at hd
    obtain ⟨p, hp, rfl⟩ := List.mem_map.1 hd
    exact ⟨p, hp, rfl⟩
  rw [computePeakHash_eq]
  refine commits_bag ?_ ?_ ?_ fun t ht => hS t (List.mem_append_right _ ht)
  · have hlast := peak_mem (List.length_pos_iff.2 hpairs)
    rw [hrows, peakRows]
    simpa using List.ne_nil_of_mem hlast
  · intro d hd
    obtain ⟨p, -, rfl⟩ := hpeak d hd
    obtain ⟨t, ht⟩ := treeHash_digest sha (pairAt pairs) p.1 p.2
    rw [ht, sha.length_hex]
  · intro d hd
    obtain ⟨p, hp, rfl⟩ := hpeak d hd
    have hbound := (mem_peaksFrom_bound pairs.length 0 p hp).2
    rw [pow_zero, mul_one] at hbound
    exact commits_treeHash sha pairs hS p.1 p.2 hbound

/-- **What an inclusion proof proves.**  If a proof object verifies for a seal root against the bagged
peak hash of a range, the root is the one that the leaf of that index seals, or the digests that the
range and the verification compute show a collision. -/
theorem inclusion_proof_sound (sha : HexSha256) (pairs : List (String × String))
    (hpairs : pairs ≠ []) (hroots : ∀ pair ∈ pairs, Bytes.isHex64 pair.1 = true)
    (proof : ClaimedProof) (hsiblings : ∀ s ∈ proof.siblingHashes, Bytes.isHex64 s = true)
    (hpeaks : ∀ s ∈ proof.peaks, Bytes.isHex64 s = true)
    (sealMerkleRoot : String) (hroot : Bytes.isHex64 sealMerkleRoot = true)
    (hverify : proof.verify sha.toSha256 sealMerkleRoot
      (computePeakHash sha.toSha256 (Rows.build sha.toSha256 pairs).peaks) = true) :
    (∃ (i : ℕ) (recordedAt : String), pairs[i]? = some (sealMerkleRoot, recordedAt) ∧
        proof.leafIndex = Float64.ofInteger i) ∨
      Collision sha.toSha256
        (proof.texts sha.toSha256 sealMerkleRoot ++ buildTexts sha.toSha256 pairs) := by
  set texts := proof.texts sha.toSha256 sealMerkleRoot ++ buildTexts sha.toSha256 pairs
  by_cases hcoll : Collision sha.toSha256 texts
  · exact Or.inr hcoll
  left
  have hinj : Set.InjOn sha.hex {t | t ∈ texts} := fun x hx y hy hxy =>
    by_contra fun hne => hcoll ⟨x, hx, y, hy, hne, hxy⟩
  have hcommits := commits_computePeakHash (S := {t | t ∈ texts}) hpairs
    fun t ht => List.mem_append_right _ ht
  have hopens := ClaimedProof.opens (S := {t | t ∈ texts})
    (fun t ht => List.mem_append_left _ ht) hsiblings hpeaks hverify
  obtain ⟨i, hi, htext⟩ := HashTree.Commits.leaf_of_opens hinj
    (by rintro t ⟨i, -, rfl⟩; exact colon_mem_leafInput (pairAt pairs) i) (by norm_num)
    (fun d hd => by cases hd <;> exact (colon_notMem_hex sha _).2)
    (by simp [ClaimedProof.leafText, String.toList_append])
    (List.mem_append_left _ List.mem_cons_self) hopens hcommits
  have hpair : pairs[i]? = some (pairAt pairs i) := by
    rw [List.getElem?_eq_getElem hi, pairAt, List.getD_eq_getElem _ _ hi]
  obtain ⟨hindex, hseal⟩ := leafText_eq (colon_notMem_of_isHex64 hroot).2
    (colon_notMem_of_isHex64 (hroots _ (List.mem_of_getElem? hpair))).2 htext
  exact ⟨i, (pairAt pairs i).2, by rw [hpair, hseal], hindex⟩

/-! ### The second of three leaves -/

namespace Sample

def recordedAt : String := "2026-05-18T15:01:15.378Z"

def root (c : Char) : String := String.ofList (List.replicate 64 c)

/-- Three seals. -/
def pairs : List (String × String) :=
  [(root '1', recordedAt), (root '2', recordedAt), (root '3', recordedAt)]

def digests : List (BitVec 256) :=
  [0x04adf6c1337e4c05c88c33f9731c36d6d1578c3f8861b3da3b7820bf756a95f3#256,
    0x301ee921120f95558e7c7833b2dcbd41d45fd9ef26dfd7544f1c2ba67c57393c#256,
    0xebb8888b55b8c779b88e4739ccf768538fe479bff3e914dde48c378f5f01ca8e#256,
    0x0baeafe362854eb78b458f585a2d4e66f7f62925ac1e3a07369013417ebd1d68#256,
    0x199dacebe52890675fa150c1c6ad6277a58c71eca0f05797f9e88d70842f4df3#256]

def leaf (i : ℕ) : String := leafInput (pairAt pairs) i

def digest (k : ℕ) : String := hexText (digests.getD k 0)

def sha : HexSha256 :=
  .ofTable ([leaf 0, leaf 1, leaf 2, digest 0 ++ digest 1, digest 3 ++ digest 2].zip digests)
    0xe3b0c44298fc1c149afbf4c8996fb92427ae41e4649b934ca495991b7852b855#256

def proof : ClaimedProof where
  leafIndex := .ofInteger 1
  leafHash := digest 1
  recordedAt := recordedAt
  siblingHashes := [digest 0]
  isRightSibling := [true]
  peakIndex := .ofInteger 0
  peaks := [digest 3, digest 2]
  checkpointId := "5f0c9a52-6b1e-4d36-9a6f-2f1f3f5f9a01"

end Sample

open Sample in
theorem inclusion_proof_sound_second_of_three :
    (∃ (i : ℕ) (recordedAt : String), pairs[i]? = some (root '2', recordedAt) ∧
        proof.leafIndex = Float64.ofInteger i) ∨
      Collision sha.toSha256 (proof.texts sha.toSha256 (root '2') ++ buildTexts sha.toSha256 pairs) :=
  inclusion_proof_sound sha pairs (List.cons_ne_nil _ _) (by decide) proof
    (by decide +kernel) (by decide +kernel) (root '2') (by decide +kernel) (by decide +kernel)

/-! ### Two ranges with one peak hash -/

section Binding

variable (sha : HexSha256) (pairs : List (String × String)) {S : Set String}

/-- **Every leaf opens to each tree above it.** -/
theorem opens_treeHash (hS : ∀ t ∈ buildTexts sha.toSha256 pairs, t ∈ S) (i : ℕ) :
    ∀ h j : ℕ, (j + 1) * 2 ^ h ≤ pairs.length → i / 2 ^ h = j →
      HashTree.Opens sha.hex 64 ':' S (sha.hex (leafInput (pairAt pairs) i))
        (treeHash sha.toSha256 (pairAt pairs) h j) := by
  intro h
  induction h with
  | zero =>
    rintro j - rfl
    rw [pow_zero, Nat.div_one]
    exact HashTree.Opens.done _
  | succ h ih =>
    intro j hj hij
    have hdigest : ∀ k, (treeHash sha.toSha256 (pairAt pairs) h k).length = 64 ∧
        ':' ∉ (treeHash sha.toSha256 (pairAt pairs) h k).toList := by
      intro k
      obtain ⟨t, ht⟩ := treeHash_digest sha.toSha256 (pairAt pairs) h k
      rw [ht]
      exact colon_notMem_hex sha t
    have hmem : nodeText sha.toSha256 (pairAt pairs) (h + 1, j) ∈ buildTexts sha.toSha256 pairs := by
      have hcreated := (mem_created_iff pairs.length (h + 1) j).2 ⟨Nat.succ_pos h, hj⟩
      obtain ⟨n, hn, hmem⟩ := List.mem_flatMap.1 hcreated
      exact mem_buildTexts _ pairs (List.mem_range.1 hn)
        (List.mem_cons_of_mem _ (List.mem_map_of_mem hmem))
    -- the leaf is under one of the two
    have hchild : i / 2 ^ h = 2 * j ∨ i / 2 ^ h = 2 * j + 1 := by
      rw [pow_succ, ← Nat.div_div_eq_div_mul] at hij
      omega
    have hfits : (i / 2 ^ h + 1) * 2 ^ h ≤ pairs.length := by
      refine le_trans (Nat.mul_le_mul_right _ (?_ : _ ≤ (j + 1) * 2)) (le_trans (le_of_eq (by ring)) hj)
      omega
    refine (ih _ hfits rfl).trans ?_
    rw [treeHash, computeNodeHash, ← concat_pair]
    refine HashTree.Opens.climb ?_ ?_ (hS _ ((concat_pair _ _).symm ▸ hmem)) (HashTree.Opens.done _)
    · rcases hchild with hk | hk <;> rw [hk] <;> simp
    · simp only [List.forall_mem_cons, List.not_mem_nil, false_imp_iff, implies_true, and_true]
      exact ⟨hdigest _, hdigest _⟩

theorem opens_computePeakHash (hS : ∀ t ∈ buildTexts sha.toSha256 pairs, t ∈ S) {i : ℕ} (hi : i < pairs.length) :
    HashTree.Opens sha.hex 64 ':' S (sha.hex (leafInput (pairAt pairs) i))
      (computePeakHash sha.toSha256 (Rows.build sha.toSha256 pairs).peaks) := by
  have hrows : (Rows.build sha.toSha256 pairs).peaks.map MmrPeak.hash =
      ((peaksFrom 0 pairs.length).map fun p => treeHash sha.toSha256 (pairAt pairs) p.1 p.2).reverse := by
    conv_lhs => rw [← map_pairAt pairs, build_eq]
    rw [List.map_reverse, List.map_map]
    rfl
  refine (opens_treeHash sha pairs hS i _ _ (peak_fits hi) rfl).trans ?_
  rw [computePeakHash_eq]
  refine opens_bag ?_ (fun d hd => ?_) fun t ht => hS t (List.mem_append_right _ ht)
  · rw [hrows, List.mem_reverse]
    exact List.mem_map.2 ⟨_, peak_mem hi, rfl⟩
  · rw [hrows, List.mem_reverse] at hd
    obtain ⟨p, -, rfl⟩ := List.mem_map.1 hd
    obtain ⟨t, ht⟩ := treeHash_digest sha.toSha256 (pairAt pairs) p.1 p.2
    rw [ht]
    exact colon_notMem_hex sha t

theorem leafInput_fields {f g : ℕ → String × String} {i j : ℕ} (hi : ':' ∉ (f i).1.toList)
    (hj : ':' ∉ (g j).1.toList) (h : leafInput f i = leafInput g j) : i = j ∧ f i = g j := by
  have ht := congrArg String.toList h
  simp only [leafInput, String.toList_append, List.append_assoc] at ht
  obtain ⟨hindex, hrest⟩ := Text.split_at_sep (Text.colon_notMem_repr i) (Text.colon_notMem_repr j) ht
  obtain ⟨hroot, htime⟩ := Text.split_at_sep hi hj hrest
  exact ⟨Text.repr_toList_inj hindex, Prod.ext (String.toList_injective hroot) (String.toList_injective htime)⟩

variable {sha pairs} {pairs' : List (String × String)}

theorem getElem?_of_computePeakHash_eq (hinj : Set.InjOn sha.hex S) (hS : ∀ t ∈ buildTexts sha.toSha256 pairs, t ∈ S)
    (hS' : ∀ t ∈ buildTexts sha.toSha256 pairs', t ∈ S) (hpairs' : pairs' ≠ [])
    (hroots : ∀ pair ∈ pairs, Bytes.isHex64 pair.1 = true) (hroots' : ∀ pair ∈ pairs', Bytes.isHex64 pair.1 = true)
    (heq : computePeakHash sha.toSha256 (Rows.build sha.toSha256 pairs).peaks =
      computePeakHash sha.toSha256 (Rows.build sha.toSha256 pairs').peaks) {i : ℕ} (hi : i < pairs.length) :
    pairs[i]? = pairs'[i]? := by
  have hat : ∀ (l : List (String × String)) k, k < l.length → l[k]? = some (pairAt l k) := by
    intro l k hk
    rw [List.getElem?_eq_getElem hk, pairAt, List.getD_eq_getElem _ _ hk]
  have hopens := opens_computePeakHash sha pairs hS hi
  rw [heq] at hopens
  obtain ⟨j, hj, htext⟩ := HashTree.Commits.leaf_of_opens hinj
    (by rintro t ⟨i, -, rfl⟩; exact colon_mem_leafInput (pairAt pairs') i) (by norm_num)
    (fun d hd => by cases hd <;> exact (colon_notMem_hex sha _).2) (colon_mem_leafInput (pairAt pairs) i)
    (hS _ (mem_buildTexts _ pairs hi List.mem_cons_self)) hopens (commits_computePeakHash hpairs' hS')
  obtain ⟨rfl, hpair⟩ := leafInput_fields
    (colon_notMem_of_isHex64 (hroots _ (List.mem_of_getElem? (hat pairs i hi)))).2
    (colon_notMem_of_isHex64 (hroots' _ (List.mem_of_getElem? (hat pairs' j hj)))).2 htext
  rw [hat pairs i hi, hat pairs' i hj, hpair]

theorem peak_hash_binds (sha : HexSha256) (pairs pairs' : List (String × String))
    (hpairs : pairs ≠ []) (hpairs' : pairs' ≠ []) (hroots : ∀ pair ∈ pairs, Bytes.isHex64 pair.1 = true)
    (hroots' : ∀ pair ∈ pairs', Bytes.isHex64 pair.1 = true)
    (heq : computePeakHash sha.toSha256 (Rows.build sha.toSha256 pairs).peaks =
      computePeakHash sha.toSha256 (Rows.build sha.toSha256 pairs').peaks) :
    pairs = pairs' ∨ Collision sha.toSha256 (buildTexts sha.toSha256 pairs ++ buildTexts sha.toSha256 pairs') := by
  set texts := buildTexts sha.toSha256 pairs ++ buildTexts sha.toSha256 pairs'
  by_cases hcoll : Collision sha.toSha256 texts
  · exact Or.inr hcoll
  left
  have hinj : Set.InjOn sha.hex {t | t ∈ texts} := fun x hx y hy hxy =>
    by_contra fun hne => hcoll ⟨x, hx, y, hy, hne, hxy⟩
  have hS : ∀ t ∈ buildTexts sha.toSha256 pairs, t ∈ {t | t ∈ texts} := fun t ht => List.mem_append_left _ ht
  have hS' : ∀ t ∈ buildTexts sha.toSha256 pairs', t ∈ {t | t ∈ texts} := fun t ht => List.mem_append_right _ ht
  refine List.ext_getElem? fun i => ?_
  by_cases hi : i < pairs.length
  · exact getElem?_of_computePeakHash_eq hinj hS hS' hpairs' hroots hroots' heq hi
  by_cases hi' : i < pairs'.length
  · exact (getElem?_of_computePeakHash_eq hinj hS' hS hpairs hroots' hroots heq.symm hi').symm
  rw [List.getElem?_eq_none (not_lt.1 hi), List.getElem?_eq_none (not_lt.1 hi')]

end Binding

open Sample in
theorem peak_hash_binds_three : pairs = pairs ∨
    Collision sha.toSha256 (buildTexts sha.toSha256 pairs ++ buildTexts sha.toSha256 pairs) := by
  have hroot : ∀ c, Bytes.isHexDigit c = true → Bytes.isHex64 (root c) = true := by
    intro c hc
    simp [root, Bytes.isHex64, hc]
  have hroots : ∀ pair ∈ pairs, Bytes.isHex64 pair.1 = true := by
    simp only [pairs, List.forall_mem_cons]
    exact ⟨hroot _ rfl, hroot _ rfl, hroot _ rfl, List.forall_mem_nil _⟩
  exact peak_hash_binds sha pairs pairs (List.cons_ne_nil _ _) (List.cons_ne_nil _ _) hroots hroots rfl

end Cello.Directory.Mmr
