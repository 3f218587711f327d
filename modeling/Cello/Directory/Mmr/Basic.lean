import Cello.Lib.Int32
import Cello.Lib.OrdMap
import Cello.Lib.Sha256

/-!
# The directory's Merkle mountain range

The single-node construction of `packages/directory/src/mmr.ts`: appending a
leaf, the inclusion proof of a leaf, and its verification.  Positions are
integers, since the code subtracts from them and looks the result up; indices
and heights are naturals.  Bit operators are the 32-bit ones of `Lib.Int32`.

The climb from a leaf to its peak is a `while` loop whose exit depends on what
the position map happens to hold, so it is given fuel: `Climb.running` is a loop
that has not ended yet, and a result is claimed only as "some fuel returns it".
-/

namespace Cello.Directory.Mmr

open Lib Lib.Int32

/-- A row of `conversation_proof_leaves`. -/
structure MmrLeaf where
  leafIndex : ℕ
  mmrPosition : ℤ
  leafHash : String
  sealMerkleRoot : String
  recordedAt : String
  checkpointId : Option String := none
deriving DecidableEq, Repr

/-- A row of `conversation_proof_mmr_nodes`. -/
structure MmrNode where
  mmrPosition : ℤ
  hash : String
  height : ℕ
deriving DecidableEq, Repr

/-- A current peak, a leaf at height `0` or an internal node. -/
structure MmrPeak where
  position : ℤ
  hash : String
  height : ℕ
deriving DecidableEq, Repr

structure AppendLeafResult where
  newLeaf : MmrLeaf
  newNodes : List MmrNode
  newPeaks : List MmrPeak
deriving DecidableEq, Repr

structure ConversationInclusionProof where
  leafIndex : ℕ
  leafHash : String
  recordedAt : String
  siblingHashes : List String
  isRightSibling : List Bool
  peakIndex : ℤ
  peaks : List String
  checkpointId : String
deriving DecidableEq, Repr

/-- A proof, or the sentinel `PROOF_NOT_YET_AVAILABLE`. -/
inductive ProofResult where
  | proof (p : ConversationInclusionProof)
  | notYetAvailable
deriving DecidableEq, Repr

/-! ### Hashes and positions -/

def computeLeafHash (sha : Sha256) (leafIndex : ℕ) (sealMerkleRoot recordedAt : String) : String :=
  sha.hex (toString leafIndex ++ ":" ++ sealMerkleRoot ++ ":" ++ recordedAt)

def computeNodeHash (sha : Sha256) (leftHash rightHash : String) : String :=
  sha.hex (leftHash ++ rightHash)

/-- `while (n > 0) { popcount += n & 1; n >>= 1; }` -/
def popcountLoop : ℕ → ℤ → ℤ → ℤ
  | 0, _, popcount => popcount
  | fuel + 1, n, popcount =>
    if 0 < n then popcountLoop fuel (shrOne n) (popcount + andOne n) else popcount

/-- The loop variable strictly decreases, so `leafIndex + 1` rounds are enough. -/
def computeMmrPosition (leafIndex : ℕ) : ℤ :=
  2 * leafIndex - popcountLoop (leafIndex + 1) leafIndex 0

/-! ### Append -/

/-- The merge loop, on the peaks to the left of `right`, nearest first. -/
def mergePeaks (sha : Sha256) (right : MmrPeak) : List MmrPeak → List MmrPeak × List MmrNode
  | [] => ([right], [])
  | left :: rest =>
    if left.height ≠ right.height then (right :: left :: rest, [])
    else
      let parent : MmrPeak :=
        { position := right.position + 1
          hash := computeNodeHash sha left.hash right.hash
          height := left.height + 1 }
      let r := mergePeaks sha parent rest
      (r.1, { mmrPosition := parent.position, hash := parent.hash, height := parent.height } :: r.2)

def appendLeafToMmr (sha : Sha256) (leafIndex : ℕ) (sealMerkleRoot recordedAt : String)
    (currentPeaks : List MmrPeak) : AppendLeafResult :=
  let leafHash := computeLeafHash sha leafIndex sealMerkleRoot recordedAt
  let leafPosition := computeMmrPosition leafIndex
  let r := mergePeaks sha { position := leafPosition, hash := leafHash, height := 0 }
    currentPeaks.reverse
  { newLeaf :=
      { leafIndex := leafIndex, mmrPosition := leafPosition, leafHash := leafHash
        sealMerkleRoot := sealMerkleRoot, recordedAt := recordedAt }
    newNodes := r.2
    newPeaks := r.1.reverse }

/-- The rows a sequence of appends leaves behind. -/
structure Rows where
  leaves : List MmrLeaf
  nodes : List MmrNode
  peaks : List MmrPeak
deriving DecidableEq, Repr

/-- One append: the new leaf's index is the number of leaves there are. -/
def Rows.append (sha : Sha256) (m : Rows) (pair : String × String) : Rows :=
  let r := appendLeafToMmr sha m.leaves.length pair.1 pair.2 m.peaks
  { leaves := m.leaves ++ [r.newLeaf], nodes := m.nodes ++ r.newNodes, peaks := r.newPeaks }

/-- Append `(seal_merkle_root, recorded_at)` pairs one by one from the empty range. -/
def Rows.build (sha : Sha256) (pairs : List (String × String)) : Rows :=
  pairs.foldl (Rows.append sha) { leaves := [], nodes := [], peaks := [] }

/-- The leaf rows with the `checkpoint_id` column filled in. -/
def stampCheckpoints (checkpointOf : ℕ → Option String) (leaves : List MmrLeaf) : List MmrLeaf :=
  leaves.map fun l => { l with checkpointId := checkpointOf l.leafIndex }

/-! ### Inclusion proof -/

/-- `new Map()` filled with the leaves, then with the nodes. -/
def nodeByPosition (leaves : List MmrLeaf) (nodes : List MmrNode) : OrdMap ℤ String :=
  OrdMap.ofList (leaves.map (fun l => (l.mmrPosition, l.leafHash)) ++
    nodes.map (fun n => (n.mmrPosition, n.hash)))

def reachableFromPeak (fromPos peakPos : ℤ) (peakHeight : ℕ) (byPos : OrdMap ℤ String) : Bool :=
  let totalNodes := oneShl (peakHeight + 1) - 1
  let leftmostPos := peakPos - totalNodes + 1
  decide (leftmostPos ≤ fromPos) && decide (fromPos ≤ peakPos) && byPos.has fromPos

def isRightChildLeaf (pos : ℤ) (leaves : List MmrLeaf) : Bool :=
  if pos = 0 then false
  else (leaves.find? fun l => decide (l.mmrPosition = pos - 1)).isSome

def isRightChildNode (pos : ℤ) (height : ℕ) (byPos : OrdMap ℤ String) (subtreeNodeCount : ℤ) :
    Bool :=
  if height ≤ 0 then false else byPos.has (pos - subtreeNodeCount)

def isRightChild (leaves : List MmrLeaf) (byPos : OrdMap ℤ String) (pos : ℤ) (height : ℕ) : Bool :=
  if height = 0 then isRightChildLeaf pos leaves
  else isRightChildNode pos height byPos (oneShl (height + 1) - 1)

/-- How far a climb has come: still going, given up, or the siblings with their direction bits. -/
inductive Climb where
  | running
  | unavailable
  | path (siblings : List (String × Bool))
deriving DecidableEq, Repr

/-- Push a sibling in front of what the rest of the climb collects; a missing sibling ends it. -/
def Climb.push (isRight : Bool) (rest : Climb) : Option String → Climb
  | none => .unavailable
  | some s =>
    match rest with
    | .path l => .path ((s, isRight) :: l)
    | c => c

/-- A missing sibling: `!hash` holds of `undefined` and of the empty string. -/
def siblingHash (byPos : OrdMap ℤ String) (pos : ℤ) : Option String :=
  (byPos.get pos).filter fun s => decide (s ≠ "")

/-- `while (currentPos !== peak.position)`. -/
def climb (leaves : List MmrLeaf) (byPos : OrdMap ℤ String) (peakPosition : ℤ) :
    ℕ → ℤ → ℕ → Climb
  | 0, _, _ => .running
  | fuel + 1, currentPos, currentHeight =>
    if currentPos = peakPosition then .path []
    else
      let subtreeNodeCount := oneShl (currentHeight + 1) - 1
      if isRightChild leaves byPos currentPos currentHeight then
        Climb.push true (climb leaves byPos peakPosition fuel (currentPos + 1) (currentHeight + 1))
          (siblingHash byPos (currentPos - subtreeNodeCount))
      else
        Climb.push false
          (climb leaves byPos peakPosition fuel (currentPos + subtreeNodeCount + 1)
            (currentHeight + 1))
          (siblingHash byPos (currentPos + subtreeNodeCount))

/-- The last step of the construction, once the climb has ended. -/
def finishProof (leaf : MmrLeaf) (leafIndex peakIndex : ℕ) (peaks : List MmrPeak) :
    Climb → Option ProofResult
  | .running => none
  | .unavailable => some .notYetAvailable
  | .path siblings =>
    match leaf.checkpointId with
    | none => some .notYetAvailable
    | some checkpointId =>
      if checkpointId = "" then some .notYetAvailable
      else some (.proof
        { leafIndex := leafIndex
          leafHash := leaf.leafHash
          recordedAt := leaf.recordedAt
          siblingHashes := siblings.map Prod.fst
          isRightSibling := siblings.map Prod.snd
          peakIndex := peakIndex
          peaks := peaks.map MmrPeak.hash
          checkpointId := checkpointId })

/-- `none` when the climb is out of fuel. -/
def computeInclusionProof (fuel leafIndex : ℕ) (leaves : List MmrLeaf) (nodes : List MmrNode)
    (peaks : List MmrPeak) (committedCheckpointPeakHash : Option String) : Option ProofResult :=
  if committedCheckpointPeakHash = none then some .notYetAvailable
  else
    match leaves.find? fun l => decide (l.leafIndex = leafIndex) with
    | none => some .notYetAvailable
    | some leaf =>
      let byPos := nodeByPosition leaves nodes
      let covers := fun p : MmrPeak => reachableFromPeak leaf.mmrPosition p.position p.height byPos
      match peaks.findIdx? covers, peaks.find? covers with
      | some peakIndex, some peak =>
        finishProof leaf leafIndex peakIndex peaks
          (climb leaves byPos peak.position fuel leaf.mmrPosition 0)
      | _, _ => some .notYetAvailable

/-! ### Fuel only decides whether the climb has ended -/

theorem Climb.push_ne_running {b : Bool} {c : Climb} {o : Option String}
    (h : c.push b o ≠ .running) : o = none ∨ c ≠ .running := by
  cases o with
  | none => exact Or.inl rfl
  | some s =>
    refine Or.inr fun hc => h ?_
    rw [hc]
    rfl

theorem climb_succ (leaves : List MmrLeaf) (byPos : OrdMap ℤ String) (peakPosition : ℤ) :
    ∀ (fuel : ℕ) (p : ℤ) (h : ℕ), climb leaves byPos peakPosition fuel p h ≠ .running →
      climb leaves byPos peakPosition (fuel + 1) p h = climb leaves byPos peakPosition fuel p h := by
  intro fuel
  induction fuel with
  | zero => intro p h hr; exact absurd rfl hr
  | succ fuel ih =>
    intro p h hr
    rw [climb] at hr
    conv_lhs => rw [climb]
    conv_rhs => rw [climb]
    by_cases hp : p = peakPosition
    · rw [if_pos hp, if_pos hp]
    · rw [if_neg hp] at hr
      rw [if_neg hp, if_neg hp]
      by_cases hd : isRightChild leaves byPos p h = true
      · rw [if_pos hd] at hr
        rw [if_pos hd, if_pos hd]
        rcases Climb.push_ne_running hr with ho | hc
        · rw [ho]
          rfl
        · rw [ih _ _ hc]
      · rw [if_neg hd] at hr
        rw [if_neg hd, if_neg hd]
        rcases Climb.push_ne_running hr with ho | hc
        · rw [ho]
          rfl
        · rw [ih _ _ hc]

theorem computeInclusionProof_succ {fuel i : ℕ} {leaves : List MmrLeaf} {nodes : List MmrNode}
    {peaks : List MmrPeak} {c : Option String} {r : ProofResult}
    (h : computeInclusionProof fuel i leaves nodes peaks c = some r) :
    computeInclusionProof (fuel + 1) i leaves nodes peaks c = some r := by
  simp only [computeInclusionProof] at h ⊢
  by_cases hc : c = none
  · rw [if_pos hc] at h ⊢
    exact h
  rw [if_neg hc] at h ⊢
  cases hf : leaves.find? fun l => decide (l.leafIndex = i) with
  | none => simpa only [hf] using h
  | some leaf =>
    simp only [hf] at h ⊢
    cases hk : peaks.findIdx? fun p =>
        reachableFromPeak leaf.mmrPosition p.position p.height (nodeByPosition leaves nodes) with
    | none => simpa only [hk] using h
    | some k =>
      cases hp : peaks.find? fun p =>
          reachableFromPeak leaf.mmrPosition p.position p.height (nodeByPosition leaves nodes) with
      | none => simpa only [hk, hp] using h
      | some peak =>
        simp only [hk, hp] at h ⊢
        rw [climb_succ]
        · exact h
        · intro hr
          simp [hr, finishProof] at h

theorem computeInclusionProof_unique {fuel fuel' i : ℕ} {leaves : List MmrLeaf}
    {nodes : List MmrNode} {peaks : List MmrPeak} {c : Option String} {r r' : ProofResult}
    (h : computeInclusionProof fuel i leaves nodes peaks c = some r)
    (h' : computeInclusionProof fuel' i leaves nodes peaks c = some r') : r = r' := by
  have more : ∀ (n k : ℕ) (s : ProofResult), computeInclusionProof n i leaves nodes peaks c = some s →
      computeInclusionProof (n + k) i leaves nodes peaks c = some s := by
    intro n k s hs
    induction k with
    | zero => exact hs
    | succ k ih => exact computeInclusionProof_succ ih
  have h1 := more fuel fuel' r h
  have h2 := more fuel' fuel r' h'
  rw [add_comm] at h2
  exact Option.some.inj (h1.symm.trans h2)

/-! ### Verification -/

def bagPeakHashes (sha : Sha256) : List String → String
  | [] => String.ofList (List.replicate 64 '0')
  | [h] => h
  | hs => sha.hex (String.join hs)

def walkToSubtreeRoot (sha : Sha256) : List String → List Bool → String → Option String
  | [], _, current => some current
  | sibling :: siblings, isRight :: rest, current =>
    walkToSubtreeRoot sha siblings rest
      (if isRight then computeNodeHash sha sibling current else computeNodeHash sha current sibling)
  | _ :: _, [], _ => none

def verifyInclusionProof (sha : Sha256) (proof : ConversationInclusionProof)
    (sealMerkleRoot checkpointPeakHash : String) : Bool :=
  if computeLeafHash sha proof.leafIndex sealMerkleRoot proof.recordedAt ≠ proof.leafHash then false
  else
    match walkToSubtreeRoot sha proof.siblingHashes proof.isRightSibling proof.leafHash with
    | none => false
    | some subtreeRoot =>
      if proof.peaks.length = 0 then false
      else if proof.peakIndex < 0 ∨ (proof.peaks.length : ℤ) ≤ proof.peakIndex then false
      else if some subtreeRoot ≠ proof.peaks[proof.peakIndex.toNat]? then false
      else decide (bagPeakHashes sha proof.peaks = checkpointPeakHash)

end Cello.Directory.Mmr
