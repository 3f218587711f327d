import Mathlib.Data.UInt
import Cello.Directory.Seal.Countersigned
import Cello.Directory.Seal.FinalRoot
import Cello.Interfaces.CarriedLeaves

/-!
# What `processSeal` checks before it certifies

The part of `processSeal` that runs before its first `await`: the relay's root, each leaf's
signature, content hash, chain link and acknowledgement, the closing ceremony, and the roots the two
participants signed.  What passes is certified: the content root, the number of leaves, and the
legibility read off the leaves.

The sequence numbers of the leaves are the relay's and nothing here looks at them, although the
legibility is made of them.  `certified_positions_iff` says for which accepted leaves the certified
numbers are positions of the transcript.
-/

namespace Cello.Directory.Seal

open Lib Cello.Interfaces

/-! ### Refusals -/

inductive SealRejectionReason where
  | merkleRootMismatch
  | leafSignatureInvalid
  | contentHashMismatch
  | prevRootChainBroken
  | causalChainViolated
  | sealLeavesInvalid
  | finalRoot (reason : SealFinalRootReason)
  /-- The exception of the branch the source calls unreachable. -/
  | threw
deriving DecidableEq, Repr

namespace SealRejectionReason

/-- The reason the relay is given. -/
def code : SealRejectionReason → String
  | merkleRootMismatch => "merkle_root_mismatch"
  | leafSignatureInvalid => "leaf_signature_invalid"
  | contentHashMismatch => "content_hash_mismatch"
  | prevRootChainBroken => "prev_root_chain_broken"
  | causalChainViolated => "causal_chain_violated"
  | sealLeavesInvalid => "seal_leaves_invalid"
  | finalRoot reason => reason.code
  | threw => "processSeal: seal ceremony pair missing after verifySealLeaves"

/-- The reason the participants are told. -/
def wireReason : SealRejectionReason → String
  | merkleRootMismatch => "merkle_root_mismatch"
  | leafSignatureInvalid => "leaf_signature_invalid"
  | contentHashMismatch => "leaf_signature_invalid"
  | prevRootChainBroken => "prev_root_chain_broken"
  | causalChainViolated => "causal_chain_violated"
  | sealLeavesInvalid => "seal_leaves_invalid"
  | finalRoot .senderNotParticipant => "seal_leaves_invalid"
  | finalRoot .leafSessionMismatch => "seal_leaves_invalid"
  | finalRoot .approvalIncomplete => "seal_approval_missing"
  | finalRoot .partiesDisagree => "seal_parties_disagree"
  | finalRoot _ => "merkle_root_mismatch"
  | threw => ""

end SealRejectionReason

/-- A refused seal.  Without `recipients` every connected stream is told. -/
structure SealRejection where
  reason : SealRejectionReason
  detail : Option String := none
  recipients : Option (Bytes × Bytes) := none
deriving DecidableEq, Repr

/-! ### The leaves -/

/-- One round of the per-leaf loop. -/
def checkSealLeaf (ext : Externals) (prior : List RelaySealLeaf) (runningRoot : Bytes)
    (leaf : RelaySealLeaf) : Except SealRejectionReason Unit :=
  if !ext.verify leaf.s2.senderPubkey leaf.structure1Cbor leaf.s2.senderSignature then
    .error .leafSignatureInvalid
  else
    match decodeStructure1Fields ext leaf.structure1Cbor with
    | none => .error .leafSignatureInvalid
    | some s1 =>
      if s1.contentHash ≠ leaf.s2.contentHash then .error .contentHashMismatch
      else if leaf.s2.prevRoot ≠ runningRoot then .error .prevRootChainBroken
      else if s1.lastSeenSeq.gt (effectiveSeen leaf.s2.senderPubkey prior) then
        .error .causalChainViolated
      else .ok ()

/-- The loop over the leaves; after each the running root is that of the leaves so far. -/
def checkSealLeaves (ext : Externals) : List RelaySealLeaf → Bytes → List RelaySealLeaf →
    Except SealRejectionReason Unit
  | _, _, [] => .ok ()
  | prior, runningRoot, leaf :: rest =>
    match checkSealLeaf ext prior runningRoot leaf with
    | .error e => .error e
    | .ok () =>
      checkSealLeaves ext (prior ++ [leaf])
        (ext.merkleRoot ((prior ++ [leaf]).map (treeLeaf ext))) rest

/-- The ceremony exists and closes the log. -/
def verifySealLeaves (leaves : List RelaySealLeaf) : Bool :=
  if leaves.length < 2 then false
  else
    match findSealCeremonyPair leaves with
    | none => false
    | some (_, responder) => decide (responder = leaves.length - 1)

/-! ### The verdict -/

/-- What an accepted seal certifies, but for the close timestamp. -/
structure SealAdjudication where
  contentRoot : Bytes
  leafCount : ℕ
  legibility : SealLegibility
  participantA : Bytes
  participantB : Bytes
  initiator : Bytes
deriving DecidableEq, Repr

def sealParticipants (leaves : List RelaySealLeaf) : Bytes × Bytes :=
  match distinctSenders leaves with
  | a :: b :: _ => (a, b)
  | _ => (List.replicate 32 0, List.replicate 32 0)

/-- Both participants' signed roots, or a refusal. -/
def verifyApproval (ext : SealExternals) (leaves : List RelaySealLeaf) (sessionId : Bytes)
    (roster : Option (Bytes × Bytes)) : Except SealRejection Unit :=
  match verifySealFinalRoots ext leaves sessionId roster with
  | .error ⟨.notCarried, detail⟩ =>
    .error { reason := .finalRoot .approvalIncomplete, detail := some detail, recipients := roster }
  | .error ⟨reason, detail⟩ =>
    .error { reason := .finalRoot reason, detail := some detail, recipients := roster }
  | .ok ⟨.one detail, _⟩ =>
    .error { reason := .finalRoot .approvalIncomplete, detail := some detail, recipients := roster }
  | .ok ⟨.both, _⟩ => .ok ()

/-- `processSeal` up to the close timestamp.  `roster` is what the node knows of the session. -/
def adjudicateSeal (ext : SealExternals) (sessionId : Bytes) (roster : Option (Bytes × Bytes))
    (leaves : List RelaySealLeaf) (relayRoot : Bytes) : Except SealRejection SealAdjudication :=
  if ext.merkleRoot (leaves.map (treeLeaf ext.toExternals)) ≠ relayRoot then
    .error { reason := .merkleRootMismatch }
  else
    match checkSealLeaves ext.toExternals [] (initialChain leaves).runningRoot leaves with
    | .error e => .error { reason := e }
    | .ok () =>
      if !verifySealLeaves leaves then .error { reason := .sealLeavesInvalid }
      else
        match verifyApproval ext leaves sessionId roster with
        | .error e => .error e
        | .ok () =>
          match buildSealLegibility ext.toExternals (fun _ => none) leaves,
            findSealCeremonyPair leaves with
          | some legibility, some (initiator, _) =>
            .ok
              { contentRoot := ext.merkleRoot (leaves.map fun l => l.s2.contentHash)
                leafCount := leaves.length
                legibility := legibility
                participantA := (sealParticipants leaves).1
                participantB := (sealParticipants leaves).2
                initiator := (leaves[initiator]?.map fun l => l.s2.senderPubkey).getD [] }
          | _, _ => .error { reason := .threw }

/-! ### What acceptance says -/

/-- What one round has checked, as far as the acknowledgement goes. -/
structure LeafChecked (ext : Externals) (prior : List RelaySealLeaf) (leaf : RelaySealLeaf)
    (s1 : Structure1Fields) : Prop where
  decoded : decodeStructure1Fields ext leaf.structure1Cbor = some s1
  content : s1.contentHash = leaf.s2.contentHash
  causal : s1.lastSeenSeq.gt (effectiveSeen leaf.s2.senderPubkey prior) = false

theorem checkSealLeaf_ok {ext : Externals} {prior : List RelaySealLeaf} {root : Bytes}
    {leaf : RelaySealLeaf} (h : checkSealLeaf ext prior root leaf = .ok ()) :
    ∃ s1, LeafChecked ext prior leaf s1 := by
  unfold checkSealLeaf at h
  split at h
  · cases h
  · split at h
    · cases h
    next s1 hs1 =>
      split at h
      · cases h
      next hcontent =>
        split at h
        · cases h
        · split at h
          · cases h
          next hcausal => exact ⟨s1, hs1, not_not.1 hcontent, by simpa using hcausal⟩

theorem checkSealLeaves_ok {ext : Externals} : ∀ {leaves before : List RelaySealLeaf} {root : Bytes},
    checkSealLeaves ext before root leaves = .ok () →
      ∀ {prior : List RelaySealLeaf} {leaf : RelaySealLeaf} {rest : List RelaySealLeaf},
        leaves = prior ++ leaf :: rest → ∃ s1, LeafChecked ext (before ++ prior) leaf s1 := by
  intro leaves
  induction leaves with
  | nil =>
    intro before root _ prior leaf rest hsplit
    simp at hsplit
  | cons x xs ih =>
    intro before root h prior leaf rest hsplit
    rw [checkSealLeaves] at h
    split at h
    · cases h
    next hx =>
      cases prior with
      | nil =>
        simp only [List.nil_append, List.cons.injEq] at hsplit
        obtain ⟨rfl, rfl⟩ := hsplit
        simpa using checkSealLeaf_ok hx
      | cons y ys =>
        simp only [List.cons_append, List.cons.injEq] at hsplit
        obtain ⟨rfl, hrest⟩ := hsplit
        simpa using ih h hrest

/-- **Acceptance**, as far as the certified numbers depend on it. -/
structure Accepted (ext : Externals) (leaves : List RelaySealLeaf) (a : SealAdjudication) :
    Prop where
  checked : ∀ {prior leaf rest}, leaves = prior ++ leaf :: rest → ∃ s1, LeafChecked ext prior leaf s1
  ne_nil : leaves ≠ []
  legibility : buildSealLegibility ext (fun _ => none) leaves = some a.legibility
  leafCount : a.leafCount = leaves.length

theorem adjudicateSeal_ok {ext : SealExternals} {sessionId relayRoot : Bytes}
    {roster : Option (Bytes × Bytes)} {leaves : List RelaySealLeaf} {a : SealAdjudication}
    (h : adjudicateSeal ext sessionId roster leaves relayRoot = .ok a) :
    Accepted ext.toExternals leaves a := by
  unfold adjudicateSeal at h
  split at h
  · cases h
  · split at h
    · cases h
    next hloop =>
      split at h
      · cases h
      next hseal =>
        split at h
        · cases h
        · split at h
          next legibility pair hlegibility hpair =>
            cases h
            refine ⟨fun hsplit => checkSealLeaves_ok hloop hsplit, ?_, hlegibility, rfl⟩
            rintro rfl
            simp [verifySealLeaves] at hseal
          · cases h

/-! ### Positions -/

/-- A number that names the beginning or a leaf of a transcript of `N` leaves. -/
def IsPosition (N : ℕ) (x : JsNumber) : Prop := ∃ k : ℕ, k ≤ N ∧ x = k

/-- The certified numbers are positions, and every position is that of exactly one leaf. -/
structure CertifiedPositions (leaves : List RelaySealLeaf) (a : SealAdjudication) : Prop where
  frontier : ∀ p ∈ a.legibility.participants, IsPosition a.leafCount p.contentFrontierSeq
  authored : ∀ p ∈ a.legibility.participants, IsPosition a.leafCount p.lastAuthoredSeq
  countersigned : IsPosition a.leafCount a.legibility.countersignedThroughSeq
  final : IsPosition a.leafCount a.legibility.finalMessage.seq
  unique : ∀ k : ℕ, 1 ≤ k → k ≤ a.leafCount →
    ∃! i : ℕ, ∃ l : RelaySealLeaf, leaves[i]? = some l ∧ l.s2.sequenceNumber = k

/-- The relay gave the leaves the numbers from `1` on, in some order, and a participant's greatest
acknowledgement is not a fraction. -/
structure RealPositions (ext : Externals) (leaves : List RelaySealLeaf) : Prop where
  numbered : (leaves.map fun l => l.s2.sequenceNumber).Perm
    ((List.range leaves.length).map fun i => ((i + 1 : ℕ) : JsNumber))
  whole : ∀ l ∈ leaves, ∀ q : ℚ, decodeSignedLastSeenSeq ext l.structure1Cbor = some (.fin q) →
    0 < q → ∃ l' ∈ leaves, l'.s2.senderPubkey = l.s2.senderPubkey ∧
      ∃ n : ℕ, decodeSignedLastSeenSeq ext l'.structure1Cbor = some (n : JsNumber) ∧ q ≤ n

section Numbers

variable {ext : Externals} {leaves : List RelaySealLeaf}

theorem lastAuthored_value (ext : Externals) (key : Bytes) : ∀ leaves : List RelaySealLeaf,
    ((frontiersOf ext leaves).lastAuthored.get key).getD (0 : ℕ) = (0 : ℕ) ∨
      ∃ l ∈ leaves,
        l.s2.sequenceNumber = ((frontiersOf ext leaves).lastAuthored.get key).getD (0 : ℕ) := by
  intro leaves
  induction leaves using List.reverseRecOn with
  | nil => exact Or.inl (by simp [frontiersOf])
  | append_singleton l a ih =>
    rw [frontiersOf_concat]
    simp only [recordLeaf]
    rw [getD_raise]
    split
    · exact Or.inr ⟨a, by simp, rfl⟩
    · refine ih.imp_right ?_
      rintro ⟨b, hb, hseq⟩
      exact ⟨b, by simp [hb], hseq⟩

theorem effectiveSeen_value (sender : Bytes) : ∀ prior : List RelaySealLeaf,
    effectiveSeen sender prior = (0 : ℕ) ∨
      ∃ l ∈ prior, l.s2.sequenceNumber = effectiveSeen sender prior := by
  intro prior
  induction prior using List.reverseRecOn with
  | nil => exact Or.inl rfl
  | append_singleton l a ih =>
    have hstep : effectiveSeen sender (l ++ [a]) =
        if a.s2.senderPubkey ≠ sender ∧ a.s2.sequenceNumber.gt (effectiveSeen sender l) then
          a.s2.sequenceNumber else effectiveSeen sender l := by
      rw [effectiveSeen, List.foldl_append]
      rfl
    rw [hstep]
    split
    · exact Or.inr ⟨a, by simp, rfl⟩
    · refine ih.imp_right ?_
      rintro ⟨b, hb, hseq⟩
      exact ⟨b, by simp [hb], hseq⟩

theorem gt_of_gt_of_not_gt {q : ℚ} {n v : JsNumber} (hn : n.gt v = true)
    (hq : (JsNumber.fin q).gt v = false) : (JsNumber.fin q).gt n = false := by
  cases v with
  | nan => cases n <;> simp [JsNumber.gt] at hn
  | negInf => simp [JsNumber.gt] at hq
  | posInf => cases n <;> simp [JsNumber.gt] at hn
  | fin b =>
    cases n with
    | nan => simp [JsNumber.gt] at hn
    | negInf => simp [JsNumber.gt] at hn
    | posInf => rfl
    | fin a =>
      simp only [JsNumber.gt_fin, decide_eq_true_eq, decide_eq_false_iff_not, not_lt] at hn hq ⊢
      exact hq.trans hn.le

theorem frontier_bound (ext : Externals) : ∀ leaves : List RelaySealLeaf, ∀ l ∈ leaves, ∀ q : ℚ,
    decodeSignedLastSeenSeq ext l.structure1Cbor = some (.fin q) →
    (JsNumber.fin q).gt
      (((frontiersOf ext leaves).frontier.get l.s2.senderPubkey).getD (0 : ℕ)) = false := by
  intro leaves
  induction leaves using List.reverseRecOn with
  | nil =>
    intro l hl
    simp at hl
  | append_singleton ls a ih =>
    intro l hl q hq
    rw [frontiersOf_concat]
    simp only [recordLeaf]
    rcases List.mem_append.1 hl with hl | hl
    · have hold := ih l hl q hq
      cases hd : decodeSignedLastSeenSeq ext a.structure1Cbor with
      | none => exact hold
      | some n =>
        dsimp only
        rw [getD_raise]
        split
        next hraised =>
          rw [hraised.1] at hold
          exact gt_of_gt_of_not_gt hraised.2 hold
        next => exact hold
    · obtain rfl : l = a := by simpa using hl
      rw [hq]
      dsimp only
      rw [getD_raise]
      split
      · simp
      next hnot => simpa using hnot

theorem gt_trans {n v w : JsNumber} (hn : n.gt v = true) (hv : v.gt w = true) : n.gt w = true := by
  cases v with
  | nan => simp [JsNumber.gt] at hv
  | negInf => cases w <;> simp [JsNumber.gt] at hv
  | posInf => cases n <;> simp [JsNumber.gt] at hn
  | fin b =>
    cases n with
    | nan => simp [JsNumber.gt] at hn
    | negInf => simp [JsNumber.gt] at hn
    | posInf => cases w <;> simp [JsNumber.gt] at hv ⊢
    | fin a =>
      cases w with
      | nan => simp [JsNumber.gt] at hv
      | negInf => rfl
      | posInf => simp [JsNumber.gt] at hv
      | fin c =>
        simp only [JsNumber.gt_fin, decide_eq_true_eq] at hn hv ⊢
        exact hv.trans hn

theorem frontier_ack (ext : Externals) (key : Bytes) : ∀ leaves : List RelaySealLeaf,
    ((frontiersOf ext leaves).frontier.get key).getD (0 : ℕ) = (0 : ℕ) ∨
      ∃ l ∈ leaves, l.s2.senderPubkey = key ∧
        decodeSignedLastSeenSeq ext l.structure1Cbor =
          some (((frontiersOf ext leaves).frontier.get key).getD (0 : ℕ)) ∧
        (((frontiersOf ext leaves).frontier.get key).getD (0 : ℕ)).gt (0 : ℕ) = true := by
  intro leaves
  induction leaves using List.reverseRecOn with
  | nil => exact Or.inl (by simp [frontiersOf])
  | append_singleton ls a ih =>
    have hkeep : ((frontiersOf ext ls).frontier.get key).getD (0 : ℕ) = (0 : ℕ) ∨
        ∃ l ∈ ls ++ [a], l.s2.senderPubkey = key ∧
          decodeSignedLastSeenSeq ext l.structure1Cbor =
            some (((frontiersOf ext ls).frontier.get key).getD (0 : ℕ)) ∧
          (((frontiersOf ext ls).frontier.get key).getD (0 : ℕ)).gt (0 : ℕ) = true := by
      refine ih.imp_right ?_
      rintro ⟨l, hl, hrest⟩
      exact ⟨l, List.mem_append_left _ hl, hrest⟩
    rw [frontiersOf_concat]
    simp only [recordLeaf]
    cases hd : decodeSignedLastSeenSeq ext a.structure1Cbor with
    | none => exact hkeep
    | some n =>
      dsimp only
      rw [getD_raise]
      split
      next hraised =>
        obtain ⟨rfl, hgt⟩ := hraised
        refine Or.inr ⟨a, by simp, rfl, hd, ?_⟩
        rcases ih with h0 | ⟨-, -, -, -, hpos⟩
        · rw [h0] at hgt
          exact hgt
        · exact gt_trans hgt hpos
      next => exact hkeep

/-! ### Real numbering gives positions -/

theorem RealPositions.isPosition (h : RealPositions ext leaves) {l : RelaySealLeaf}
    (hl : l ∈ leaves) : IsPosition leaves.length l.s2.sequenceNumber := by
  have hmem := h.numbered.subset (List.mem_map_of_mem hl)
  obtain ⟨i, hi, hseq⟩ := List.mem_map.1 hmem
  exact ⟨i + 1, List.mem_range.1 hi, hseq.symm⟩

theorem isPosition_zero (N : ℕ) : IsPosition N ((0 : ℕ) : JsNumber) := ⟨0, Nat.zero_le N, rfl⟩

theorem acknowledgement_le {N : ℕ} {a : SealAdjudication} (ha : Accepted ext leaves a)
    (hseq : ∀ l ∈ leaves, IsPosition N l.s2.sequenceNumber) {l : RelaySealLeaf} (hl : l ∈ leaves)
    {v w : JsNumber} (hv : decodeSignedLastSeenSeq ext l.structure1Cbor = some v)
    (hw : v.gt w = true) : ∃ q : ℚ, v = .fin q ∧ q ≤ N := by
  obtain ⟨prior, rest, hsplit⟩ := List.append_of_mem hl
  obtain ⟨s1, hchecked⟩ := ha.checked hsplit
  have hs1 : s1.lastSeenSeq = v := by
    rw [decodeSignedLastSeenSeq, hchecked.decoded, Option.map_some] at hv
    exact Option.some.inj hv
  have hcausal := hchecked.causal
  rw [hs1] at hcausal
  obtain ⟨n, hn, hseen⟩ : IsPosition N (effectiveSeen l.s2.senderPubkey prior) := by
    rcases effectiveSeen_value l.s2.senderPubkey prior with h0 | ⟨b, hb, hbseq⟩
    · rw [h0]
      exact isPosition_zero N
    · rw [← hbseq]
      refine hseq b ?_
      rw [hsplit]
      exact List.mem_append_left _ hb
  rw [hseen] at hcausal
  cases v with
  | nan => simp [JsNumber.gt] at hw
  | negInf => cases w <;> simp [JsNumber.gt] at hw
  | posInf => simp [JsNumber.gt] at hcausal
  | fin q =>
    rw [JsNumber.natCast_eq, JsNumber.gt_fin, decide_eq_false_iff_not, not_lt] at hcausal
    exact ⟨q, rfl, hcausal.trans (by exact_mod_cast hn)⟩

theorem frontier_isPosition {a : SealAdjudication} (ha : Accepted ext leaves a)
    (h : RealPositions ext leaves) (key : Bytes) :
    IsPosition leaves.length (((frontiersOf ext leaves).frontier.get key).getD (0 : ℕ)) := by
  rcases frontier_ack ext key leaves with h0 | ⟨l, hl, hkey, hv, hpos⟩
  · rw [h0]
    exact isPosition_zero _
  · obtain ⟨q, hq, hqN⟩ := acknowledgement_le ha (fun b hb => h.isPosition hb) hl hv hpos
    rw [hq] at hv hpos
    have hq0 : 0 < q := by simpa [JsNumber.natCast_eq] using hpos
    obtain ⟨l', hl', hsender, n, hn, hqn⟩ := h.whole l hl q hv hq0
    -- the whole acknowledgement above it is no greater than the frontier itself
    have hbound := frontier_bound ext leaves l' hl' n hn
    rw [hsender, hkey, hq, JsNumber.gt_fin, decide_eq_false_iff_not, not_lt] at hbound
    obtain rfl : q = n := le_antisymm hqn hbound
    exact ⟨n, by exact_mod_cast hqN, hq⟩

theorem lastAuthored_isPosition (h : RealPositions ext leaves) (key : Bytes) :
    IsPosition leaves.length (((frontiersOf ext leaves).lastAuthored.get key).getD (0 : ℕ)) := by
  rcases lastAuthored_value ext key leaves with h0 | ⟨l, hl, hseq⟩
  · rw [h0]
    exact isPosition_zero _
  · rw [← hseq]
    exact h.isPosition hl

theorem IsPosition.max {N : ℕ} {x y : JsNumber} (hx : IsPosition N x) (hy : IsPosition N y) :
    IsPosition N (x.max y) := by
  obtain ⟨m, hm, rfl⟩ := hx
  obtain ⟨n, hn, rfl⟩ := hy
  unfold JsNumber.max
  rw [if_neg (by simp [JsNumber.natCast_eq])]
  split
  · exact ⟨n, hn, rfl⟩
  · exact ⟨m, hm, rfl⟩

theorem countersigned_isPosition {N : ℕ} {ps : List SealLegibilityParticipant}
    (h : ∀ p ∈ ps, IsPosition N (participantReach p)) :
    IsPosition N (countersignedThroughSeq ps) := by
  by_cases hne : ps = []
  · subst hne
    exact isPosition_zero N
  · obtain ⟨p, hp, L, hL, hreach, -⟩ := lowest_natCast ps
      (fun p hp => (h p hp).imp fun k hk => hk.2) hne
    rw [hL, ← hreach]
    exact h p hp

theorem unique_of_numbered (h : RealPositions ext leaves) {k : ℕ} (hk1 : 1 ≤ k)
    (hkN : k ≤ leaves.length) :
    ∃! i : ℕ, ∃ l : RelaySealLeaf, leaves[i]? = some l ∧ l.s2.sequenceNumber = k := by
  have hnodup : (leaves.map fun l => l.s2.sequenceNumber).Nodup := by
    rw [h.numbered.nodup_iff]
    refine List.Nodup.map (fun i j hij => ?_) List.nodup_range
    have := JsNumber.natCast_inj hij
    omega
  have hmem : (k : JsNumber) ∈ leaves.map fun l => l.s2.sequenceNumber := by
    rw [h.numbered.mem_iff, List.mem_map]
    exact ⟨k - 1, List.mem_range.2 (by omega), by rw [Nat.sub_add_cancel hk1]⟩
  obtain ⟨i, hi, hseq⟩ := List.getElem_of_mem hmem
  rw [List.length_map] at hi
  rw [List.getElem_map] at hseq
  refine ⟨i, ⟨leaves[i], List.getElem?_eq_getElem hi, hseq⟩, ?_⟩
  rintro j ⟨l, hj, hjseq⟩
  obtain ⟨hjlt, rfl⟩ := List.getElem?_eq_some_iff.1 hj
  have hi' : i < (leaves.map fun l => l.s2.sequenceNumber).length := by rwa [List.length_map]
  have hj' : j < (leaves.map fun l => l.s2.sequenceNumber).length := by rwa [List.length_map]
  have hat : (leaves.map fun l => l.s2.sequenceNumber)[j] =
      (leaves.map fun l => l.s2.sequenceNumber)[i] := by
    rw [List.getElem_map, List.getElem_map, hseq, hjseq]
  exact hnodup.getElem_inj_iff.1 hat

/-! ### Positions give real numbering -/

theorem numbered_of_unique (h : ∀ k : ℕ, 1 ≤ k → k ≤ leaves.length →
      ∃! i : ℕ, ∃ l : RelaySealLeaf, leaves[i]? = some l ∧ l.s2.sequenceNumber = k) :
    (leaves.map fun l => l.s2.sequenceNumber).Perm
      ((List.range leaves.length).map fun i => ((i + 1 : ℕ) : JsNumber)) := by
  have hnodup : ((List.range leaves.length).map fun i => ((i + 1 : ℕ) : JsNumber)).Nodup := by
    refine List.Nodup.map (fun i j hij => ?_) List.nodup_range
    have := JsNumber.natCast_inj hij
    omega
  have hsub : ((List.range leaves.length).map fun i => ((i + 1 : ℕ) : JsNumber)) ⊆
      leaves.map fun l => l.s2.sequenceNumber := by
    intro x hx
    obtain ⟨i, hi, rfl⟩ := List.mem_map.1 hx
    obtain ⟨j, ⟨l, hl, hseq⟩, -⟩ := h (i + 1) (by omega) (List.mem_range.1 hi)
    rw [← hseq]
    exact List.mem_map_of_mem (List.mem_of_getElem? hl)
  exact ((List.subperm_of_subset hnodup hsub).perm_of_length_le (by simp)).symm

theorem whole_of_frontier {N : ℕ}
    (h : ∀ l ∈ leaves, IsPosition N
      (((frontiersOf ext leaves).frontier.get l.s2.senderPubkey).getD (0 : ℕ))) :
    ∀ l ∈ leaves, ∀ q : ℚ, decodeSignedLastSeenSeq ext l.structure1Cbor = some (.fin q) →
      0 < q → ∃ l' ∈ leaves, l'.s2.senderPubkey = l.s2.senderPubkey ∧
        ∃ n : ℕ, decodeSignedLastSeenSeq ext l'.structure1Cbor = some (n : JsNumber) ∧ q ≤ n := by
  intro l hl q hq hpos
  obtain ⟨n, -, hn⟩ := h l hl
  have hbound := frontier_bound ext leaves l hl q hq
  rw [hn, JsNumber.natCast_eq, JsNumber.gt_fin, decide_eq_false_iff_not, not_lt] at hbound
  rcases frontier_ack ext l.s2.senderPubkey leaves with h0 | ⟨l', hl', hkey, hv, -⟩
  · rw [hn] at h0
    obtain rfl := JsNumber.natCast_inj h0
    exact absurd (hpos.trans_le (by simpa using hbound)) (lt_irrefl 0)
  · rw [hn] at hv
    exact ⟨l', hl', hkey, n, hv, hbound⟩

end Numbers

/-- **When the certified numbers are positions.**  Nothing in `processSeal` ties a sequence number
to its place in the log, so they are exactly if the relay numbered the leaves from `1` on and no
participant's greatest acknowledgement is a fraction. -/
theorem certified_positions_iff (ext : SealExternals) (sessionId relayRoot : Bytes)
    (roster : Option (Bytes × Bytes)) (leaves : List RelaySealLeaf) (a : SealAdjudication)
    (h : adjudicateSeal ext sessionId roster leaves relayRoot = .ok a) :
    CertifiedPositions leaves a ↔ RealPositions ext.toExternals leaves := by
  have ha := adjudicateSeal_ok h
  obtain ⟨legibility, hlegibility, hparticipants, hcountersigned⟩ :=
    buildSealLegibility_some ext.toExternals (fun _ => none) ha.ne_nil
  obtain rfl : a.legibility = legibility := Option.some.inj (ha.legibility.symm.trans hlegibility)
  obtain ⟨m, hm, hfinal⟩ : ∃ m, finalMessageOf leaves = some m ∧ a.legibility.finalMessage = m := by
    have hbuilt := ha.legibility
    rw [buildSealLegibility] at hbuilt
    obtain ⟨m, hm, hrest⟩ := Option.map_eq_some_iff.1 hbuilt
    exact ⟨m, hm, by rw [← hrest]⟩
  have hcount := ha.leafCount
  constructor
  · intro hc
    have hunique := hc.unique
    rw [hcount] at hunique
    refine ⟨numbered_of_unique hunique, whole_of_frontier (N := a.leafCount) ?_⟩
    intro l hl
    -- the author of `l` is a participant, and its frontier is certified
    have hmem := (mem_order_iff ext.toExternals l.s2.senderPubkey leaves).2 ⟨l, hl, rfl⟩
    have hp := hc.frontier
    rw [hparticipants] at hp
    exact hp _ (List.mem_map_of_mem hmem)
  · intro hr
    have hfrontier : ∀ p ∈ a.legibility.participants,
        IsPosition leaves.length p.contentFrontierSeq := by
      intro p hp
      rw [hparticipants] at hp
      obtain ⟨key, -, rfl⟩ := List.mem_map.1 hp
      exact frontier_isPosition ha hr key
    have hauthored : ∀ p ∈ a.legibility.participants, IsPosition leaves.length p.lastAuthoredSeq := by
      intro p hp
      rw [hparticipants] at hp
      obtain ⟨key, -, rfl⟩ := List.mem_map.1 hp
      exact lastAuthored_isPosition hr key
    rw [← hcount] at hfrontier hauthored
    refine ⟨hfrontier, hauthored, ?_, ?_, ?_⟩
    · rw [hcountersigned, ← hparticipants]
      exact countersigned_isPosition fun p hp => (hfrontier p hp).max (hauthored p hp)
    · obtain ⟨l, hl, -, hseq⟩ := finalMessage_leaf hm
      rw [hfinal, ← hseq, hcount]
      exact hr.isPosition hl
    · intro k hk1 hkN
      rw [hcount] at hkN
      exact unique_of_numbered hr hk1 hkN

namespace Sample

/-- The stand-ins of the carried chain, with a checksum for SHA-256. -/
def sealExternals : SealExternals where
  toExternals := Interfaces.Sample.replayExternals.toExternals
  sha256 b := List.replicate 32 b.sum
  decodeSealPayload b := if b.length < 16 then none else some ⟨b.take 16, b.drop 16⟩
  buildSealTbs sid root n t := UInt8.ofNat n :: Interfaces.Sample.sequenceByte t :: (sid ++ root)

/-- A message of sender 1 and the SEAL leaves of both participants, numbered from `n` on.  The second
participant acknowledges the message. -/
def numberedFrom (n : ℕ) : List RelaySealLeaf :=
  let signed := Interfaces.Sample.sid ++ List.replicate 32 5
  let c := ((2 : UInt8) :: signed).sum
  (Interfaces.Sample.replayChain n [] [] [(.msg, [1, 5, 0, 9, 1]), (.ctrl, [1, c, 0, 5, 2]),
    (.ctrl, [2, c, UInt8.ofNat n, 9, 3])]).mapIdx fun i l =>
      if 1 ≤ i then { l with contentBytes := some signed } else l

def relayRoot (n : ℕ) : Bytes :=
  sealExternals.merkleRoot ((numberedFrom n).map (treeLeaf sealExternals.toExternals))

/-- What is certified. -/
def certified (n : ℕ) : SealAdjudication where
  contentRoot := sealExternals.merkleRoot ((numberedFrom n).map fun l => l.s2.contentHash)
  leafCount := 3
  legibility :=
    { participants :=
        [⟨Interfaces.Sample.key 1, (0 : ℕ), (n + 1 : ℕ), .live⟩,
          ⟨Interfaces.Sample.key 2, (n : ℕ), (n + 2 : ℕ), .live⟩]
      finalMessage := ⟨Interfaces.Sample.key 1, (n : ℕ), false⟩
      countersignedThroughSeq := (n + 1 : ℕ) }
  participantA := Interfaces.Sample.key 1
  participantB := Interfaces.Sample.key 2
  initiator := Interfaces.Sample.key 1

theorem accepted_from_one : adjudicateSeal sealExternals Interfaces.Sample.sid
    (some (Interfaces.Sample.key 1, Interfaces.Sample.key 2)) (numberedFrom 1) (relayRoot 1) =
      .ok (certified 1) := by
  decide +kernel

theorem accepted_from_five : adjudicateSeal sealExternals Interfaces.Sample.sid
    (some (Interfaces.Sample.key 1, Interfaces.Sample.key 2)) (numberedFrom 5) (relayRoot 5) =
      .ok (certified 5) := by
  decide +kernel

end Sample

theorem certified_positions_from_one :
    CertifiedPositions (Sample.numberedFrom 1) (Sample.certified 1) := by
  refine (certified_positions_iff Sample.sealExternals _ _ _ _ _ Sample.accepted_from_one).2
    ⟨by decide, ?_⟩
  intro l hl q hq hpos
  have hwhole : ∀ l ∈ Sample.numberedFrom 1, decodeSignedLastSeenSeq
      Sample.sealExternals.toExternals l.structure1Cbor = some ((0 : ℕ) : JsNumber) ∨
      decodeSignedLastSeenSeq Sample.sealExternals.toExternals l.structure1Cbor =
        some ((1 : ℕ) : JsNumber) := by
    decide
  rcases hwhole l hl with h | h
  · rw [h] at hq
    cases hq
    simp at hpos
  · refine ⟨l, hl, rfl, 1, h, ?_⟩
    rw [h] at hq
    cases hq
    rfl

/-- A relay that counts from five has a certificate over three leaves that names leaf 7. -/
theorem certified_positions_from_five :
    adjudicateSeal Sample.sealExternals Interfaces.Sample.sid
        (some (Interfaces.Sample.key 1, Interfaces.Sample.key 2)) (Sample.numberedFrom 5)
        (Sample.relayRoot 5) = .ok (Sample.certified 5) ∧
      ¬CertifiedPositions (Sample.numberedFrom 5) (Sample.certified 5) := by
  refine ⟨Sample.accepted_from_five, fun h => ?_⟩
  obtain ⟨k, hk, hseq⟩ := h.final
  have hfive : k = 5 := (JsNumber.natCast_inj hseq).symm
  rw [hfive] at hk
  exact absurd hk (by decide)

end Cello.Directory.Seal
