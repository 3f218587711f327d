import Cello.Interfaces.SealChainAccepts

/-!
# Leaves a participant carries

The other half of `packages/interfaces/src/seal-chain-verify.ts`: a participant hands over the
leaves of a conversation, `reconstructCarriedSealLeaves` reads them and checks the receipts on the
participant's own ones, and `verifySessionTipAttestation` compares their content with the tip the
counterparty signed.

`replay_covers_attested_iff` puts the three verifiers together.  What is checked of a number off
the wire is that it is not above a bound; a signed `last_seen_seq` of `NaN` is above none.
-/

namespace Cello.Interfaces

open Lib

/-- What the checks on carried leaves use beyond the chain verifier. -/
structure ReplayExternals extends Externals where
  /-- The bytes a relay signs in an acknowledgement: content hash, position, time. -/
  buildRelayAckTbs : Bytes → JsNumber → JsNumber → Bytes
  /-- `encodeCbor` of an array of a text, bytes, a number and bytes. -/
  encodeCbor : String → Bytes → JsNumber → Bytes → Bytes

/-- `SealUnilateralLeaf`. -/
structure SealUnilateralLeaf where
  sequenceNumber : JsNumber
  leafKind : JsNumber
  structure2Cbor : Bytes
  structure1Cbor : Bytes
  relayId : Option String := none
  relayTimestamp : Option JsNumber := none
  relaySignature : Option Bytes := none
  contentBytes : Option Bytes := none
deriving DecidableEq, Repr

inductive CarriedReason where
  | leavesUnavailable
  | leafMalformed
  | leafSeqMismatch
  | chainNoncontiguous
  | ownLeafUnwitnessed
  | receiptBadRelayId
  | receiptWrongRelay
  | receiptInvalid
  | leafKindUnknown
deriving DecidableEq, Repr

namespace CarriedReason

def code : CarriedReason → String
  | leavesUnavailable => "unilateral_leaves_unavailable"
  | leafMalformed => "unilateral_leaf_malformed"
  | leafSeqMismatch => "unilateral_leaf_seq_mismatch"
  | chainNoncontiguous => "unilateral_chain_noncontiguous"
  | ownLeafUnwitnessed => "unilateral_own_leaf_unwitnessed"
  | receiptBadRelayId => "unilateral_receipt_bad_relay_id"
  | receiptWrongRelay => "unilateral_receipt_wrong_relay"
  | receiptInvalid => "unilateral_receipt_invalid"
  | leafKindUnknown => "unilateral_leaf_kind_unknown"

end CarriedReason

/-! ### Reading a carried leaf -/

/-- `LEAF_KINDS`. -/
def leafKinds (n : JsNumber) : Option LeafKind :=
  if n = .fin 0 then some .msg
  else if n = .fin 2 then some .ctrl
  else if n = .fin 4 then some .doc
  else if n = .fin 5 then some .reject
  else none

def carriedSequenceNumber : Cbor → JsNumber
  | .num n => n
  | .bigint n => JsNumber.ofBigint n
  | _ => .nan

/-- `[sequence_number, sender_pubkey, content_hash, sender_signature, scan_result, prev_root]`; the scan
result is not read. -/
def carriedStructure2 : Cbor → Option Structure2
  | .arr [seq, pk, ch, sig, _, prev] =>
    if !(carriedSequenceNumber seq).isInteger then none
    else do
      let senderPubkey ← bytesOfLength 32 pk
      let contentHash ← bytesOfLength 32 ch
      let senderSignature ← bytesOfLength 64 sig
      let prevRoot ← bytesOfLength 32 prev
      return { sequenceNumber := carriedSequenceNumber seq, senderPubkey, contentHash,
               senderSignature, prevRoot }
  | _ => none

/-- The receipt on a leaf of the participant who carries it. -/
def checkReceipt (ext : ReplayExternals) (receiptRelay : Option String) (w : SealUnilateralLeaf)
    (s2 : Structure2) : Except CarriedReason Unit :=
  match w.relayId, w.relayTimestamp, w.relaySignature with
  | some id, some ts, some signature =>
    if id = "" then .error .ownLeafUnwitnessed
    else if !Bytes.isHex64 id then .error .receiptBadRelayId
    else if receiptRelay.any fun r => decide (id.toLower ≠ r.toLower) then .error .receiptWrongRelay
    else if !ext.verify (Bytes.ofHex id) (ext.buildRelayAckTbs s2.contentHash s2.sequenceNumber ts) signature
      then .error .receiptInvalid
    else .ok ()
  | _, _, _ => .error .ownLeafUnwitnessed

/-- One round of the loop, for the leaf at index `i`. -/
def carriedLeaf (ext : ReplayExternals) (present : Bytes) (receiptRelay : Option String) (i : ℕ)
    (w : SealUnilateralLeaf) : Except CarriedReason RelaySealLeaf :=
  match (ext.cborDecode w.structure2Cbor).bind carriedStructure2 with
  | none => .error .leafMalformed
  | some s2 =>
    if s2.sequenceNumber ≠ w.sequenceNumber then .error .leafSeqMismatch
    else if s2.sequenceNumber ≠ ((i + 1 : ℕ) : JsNumber) then .error .chainNoncontiguous
    else
      match if s2.senderPubkey = present then checkReceipt ext receiptRelay w s2 else .ok () with
      | .error e => .error e
      | .ok () =>
        match leafKinds w.leafKind with
        | none => .error .leafKindUnknown
        | some kind => .ok { kind := kind, s2 := s2, structure1Cbor := w.structure1Cbor
                             contentBytes := w.contentBytes }

def carriedLoop (ext : ReplayExternals) (present : Bytes) (receiptRelay : Option String) :
    ℕ → List SealUnilateralLeaf → Except CarriedReason (List RelaySealLeaf)
  | _, [] => .ok []
  | i, w :: rest =>
    match carriedLeaf ext present receiptRelay i w with
    | .error e => .error e
    | .ok leaf =>
      match carriedLoop ext present receiptRelay (i + 1) rest with
      | .error e => .error e
      | .ok leaves => .ok (leaf :: leaves)

/-- The leaves `present` carries.  `receiptRelay` is the relay whose receipts count, if the caller
names one. -/
def reconstructCarriedSealLeaves (ext : ReplayExternals) (sealLeaves : List SealUnilateralLeaf)
    (present : Bytes) (receiptRelay : Option String) : Except CarriedReason (List RelaySealLeaf) :=
  if sealLeaves = [] then .error .leavesUnavailable
  else carriedLoop ext present receiptRelay 0 sealLeaves

/-! ### The counterparty's tip -/

structure SessionTipAttestation where
  pubkey : Bytes
  lastSeq : JsNumber
  root : Bytes
  signature : Bytes
deriving DecidableEq, Repr

inductive TipReason where
  | absent
  | malformed
  | wrongParty
  | invalid
  | unsupplied
  | diverged
deriving DecidableEq, Repr

namespace TipReason

def code : TipReason → String
  | absent => "replay_tip_attestation_absent"
  | malformed => "replay_tip_attestation_malformed"
  | wrongParty => "replay_tip_attestation_wrong_party"
  | invalid => "replay_tip_attestation_invalid"
  | unsupplied => "replay_tip_unsupplied"
  | diverged => "replay_chain_diverged"

end TipReason

/-- `SESSION_TIP_DOMAIN`. -/
def sessionTipDomain : String := "cello-session-tip-v1"

def buildSessionTipTbs (ext : ReplayExternals) (sessionId : Bytes) (lastSeq : JsNumber) (root : Bytes) :
    Bytes :=
  ext.encodeCbor sessionTipDomain sessionId lastSeq root

def contentRootOverPrefix (ext : ReplayExternals) (leaves : List RelaySealLeaf) (count : ℕ) : Bytes :=
  ext.merkleRoot ((leaves.take count).map fun l => l.s2.contentHash)

def tipPosition : JsNumber → Option ℕ
  | .fin q => if q.den = 1 ∧ 1 ≤ q.num then some q.num.toNat else none
  | _ => none

/-- How far the tip covers the leaves, or why it is refused. -/
def verifySessionTipAttestation (ext : ReplayExternals) (attestation : Option SessionTipAttestation)
    (leaves : List RelaySealLeaf) (sessionId expectedAttestor : Bytes) : Except TipReason ℕ :=
  match attestation with
  | none => .error .absent
  | some tip =>
    match tipPosition tip.lastSeq with
    | none => .error .malformed
    | some lastSeq =>
      if tip.pubkey.length ≠ 32 ∨ tip.root.length ≠ 32 ∨ tip.signature.length ≠ 64 then
        .error .malformed
      else if tip.pubkey ≠ expectedAttestor then .error .wrongParty
      else if !ext.verify tip.pubkey (buildSessionTipTbs ext sessionId tip.lastSeq tip.root)
          tip.signature then .error .invalid
      else if leaves.length < lastSeq then .error .unsupplied
      else if contentRootOverPrefix ext leaves lastSeq ≠ tip.root then .error .diverged
      else .ok lastSeq

/-! ### What the checks establish -/

section

variable {ext : ReplayExternals} {present : Bytes} {receiptRelay : Option String}

/-- What is known of a carried leaf that was read as `leaf` at index `i`. -/
structure Carried (ext : ReplayExternals) (present : Bytes) (receiptRelay : Option String) (i : ℕ)
    (w : SealUnilateralLeaf) (leaf : RelaySealLeaf) : Prop where
  decoded : (ext.cborDecode w.structure2Cbor).bind carriedStructure2 = some leaf.s2
  numbered : leaf.s2.sequenceNumber = ((i + 1 : ℕ) : JsNumber)
  kind : leafKinds w.leafKind = some leaf.kind
  structure1 : leaf.structure1Cbor = w.structure1Cbor
  receipt : leaf.s2.senderPubkey = present → checkReceipt ext receiptRelay w leaf.s2 = .ok ()

theorem carriedLeaf_ok {i : ℕ} {w : SealUnilateralLeaf} {leaf : RelaySealLeaf}
    (h : carriedLeaf ext present receiptRelay i w = .ok leaf) :
    Carried ext present receiptRelay i w leaf := by
  rw [carriedLeaf] at h
  cases hd : (ext.cborDecode w.structure2Cbor).bind carriedStructure2 with
  | none => simp [hd] at h
  | some s2 =>
    simp only [hd] at h
    split at h
    · simp at h
    split at h
    · simp at h
    rename_i hnum
    cases hr : (if s2.senderPubkey = present then checkReceipt ext receiptRelay w s2 else .ok ()) with
    | error e => simp [hr] at h
    | ok u =>
      simp only [hr] at h
      cases hk : leafKinds w.leafKind with
      | none => simp [hk] at h
      | some kind =>
        simp only [hk] at h
        obtain rfl := Except.ok.inj h
        refine ⟨hd, not_not.1 hnum, hk, rfl, fun hp => ?_⟩
        rw [if_pos hp] at hr
        exact hr

/-- **No leaf is skipped.** -/
theorem carriedLoop_ok : ∀ {wire : List SealUnilateralLeaf} {start : ℕ} {leaves : List RelaySealLeaf},
    carriedLoop ext present receiptRelay start wire = .ok leaves →
    leaves.length = wire.length ∧ ∀ i leaf, leaves[i]? = some leaf →
      ∃ w, wire[i]? = some w ∧ Carried ext present receiptRelay (start + i) w leaf := by
  intro wire
  induction wire with
  | nil =>
    intro start leaves h
    obtain rfl := Except.ok.inj h
    exact ⟨rfl, fun i leaf hi => by simp at hi⟩
  | cons w rest ih =>
    intro start leaves h
    rw [carriedLoop] at h
    cases hl : carriedLeaf ext present receiptRelay start w with
    | error e => simp [hl] at h
    | ok leaf =>
      simp only [hl] at h
      cases hr : carriedLoop ext present receiptRelay (start + 1) rest with
      | error e => simp [hr] at h
      | ok leaves' =>
        simp only [hr] at h
        obtain rfl := Except.ok.inj h
        obtain ⟨hlen, hall⟩ := ih hr
        refine ⟨by rw [List.length_cons, List.length_cons, hlen], fun i leaf' hi => ?_⟩
        cases i with
        | zero =>
          obtain rfl := Option.some.inj hi
          exact ⟨w, rfl, carriedLeaf_ok hl⟩
        | succ i =>
          obtain ⟨w', hw', hc⟩ := hall i leaf' hi
          rw [Nat.add_assoc, Nat.add_comm 1 i] at hc
          exact ⟨w', hw', hc⟩

theorem reconstruct_ok {wire : List SealUnilateralLeaf} {leaves : List RelaySealLeaf}
    (h : reconstructCarriedSealLeaves ext wire present receiptRelay = .ok leaves) :
    leaves.length = wire.length ∧ ∀ i leaf, leaves[i]? = some leaf →
      ∃ w, wire[i]? = some w ∧ Carried ext present receiptRelay i w leaf := by
  rw [reconstructCarriedSealLeaves] at h
  split at h
  · simp at h
  · obtain ⟨hlen, hall⟩ := carriedLoop_ok h
    refine ⟨hlen, fun i leaf hi => ?_⟩
    obtain ⟨w, hw, hc⟩ := hall i leaf hi
    rw [Nat.zero_add] at hc
    exact ⟨w, hw, hc⟩

def ReceiptBy (ext : ReplayExternals) (relay : String) (w : SealUnilateralLeaf) (contentHash : Bytes)
    (position : ℕ) : Prop :=
  ∃ ts signature, w.relayTimestamp = some ts ∧ w.relaySignature = some signature ∧
    ext.verify (Bytes.ofHex relay) (ext.buildRelayAckTbs contentHash (position : JsNumber) ts)
      signature = true

theorem checkReceipt_ok {relay : String} {w : SealUnilateralLeaf} {s2 : Structure2} {n : ℕ}
    (h : checkReceipt ext (some relay) w s2 = .ok ()) (hn : s2.sequenceNumber = (n : JsNumber)) :
    ReceiptBy ext relay w s2.contentHash n := by
  rw [checkReceipt] at h
  split at h
  · rename_i id ts signature hid hts hsig
    split at h
    · simp at h
    split at h
    · simp at h
    split at h
    · simp at h
    rename_i hrelay
    split at h
    · simp at h
    rename_i hver
    refine ⟨ts, signature, hts, hsig, ?_⟩
    have hsame : id.toLower = relay.toLower := by simpa using hrelay
    rw [hn] at hver
    rw [Bytes.ofHex, ← hsame]
    simpa [Bytes.ofHex] using hver
  · simp at h

theorem tipPosition_eq {x : JsNumber} {n : ℕ} (h : tipPosition x = some n) :
    x = (n : JsNumber) ∧ 1 ≤ n := by
  cases x with
  | fin q =>
    rw [tipPosition] at h
    split at h
    · rename_i hq
      obtain rfl := Option.some.inj h
      refine ⟨?_, by omega⟩
      rw [JsNumber.natCast_eq]
      congr 1
      rw [← Rat.coe_int_num_of_den_eq_one hq.1]
      have := Int.toNat_of_nonneg (show 0 ≤ q.num by omega)
      exact_mod_cast this.symm
    · cases h
  | nan => cases h
  | negInf => cases h
  | posInf => cases h

/-- What is known of an accepted tip. -/
structure TipHolds (ext : ReplayExternals) (tip : SessionTipAttestation) (leaves : List RelaySealLeaf)
    (sid attestor : Bytes) (covers : ℕ) : Prop where
  lastSeq : tip.lastSeq = (covers : JsNumber)
  positive : 1 ≤ covers
  pubkey : tip.pubkey = attestor
  verified : ext.verify attestor (buildSessionTipTbs ext sid tip.lastSeq tip.root) tip.signature = true
  supplied : covers ≤ leaves.length
  root : contentRootOverPrefix ext leaves covers = tip.root

theorem verifySessionTip_ok {tip : SessionTipAttestation} {leaves : List RelaySealLeaf}
    {sid attestor : Bytes} {covers : ℕ}
    (h : verifySessionTipAttestation ext (some tip) leaves sid attestor = .ok covers) :
    TipHolds ext tip leaves sid attestor covers := by
  simp only [verifySessionTipAttestation] at h
  cases hp : tipPosition tip.lastSeq with
  | none => simp [hp] at h
  | some n =>
    simp only [hp] at h
    split at h
    · simp at h
    split at h
    · simp at h
    rename_i hkey
    split at h
    · simp at h
    rename_i hver
    split at h
    · simp at h
    rename_i hlen
    split at h
    · simp at h
    rename_i hroot
    obtain rfl := Except.ok.inj h
    obtain ⟨hseq, hpos⟩ := tipPosition_eq hp
    have hkey' : tip.pubkey = attestor := not_not.1 hkey
    rw [Bool.not_eq_true', Bool.not_eq_false] at hver
    exact ⟨hseq, hpos, hkey', hkey' ▸ hver, not_lt.1 hlen, not_not.1 hroot⟩

end

/-! ### The three verifiers together -/

/-- No two of the pairs that are hashed for the roots over `a` and `b` have the same hash. -/
def CollisionFree (ext : Externals) (a b : List Bytes) : Prop :=
  Set.InjOn (fun p : Bytes × Bytes => ext.nodeHash p.1 p.2)
    {p | p ∈ TreeHead.pairs ext.nodeHash [] a ∨ p ∈ TreeHead.pairs ext.nodeHash [] b}

def WithinCounterparty (prior : List RelaySealLeaf) (sender : Bytes) (seen : JsNumber) : Prop :=
  ((0 : ℕ) : JsNumber).ge seen = true ∨ ∃ j other, prior[j]? = some other ∧
    other.s2.senderPubkey ≠ sender ∧ ((j + 1 : ℕ) : JsNumber).ge seen = true

/-- **What a replayed batch is to guarantee**: `present` carries the leaves, `attestor` signed the tip. -/
structure ReplayCovered (ext : ReplayExternals) (wire : List SealUnilateralLeaf)
    (leaves : List RelaySealLeaf) (sid present attestor : Bytes) (relay : String)
    (tip : SessionTipAttestation) : Prop where
  /-- The batch reaches the tip, which the attestor signed, and has the content the tip was taken over. -/
  attested : ∃ lastSeq : ℕ, tip.lastSeq = (lastSeq : JsNumber) ∧ lastSeq ≤ leaves.length ∧
    ext.verify attestor (buildSessionTipTbs ext sid tip.lastSeq tip.root) tip.signature = true ∧
    ∀ contents : List Bytes, contents.length = lastSeq →
      TreeHead.treeHead ext.nodeHash [] contents = tip.root →
      CollisionFree ext.toExternals ((leaves.take lastSeq).map fun l => l.s2.contentHash) contents →
      (leaves.take lastSeq).map (fun l => l.s2.contentHash) = contents
  receipts : ∀ i leaf, leaves[i]? = some leaf → leaf.s2.senderPubkey = present →
    ∃ w, wire[i]? = some w ∧ ReceiptBy ext relay w leaf.s2.contentHash (i + 1)
  signed : ∀ leaf ∈ leaves,
    (leaf.s2.senderPubkey = present ∨ leaf.s2.senderPubkey = attestor) ∧
    ext.verify leaf.s2.senderPubkey leaf.structure1Cbor leaf.s2.senderSignature = true ∧
    ∃ s1, decodeStructure1Fields ext.toExternals leaf.structure1Cbor = some s1 ∧ s1.sessionId = sid ∧
      s1.contentHash = leaf.s2.contentHash
  causal : ∀ i leaf s1, leaves[i]? = some leaf →
    decodeStructure1Fields ext.toExternals leaf.structure1Cbor = some s1 →
    WithinCounterparty (leaves.take i) leaf.s2.senderPubkey s1.lastSeenSeq

section

variable {ext : ReplayExternals} {wire : List SealUnilateralLeaf} {leaves : List RelaySealLeaf}
  {present attestor sid reported root : Bytes} {relay : String}

theorem numbered_of_reconstruct {receiptRelay : Option String}
    (h : reconstructCarriedSealLeaves ext wire present receiptRelay = .ok leaves) : Numbered leaves := by
  intro i leaf hi
  obtain ⟨w, -, hc⟩ := (reconstruct_ok h).2 i leaf hi
  exact hc.numbered

theorem gt_effectiveSeen_iff {prior : List RelaySealLeaf} (hnum : Numbered prior) (sender : Bytes)
    {seen : JsNumber} (hgt : seen.gt (effectiveSeen sender prior) = false) :
    WithinCounterparty prior sender seen ↔ seen ≠ .nan := by
  obtain ⟨m, -, hm, hiff⟩ := effectiveSeen_eq sender hnum
  rw [hm] at hgt
  constructor
  · rintro (h | ⟨j, other, -, -, h⟩)
    · exact (JsNumber.natCast_ge_iff.1 h).1
    · exact (JsNumber.natCast_ge_iff.1 h).1
  · intro hnan
    have hge : ((m : ℕ) : JsNumber).ge seen = true := JsNumber.natCast_ge_iff.2 ⟨hnan, hgt⟩
    rcases Nat.eq_zero_or_pos m with rfl | hpos
    · exact Or.inl hge
    · rcases (hiff m).1 le_rfl with h | ⟨j, other, hj, hne, hle⟩
      · omega
      · refine Or.inr ⟨j, other, hj, hne, ?_⟩
        -- the highest position is the bound itself
        have hup : j + 1 ≤ m := (hiff (j + 1)).2 (Or.inr ⟨j, other, hj, hne, le_rfl⟩)
        obtain rfl : m = j + 1 := by omega
        exact hge

theorem follows_of_ok {roster : Bytes × Bytes}
    (h : verifySealLeafChain ext.toExternals leaves reported sid roster = .ok root) {i : ℕ}
    {leaf : RelaySealLeaf} (hi : leaves[i]? = some leaf) :
    ∃ s1, Follows ext.toExternals (startOf leaves) (leaves.take i) leaf s1 := by
  obtain ⟨-, -, hfollows, -⟩ := verifySealLeafChain_ok_iff.1 h
  obtain ⟨hlt, hget⟩ := List.getElem?_eq_some_iff.1 hi
  refine hfollows _ leaf (leaves.drop (i + 1)) ?_
  rw [← hget, List.getElem_cons_drop, List.take_append_drop]

theorem signed_of_ok {roster : Bytes × Bytes}
    (h : verifySealLeafChain ext.toExternals leaves reported sid roster = .ok root)
    (hroster : roster = (present, attestor) ∨ roster = (attestor, present)) :
    ∀ leaf ∈ leaves, (leaf.s2.senderPubkey = present ∨ leaf.s2.senderPubkey = attestor) ∧
      ext.verify leaf.s2.senderPubkey leaf.structure1Cbor leaf.s2.senderSignature = true ∧
      ∃ s1, decodeStructure1Fields ext.toExternals leaf.structure1Cbor = some s1 ∧
        s1.sessionId = sid ∧ s1.contentHash = leaf.s2.contentHash := by
  intro leaf hl
  obtain ⟨-, -, -, hbelongs⟩ := verifySealLeafChain_ok_iff.1 h
  obtain ⟨hkey, ch, hsigned⟩ := hbelongs leaf hl
  obtain ⟨i, hi⟩ := List.mem_iff_getElem?.1 hl
  obtain ⟨s1, hf⟩ := follows_of_ok h hi
  refine ⟨?_, hf.verified, s1, hf.decoded, ?_, hf.content⟩
  · rcases hroster with rfl | rfl
    · exact hkey.imp Eq.symm Eq.symm
    · exact (hkey.imp Eq.symm Eq.symm).symm
  · rw [decodeStructure1Signed, hf.decoded, Option.map_some] at hsigned
    exact (Prod.mk.inj (Option.some.inj hsigned)).2

theorem attested_of_ok (hroot : ComputesTreeHead ext.toExternals) {tip : SessionTipAttestation}
    {covers : ℕ} (ht : TipHolds ext tip leaves sid attestor covers) {contents : List Bytes}
    (hlen : contents.length = covers)
    (hhead : TreeHead.treeHead ext.nodeHash [] contents = tip.root)
    (hfree : CollisionFree ext.toExternals ((leaves.take covers).map fun l => l.s2.contentHash)
      contents) : (leaves.take covers).map (fun l => l.s2.contentHash) = contents := by
  have hcount : ((leaves.take covers).map fun l => l.s2.contentHash).length = contents.length := by
    rw [List.length_map, List.length_take, hlen, Nat.min_eq_left ht.supplied]
  refine TreeHead.treeHead_inj hcount hfree ?_
  rw [hhead, ← ht.root, contentRootOverPrefix, hroot]
  intro hnil
  have hpos := ht.positive
  rw [hnil] at hcount
  simp at hcount
  omega

end

/-- **Replay cannot cut or rewrite what the counterparty attests, up to `NaN`.**  A batch the three
verifiers accept in sequence guarantees all of `ReplayCovered` exactly when no leaf's signed
`last_seen_seq` is `NaN`. -/
theorem replay_covers_attested_iff (ext : ReplayExternals) (hroot : ComputesTreeHead ext.toExternals)
    (wire : List SealUnilateralLeaf) (leaves : List RelaySealLeaf)
    (sid present attestor reported root : Bytes) (relay : String) (roster : Bytes × Bytes)
    (hroster : roster = (present, attestor) ∨ roster = (attestor, present))
    (tip : SessionTipAttestation) (covers : ℕ)
    (hcarried : reconstructCarriedSealLeaves ext wire present (some relay) = .ok leaves)
    (hchain : verifySealLeafChain ext.toExternals leaves reported sid roster = .ok root)
    (htip : verifySessionTipAttestation ext (some tip) leaves sid attestor = .ok covers) :
    ReplayCovered ext wire leaves sid present attestor relay tip ↔
      ∀ leaf ∈ leaves, ∀ s1, decodeStructure1Fields ext.toExternals leaf.structure1Cbor = some s1 →
        s1.lastSeenSeq ≠ .nan := by
  have ht := verifySessionTip_ok htip
  have hnum := numbered_of_reconstruct hcarried
  have hcausal : ∀ i leaf s1, leaves[i]? = some leaf →
      decodeStructure1Fields ext.toExternals leaf.structure1Cbor = some s1 →
      (WithinCounterparty (leaves.take i) leaf.s2.senderPubkey s1.lastSeenSeq ↔
        s1.lastSeenSeq ≠ .nan) := by
    intro i leaf s1 hi hdec
    obtain ⟨s1', hf⟩ := follows_of_ok hchain hi
    obtain rfl := Option.some.inj (hf.decoded.symm.trans hdec)
    exact gt_effectiveSeen_iff (hnum.take i) leaf.s2.senderPubkey hf.causal
  constructor
  · intro h leaf hl s1 hdec
    obtain ⟨i, hi⟩ := List.mem_iff_getElem?.1 hl
    exact (hcausal i leaf s1 hi hdec).1 (h.causal i leaf s1 hi hdec)
  · intro hnan
    refine ⟨⟨covers, ht.lastSeq, ht.supplied, ht.verified, ?_⟩, ?_, signed_of_ok hchain hroster, ?_⟩
    · intro contents hlen hhead hfree
      exact attested_of_ok hroot ht hlen hhead hfree
    · intro i leaf hi hown
      obtain ⟨w, hw, hc⟩ := (reconstruct_ok hcarried).2 i leaf hi
      exact ⟨w, hw, checkReceipt_ok (hc.receipt hown) hc.numbered⟩
    · intro i leaf s1 hi hdec
      exact (hcausal i leaf s1 hi hdec).2 (hnan leaf (List.mem_of_getElem? hi) s1 hdec)

/-! ### Two batches -/

namespace Sample

/-- A stand-in for a hash, of 32 bytes. -/
def digest (b : Bytes) : Bytes := b.foldl (fun acc x => acc * 7 + x) 1 :: List.replicate 31 0

def digestSignature (k m : Bytes) : Bytes := k ++ digest m

def sequenceByte : JsNumber → UInt8
  | .fin q => UInt8.ofNat q.num.toNat
  | _ => 0

/-- A `last_seen_seq` coded as 255 is a `NaN`; an envelope is coded in 162 bytes. -/
def replayDecode (b : Bytes) : Option Cbor :=
  if b.length = 162 then
    some (.arr [.num ((b.getD 1 0).toNat : ℕ), .bytes ((b.drop 2).take 32),
      .bytes ((b.drop 34).take 32), .bytes ((b.drop 66).take 64), .other, .bytes (b.drop 130)])
  else
    match b with
    | [s, c, 255, link, t] => some (.arr [.num (3 : ℕ), .bytes (List.replicate 32 c),
        .bytes (List.replicate 32 s), .bytes (List.replicate 16 7), .num .nan,
        .num (t.toNat : ℕ), .bytes (List.replicate 32 0), .bytes (List.replicate 32 link)])
    | b => decode b

def replayExternals : ReplayExternals where
  verify k m signature := decide (signature = digestSignature k m)
  cborDecode := replayDecode
  merkleRoot := TreeHead.treeHead (fun l r => digest (1 :: (l ++ r))) []
  leafHash k b := digest (kindByte k :: b)
  nodeHash l r := digest (1 :: (l ++ r))
  encodeStructure2 s := 2 :: sequenceByte s.sequenceNumber ::
    (s.senderPubkey ++ s.contentHash ++ s.senderSignature ++ s.prevRoot)
  buildRelayAckTbs ch seq ts := sequenceByte seq :: sequenceByte ts :: ch
  encodeCbor domain sid lastSeq root := UInt8.ofNat domain.length :: sequenceByte lastSeq :: (sid ++ root)

/-- The id of the relay with key 9. -/
def relay : String := String.ofList (List.replicate 32 ['0', '9']).flatten

/-- The envelopes of signed leaves that arrive in this order. -/
def replayChain : ℕ → Stack → Bytes → List (LeafKind × Bytes) → List RelaySealLeaf
  | _, _, _, [] => []
  | n, stack, running, (kind, b) :: rest =>
    let s2 : Structure2 :=
      { sequenceNumber := (n : ℕ), senderPubkey := key (b.headD 0)
        contentHash := List.replicate 32 (b.getD 1 0)
        senderSignature := digestSignature (key (b.headD 0)) b, prevRoot := running }
    let node := replayExternals.leafHash kind (replayExternals.encodeStructure2 s2)
    let stack' := pushNode replayExternals.nodeHash node 0 stack
    { kind := kind, s2 := s2, structure1Cbor := b } ::
      replayChain (n + 1) stack' (stackRoot replayExternals.nodeHash node stack') rest

/-- A leaf as a participant carries it, with the receipt of the relay. -/
def carry (l : RelaySealLeaf) : SealUnilateralLeaf where
  sequenceNumber := l.s2.sequenceNumber
  leafKind := ((kindByte l.kind).toNat : ℕ)
  structure2Cbor := replayExternals.encodeStructure2 l.s2
  structure1Cbor := l.structure1Cbor
  relayId := some relay
  relayTimestamp := some (1 : ℕ)
  relaySignature := some (digestSignature (key 9)
    (replayExternals.buildRelayAckTbs l.s2.contentHash l.s2.sequenceNumber (1 : ℕ)))

def contentRoot (leaves : List RelaySealLeaf) : Bytes :=
  replayExternals.merkleRoot (leaves.map fun l => l.s2.contentHash)

/-- The tip sender 2 signs over these leaves. -/
def tipOver (leaves : List RelaySealLeaf) : SessionTipAttestation where
  pubkey := key 2
  lastSeq := (leaves.length : ℕ)
  root := contentRoot leaves
  signature := digestSignature (key 2)
    (buildSessionTipTbs replayExternals sid (leaves.length : ℕ) (contentRoot leaves))

/-- Sender 1 speaks and sender 2 answers. -/
def exchange : List RelaySealLeaf :=
  replayChain 1 [] (List.replicate 32 0) [(.msg, [1, 5, 0, 0, 1]), (.msg, [2, 6, 1, 0, 2])]

/-- The same, with `NaN` for what sender 1 has seen. -/
def exchangeNaN : List RelaySealLeaf :=
  replayChain 1 [] (List.replicate 32 0) [(.msg, [1, 5, 255, 0, 1]), (.msg, [2, 6, 1, 0, 2])]

end Sample

open Sample (replayExternals) in
/-- The batch of an exchange of two messages. -/
theorem replay_covers_exchange :
    ReplayCovered replayExternals (Sample.exchange.map Sample.carry) Sample.exchange Sample.sid
      (Sample.key 1) (Sample.key 2) Sample.relay (Sample.tipOver Sample.exchange) :=
  (replay_covers_attested_iff replayExternals (fun _ _ => rfl) (Sample.exchange.map Sample.carry)
    Sample.exchange Sample.sid (Sample.key 1) (Sample.key 2) (Sample.contentRoot Sample.exchange)
    (Sample.contentRoot Sample.exchange) Sample.relay (Sample.key 1, Sample.key 2) (Or.inl rfl)
    (Sample.tipOver Sample.exchange) 2 (by decide +kernel) (by decide +kernel) (by decide +kernel)).2 (by
      intro leaf hl s1 hdec
      have hseen : ∀ l ∈ Sample.exchange,
          (decodeStructure1Fields replayExternals.toExternals l.structure1Cbor).map
            Structure1Fields.lastSeenSeq ≠ some .nan := by decide
      intro hnan
      exact hseen leaf hl (by rw [hdec, Option.map_some, hnan]))

open Sample (replayExternals) in
/-- **A leaf that acknowledges `NaN` passes all three verifiers**, and `NaN` is at most no position. -/
theorem replay_admits_nan :
    reconstructCarriedSealLeaves replayExternals (Sample.exchangeNaN.map Sample.carry) (Sample.key 1)
        (some Sample.relay) = .ok Sample.exchangeNaN ∧
      verifySealLeafChain replayExternals.toExternals Sample.exchangeNaN
        (Sample.contentRoot Sample.exchangeNaN) Sample.sid (Sample.key 1, Sample.key 2) =
          .ok (Sample.contentRoot Sample.exchangeNaN) ∧
      verifySessionTipAttestation replayExternals (some (Sample.tipOver Sample.exchangeNaN))
        Sample.exchangeNaN Sample.sid (Sample.key 2) = .ok 2 ∧
      ¬ReplayCovered replayExternals (Sample.exchangeNaN.map Sample.carry) Sample.exchangeNaN Sample.sid
        (Sample.key 1) (Sample.key 2) Sample.relay (Sample.tipOver Sample.exchangeNaN) := by
  refine ⟨by decide +kernel, by decide +kernel, by decide +kernel, fun h => ?_⟩
  rcases h.causal 0 _ _ rfl rfl with h | ⟨j, other, hj, -⟩
  · simp [JsNumber.ge] at h
  · simp at hj

end Cello.Interfaces
