import Cello.Directory.Seal.Certificate
import Cello.Directory.Seal.CosignEvidence
import Cello.Interfaces.CarriedLeaves

/-!
# What a unilateral seal is checked for

The decisions of `#processSealUnilateral`, apart from the state they are made in: the gate that asks
whether the counterparty has gone, the verification of the leaves the submitter carries, and the
legibility of a transcript that one party closes alone.
-/

namespace Cello.Directory.Seal

open Lib Cello.Interfaces

/-- What the seal handlers use of other packages. -/
structure NodeExternals extends SealExternals, ReplayExternals where
  /-- `verifySignature` of the threshold signer, for the seal domain: signature, message, group
  key. -/
  verifyFrost : Bytes → Bytes → Bytes → Bool
  /-- The bytes a node signs alone: `[session_id, root, close_timestamp]` in CBOR. -/
  encodeNotarizationTbs : Bytes → Bytes → JsNumber → Bytes

/-- The node's grace periods, and whether its relay reports liveness. -/
structure NodeConfig where
  deliveryGraceSeconds : ℤ
  highStakesGraceSeconds : ℤ
  relayReportsLiveness : Bool
deriving DecidableEq, Repr

/-! ### The gate -/

inductive Liveness where
  | alive
  | gone
  | unknown
deriving DecidableEq, Repr

inductive TooEarlyCause where
  | counterpartyPresent
  | tooEarly
  | highStakesEvidenceRequired
deriving DecidableEq, Repr

namespace TooEarlyCause

def code : TooEarlyCause → String
  | counterpartyPresent => "counterparty_present"
  | tooEarly => "too_early"
  | highStakesEvidenceRequired => "high_stakes_evidence_required"

end TooEarlyCause

/-- `seal_unilateral_too_early`. -/
structure TooEarly where
  cause : TooEarlyCause
  remainingSeconds : Option ℤ := none
deriving DecidableEq, Repr

def floorMs (cfg : NodeConfig) (highStakes : Bool) : ℤ :=
  (if highStakes then cfg.highStakesGraceSeconds else cfg.deliveryGraceSeconds) * 1000

/-- Presence first, then the floor, then the evidence a high-stakes session asks for. -/
def unilateralGate (cfg : NodeConfig) (highStakes : Bool) (elapsedMs : ℤ) (liveness : Liveness) :
    Except TooEarly Unit :=
  if liveness = .alive then .error { cause := .counterpartyPresent }
  else if elapsedMs < floorMs cfg highStakes then
    -- `Math.ceil((floorMs - elapsedMs) / 1000)`
    .error { cause := .tooEarly
             remainingSeconds := some (-((elapsedMs - floorMs cfg highStakes) / 1000)) }
  else if highStakes ∧ liveness ≠ .gone then .error { cause := .highStakesEvidenceRequired }
  else .ok ()

/-! ### The carried leaves -/

inductive UnilateralReason where
  | carried (reason : CarriedReason)
  | rootUnverifiable
  | chain (refusal : ChainRefusal)
  | sealLeafInvalid
  /-- An exception leaves the handler. -/
  | threw
deriving DecidableEq, Repr

namespace UnilateralReason

def code : UnilateralReason → String
  | carried reason => reason.code
  | rootUnverifiable => "unilateral_root_unverifiable"
  | chain (.chain reason) => reason.code
  | chain (.provenance reason) => reason.code
  | sealLeafInvalid => "unilateral_seal_leaf_invalid"
  | threw => ""

end UnilateralReason

/-- `DIRECTORY_COLLAPSED_CHAIN_REASONS.has(reason)`. -/
def collapsedChainReason : ChainRefusal → Bool
  | .chain .rootMismatch => true
  | .chain .senderSignatureInvalid => true
  | .chain .structure1Undecodable => true
  | .chain .prevRootBreak => true
  | .chain .causalOrderViolation => true
  | .chain .contentHashMismatch => false
  | .chain .selfChainBreak => false
  | .provenance _ => false

/-- `verifySealCtrlLeaf`: one `ctrl` leaf, and it is the submitter's. -/
def verifySealCtrlLeaf (leaves : List RelaySealLeaf) (present : Bytes) : Bool :=
  match leaves.filter fun l => decide (l.kind = .ctrl) with
  | [l] => decide (l.s2.senderPubkey = present)
  | _ => false

/-- `#verifyUnilateralChain`: the chain, then the closing leaf. -/
def verifyUnilateralChain (ext : Externals) (leaves : List RelaySealLeaf)
    (reportedRoot present sessionId : Bytes) (roster : Bytes × Bytes) :
    Except UnilateralReason Bytes :=
  match verifySealLeafChain ext leaves reportedRoot sessionId roster with
  | .error refusal =>
    .error (if collapsedChainReason refusal then .rootUnverifiable else .chain refusal)
  | .ok recomputedRoot =>
    if verifySealCtrlLeaf leaves present then .ok recomputedRoot else .error .sealLeafInvalid

/-! ### The legibility -/

/-- The submitter's legibility: the counterparty counts as absent, also where it wrote nothing, and
the countersigned bound is taken over both. -/
def unilateralLegibility (ext : Externals) (absent : Bytes) (leaves : List RelaySealLeaf) :
    Option SealLegibility :=
  (buildSealLegibility ext (fun key => if key = absent then some .absent else none) leaves).map
    fun legibility =>
      let participants :=
        if legibility.participants.any fun p => decide (p.pubkey = absent) then
          legibility.participants
        else legibility.participants ++
          [{ pubkey := absent, contentFrontierSeq := (0 : ℕ), lastAuthoredSeq := (0 : ℕ)
             attestationMode := .absent }]
      { legibility with
        participants := participants
        countersignedThroughSeq := countersignedThroughSeq participants }

/-! ### A verified request -/

/-- What the relay said of the counterparty, as the certificate records it. -/
inductive Attestation where
  | absent
  | delivered
deriving DecidableEq, Repr

/-- The frame `seal_unilateral`, without its session id. -/
structure SealUnilateral where
  reportedRoot : Bytes
  sealLeaves : List SealUnilateralLeaf
deriving DecidableEq, Repr

/-- A request that has passed every check. -/
structure VerifiedUnilateral where
  present : Bytes
  absent : Bytes
  sealedRoot : Bytes
  leafCount : ℕ
  closeTimestamp : ℤ
  attestation : Attestation
  legibility : SealLegibility
  frontierLeaves : List CosignLeaf

/-- The signed half of a leaf, as it travels with a unilateral seal. -/
def unilateralFrontierLeaf (l : RelaySealLeaf) : CosignLeaf where
  structure1Cbor := l.structure1Cbor
  senderPubkey := l.s2.senderPubkey
  senderSignature := l.s2.senderSignature
  contentBytes := none
  kind := none

def absentParty (participants : Bytes × Bytes) (sender : Bytes) : Bytes :=
  if participants.1 = sender then participants.2 else participants.1

/-- From the carried leaves to the in-flight marker. -/
def verifyUnilateral (ext : NodeExternals) (sessionId sender : Bytes) (participants : Bytes × Bytes)
    (frame : SealUnilateral) (now : ℤ) (liveness : Liveness) :
    Except UnilateralReason VerifiedUnilateral :=
  match reconstructCarriedSealLeaves ext.toReplayExternals frame.sealLeaves sender none with
  | .error reason => .error (.carried reason)
  | .ok leaves =>
    match verifyUnilateralChain ext.toExternals leaves frame.reportedRoot sender sessionId
        participants with
    | .error reason => .error reason
    | .ok recomputedRoot =>
      match unilateralLegibility ext.toExternals (absentParty participants sender) leaves with
      | none => .error .threw
      | some legibility =>
        .ok
          { present := sender
            absent := absentParty participants sender
            sealedRoot := recomputedRoot
            leafCount := leaves.length
            closeTimestamp := now
            attestation := if liveness = .gone then .absent else .delivered
            legibility := legibility
            frontierLeaves := leaves.map unilateralFrontierLeaf }

end Cello.Directory.Seal
