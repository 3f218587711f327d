import Cello.Directory.Seal.FinalRoot

/-!
# The evidence a co-signing directory checks

`packages/directory/src/seal-cosign-evidence.ts`: a directory that lends its share to
a seal rebuilds the message from the leaves it is shown, and for a two-party seal
collects both participants' approved roots again.  What comes off the wire is a
`RawLeaves`; `parseCosignLeaves` reads its shape.
-/

namespace Cello.Directory.Seal

open Lib Cello.Interfaces

inductive SealCosignReason where
  | evidenceMissing
  | evidenceMalformed
  | leafSignatureInvalid
  | leafSessionMismatch
  | thirdSigner
  | rootUnsupported
  | notASealTbs
  | approvalUnsupported
deriving DecidableEq, Repr

namespace SealCosignReason

def code : SealCosignReason → String
  | evidenceMissing => "SEAL_EVIDENCE_MISSING"
  | evidenceMalformed => "SEAL_EVIDENCE_MALFORMED"
  | leafSignatureInvalid => "SEAL_LEAF_SIGNATURE_INVALID"
  | leafSessionMismatch => "SEAL_LEAF_SESSION_MISMATCH"
  | thirdSigner => "SEAL_THIRD_SIGNER"
  | rootUnsupported => "SEAL_ROOT_UNSUPPORTED"
  | notASealTbs => "SEAL_TBS_UNREADABLE"
  | approvalUnsupported => "SEAL_APPROVAL_UNSUPPORTED"

end SealCosignReason

structure CosignRefusal where
  reason : SealCosignReason
  detail : String
deriving DecidableEq, Repr

/-- One leaf as it travels with a sign request. -/
structure CosignLeaf where
  structure1Cbor : Bytes
  senderPubkey : Bytes
  senderSignature : Bytes
  contentBytes : Option Bytes := none
  kind : Option String := none
deriving DecidableEq, Repr

/-- An item of the wire array: `none` when it is no object, `none` in a field that is missing or
of another type. -/
structure RawItem where
  structure1Cbor : Option Bytes
  senderPubkey : Option Bytes
  senderSignature : Option Bytes
  contentBytes : Option Bytes
  kind : Option String
deriving DecidableEq, Repr

inductive RawLeaves where
  /-- `undefined` or `null`. -/
  | absent
  | notArray
  | items (l : List (Option RawItem))
deriving DecidableEq, Repr

def parseItem : Option RawItem → Option CosignLeaf
  | none => none
  | some o => do
    let s1 ← o.structure1Cbor
    let pk ← o.senderPubkey
    let sig ← o.senderSignature
    return { structure1Cbor := s1, senderPubkey := pk, senderSignature := sig
             contentBytes := o.contentBytes, kind := o.kind }

def parseCosignLeaves : RawLeaves → Option (List CosignLeaf)
  | .items [] => none
  | .items l => l.mapM parseItem
  | _ => none

/-- `"cello-frost-seal-v1"`. -/
def sealFrostContext : Bytes := "cello-frost-seal-v1".toUTF8.toList

def legibilityHashBytes : ℕ := 32

/-! ### The leaves -/

/-- What the loop over the leaves collects. -/
structure CosignWalk where
  sessionId : Option Bytes
  senders : List Bytes
  contentHashes : List Bytes

def cosignStep (ext : SealExternals) (i : ℕ) (st : CosignWalk) (leaf : CosignLeaf) :
    Except CosignRefusal CosignWalk :=
  if !ext.verify leaf.senderPubkey leaf.structure1Cbor leaf.senderSignature then
    .error ⟨.leafSignatureInvalid, "leaf " ++ toString i ++
      ": its signature does not verify under the key it names"⟩
  else
    match decodeStructure1Signed ext.toExternals leaf.structure1Cbor with
    | none => .error ⟨.evidenceMalformed, "leaf " ++ toString i ++
        ": the signed bytes are not a readable Structure 1"⟩
    | some (contentHash, sessionId) =>
      if st.sessionId ≠ none ∧ st.sessionId ≠ some sessionId then
        .error ⟨.leafSessionMismatch, "leaf " ++ toString i ++
          ": its signed bytes name a different session than leaf 0"⟩
      else .ok
        { sessionId := some (st.sessionId.getD sessionId)
          senders := if leaf.senderPubkey ∈ st.senders then st.senders
            else st.senders ++ [leaf.senderPubkey]
          contentHashes := st.contentHashes ++ [contentHash] }

def cosignLoop (ext : SealExternals) : ℕ → CosignWalk → List CosignLeaf →
    Except CosignRefusal CosignWalk
  | _, st, [] => .ok st
  | i, st, leaf :: rest =>
    match cosignStep ext i st leaf with
    | .error e => .error e
    | .ok st' => cosignLoop ext (i + 1) st' rest

/-! ### Two approvals -/

def cosignSignedHash (ext : SealExternals) (leaf : CosignLeaf) : Option Bytes :=
  (decodeStructure1Signed ext.toExternals leaf.structure1Cbor).map Prod.fst

/-- The signed content hashes of the leaves labelled other than `"ctrl"`. -/
def cosignNonCtrlHashes (ext : SealExternals) (leaves : List CosignLeaf) : List Bytes :=
  (leaves.filter fun l => decide (l.kind ≠ some "ctrl")).filterMap (cosignSignedHash ext)

def cosignCollect (ext : SealExternals) (sessionId : Bytes) :
    OrdMap Bytes Bytes → List CosignLeaf → Except CosignRefusal (OrdMap Bytes Bytes)
  | bySender, [] => .ok bySender
  | bySender, leaf :: rest =>
    if leaf.kind ≠ some "ctrl" then cosignCollect ext sessionId bySender rest
    else
      match leaf.contentBytes, cosignSignedHash ext leaf with
      | some bytes, some contentHash =>
        if sealContentHash ext bytes ≠ contentHash then
          .error ⟨.approvalUnsupported, "a SEAL payload does not hash to the content its " ++
            "participant signed, so that signature never covered it"⟩
        else
          match ext.decodeSealPayload bytes with
          | some payload =>
            if payload.sessionId ≠ sessionId then
              .error ⟨.approvalUnsupported,
                "a SEAL payload is unreadable or names a different conversation"⟩
            else cosignCollect ext sessionId (bySender.set leaf.senderPubkey payload.finalRoot) rest
          | none => .error ⟨.approvalUnsupported,
              "a SEAL payload is unreadable or names a different conversation"⟩
      | _, _ => cosignCollect ext sessionId bySender rest

def verifyBilateralApprovals (ext : SealExternals) (leaves : List CosignLeaf) (sessionId : Bytes) :
    Except CosignRefusal Unit :=
  match cosignCollect ext sessionId OrdMap.empty leaves with
  | .error e => .error e
  | .ok bySender =>
    if bySender.entries.length < 2 then
      .error ⟨.approvalUnsupported, "a two-party seal carried " ++
        toString bySender.entries.length ++
        " participant approval(s); both are required before any signature exists"⟩
    else
      match bySender.entries.find? fun e =>
          decide (e.2 ≠ ext.merkleRoot (cosignNonCtrlHashes ext leaves)) with
      | some e => .error ⟨.approvalUnsupported, "participant " ++ hexPrefix e.1 ++
          "… approved a different transcript than the leaves presented here describe"⟩
      | none => .ok ()

/-! ### The verdict -/

/-- `typeof closeTimestamp`: a number, or a big integer converted to one. -/
def closeTimestampOf : Cbor → Option JsNumber
  | .num n => some n
  | .bigint z => some (.fin (Double.ofInt z))
  | _ => none

def expectedFramed (ext : SealExternals) (sessionId : Bytes) (contentHashes : List Bytes)
    (ts : JsNumber) : Bytes :=
  sealFrostContext ++ [0] ++
    ext.buildSealTbs sessionId (ext.merkleRoot contentHashes) contentHashes.length ts

/-- The part of the decision that needs the walk over the leaves. -/
def judgeCosign (ext : SealExternals) (framedMsg : Bytes) (ts : JsNumber) (leaves : List CosignLeaf)
    (walk : CosignWalk) (sessionId : Bytes) : Except CosignRefusal Unit :=
  let expected := expectedFramed ext sessionId walk.contentHashes ts
  if 2 < walk.senders.length then
    .error ⟨.thirdSigner, toString walk.senders.length ++ " distinct keys signed leaves in a " ++
      "two-party conversation, so at least one does not belong; which one is not derivable from " ++
      "this node"⟩
  else if framedMsg.length ≠ expected.length ∧
      framedMsg.length ≠ expected.length + legibilityHashBytes then
    .error ⟨.rootUnsupported, "the message is " ++ toString framedMsg.length ++
      " bytes; the leaves produce one of " ++ toString expected.length ++ " (plus an optional " ++
      toString legibilityHashBytes ++ "-byte legibility hash)"⟩
  else if framedMsg.take expected.length ≠ expected then
    .error ⟨.rootUnsupported, "the " ++ toString leaves.length ++ " leaves presented produce root " ++
      hexPrefix (ext.merkleRoot walk.contentHashes) ++
      "…, which is not what this signature would certify"⟩
  else if framedMsg.length = expected.length + legibilityHashBytes then
    verifyBilateralApprovals ext leaves sessionId
  else .ok ()

def verifySealCosignEvidence (ext : SealExternals) (framedMsg : Bytes) (rawLeaves : RawLeaves)
    (closeTimestamp : Cbor) : Except CosignRefusal Unit :=
  let sep := framedMsg.idxOf 0
  if sep = framedMsg.length ∨ sep = 0 ∨ framedMsg.take sep ≠ sealFrostContext then
    .error ⟨.notASealTbs, "the framed message does not carry the seal context"⟩
  else
    match closeTimestampOf closeTimestamp with
    | none => .error ⟨.evidenceMissing, "no close timestamp accompanied the leaves"⟩
    | some ts =>
      if rawLeaves = .absent ∨ rawLeaves = .items [] then
        .error ⟨.evidenceMissing, "no leaves accompanied a seal signature request"⟩
      else
        match parseCosignLeaves rawLeaves with
        | none => .error ⟨.evidenceMalformed, "the attached leaves are not an array of signed leaves"⟩
        | some leaves =>
          match cosignLoop ext 0 ⟨none, [], []⟩ leaves with
          | .error e => .error e
          | .ok walk =>
            match walk.sessionId with
            | none => .error ⟨.evidenceMalformed, "no leaves to read a session from"⟩
            | some sessionId => judgeCosign ext framedMsg ts leaves walk sessionId

end Cello.Directory.Seal
