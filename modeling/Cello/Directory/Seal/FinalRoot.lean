import Cello.Interfaces.SealChain

/-!
# The roots the participants signed

`packages/directory/src/seal-final-root.ts`: a SEAL payload carries the root its
author computed over the transcript, bound to the author's signature through the
content hash.  `verifySealFinalRoots` collects the payloads a relay chose to carry and
compares their roots with the root over the leaves the relay did not label `ctrl`.
-/

namespace Cello.Directory.Seal

open Lib Cello.Interfaces

structure SealPayload where
  sessionId : Bytes
  finalRoot : Bytes
deriving DecidableEq, Repr

/-- What the seal verifiers use beyond the chain verifier. -/
structure SealExternals extends Externals where
  sha256 : Bytes → Bytes
  decodeSealPayload : Bytes → Option SealPayload
  /-- The to-be-signed bytes of a seal: session, root, leaf count, close timestamp. -/
  buildSealTbs : Bytes → Bytes → ℕ → JsNumber → Bytes

/-- `SHA-256(0x02 ‖ payload)`. -/
def sealContentHash (ext : SealExternals) (payload : Bytes) : Bytes := ext.sha256 (2 :: payload)

/-- The content hashes of the leaves labelled other than `ctrl`. -/
def nonCtrlHashes (leaves : List RelaySealLeaf) : List Bytes :=
  (leaves.filter fun l => decide (l.kind ≠ .ctrl)).map fun l => l.s2.contentHash

def rootOverNonCtrlLeaves (ext : SealExternals) (leaves : List RelaySealLeaf) : Bytes :=
  ext.merkleRoot (nonCtrlHashes leaves)

/-! ### Collecting the carried roots -/

def sealWho (i : ℕ) (leaf : RelaySealLeaf) : String :=
  "leaf " ++ toString i ++ " (sender " ++ hexPrefix leaf.s2.senderPubkey ++ "…)"

/-- The root a carried payload commits to, once it is bound to the signature. -/
def boundRoot (ext : SealExternals) (sessionId : Bytes) (i : ℕ) (leaf : RelaySealLeaf)
    (bytes : Bytes) : Except FinalRootRefusal Bytes :=
  match decodeStructure1Signed ext.toExternals leaf.structure1Cbor with
  | none => .error ⟨.payloadMalformed, sealWho i leaf ++
      ": structure1_cbor is not decodable, so there is no signed hash to bind against"⟩
  | some (contentHash, _) =>
    if contentHash ≠ leaf.s2.contentHash then
      .error ⟨.payloadUnbound, sealWho i leaf ++
        ": the relay's envelope content_hash disagrees with the one the client signed"⟩
    else if sealContentHash ext bytes ≠ contentHash then
      .error ⟨.payloadUnbound, sealWho i leaf ++
        ": SHA-256(0x02 || payload) does not equal the content_hash the client SIGNED"⟩
    else
      match ext.decodeSealPayload bytes with
      | none => .error ⟨.payloadMalformed, sealWho i leaf ++
          ": payload is bound to the signature but is not a decodable SEAL payload"⟩
      | some payload =>
        if payload.sessionId ≠ sessionId then
          .error ⟨.sessionMismatch, sealWho i leaf ++ ": payload names a different session"⟩
        else .ok payload.finalRoot

/-- The last carried root of each sender, with the index of its leaf. -/
def collectRoots (ext : SealExternals) (sessionId : Bytes) :
    ℕ → OrdMap Bytes (Bytes × ℕ) → List RelaySealLeaf →
      Except FinalRootRefusal (OrdMap Bytes (Bytes × ℕ))
  | _, bySender, [] => .ok bySender
  | i, bySender, leaf :: rest =>
    if leaf.kind ≠ .ctrl then collectRoots ext sessionId (i + 1) bySender rest
    else
      match leaf.contentBytes with
      | none => collectRoots ext sessionId (i + 1) bySender rest
      | some bytes =>
        match boundRoot ext sessionId i leaf bytes with
        | .error e => .error e
        | .ok root =>
          collectRoots ext sessionId (i + 1) (bySender.set leaf.s2.senderPubkey (root, i)) rest

/-! ### The verdict -/

inductive Coverage where
  | both
  | one (detail : String)
deriving DecidableEq, Repr

structure VerifiedRoot where
  coverage : Coverage
  verifiedRoot : Bytes
deriving DecidableEq, Repr

def partiesDisagreeDetail (sender : Bytes) (index : ℕ) : String :=
  "leaf " ++ toString index ++ " (sender " ++ hexPrefix sender ++ "…): the participants signed " ++
    "DIFFERENT final_root values, so they disagree with EACH OTHER about their own transcript — " ++
    "this is not a relay accusation"

def rootDisagreesDetail (index count : ℕ) : String :=
  "leaf " ++ toString index ++ ": signed a root over a different leaf set than the relay supplied" ++
    (if 1 < count then
      "; all " ++ toString count ++ " participants signed the SAME root, so they agree and the " ++
        "relay's leaf set is the outlier"
    else "; only one participant's payload was carried, so this is one signature against the " ++
      "relay's set")

def coverageOneDetail : String :=
  "only one participant's signed root was checked — the other's payload was not carried. On a " ++
    "unilateral seal that is expected (the counterparty was absent); on a bilateral one it means " ++
    "their build does not carry the payload yet."

/-- Compare what was collected with each other, then with the leaves. -/
def judgeRoots (expected : Bytes) : List (Bytes × (Bytes × ℕ)) → Except FinalRootRefusal VerifiedRoot
  | [] => .error ⟨.notCarried, "no SEAL leaf carried its payload"⟩
  | first :: rest =>
    match rest.find? fun e => decide (e.2.1 ≠ first.2.1) with
    | some e => .error ⟨.partiesDisagree, partiesDisagreeDetail e.1 e.2.2⟩
    | none =>
      if first.2.1 ≠ expected then
        .error ⟨.rootDisagrees, rootDisagreesDetail first.2.2 (rest.length + 1)⟩
      else if 2 ≤ rest.length + 1 then .ok ⟨.both, expected⟩
      else .ok ⟨.one coverageOneDetail, expected⟩

def verifySealFinalRoots (ext : SealExternals) (leaves : List RelaySealLeaf) (sessionId : Bytes)
    (participants : Option (Bytes × Bytes)) : Except FinalRootRefusal VerifiedRoot :=
  match verifyLeafProvenance ext.toExternals leaves sessionId participants with
  | .error e => .error e
  | .ok () =>
    match collectRoots ext sessionId 0 OrdMap.empty leaves with
    | .error e => .error e
    | .ok bySender => judgeRoots (rootOverNonCtrlLeaves ext leaves) bySender.entries

end Cello.Directory.Seal
