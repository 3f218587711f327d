import Cello.Lib.JsValue
import Cello.Lib.OrdMap

/-!
# The carried leaf chain

`packages/interfaces/src/seal-chain-verify.ts`: reading the bytes a sender signed,
and deciding whether a list of leaves is a real chain.  Signatures, hashing and
CBOR come from other packages and are the fields of `Externals`.

Senders are compared by the hex of their key in the source; here by the key, which
is the same comparison.
-/

namespace Cello.Interfaces

open Lib

/-- The domain a leaf is hashed under. -/
inductive LeafKind where
  | msg
  | ctrl
  | doc
  | reject
deriving DecidableEq, Repr

namespace LeafKind

def text : LeafKind → String
  | msg => "msg"
  | ctrl => "ctrl"
  | doc => "doc"
  | reject => "reject"

end LeafKind

/-- The relay's envelope of a leaf.  The scan result is a constant and is left out. -/
structure Structure2 where
  sequenceNumber : JsNumber
  senderPubkey : Bytes
  contentHash : Bytes
  senderSignature : Bytes
  prevRoot : Bytes
deriving DecidableEq, Repr

structure RelaySealLeaf where
  kind : LeafKind
  s2 : Structure2
  structure1Cbor : Bytes
  contentBytes : Option Bytes := none
deriving DecidableEq, Repr

/-- What the other packages provide. -/
structure Externals where
  verify : Bytes → Bytes → Bytes → Bool
  cborDecode : Bytes → Option Cbor
  /-- `merkleRoot(buildMerkleTree(..))` over leaves that are hashes already. -/
  merkleRoot : List Bytes → Bytes
  leafHash : LeafKind → Bytes → Bytes
  nodeHash : Bytes → Bytes → Bytes
  encodeStructure2 : Structure2 → Bytes

/-! ### Structure 1 -/

structure Structure1Fields where
  contentHash : Bytes
  sessionId : Bytes
  lastSeenSeq : JsNumber
  timestamp : JsNumber ⊕ ℤ
  lastSeenHash : Bytes
  prevOwnHash : Bytes
deriving DecidableEq, Repr

def bytesOfLength (n : ℕ) : Cbor → Option Bytes
  | .bytes b => if b.length = n then some b else none
  | _ => none

def numberOf : Cbor → Option JsNumber
  | .num n => some n
  | _ => none

def timestampOf : Cbor → Option (JsNumber ⊕ ℤ)
  | .num n => some (.inl n)
  | .bigint n => some (.inr n)
  | _ => none

/-- `[3, content_hash, sender_pubkey, session_id, last_seen_seq, timestamp, last_seen_hash,
prev_own_hash]`: one layout, every field required. -/
def structure1Of : Cbor → Option Structure1Fields
  | .arr [pv, ch, _, sid, lss, ts, lsh, poh] =>
    if numberOf pv ≠ some (.fin 3) then none
    else do
      let contentHash ← bytesOfLength 32 ch
      let sessionId ← bytesOfLength 16 sid
      let lastSeenSeq ← numberOf lss
      let timestamp ← timestampOf ts
      let lastSeenHash ← bytesOfLength 32 lsh
      let prevOwnHash ← bytesOfLength 32 poh
      return { contentHash, sessionId, lastSeenSeq, timestamp, lastSeenHash, prevOwnHash }
  | _ => none

def decodeStructure1Fields (ext : Externals) (cbor : Bytes) : Option Structure1Fields :=
  (ext.cborDecode cbor).bind structure1Of

/-- `decodeStructure1Signed`: the content hash and the session id the client signed. -/
def decodeStructure1Signed (ext : Externals) (cbor : Bytes) : Option (Bytes × Bytes) :=
  (decodeStructure1Fields ext cbor).map fun s1 => (s1.contentHash, s1.sessionId)

/-! ### Provenance -/

inductive SealFinalRootReason where
  | notCarried
  | payloadUnbound
  | payloadMalformed
  | sessionMismatch
  | rootDisagrees
  | partiesDisagree
  | senderNotParticipant
  | leafSessionMismatch
  | approvalIncomplete
deriving DecidableEq, Repr

namespace SealFinalRootReason

def code : SealFinalRootReason → String
  | notCarried => "not_carried"
  | payloadUnbound => "seal_payload_unbound"
  | payloadMalformed => "seal_payload_malformed"
  | sessionMismatch => "seal_payload_session_mismatch"
  | rootDisagrees => "seal_final_root_disagrees"
  | partiesDisagree => "seal_final_root_parties_disagree"
  | senderNotParticipant => "seal_sender_not_participant"
  | leafSessionMismatch => "seal_leaf_session_mismatch"
  | approvalIncomplete => "seal_approval_missing"

end SealFinalRootReason

/-- A refusal with the sentence that goes with it. -/
structure FinalRootRefusal where
  reason : SealFinalRootReason
  detail : String
deriving DecidableEq, Repr

def hexPrefix (b : Bytes) : String := String.ofList (b.toHex.toList.take 16)

def leafWho (i : ℕ) (leaf : RelaySealLeaf) : String :=
  "leaf " ++ toString i ++ " (" ++ leaf.kind.text ++ ", sender " ++
    hexPrefix leaf.s2.senderPubkey ++ "…)"

def admitsKey : Option (Bytes × Bytes) → Bytes → Bool
  | none, _ => true
  | some (a, b), key => decide (a = key ∨ b = key)

/-- The checks on one leaf. -/
def leafProvenance (ext : Externals) (sessionId : Bytes) (participants : Option (Bytes × Bytes))
    (i : ℕ) (leaf : RelaySealLeaf) : Except FinalRootRefusal Unit :=
  if !admitsKey participants leaf.s2.senderPubkey then
    .error ⟨.senderNotParticipant,
      leafWho i leaf ++ ": signed by a key that is not a participant in this session"⟩
  else
    match decodeStructure1Signed ext leaf.structure1Cbor with
    | none => .error ⟨.payloadMalformed, leafWho i leaf ++
        ": structure1_cbor is not decodable, so this leaf's own account of which " ++
        "session it belongs to cannot be read"⟩
    | some (_, sid) =>
      if sid ≠ sessionId then
        .error ⟨.leafSessionMismatch, leafWho i leaf ++ ": its signed bytes name session " ++
          hexPrefix sid ++ "…, not the one being sealed"⟩
      else .ok ()

def provenanceLoop (ext : Externals) (sessionId : Bytes) (participants : Option (Bytes × Bytes)) :
    ℕ → List RelaySealLeaf → Except FinalRootRefusal Unit
  | _, [] => .ok ()
  | i, leaf :: rest =>
    match leafProvenance ext sessionId participants i leaf with
    | .error e => .error e
    | .ok () => provenanceLoop ext sessionId participants (i + 1) rest

def distinctSenders (leaves : List RelaySealLeaf) : List Bytes :=
  leaves.foldl (fun acc l => if l.s2.senderPubkey ∈ acc then acc else acc ++ [l.s2.senderPubkey]) []

/-- Every leaf belongs to this pair and to this session.  Without a roster only the number of
signers can be checked. -/
def verifyLeafProvenance (ext : Externals) (leaves : List RelaySealLeaf) (sessionId : Bytes)
    (participants : Option (Bytes × Bytes)) : Except FinalRootRefusal Unit :=
  match provenanceLoop ext sessionId participants 0 leaves with
  | .error e => .error e
  | .ok () =>
    if participants = none ∧ 2 < (distinctSenders leaves).length then
      .error ⟨.senderNotParticipant, "the leaf array carries " ++
        toString (distinctSenders leaves).length ++
        " distinct signers and this node holds no session record for it, so one of them does " ++
        "not belong and WHICH ONE CANNOT BE NAMED FROM HERE — every candidate roster is drawn " ++
        "from the same suspect array. Ask the node that assigned this session who its two " ++
        "participants are."⟩
    else .ok ()

/-! ### The chain -/

inductive SealChainReason where
  | rootMismatch
  | senderSignatureInvalid
  | structure1Undecodable
  | contentHashMismatch
  | prevRootBreak
  | causalOrderViolation
  | selfChainBreak
deriving DecidableEq, Repr

namespace SealChainReason

def code : SealChainReason → String
  | rootMismatch => "seal_chain_root_mismatch"
  | senderSignatureInvalid => "seal_chain_sender_signature_invalid"
  | structure1Undecodable => "seal_chain_structure1_undecodable"
  | contentHashMismatch => "unilateral_content_hash_mismatch"
  | prevRootBreak => "seal_chain_prev_root_break"
  | causalOrderViolation => "seal_chain_causal_order_violation"
  | selfChainBreak => "seal_chain_self_link_break"

end SealChainReason

abbrev Stack := List (Bytes × ℕ)

def pushNode (nodeHash : Bytes → Bytes → Bytes) (node : Bytes) (height : ℕ) : Stack → Stack
  | [] => [(node, height)]
  | (top, h) :: rest =>
    if h = height then pushNode nodeHash (nodeHash top node) (height + 1) rest
    else (node, height) :: (top, h) :: rest

/-- The right-to-left fold of the stack; `d` for an empty one. -/
def stackRoot (nodeHash : Bytes → Bytes → Bytes) (d : Bytes) : Stack → Bytes
  | [] => d
  | (top, _) :: rest => rest.foldl (fun root e => nodeHash e.1 root) top

/-- What the loop carries from leaf to leaf. -/
structure ChainState where
  stack : Stack
  runningRoot : Bytes
  lastOwn : OrdMap Bytes Bytes

def effectiveSeen (sender : Bytes) (prior : List RelaySealLeaf) : JsNumber :=
  prior.foldl (fun seen l =>
    if l.s2.senderPubkey ≠ sender ∧ l.s2.sequenceNumber.gt seen then l.s2.sequenceNumber else seen) (0 : ℕ)

/-- One round of the loop. -/
def chainStep (ext : Externals) (prior : List RelaySealLeaf) (st : ChainState)
    (leaf : RelaySealLeaf) : Except SealChainReason ChainState :=
  if !ext.verify leaf.s2.senderPubkey leaf.structure1Cbor leaf.s2.senderSignature then
    .error .senderSignatureInvalid
  else
    match decodeStructure1Fields ext leaf.structure1Cbor with
    | none => .error .structure1Undecodable
    | some s1 =>
      if s1.contentHash ≠ leaf.s2.contentHash then .error .contentHashMismatch
      else if leaf.s2.prevRoot ≠ st.runningRoot then .error .prevRootBreak
      else if s1.lastSeenSeq.gt (effectiveSeen leaf.s2.senderPubkey prior) then
        .error .causalOrderViolation
      else
        match st.lastOwn.get leaf.s2.senderPubkey with
        | some prevOwn =>
          if s1.prevOwnHash ≠ prevOwn then .error .selfChainBreak
          else .ok (advance s1)
        | none => .ok (advance s1)
where
  /-- The state after an admitted leaf. -/
  advance (s1 : Structure1Fields) : ChainState :=
    let node := ext.leafHash leaf.kind (ext.encodeStructure2 leaf.s2)
    let stack := pushNode ext.nodeHash node 0 st.stack
    { stack := stack
      runningRoot := stackRoot ext.nodeHash node stack
      lastOwn := st.lastOwn.set leaf.s2.senderPubkey s1.contentHash }

def chainLoop (ext : Externals) : List RelaySealLeaf → ChainState → List RelaySealLeaf →
    Except SealChainReason ChainState
  | _, st, [] => .ok st
  | prior, st, leaf :: rest =>
    match chainStep ext prior st leaf with
    | .error e => .error e
    | .ok st' => chainLoop ext (prior ++ [leaf]) st' rest

/-- A refusal of the chain is one of its own reasons or one of the provenance check's. -/
inductive ChainRefusal where
  | chain (r : SealChainReason)
  | provenance (r : SealFinalRootReason)
deriving DecidableEq, Repr

def initialChain (leaves : List RelaySealLeaf) : ChainState where
  stack := []
  runningRoot := match leaves with
    | [] => List.replicate 32 0
    | l :: _ => l.s2.prevRoot
  lastOwn := OrdMap.empty

/-- The recomputed root, or why the chain is refused. -/
def verifySealLeafChain (ext : Externals) (leaves : List RelaySealLeaf)
    (reportedRoot sessionId : Bytes) (roster : Bytes × Bytes) : Except ChainRefusal Bytes :=
  let recomputedRoot := ext.merkleRoot (leaves.map fun l => l.s2.contentHash)
  if recomputedRoot ≠ reportedRoot then .error (.chain .rootMismatch)
  else
    match chainLoop ext [] (initialChain leaves) leaves with
    | .error e => .error (.chain e)
    | .ok _ =>
      match verifyLeafProvenance ext leaves sessionId (some roster) with
      | .error e => .error (.provenance e.reason)
      | .ok () => .ok recomputedRoot

end Cello.Interfaces
