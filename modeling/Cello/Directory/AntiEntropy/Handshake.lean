import Cello.Directory.AntiEntropy.Wire

/-!
# The check of a peer's signature

`packages/directory/src/ae-handshake.ts`.  The two ends of a connection sign the same text, which names
both nodes, both peer ids, a nonce of each and a time; the dialer has slot A and the responder slot B.
`verifyPeerAuthFrame` is the check that both make of the other's signature, against the manifest and
against the peer id of the live connection.

The text and the signature are made by `@cello-protocol/crypto`, which is a parameter here (`PeerAuth`).
-/

namespace Cello.Directory.AntiEntropy

open Lib

inductive Slot where
  | A
  | B
deriving DecidableEq, Repr

def Slot.opposite : Slot → Slot
  | .A => .B
  | .B => .A

structure AePeerAuthParams where
  nodeIdA : String
  nodeIdB : String
  peerIdA : String
  peerIdB : String
  nonceAHex : String
  nonceBHex : String
  timestamp : String
deriving DecidableEq, Repr

namespace AePeerAuthParams

def nodeId (p : AePeerAuthParams) : Slot → String
  | .A => p.nodeIdA
  | .B => p.nodeIdB

def peerId (p : AePeerAuthParams) : Slot → String
  | .A => p.peerIdA
  | .B => p.peerIdB

def nonceHex (p : AePeerAuthParams) : Slot → String
  | .A => p.nonceAHex
  | .B => p.nonceBHex

end AePeerAuthParams

/-- A node of `ConsortiumManifest`. -/
structure ManifestNode where
  nodeId : String
  pubkey : Option String
  peerId : Option String
deriving DecidableEq, Repr

structure ConsortiumManifest where
  nodes : List ManifestNode
deriving DecidableEq, Repr

/-- `manifest.nodes.find((n) => n.nodeId === peerNodeId)`. -/
def ConsortiumManifest.find (manifest : ConsortiumManifest) (nodeId : String) : Option ManifestNode :=
  manifest.nodes.find? fun n => n.nodeId = nodeId

inductive HandshakeFailReason where
  | nodeNotInManifest
  | manifestEntryIncomplete
  | selfDial
  | nodeIdMismatch
  | peerIdMismatch
  | nonceMismatch
  | timestampSkew
  | signatureInvalid
deriving DecidableEq, Repr

def HandshakeFailReason.text : HandshakeFailReason → String
  | .nodeNotInManifest => "node_not_in_manifest"
  | .manifestEntryIncomplete => "manifest_entry_incomplete"
  | .selfDial => "self_dial"
  | .nodeIdMismatch => "node_id_mismatch"
  | .peerIdMismatch => "peerid_mismatch"
  | .nonceMismatch => "nonce_mismatch"
  | .timestampSkew => "timestamp_skew"
  | .signatureInvalid => "signature_invalid"

/-- The functions of `@cello-protocol/crypto` and `Date.parse`.  A text is of type `μ`. -/
structure PeerAuth (μ : Type) where
  /-- The text, or what it throws. -/
  buildAePeerAuthTbs : AePeerAuthParams → Except String μ
  verifyAePeerAuth : String → AePeerAuthParams → Bytes → Bool
  /-- `none` where the date is not a number. -/
  dateParse : String → Option ℤ

structure VerifyPeerAuthInput where
  manifest : ConsortiumManifest
  peerNodeId : String
  params : AePeerAuthParams
  signature : Bytes
  actualPeerId : String
  localSlot : Slot
  localMintedNonce : String
  peerNonce : String
  nowMs : ℤ
  maxSkewMs : ℤ := 60000

/-- `/[+-]\d{2}:?\d{2}$/`, on the text from its end. -/
def endsWithOffset : List Char → Bool
  | d₁ :: d₂ :: ':' :: d₃ :: d₄ :: sign :: _ =>
    d₁.isDigit && d₂.isDigit && d₃.isDigit && d₄.isDigit && (sign = '+' || sign = '-')
  | d₁ :: d₂ :: d₃ :: d₄ :: sign :: _ =>
    d₁.isDigit && d₂.isDigit && d₃.isDigit && d₄.isDigit && (sign = '+' || sign = '-')
  | _ => false

/-- `/(?:Z|[+-]\d{2}:?\d{2})$/`. -/
def namesZone (timestamp : String) : Bool :=
  let fromEnd := timestamp.toList.reverse
  fromEnd.head? = some 'Z' || endsWithOffset fromEnd

/-- The field is there and not empty. -/
def present (field : Option String) : Option String := field.filter fun s => decide (s ≠ "")

section

variable {μ : Type} (auth : PeerAuth μ)

/-- `|nowMs - Date.parse(timestamp)| <= maxSkewMs`, of a time that names its zone. -/
def isFresh (timestamp : String) (nowMs maxSkewMs : ℤ) : Bool :=
  namesZone timestamp &&
    match auth.dateParse timestamp with
    | none => false
    | some ts => !decide (maxSkewMs < |nowMs - ts|)

/-- The checks against an entry of the manifest. -/
def verifyAgainst (input : VerifyPeerAuthInput) (pubkey peerId : String) :
    Except HandshakeFailReason Unit :=
  let params := input.params
  let peerSlot := input.localSlot.opposite
  if input.actualPeerId ≠ peerId ∨ params.peerId peerSlot ≠ peerId then .error .peerIdMismatch
  else if params.nonceHex input.localSlot ≠ input.localMintedNonce ∨
      params.nonceHex peerSlot ≠ input.peerNonce then .error .nonceMismatch
  else if isFresh auth params.timestamp input.nowMs input.maxSkewMs then
    if auth.verifyAePeerAuth pubkey params input.signature then .ok () else .error .signatureInvalid
  else .error .timestampSkew

/-- `verifyPeerAuthFrame`. -/
def verifyPeerAuthFrame (input : VerifyPeerAuthInput) : Except HandshakeFailReason Unit :=
  let params := input.params
  if params.nodeId input.localSlot.opposite ≠ input.peerNodeId then .error .nodeIdMismatch
  else if params.nodeIdA = params.nodeIdB ∨ params.peerIdA = params.peerIdB then .error .selfDial
  else
    match input.manifest.find input.peerNodeId with
    | none => .error .nodeNotInManifest
    | some node =>
      match present node.pubkey, present node.peerId with
      | some pubkey, some peerId => verifyAgainst auth input pubkey peerId
      | _, _ => .error .manifestEntryIncomplete

/-- The manifest has an entry for the node, with the peer id and the key. -/
structure Pinned (manifest : ConsortiumManifest) (nodeId peerId pubkey : String) : Prop where
  entry : ∃ node, manifest.find nodeId = some node ∧ node.pubkey = some pubkey ∧
    node.peerId = some peerId

theorem present_eq_some {field : Option String} {s : String} (h : present field = some s) :
    field = some s :=
  (Option.filter_eq_some_iff.1 h).1

variable {auth : PeerAuth μ} {input : VerifyPeerAuthInput}

theorem verifyAgainst_ok {pubkey peerId : String}
    (h : verifyAgainst auth input pubkey peerId = .ok ()) :
    input.actualPeerId = peerId ∧ input.params.nonceHex input.localSlot = input.localMintedNonce ∧
      auth.verifyAePeerAuth pubkey input.params input.signature = true := by
  unfold verifyAgainst at h
  dsimp only at h
  split_ifs at h with hpeer hnonce hfresh hverify
  obtain ⟨hactual, -⟩ := not_or.1 hpeer
  obtain ⟨hours, -⟩ := not_or.1 hnonce
  exact ⟨not_not.1 hactual, not_not.1 hours, hverify⟩

theorem verifyPeerAuthFrame_ok (h : verifyPeerAuthFrame auth input = .ok ()) :
    input.params.nodeId input.localSlot.opposite = input.peerNodeId ∧
      input.params.nodeIdA ≠ input.params.nodeIdB ∧
      input.params.nonceHex input.localSlot = input.localMintedNonce ∧
      ∃ pubkey, Pinned input.manifest input.peerNodeId input.actualPeerId pubkey ∧
        auth.verifyAePeerAuth pubkey input.params input.signature = true := by
  unfold verifyPeerAuthFrame at h
  dsimp only at h
  split_ifs at h with hnode hself
  cases hfind : input.manifest.find input.peerNodeId with
  | none =>
    rw [hfind] at h
    cases h
  | some node =>
    rw [hfind] at h
    dsimp only at h
    split at h
    · rename_i pubkey peerId hpubkey hpeerId
      obtain ⟨hactual, hours, hverify⟩ := verifyAgainst_ok h
      refine ⟨not_not.1 hnode, fun heq => hself (Or.inl heq), hours, pubkey, ⟨node, hfind,
        present_eq_some hpubkey, ?_⟩, hverify⟩
      rw [present_eq_some hpeerId, hactual]
    · cases h

end

end Cello.Directory.AntiEntropy
