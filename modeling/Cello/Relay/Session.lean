import Cello.Interfaces.SealChain

/-!
# A relay's record of one session

`packages/relay/src/relay-types.ts` and `relay-store.ts`.  The relay serializes the
frames of a session behind a lock, so one session is one state that the frames act on
in turn; `none` is a session the store does not hold.

Keys travel as hex strings in the source and as bytes here.  The retry key
`sender:prev:content` is the triple of its parts, since no hex string has a colon.
-/

namespace Cello.Relay

open Lib Cello.Interfaces

inductive SessionStatus where
  | active
  | sealing
  | sealRejected
  | diverged
deriving DecidableEq, Repr

structure HashSubmitAck where
  sequenceNumber : ℕ
  relayId : Option String := none
  relaySignature : Option Bytes := none
  timestamp : Option ℕ := none
  structure2Cbor : Bytes
deriving DecidableEq, Repr

structure SessionAssignment where
  sessionId : Bytes
  participantA : Bytes
  participantB : Bytes
  priorRelayId : Option String := none
deriving DecidableEq, Repr

abbrev SubmissionKey := Bytes × Bytes × Bytes

structure RelaySessionState where
  issuedAcks : OrdMap SubmissionKey HashSubmitAck := OrdMap.empty
  assignment : SessionAssignment
  genesisPrevRoot : Bytes
  seqCounter : ℕ
  leafLog : List RelaySealLeaf
  status : SessionStatus
  sealRejectedReason : Option String := none
  priorRelayId : Option String := none
  awaitingReplay : Bool := false
  divergedReason : Option String := none
  treeStack : Stack
  runningRoot : Bytes

/-- A `hash_submit` frame as the wire decoder hands it on. -/
structure HashSubmit where
  sessionId : Bytes
  leafKind : ℕ
  structure1Cbor : Bytes
  senderSignature : Bytes
  contentBytes : Option Bytes := none
  predecessorRelayId : Option String := none
  predecessorRelaySignature : Option Bytes := none
  predecessorRelaySequence : Option JsNumber := none
  predecessorRelayTimestamp : Option JsNumber := none
  /-- `decodeInboundFrame` drops a frame with a signature of another length. -/
  signature_length : senderSignature.length = 64
deriving Repr

inductive HashSubmitErrorReason where
  | sessionNotFound
  | notAParticipant
  | leafKindInvalid
  | signatureInvalid
  | senderMismatch
  | lastSeenSeqAhead
  | ackHashMismatch
  | ackHashUnverifiable
  | counterSubmitDuplicate
  | sealRefused
  | sealInProgress
  | sessionDiverged
  | sessionAwaitingReplay
  | selfChainMismatch
  | relayPredecessorUnknown
  | submitMalformed
  | leafSignedByNeitherParticipant
  | leafSessionMismatch
deriving DecidableEq, Repr

structure HashSubmitError where
  reason : HashSubmitErrorReason
  detail : Option String := none
deriving DecidableEq, Repr

inductive WitnessAlertReason where
  | leafSignedByNeitherParticipant
  | replayChainDiverged
  | selfChainBroken
  | leafWitnessedByCounterparty
deriving DecidableEq, Repr

structure LeafDeliver where
  sessionId : Bytes
  leafKind : ℕ
  sequenceNumber : ℕ
  structure2Cbor : Bytes
  structure1Cbor : Bytes
deriving DecidableEq, Repr

structure Target where
  peerId : String
  multiaddr : String
deriving DecidableEq, Repr

structure SealData where
  leaves : List RelaySealLeaf
  seqCount : ℕ
  merkleRoot : Bytes
deriving DecidableEq, Repr

/-- What the relay sends while it handles a frame. -/
inductive Output where
  | error (e : HashSubmitError)
  | ack (a : HashSubmitAck)
  | echo (d : LeafDeliver)
  /-- Sent on the recipient's stream, or queued until there is one. -/
  | deliver (recipient : Bytes) (d : LeafDeliver)
  | alert (recipient : Bytes) (reason : WitnessAlertReason) (submitterIsCounterparty : Bool)
  | processSeal (target : Option Target) (data : SealData)
  /-- A `session_replay_result`: the number of adopted leaves, or the reason of a refusal. -/
  | replayResult (r : Except String ℕ)
deriving DecidableEq, Repr

namespace Output

/-- The frame was answered with an acknowledgement. -/
def IsAck (o : Output) : Prop := ∃ a, o = ack a

/-- A directory was asked. -/
def IsSealCall (o : Output) : Prop := ∃ target data, o = processSeal target data

instance : DecidablePred IsAck
  | ack a => .isTrue ⟨a, rfl⟩
  | error _ | echo _ | deliver _ _ | alert _ _ _ | processSeal _ _ | replayResult _ =>
    .isFalse fun ⟨_, h⟩ => Output.noConfusion h

instance : DecidablePred IsSealCall
  | processSeal target data => .isTrue ⟨target, data, rfl⟩
  | error _ | echo _ | deliver _ _ | alert _ _ _ | ack _ | replayResult _ =>
    .isFalse fun ⟨_, _, h⟩ => Output.noConfusion h

def Quiet (o : Output) : Prop := ¬o.IsAck ∧ ¬o.IsSealCall

theorem quiet_error (e : HashSubmitError) : (error e).Quiet := by simp [Quiet, IsAck, IsSealCall]

theorem quiet_alert (k : Bytes) (r : WitnessAlertReason) (b : Bool) : (alert k r b).Quiet := by
  simp [Quiet, IsAck, IsSealCall]

theorem quiet_echo (d : LeafDeliver) : (echo d).Quiet := by simp [Quiet, IsAck, IsSealCall]

theorem quiet_deliver (k : Bytes) (d : LeafDeliver) : (deliver k d).Quiet := by
  simp [Quiet, IsAck, IsSealCall]

theorem not_isSealCall_ack (a : HashSubmitAck) : ¬(ack a).IsSealCall := by simp [IsSealCall]

end Output

/-- What the relay is built from: other packages and its own configuration. -/
structure RelayExternals extends Externals where
  buildStructure2 : ℕ → Bytes → Bytes → Bytes → Bytes → Option Structure2
  /-- The bytes a relay signs in an acknowledgement: content hash, position, time. -/
  buildRelayAckTbs : Bytes → JsNumber → JsNumber → Bytes
  /-- `#relayId`. -/
  relayId : Option String
  /-- `#ackSigningKeyProvider !== null`. -/
  hasSigningKey : Bool
  /-- `#directory !== null`. -/
  hasDirectory : Bool
  /-- `#directory.getRelayPublicKey` exists. -/
  hasKeyLookup : Bool

/-- `recordSession`, with the resume mark that `recordAssignment` adds. -/
def recordSession (assignment : SessionAssignment) (genesisRoot : Bytes) : RelaySessionState where
  assignment := assignment
  genesisPrevRoot := genesisRoot
  seqCounter := 0
  leafLog := []
  status := .active
  treeStack := []
  runningRoot := genesisRoot
  priorRelayId := assignment.priorRelayId
  awaitingReplay := assignment.priorRelayId.isSome

/-- The content hash of the last leaf `sender` wrote. -/
def lastOwnLeaf (log : List RelaySealLeaf) (sender : Bytes) : Option Bytes :=
  (log.reverse.find? fun l => decide (l.s2.senderPubkey = sender)).map fun l => l.s2.contentHash

/-- The link the next message of `sender` has to carry. -/
def expectedOwn (st : RelaySessionState) (sender : Bytes) : Bytes :=
  (lastOwnLeaf st.leafLog sender).getD st.genesisPrevRoot

/-- The ctrl leaves of the log are by two senders at least. -/
def closedByBoth (log : List RelaySealLeaf) : Bool :=
  let ctrlLeaves := log.filter fun l => decide (l.kind = .ctrl)
  decide (2 ≤ ctrlLeaves.length) && decide (2 ≤ (distinctSenders ctrlLeaves).length)

end Cello.Relay
