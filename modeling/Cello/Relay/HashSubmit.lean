import Cello.Relay.SealAttempt

/-!
# Witnessing a leaf

`#processHashSubmitLocked` of `packages/relay/src/relay-node.ts`: the checks of a
`hash_submit` frame in the source's order, the answer to a retransmission, the self
link, and the append with the acknowledgement and the seal trigger behind it.

`sender` is the authenticated connection a frame came on.  The author of the leaf is
the participant whose key its signature verifies under, and the two may differ.
-/

namespace Cello.Relay

open Lib Cello.Interfaces

/-- What the relay meets while it handles one frame. -/
structure Moment where
  now : ℕ
  /-- The acknowledgement signer; `none` when it throws. -/
  sign : Bytes → Option Bytes
  /-- `getRelayPublicKey`; `none` when the directory has no key or was not reached. -/
  relayPublicKey : String → Option Bytes
  directories : Directories

/-! ### Reading the leaf -/

structure Structure1 extends Structure1Fields where
  senderPubkey : Bytes
deriving DecidableEq, Repr

def relayStructure1Of : Cbor → Option Structure1
  | .arr [pv, ch, spk, sid, lss, ts, lsh, poh] => do
    let fields ← structure1Of (.arr [pv, ch, spk, sid, lss, ts, lsh, poh])
    let senderPubkey ← bytesOfLength 32 spk
    return { fields with senderPubkey }
  | _ => none

def decodeStructure1 (ext : RelayExternals) (cbor : Bytes) : Option Structure1 :=
  (ext.cborDecode cbor).bind relayStructure1Of

/-- `RELAY_LEAF_KINDS`. -/
def relayLeafKind : ℕ → Option LeafKind
  | 0 => some .msg
  | 2 => some .ctrl
  | 4 => some .doc
  | 5 => some .reject
  | _ => none

def witnessLeafSignature (ext : RelayExternals) (expectedKeys : List Bytes)
    (structure1Cbor senderSignature : Bytes) : Option Bytes :=
  expectedKeys.find? fun key => ext.verify key structure1Cbor senderSignature

def expectedKeys (st : RelaySessionState) (sender : Bytes) : List Bytes :=
  if sender = st.assignment.participantB then
    [st.assignment.participantB, st.assignment.participantA]
  else [st.assignment.participantA, st.assignment.participantB]

/-- The acknowledgement of an earlier relay, when the frame carries one, verifies. -/
def predecessorVerified (ext : RelayExternals) (mom : Moment) (frame : HashSubmit)
    (s1 : Structure1) : Bool :=
  match frame.predecessorRelayId with
  | none => true
  | some relayId =>
    match frame.predecessorRelaySignature, frame.predecessorRelaySequence,
      frame.predecessorRelayTimestamp with
    | some signature, some seq, some ts =>
      ext.hasDirectory && ext.hasKeyLookup &&
        match mom.relayPublicKey relayId with
        | none => false
        | some key => ext.verify key (ext.buildRelayAckTbs s1.contentHash seq ts) signature
    | _, _, _ => false

def alreadyHeld (log : List RelaySealLeaf) (author contentHash : Bytes) : Bool :=
  log.any fun l => decide (l.s2.senderPubkey = author) && decide (l.s2.contentHash = contentHash)

/-! ### The checks -/

/-- Answers for a session that takes no leaf. -/
def gate (st : RelaySessionState) : Except HashSubmitError Unit :=
  match st.status with
  | .diverged => .error ⟨.sessionDiverged, st.divergedReason⟩
  -- an empty reason is not sent
  | .sealRejected => .error ⟨.sealRefused, st.sealRejectedReason.filter (· ≠ "")⟩
  | .sealing => .error ⟨.sealInProgress, none⟩
  | .active =>
    if st.awaitingReplay then
      .error ⟨.sessionAwaitingReplay, some ("this relay inherited this conversation and has not " ++
        "been given its history yet. Send the replay batch (session_replay) for this session first.")⟩
    else .ok ()

/-- A leaf the relay can attribute: its claim, its author and its kind. -/
structure Witnessed where
  s1 : Structure1
  author : Bytes
  kind : LeafKind
deriving DecidableEq, Repr

/-- Who wrote the leaf, and whether this connection may submit it. -/
def identify (ext : RelayExternals) (mom : Moment) (st : RelaySessionState) (sender : Bytes)
    (frame : HashSubmit) : Except HashSubmitError Witnessed :=
  match decodeStructure1 ext frame.structure1Cbor with
  | none => .error ⟨.submitMalformed, none⟩
  | some s1 =>
    if s1.sessionId ≠ frame.sessionId then .error ⟨.leafSessionMismatch, none⟩
    else
      match witnessLeafSignature ext (expectedKeys st sender) frame.structure1Cbor
          frame.senderSignature with
      | none => .error ⟨.leafSignedByNeitherParticipant, none⟩
      | some author =>
        if sender ≠ st.assignment.participantA ∧ sender ≠ st.assignment.participantB then
          .error ⟨.notAParticipant, none⟩
        else if !predecessorVerified ext mom frame s1 then .error ⟨.relayPredecessorUnknown, none⟩
        else
          match relayLeafKind frame.leafKind with
          | none => .error ⟨.leafKindInvalid, none⟩
          | some kind =>
            if s1.senderPubkey ≠ author then .error ⟨.senderMismatch, none⟩
            -- a counter-submit may not replay a leaf the relay holds
            else if sender ≠ author ∧ alreadyHeld st.leafLog author s1.contentHash then
              .error ⟨.counterSubmitDuplicate, none⟩
            else .ok ⟨s1, author, kind⟩

/-- `leaf_log[n - 1]` for a number that is a position. -/
def leafAt (log : List RelaySealLeaf) : JsNumber → Option RelaySealLeaf
  | .fin q => if q.den = 1 ∧ 0 < q.num then log[q.num.toNat - 1]? else none
  | _ => none

def expectedAck (st : RelaySessionState) (lastSeenSeq : JsNumber) : Option Bytes :=
  if lastSeenSeq = .fin 0 then some st.genesisPrevRoot
  else (leafAt st.leafLog lastSeenSeq).map fun l => l.s2.contentHash

/-- What the sender says it has seen is what the relay holds there. -/
def checkAcknowledgement (st : RelaySessionState) (s1 : Structure1) : Except HashSubmitError Unit :=
  if s1.lastSeenSeq.gt (st.seqCounter : ℕ) then .error ⟨.lastSeenSeqAhead, none⟩
  else
    match expectedAck st s1.lastSeenSeq with
    | none => .error ⟨.ackHashUnverifiable, none⟩
    | some hash =>
      if s1.lastSeenHash ≠ hash then
        .error ⟨.ackHashMismatch,
          some "the acknowledged hash does not match the message at that position"⟩
      else .ok ()

/-! ### Alerts -/

def others (st : RelaySessionState) (sender : Bytes) : List Bytes :=
  [st.assignment.participantA, st.assignment.participantB].filter fun k => decide (k ≠ sender)

def unwitnessedAlerts (st : RelaySessionState) (sender : Bytes) (e : HashSubmitError) : List Output :=
  if e.reason = .leafSignedByNeitherParticipant then
    (others st sender).map fun k => .alert k .leafSignedByNeitherParticipant
      (decide (sender = st.assignment.participantA ∨ sender = st.assignment.participantB))
  else []

/-- A counter-submit is reported to both. -/
def counterSubmitAlerts (st : RelaySessionState) (sender author : Bytes) : List Output :=
  if sender ≠ author then
    [st.assignment.participantA, st.assignment.participantB].map fun k =>
      .alert k .leafWitnessedByCounterparty (decide (k = author))
  else []

def selfChainAlerts (st : RelaySessionState) (sender : Bytes) : List Output :=
  (others st sender).map fun k => .alert k .selfChainBroken true

/-! ### The append -/

def submissionKey (sender : Bytes) (s1 : Structure1) : SubmissionKey :=
  (sender, s1.prevOwnHash, s1.contentHash)

/-- The session after a broken self link. -/
def diverge (st : RelaySessionState) : RelaySessionState :=
  { st with
    status := .diverged
    awaitingReplay := false
    divergedReason := some ("a submitted message's link to its own sender's previous message does " ++
      "not match this relay's record of it") }

def selfChainError : HashSubmitError :=
  ⟨.selfChainMismatch, some ("the link to your own previous message does not match what this relay " ++
    "recorded, so this relay will not witness this session any further. Your counterparty has been " ++
    "told. Confirm the conversation with them out of band; if your records agree, open a new session.")⟩

/-- The acknowledgement, signed when the relay can. -/
def ackFrame (ext : RelayExternals) (mom : Moment) (contentHash : Bytes) (seq : ℕ)
    (s2Cbor : Bytes) : HashSubmitAck :=
  match ext.hasSigningKey, ext.relayId with
  | true, some relayId =>
    match mom.sign (ext.buildRelayAckTbs contentHash seq mom.now) with
    | some signature =>
      { sequenceNumber := seq, relayId := some relayId, relaySignature := some signature
        timestamp := some mom.now, structure2Cbor := s2Cbor }
    | none => { sequenceNumber := seq, structure2Cbor := s2Cbor }
  | _, _ => { sequenceNumber := seq, structure2Cbor := s2Cbor }

def ackIsUsable (ext : RelayExternals) (ack : HashSubmitAck) : Bool :=
  !ext.hasSigningKey || ack.relaySignature.isSome

/-- The state with one more leaf. -/
def appendLeaf (ext : RelayExternals) (st : RelaySessionState) (frame : HashSubmit)
    (kind : LeafKind) (s2 : Structure2) : RelaySessionState :=
  let node := ext.leafHash kind (ext.encodeStructure2 s2)
  let stack := pushNode ext.nodeHash node 0 st.treeStack
  { st with
    seqCounter := st.seqCounter + 1
    leafLog := st.leafLog ++ [{ kind := kind, s2 := s2, structure1Cbor := frame.structure1Cbor
                                contentBytes := frame.contentBytes }]
    treeStack := stack
    runningRoot := stackRoot ext.nodeHash node stack }

def recordAck (ext : RelayExternals) (st : RelaySessionState) (key : SubmissionKey)
    (ack : HashSubmitAck) : RelaySessionState :=
  if ackIsUsable ext ack then { st with issuedAcks := st.issuedAcks.set key ack } else st

def sealTrigger (ext : RelayExternals) (mom : Moment) (kind : LeafKind) (st : RelaySessionState) :
    Handled :=
  if kind = .ctrl ∧ ext.hasDirectory then maybeProcessSeal ext mom.directories st
  else ⟨some st, []⟩

/-- From the retry lookup on: the leaf has passed every check but the self link. -/
def sequenceLeaf (ext : RelayExternals) (mom : Moment) (st : RelaySessionState) (sender : Bytes)
    (frame : HashSubmit) (w : Witnessed) : Handled :=
  match st.issuedAcks.get (submissionKey sender w.s1) with
  | some already => ⟨some st, [.ack already]⟩
  | none =>
    if w.s1.prevOwnHash ≠ expectedOwn st sender then
      ⟨some (diverge st), selfChainAlerts st sender ++ [.error selfChainError]⟩
    else
      let seq := st.seqCounter + 1
      match ext.buildStructure2 seq w.s1.senderPubkey w.s1.contentHash frame.senderSignature
          st.runningRoot with
      | none => ⟨some st, [.error ⟨.signatureInvalid, none⟩]⟩
      | some s2 =>
        let s2Cbor := ext.encodeStructure2 s2
        let ack := ackFrame ext mom w.s1.contentHash seq s2Cbor
        let st' := recordAck ext (appendLeaf ext st frame w.kind s2) (submissionKey sender w.s1) ack
        let delivery : LeafDeliver := ⟨frame.sessionId, frame.leafKind, seq, s2Cbor, frame.structure1Cbor⟩
        let counterparty := if sender = st.assignment.participantA then st.assignment.participantB
          else st.assignment.participantA
        let sealed := sealTrigger ext mom w.kind st'
        ⟨sealed.session, [.ack ack, .echo delivery, .deliver counterparty delivery] ++ sealed.out⟩

/-- `#processHashSubmitLocked`. -/
def processHashSubmitLocked (ext : RelayExternals) (mom : Moment) (session : Option RelaySessionState)
    (sender : Bytes) (frame : HashSubmit) : Handled :=
  match session with
  | none => ⟨none, [.error ⟨.sessionNotFound, none⟩]⟩
  | some st =>
    match gate st with
    | .error e => ⟨some st, [.error e]⟩
    | .ok () =>
      match identify ext mom st sender frame with
      | .error e => ⟨some st, unwitnessedAlerts st sender e ++ [.error e]⟩
      | .ok w =>
        let alerts := counterSubmitAlerts st sender w.author
        match checkAcknowledgement st w.s1 with
        | .error e => ⟨some st, alerts ++ [.error e]⟩
        | .ok () =>
          let handled := sequenceLeaf ext mom st sender frame w
          ⟨handled.session, alerts ++ handled.out⟩

end Cello.Relay
