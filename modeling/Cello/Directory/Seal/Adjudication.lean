import Cello.Directory.Seal.ProcessSeal
import Cello.Directory.Seal.Unilateral
import Cello.Lib.GuardedRun

/-!
# Seals in flight

One session on one directory node, and the three handlers that can close it: `#processSealUnilateral`,
`processSeal` and `#processSealFrostSignature`.  No lock holds them apart.  Each gives up control
where it awaits: the relay's liveness answer, the initiator's group key, the node's own signature,
the store.  A `Phase` is where a handler is suspended and what it still holds, and a `Move` is what
a handler does from one await to the next, so a run is any interleaving of the pieces.

`MoveOf` says once which moves each piece can make (`moveOf_sealMove`); every invariant over runs is
read off it.

The lookup of the initiator's home node is one step with the write before it: it delays the queueing
of `seal_verified` and the answer to the relay, and nothing else.
-/

namespace Cello.Directory.Seal

open Lib Cello.Interfaces

/-! ### What the handlers keep and send -/

/-- An entry of `#pendingFrostSeals`. -/
structure PendingFrostSeal where
  initiator : Bytes
  participantA : Bytes
  participantB : Bytes
  sealedRoot : Bytes
  leafCount : ℕ
  timestamp : ℤ
  tbs : Bytes
  unilateral : Bool
  attestation : Option Attestation
  legibility : SealLegibility
  frontierLeaves : List CosignLeaf

/-- An entry of `#unilateralSeals`. -/
structure UnilateralSeal where
  sealedRoot : Bytes
  sealedAt : ℤ
  submitter : Bytes
deriving DecidableEq, Repr

inductive SignatureType where
  | frost
  | single
deriving DecidableEq, Repr

/-- The arguments of `#completeUnilateralNotarization`. -/
structure UnilateralCompletion where
  present : Bytes
  absent : Bytes
  sealedRoot : Bytes
  leafCount : ℕ
  closeTimestamp : ℤ
  frostSignature : Bytes
  signatureType : SignatureType
  attestation : Attestation
  legibility : SealLegibility
  frontierLeaves : List CosignLeaf
  signerPubkey : Option Bytes

/-- What a bilateral seal comes to. -/
structure BilateralSeal where
  participantA : Bytes
  participantB : Bytes
  sealedRoot : Bytes
  closeTimestamp : ℤ
  signature : Bytes
  signatureType : SignatureType
  leafCount : Option ℕ
  signerPubkey : Option Bytes
  legibility : SealLegibility
  frontierLeaves : List CosignLeaf

/-- `processSeal` once the message to be signed is fixed. -/
structure PreparedSeal where
  adjudication : SealAdjudication
  closeTimestamp : ℤ
  tbs : Bytes
  frontierLeaves : List CosignLeaf

inductive SealFrame where
  | sealVerified (sealedRoot : Bytes) (leafCount : ℕ) (timestamp : ℤ)
      (legibility : Option SealLegibility) (frontierLeaves : List CosignLeaf)
  | sessionSealed (sealed : BilateralSeal)
  | sessionSealRejected (reason : String) (detail : Option String)
  | sealUnilateralTooEarly (early : TooEarly)
  | sealUnilateralConfirmed (c : UnilateralCompletion)
  | sealUnilateralNotification (c : UnilateralCompletion)

/-- A frame is sent on the recipient's stream or queued for it; the relay gets a verdict. -/
inductive SealOutput where
  | to (recipient : Bytes) (frame : SealFrame)
  | broadcast (frame : SealFrame)
  | reply (refusal : Option String)

/-- The row of a unilateral seal. -/
def UnilateralCompletion.notarization (sessionId : Bytes) (c : UnilateralCompletion) :
    SealNotarization where
  sessionId := sessionId
  sealedRoot := c.sealedRoot
  participantAPubkey := c.present
  participantBPubkey := c.absent
  closeTimestamp := .fin c.closeTimestamp
  frostSignature := c.frostSignature
  sealType := some .unilateral
  leafCount := some c.leafCount
  signerPubkey := c.signerPubkey
  legibility := c.legibility.toValue

/-- The row of a bilateral seal.  A node that signed alone stores no certificate fields. -/
def BilateralSeal.notarization (sessionId : Bytes) (b : BilateralSeal) : SealNotarization where
  sessionId := sessionId
  sealedRoot := b.sealedRoot
  participantAPubkey := b.participantA
  participantBPubkey := b.participantB
  closeTimestamp := .fin b.closeTimestamp
  frostSignature := b.signature
  sealType := some .bilateral
  leafCount := b.leafCount
  signerPubkey := b.signerPubkey
  legibility := if b.signatureType = .frost then b.legibility.toValue else .undefined

/-! ### Where a handler stands -/

inductive Phase where
  /-- The relay is asked about the counterparty. -/
  | liveness (sender : Bytes) (frame : SealUnilateral) (now genesisAt : ℤ)
      (participants : Bytes × Bytes) (highStakes : Bool)
  /-- The group key of the submitter is being resolved. -/
  | unilateralKey (v : VerifiedUnilateral)
  /-- The node signs alone. -/
  | unilateralSign (v : VerifiedUnilateral)
  /-- `await recordNotarization` of a unilateral seal. -/
  | unilateralRecord (c : UnilateralCompletion)
  /-- The group key of the seal initiator is being resolved. -/
  | sealKey (p : PreparedSeal)
  | sealSign (p : PreparedSeal)
  /-- `void recordNotarization` of a bilateral seal, on its own. -/
  | sealRecord (b : BilateralSeal)
  /-- A signature has taken the pending seal, and the key is being resolved. -/
  | frostKey (p : PendingFrostSeal) (signature : Bytes)

/-- How an await ends. -/
inductive Answer where
  | liveness (state : Liveness)
  /-- The group key, if there is one, and whether its owner is at home on another node. -/
  | key (primary : Option Bytes) (homedElsewhere : Bool)
  | signed (signature : Bytes)
  /-- Whether the row is in, and whether the submitter is connected. -/
  | stored (ok connected : Bool)
  | threw

/-- What a handler does up to its next await. -/
inductive Move where
  | ignore
  | refuse (out : List SealOutput)
  | suspend (phase : Phase)
  /-- The in-flight marker is set. -/
  | enter (v : VerifiedUnilateral)
  /-- FROST signing is asked for. -/
  | openFrost (p : PendingFrostSeal) (out : List SealOutput)
  /-- The node has signed alone and calls `recordNotarization`. -/
  | recordAlone (c : UnilateralCompletion)
  /-- The pending seal is taken. -/
  | take (p : PendingFrostSeal) (signature : Bytes)
  | completeUnilateral (c : UnilateralCompletion) (ok : Bool) (out : List SealOutput)
  | completeBilateral (b : BilateralSeal) (out : List SealOutput)
  | record (b : BilateralSeal) (ok : Bool)

/-- The session as the node has it.  `reached` lists the requests that got as far as FROST signing
or `recordNotarization`; nothing reads it. -/
structure SealState where
  unilateralSeals : Option UnilateralSeal
  sessionGenesisAt : Option ℤ
  sessionParticipants : Option (Bytes × Bytes)
  pendingSessions : Option (Bytes × Bytes)
  sessionHighStakes : Bool
  pendingFrostSeals : Option PendingFrostSeal
  tables : Tables
  tasks : List (ℕ × Phase)
  nextId : ℕ
  outputs : List SealOutput
  reached : List ℕ

/-- A session that has just been assigned; `pending` is its entry in `#pendingSessions`, which goes
when an unfinished session's stream closes. -/
def SealState.established (genesisAt : ℤ) (participants : Bytes × Bytes)
    (pending : Option (Bytes × Bytes)) (highStakes : Bool) : SealState where
  unilateralSeals := none
  sessionGenesisAt := some genesisAt
  sessionParticipants := some participants
  pendingSessions := pending
  sessionHighStakes := highStakes
  pendingFrostSeals := none
  tables := ⟨[], []⟩
  tasks := []
  nextId := 0
  outputs := []
  reached := []

/-- The participants the node knows of. -/
def SealState.participants (s : SealState) : Option (Bytes × Bytes) :=
  s.sessionParticipants.or s.pendingSessions

/-! ### The handlers in pieces -/

section Handlers

variable (ext : NodeExternals) (cfg : NodeConfig) (sessionId : Bytes)

/-- `#processSealUnilateral` from the liveness answer to the marker. -/
def decideUnilateral (sender : Bytes) (frame : SealUnilateral) (now genesisAt : ℤ)
    (participants : Bytes × Bytes) (highStakes : Bool) (liveness : Liveness) : Move :=
  match unilateralGate cfg highStakes (now - genesisAt) liveness with
  | .error early => .refuse [.to sender (.sealUnilateralTooEarly early)]
  | .ok () =>
    match verifyUnilateral ext sessionId sender participants frame now liveness with
    | .error _ => .ignore
    | .ok v => .enter v

/-- `#processSealUnilateral` up to the liveness query.  A relay without one is not awaited. -/
def startUnilateral (s : SealState) (sender : Bytes) (frame : SealUnilateral) (now : ℤ) : Move :=
  if s.unilateralSeals.isSome then .ignore
  else
    match s.sessionGenesisAt, s.participants with
    | some genesisAt, some participants =>
      if sender ≠ participants.1 ∧ sender ≠ participants.2 then .ignore
      else if cfg.relayReportsLiveness then
        .suspend (.liveness sender frame now genesisAt participants s.sessionHighStakes)
      else
        decideUnilateral ext cfg sessionId sender frame now genesisAt participants
          s.sessionHighStakes .unknown
    | _, _ => .ignore

/-- `#notifySealRejected` and the answer to the relay. -/
def rejectionOutputs (e : SealRejection) : List SealOutput :=
  let frame := SealFrame.sessionSealRejected e.reason.wireReason e.detail
  (match e.recipients with
    | some (a, b) => [.to a frame, .to b frame]
    | none => [.broadcast frame]) ++ [.reply (some e.reason.code)]

/-- The signed half of a leaf, with what a co-signer judges. -/
def frontierLeaf (l : RelaySealLeaf) : CosignLeaf where
  structure1Cbor := l.structure1Cbor
  senderPubkey := l.s2.senderPubkey
  senderSignature := l.s2.senderSignature
  contentBytes := l.contentBytes
  kind := some l.kind.text

def sealTbs (a : SealAdjudication) (closeTimestamp : ℤ) : Bytes :=
  bindLegibilityToTbs ext.sha256
    (ext.buildSealTbs sessionId a.contentRoot a.leafCount (.fin closeTimestamp))
    a.legibility.toValue

/-- `processSeal` up to the resolution of the group key. -/
def startSeal (s : SealState) (leaves : List RelaySealLeaf) (relayRoot : Bytes) (now : ℤ) : Move :=
  match adjudicateSeal ext.toSealExternals sessionId s.participants leaves relayRoot with
  | .error e => .refuse (rejectionOutputs e)
  | .ok a =>
    .suspend (.sealKey
      { adjudication := a
        closeTimestamp := now
        tbs := sealTbs ext sessionId a now
        frontierLeaves := leaves.map frontierLeaf })

/-- `#processSealFrostSignature` up to the resolution of the group key. -/
def startSignature (s : SealState) (initiator signature : Bytes) : Move :=
  match s.pendingFrostSeals with
  | none => .ignore
  | some p => if p.initiator ≠ initiator then .ignore else .take p signature

/-- The slot of a unilateral seal. -/
def VerifiedUnilateral.pending (v : VerifiedUnilateral) : PendingFrostSeal where
  initiator := v.present
  participantA := v.present
  participantB := v.absent
  sealedRoot := v.sealedRoot
  leafCount := v.leafCount
  timestamp := v.closeTimestamp
  tbs := ext.buildSealTbs sessionId v.sealedRoot v.leafCount (.fin v.closeTimestamp)
  unilateral := true
  attestation := some v.attestation
  legibility := v.legibility
  frontierLeaves := v.frontierLeaves

/-- The slot of a bilateral seal. -/
def PreparedSeal.pending (p : PreparedSeal) : PendingFrostSeal where
  initiator := p.adjudication.initiator
  participantA := p.adjudication.participantA
  participantB := p.adjudication.participantB
  sealedRoot := p.adjudication.contentRoot
  leafCount := p.adjudication.leafCount
  timestamp := p.closeTimestamp
  tbs := p.tbs
  unilateral := false
  attestation := none
  legibility := p.adjudication.legibility
  frontierLeaves := p.frontierLeaves

def PendingFrostSeal.verifiedFrame (p : PendingFrostSeal) : SealFrame :=
  .sealVerified p.sealedRoot p.leafCount p.timestamp
    (if p.unilateral then none else some p.legibility) p.frontierLeaves

/-- The certificate a node signs alone for one party. -/
def VerifiedUnilateral.completion (v : VerifiedUnilateral) (signature : Bytes) :
    UnilateralCompletion where
  present := v.present
  absent := v.absent
  sealedRoot := v.sealedRoot
  leafCount := v.leafCount
  closeTimestamp := v.closeTimestamp
  frostSignature := signature
  signatureType := .single
  attestation := v.attestation
  legibility := v.legibility
  frontierLeaves := v.frontierLeaves
  signerPubkey := none

/-- The certificate of a FROST signature for one party. -/
def PendingFrostSeal.completion (p : PendingFrostSeal) (signature primary : Bytes) :
    UnilateralCompletion where
  present := p.participantA
  absent := p.participantB
  sealedRoot := p.sealedRoot
  leafCount := p.leafCount
  closeTimestamp := p.timestamp
  frostSignature := signature
  signatureType := .frost
  attestation := p.attestation.getD .absent
  legibility := p.legibility
  frontierLeaves := p.frontierLeaves
  signerPubkey := some primary

/-- The certificate a node signs alone for both parties. -/
def PreparedSeal.sealed (p : PreparedSeal) (signature : Bytes) : BilateralSeal where
  participantA := p.adjudication.participantA
  participantB := p.adjudication.participantB
  sealedRoot := p.adjudication.contentRoot
  closeTimestamp := p.closeTimestamp
  signature := signature
  signatureType := .single
  leafCount := none
  signerPubkey := none
  legibility := p.adjudication.legibility
  frontierLeaves := []

/-- The certificate of a FROST signature for both parties. -/
def PendingFrostSeal.sealed (p : PendingFrostSeal) (signature primary : Bytes) : BilateralSeal where
  participantA := p.participantA
  participantB := p.participantB
  sealedRoot := p.sealedRoot
  closeTimestamp := p.timestamp
  signature := signature
  signatureType := .frost
  leafCount := some p.leafCount
  signerPubkey := some primary
  legibility := p.legibility
  frontierLeaves := p.frontierLeaves

/-- `session_sealed` to both. -/
def sealedOutputs (b : BilateralSeal) : List SealOutput :=
  [.to b.participantA (.sessionSealed b), .to b.participantB (.sessionSealed b)]

/-- `session_seal_rejected` to both, for a signature that does not verify. -/
def invalidSignatureOutputs (p : PendingFrostSeal) : List SealOutput :=
  [.to p.participantA (.sessionSealRejected "seal_signature_invalid" none),
    .to p.participantB (.sessionSealRejected "seal_signature_invalid" none)]

def completionOutputs (c : UnilateralCompletion) (connected : Bool) : List SealOutput :=
  (if connected then [.to c.present (.sealUnilateralConfirmed c)] else []) ++
    [.to c.absent (.sealUnilateralNotification c)]

/-- `seal_verified`, and what the relay is told. -/
def verifiedOutputs (p : PendingFrostSeal) (homedElsewhere : Bool) : List SealOutput :=
  [.to p.initiator p.verifiedFrame,
    .reply (if homedElsewhere then some "seal_initiator_not_local" else none)]

/-- A handler from one await to the next; `none` where the answer is not one to its question. -/
def resumePhase : Phase → Answer → Option Move
  | .liveness sender frame now genesisAt participants highStakes, .liveness state =>
    some (decideUnilateral ext cfg sessionId sender frame now genesisAt participants highStakes state)
  -- a query that fails counts as one that saw nothing
  | .liveness sender frame now genesisAt participants highStakes, .threw =>
    some (decideUnilateral ext cfg sessionId sender frame now genesisAt participants highStakes
      .unknown)
  | .unilateralKey v, .key none _ => some (.suspend (.unilateralSign v))
  | .unilateralKey v, .key (some _) _ =>
    let p := v.pending ext sessionId
    some (.openFrost p [.to p.initiator p.verifiedFrame])
  | .unilateralSign v, .signed signature => some (.recordAlone (v.completion signature))
  | .unilateralRecord c, .stored ok connected =>
    some (.completeUnilateral c ok (completionOutputs c connected))
  | .sealKey p, .key none _ => some (.suspend (.sealSign p))
  | .sealKey p, .key (some _) homedElsewhere =>
    some (.openFrost p.pending (verifiedOutputs p.pending homedElsewhere))
  | .sealSign p, .signed signature =>
    some (.completeBilateral (p.sealed signature)
      (sealedOutputs (p.sealed signature) ++ [.reply none]))
  | .sealRecord b, .stored ok _ => some (.record b ok)
  | .frostKey _ _, .key none _ => some .ignore
  | .frostKey p signature, .key (some primary) _ =>
    if !ext.verifyFrost signature p.tbs primary then some (.refuse (invalidSignatureOutputs p))
    else if p.unilateral then some (.suspend (.unilateralRecord (p.completion signature primary)))
    else
      some (.completeBilateral (p.sealed signature primary)
        (sealedOutputs (p.sealed signature primary)))
  | .unilateralKey _, .threw => some .ignore
  | .unilateralSign _, .threw => some .ignore
  | .sealKey _, .threw => some .ignore
  | .sealSign _, .threw => some .ignore
  | .frostKey _ _, .threw => some .ignore
  | _, _ => none

/-! ### Steps -/

/-- A message arrives, or an await ends. -/
inductive SealEvent where
  | sealUnilateral (sender : Bytes) (frame : SealUnilateral) (now : ℤ)
  | processSeal (leaves : List RelaySealLeaf) (relayRoot : Bytes) (now : ℤ)
  | frostSignature (initiator signature : Bytes)
  | resume (id : ℕ) (answer : Answer)

/-- Where the handler of an event is suspended; `none` for one that starts. -/
def SealState.phaseOf (s : SealState) : SealEvent → Option Phase
  | .resume id _ => s.tasks.lookup id
  | _ => none

/-- The handler of an event and its move. -/
def sealMove (s : SealState) : SealEvent → Option (ℕ × Move)
  | .sealUnilateral sender frame now =>
    some (s.nextId, startUnilateral ext cfg sessionId s sender frame now)
  | .processSeal leaves relayRoot now => some (s.nextId, startSeal ext sessionId s leaves relayRoot now)
  | .frostSignature initiator signature => some (s.nextId, startSignature s initiator signature)
  | .resume id answer =>
    (s.tasks.lookup id).bind fun phase =>
      (resumePhase ext cfg sessionId phase answer).map fun move => (id, move)

def SealState.running (s : SealState) : SealEvent → SealState
  | .resume id _ => { s with tasks := s.tasks.eraseP fun task => task.1 = id }
  | _ => { s with nextId := s.nextId + 1 }

/-- `recordNotarization`, when the store works. -/
def storeRow (tables : Tables) (n : SealNotarization) (ok : Bool) : Tables :=
  if ok then recordNotarization tables n else tables

/-- What a move writes. -/
def perform (s : SealState) (id : ℕ) : Move → SealState
  | .ignore => s
  | .refuse out => { s with outputs := s.outputs ++ out }
  | .suspend phase => { s with tasks := s.tasks ++ [(id, phase)] }
  | .enter v =>
    { s with
      unilateralSeals := some ⟨v.sealedRoot, v.closeTimestamp, v.present⟩
      tasks := s.tasks ++ [(id, .unilateralKey v)] }
  | .openFrost p out =>
    { s with
      pendingFrostSeals := some p
      outputs := s.outputs ++ out
      reached := if p.unilateral then s.reached ++ [id] else s.reached }
  | .recordAlone c =>
    { s with tasks := s.tasks ++ [(id, .unilateralRecord c)], reached := s.reached ++ [id] }
  | .take p signature =>
    { s with pendingFrostSeals := none, tasks := s.tasks ++ [(id, .frostKey p signature)] }
  | .completeUnilateral c ok out =>
    { s with
      tables := storeRow s.tables (c.notarization sessionId) ok
      outputs := s.outputs ++ out
      -- the maps go whether the row is in or not; the marker stays
      sessionParticipants := none
      sessionGenesisAt := none
      sessionHighStakes := false }
  | .completeBilateral b out =>
    { s with tasks := s.tasks ++ [(id, .sealRecord b)], outputs := s.outputs ++ out }
  | .record b ok => { s with tables := storeRow s.tables (b.notarization sessionId) ok }

/-- One step of the node. -/
def sealStep (s : SealState) (e : SealEvent) : SealState :=
  match sealMove ext cfg sessionId s e with
  | none => s
  | some (id, move) => perform sessionId (s.running e) id move

/-- The state after a list of events. -/
def sealRun (s : SealState) (events : List SealEvent) : SealState :=
  events.foldl (sealStep ext cfg sessionId) s

end Handlers

/-! ### Which moves there are -/

def SealOutput.isNotice : SealOutput → Bool
  | .to _ (.sealUnilateralConfirmed _) => true
  | .to _ (.sealUnilateralNotification _) => true
  | _ => false

section Moves

variable (ext : NodeExternals) (sessionId : Bytes)

/-- **What a handler can do from where it is suspended** (`none`: from its start). -/
inductive MoveOf (s : SealState) : Option Phase → Move → Prop
  | ignore (at? : Option Phase) : MoveOf s at? .ignore
  | refuse (at? : Option Phase) (out : List SealOutput) (quiet : ∀ o ∈ out, o.isNotice = false) :
      MoveOf s at? (.refuse out)
  | ask (sender : Bytes) (frame : SealUnilateral) (now genesisAt : ℤ)
      (participants : Bytes × Bytes) (highStakes : Bool) (first : s.unilateralSeals = none) :
      MoveOf s none (.suspend (.liveness sender frame now genesisAt participants highStakes))
  | enterAtOnce (v : VerifiedUnilateral) (first : s.unilateralSeals = none) :
      MoveOf s none (.enter v)
  | adjudicate (p : PreparedSeal) : MoveOf s none (.suspend (.sealKey p))
  | take (p : PendingFrostSeal) (signature : Bytes) (pending : s.pendingFrostSeals = some p) :
      MoveOf s none (.take p signature)
  | enter (sender : Bytes) (frame : SealUnilateral) (now genesisAt : ℤ)
      (participants : Bytes × Bytes) (highStakes : Bool) (v : VerifiedUnilateral) :
      MoveOf s (some (.liveness sender frame now genesisAt participants highStakes)) (.enter v)
  | signAlone (v : VerifiedUnilateral) :
      MoveOf s (some (.unilateralKey v)) (.suspend (.unilateralSign v))
  | openUnilateral (v : VerifiedUnilateral) (out : List SealOutput)
      (quiet : ∀ o ∈ out, o.isNotice = false) :
      MoveOf s (some (.unilateralKey v)) (.openFrost (v.pending ext sessionId) out)
  | recordAlone (v : VerifiedUnilateral) (c : UnilateralCompletion) :
      MoveOf s (some (.unilateralSign v)) (.recordAlone c)
  | completeUnilateral (c : UnilateralCompletion) (ok connected : Bool) :
      MoveOf s (some (.unilateralRecord c))
        (.completeUnilateral c ok (completionOutputs c connected))
  | signSealAlone (p : PreparedSeal) : MoveOf s (some (.sealKey p)) (.suspend (.sealSign p))
  | openBilateral (p : PreparedSeal) (out : List SealOutput)
      (quiet : ∀ o ∈ out, o.isNotice = false) :
      MoveOf s (some (.sealKey p)) (.openFrost p.pending out)
  | sealAlone (p : PreparedSeal) (b : BilateralSeal) (out : List SealOutput)
      (quiet : ∀ o ∈ out, o.isNotice = false) :
      MoveOf s (some (.sealSign p)) (.completeBilateral b out)
  | record (b : BilateralSeal) (ok : Bool) : MoveOf s (some (.sealRecord b)) (.record b ok)
  | recordUnilateral (p : PendingFrostSeal) (signature : Bytes) (c : UnilateralCompletion)
      (solo : p.unilateral = true) :
      MoveOf s (some (.frostKey p signature)) (.suspend (.unilateralRecord c))
  | sealBoth (p : PendingFrostSeal) (signature : Bytes) (b : BilateralSeal) (out : List SealOutput)
      (both : p.unilateral = false) (quiet : ∀ o ∈ out, o.isNotice = false) :
      MoveOf s (some (.frostKey p signature)) (.completeBilateral b out)

variable {ext sessionId} {cfg : NodeConfig} {s : SealState}

theorem decideUnilateral_cases (sender : Bytes) (frame : SealUnilateral) (now genesisAt : ℤ)
    (participants : Bytes × Bytes) (highStakes : Bool) (liveness : Liveness) {move : Move}
    (h : decideUnilateral ext cfg sessionId sender frame now genesisAt participants highStakes
      liveness = move) :
    move = .ignore ∨ (∃ early, move = .refuse [.to sender (.sealUnilateralTooEarly early)]) ∨
      ∃ v, move = .enter v := by
  unfold decideUnilateral at h
  split at h
  next early hgate => exact Or.inr (Or.inl ⟨early, h.symm⟩)
  next =>
    split at h
    · exact Or.inl h.symm
    next v hv => exact Or.inr (Or.inr ⟨v, h.symm⟩)

theorem rejectionOutputs_quiet (e : SealRejection) : ∀ o ∈ rejectionOutputs e, o.isNotice = false := by
  intro o ho
  unfold rejectionOutputs at ho
  split at ho
  · simp only [List.mem_append, List.mem_cons, List.not_mem_nil, or_false] at ho
    rcases ho with (rfl | rfl) | rfl <;> rfl
  · simp only [List.mem_append, List.mem_cons, List.not_mem_nil, or_false] at ho
    rcases ho with rfl | rfl <;> rfl

theorem moveOf_start {e : SealEvent} {id : ℕ} {move : Move} (he : ∀ i a, e ≠ .resume i a)
    (h : sealMove ext cfg sessionId s e = some (id, move)) : MoveOf ext sessionId s none move := by
  cases e with
  | resume i a => exact absurd rfl (he i a)
  | sealUnilateral sender frame now =>
    simp only [sealMove, Option.some.injEq, Prod.mk.injEq] at h
    obtain ⟨-, h⟩ := h
    unfold startUnilateral at h
    split at h
    · rw [← h]
      exact .ignore _
    next hmarker =>
      have hnone : s.unilateralSeals = none := by simpa using hmarker
      split at h
      · split at h
        · rw [← h]
          exact .ignore _
        · split at h
          · rw [← h]
            exact .ask _ _ _ _ _ _ hnone
          · rcases decideUnilateral_cases _ _ _ _ _ _ _ h with rfl | ⟨early, rfl⟩ | ⟨v, rfl⟩
            · exact .ignore _
            · refine .refuse _ _ fun o ho => ?_
              rw [List.mem_singleton.1 ho]
              rfl
            · exact .enterAtOnce v hnone
      · rw [← h]
        exact .ignore _
  | processSeal leaves relayRoot now =>
    simp only [sealMove, Option.some.injEq, Prod.mk.injEq] at h
    obtain ⟨-, h⟩ := h
    unfold startSeal at h
    split at h
    · rw [← h]
      exact .refuse _ _ (rejectionOutputs_quiet _)
    · rw [← h]
      exact .adjudicate _
  | frostSignature initiator signature =>
    simp only [sealMove, Option.some.injEq, Prod.mk.injEq] at h
    obtain ⟨-, h⟩ := h
    unfold startSignature at h
    split at h
    · rw [← h]
      exact .ignore _
    next p hp =>
      split at h
      · rw [← h]
        exact .ignore _
      · rw [← h]
        exact .take p _ hp

theorem sealedOutputs_quiet (b : BilateralSeal) : ∀ o ∈ sealedOutputs b, o.isNotice = false := by
  intro o ho
  simp only [sealedOutputs, List.mem_cons, List.not_mem_nil, or_false] at ho
  rcases ho with rfl | rfl <;> rfl

theorem verifiedOutputs_quiet (p : PendingFrostSeal) (homedElsewhere : Bool) :
    ∀ o ∈ verifiedOutputs p homedElsewhere, o.isNotice = false := by
  intro o ho
  simp only [verifiedOutputs, List.mem_cons, List.not_mem_nil, or_false] at ho
  rcases ho with rfl | rfl <;> rfl

theorem moveOf_resume {phase : Phase} {answer : Answer} {move : Move}
    (h : resumePhase ext cfg sessionId phase answer = some move) :
    MoveOf ext sessionId s (some phase) move := by
  cases phase with
  | liveness sender frame now genesisAt participants highStakes =>
    have hdecided : ∀ state, decideUnilateral ext cfg sessionId sender frame now genesisAt
        participants highStakes state = move → MoveOf ext sessionId s (some (.liveness sender frame
          now genesisAt participants highStakes)) move := by
      intro state hstate
      rcases decideUnilateral_cases _ _ _ _ _ _ _ hstate with rfl | ⟨early, rfl⟩ | ⟨v, rfl⟩
      · exact .ignore _
      · refine .refuse _ _ fun o ho => ?_
        rw [List.mem_singleton.1 ho]
        rfl
      · exact .enter _ _ _ _ _ _ v
    cases answer with
    | liveness state => exact hdecided state (Option.some.inj h)
    | threw => exact hdecided .unknown (Option.some.inj h)
    | _ => simp [resumePhase] at h
  | unilateralKey v =>
    cases answer with
    | key primary homedElsewhere =>
      cases primary with
      | none =>
        obtain rfl := Option.some.inj h
        exact .signAlone v
      | some k =>
        obtain rfl := Option.some.inj h
        refine .openUnilateral v _ fun o ho => ?_
        rw [List.mem_singleton.1 ho]
        rfl
    | threw =>
      obtain rfl := Option.some.inj h
      exact .ignore _
    | _ => simp [resumePhase] at h
  | unilateralSign v =>
    cases answer with
    | signed signature =>
      obtain rfl := Option.some.inj h
      exact .recordAlone v _
    | threw =>
      obtain rfl := Option.some.inj h
      exact .ignore _
    | _ => simp [resumePhase] at h
  | unilateralRecord c =>
    cases answer with
    | stored ok connected =>
      obtain rfl := Option.some.inj h
      exact .completeUnilateral c ok connected
    | _ => simp [resumePhase] at h
  | sealKey p =>
    cases answer with
    | key primary homedElsewhere =>
      cases primary with
      | none =>
        obtain rfl := Option.some.inj h
        exact .signSealAlone p
      | some k =>
        obtain rfl := Option.some.inj h
        exact .openBilateral p _ (verifiedOutputs_quiet _ _)
    | threw =>
      obtain rfl := Option.some.inj h
      exact .ignore _
    | _ => simp [resumePhase] at h
  | sealSign p =>
    cases answer with
    | signed signature =>
      obtain rfl := Option.some.inj h
      refine .sealAlone p _ _ fun o ho => ?_
      rcases List.mem_append.1 ho with ho | ho
      · exact sealedOutputs_quiet _ o ho
      · rw [List.mem_singleton.1 ho]
        rfl
    | threw =>
      obtain rfl := Option.some.inj h
      exact .ignore _
    | _ => simp [resumePhase] at h
  | sealRecord b =>
    cases answer with
    | stored ok connected =>
      obtain rfl := Option.some.inj h
      exact .record b ok
    | _ => simp [resumePhase] at h
  | frostKey p signature =>
    cases answer with
    | key primary homedElsewhere =>
      cases primary with
      | none =>
        obtain rfl := Option.some.inj h
        exact .ignore _
      | some k =>
        simp only [resumePhase] at h
        split at h
        · obtain rfl := Option.some.inj h
          refine .refuse _ _ fun o ho => ?_
          simp only [invalidSignatureOutputs, List.mem_cons, List.not_mem_nil, or_false] at ho
          rcases ho with rfl | rfl <;> rfl
        · split at h
          next hsolo =>
            obtain rfl := Option.some.inj h
            exact .recordUnilateral p signature _ hsolo
          next hboth =>
            obtain rfl := Option.some.inj h
            exact .sealBoth p signature _ _ (by simpa using hboth) (sealedOutputs_quiet _)
    | threw =>
      obtain rfl := Option.some.inj h
      exact .ignore _
    | _ => simp [resumePhase] at h

theorem moveOf_sealMove {e : SealEvent} {id : ℕ} {move : Move}
    (h : sealMove ext cfg sessionId s e = some (id, move)) :
    MoveOf ext sessionId s (s.phaseOf e) move := by
  cases e with
  | resume i answer =>
    simp only [sealMove, Option.bind_eq_some_iff, Option.map_eq_some_iff] at h
    obtain ⟨phase, hphase, m, hm, heq⟩ := h
    obtain ⟨rfl, rfl⟩ := Prod.mk.inj heq
    rw [SealState.phaseOf, hphase]
    exact moveOf_resume hm
  | sealUnilateral sender frame now => exact moveOf_start (fun _ _ => by simp) h
  | processSeal leaves relayRoot now => exact moveOf_start (fun _ _ => by simp) h
  | frostSignature initiator signature => exact moveOf_start (fun _ _ => by simp) h

theorem sealStep_cases (ext : NodeExternals) (cfg : NodeConfig) (sessionId : Bytes) (s : SealState)
    (e : SealEvent) :
    (sealMove ext cfg sessionId s e = none ∧ sealStep ext cfg sessionId s e = s) ∨ ∃ id move,
      sealMove ext cfg sessionId s e = some (id, move) ∧ MoveOf ext sessionId s (s.phaseOf e) move ∧
        sealStep ext cfg sessionId s e = perform sessionId (s.running e) id move := by
  cases h : sealMove ext cfg sessionId s e with
  | none => exact Or.inl ⟨rfl, by rw [sealStep, h]⟩
  | some r => exact Or.inr ⟨r.1, r.2, rfl, moveOf_sealMove h, by rw [sealStep, h]⟩

/-! ### The handler that runs -/

@[simp] theorem running_unilateralSeals (e : SealEvent) :
    (s.running e).unilateralSeals = s.unilateralSeals := by cases e <;> rfl

@[simp] theorem running_sessionGenesisAt (e : SealEvent) :
    (s.running e).sessionGenesisAt = s.sessionGenesisAt := by cases e <;> rfl

@[simp] theorem running_sessionParticipants (e : SealEvent) :
    (s.running e).sessionParticipants = s.sessionParticipants := by cases e <;> rfl

@[simp] theorem running_sessionHighStakes (e : SealEvent) :
    (s.running e).sessionHighStakes = s.sessionHighStakes := by cases e <;> rfl

@[simp] theorem running_pendingFrostSeals (e : SealEvent) :
    (s.running e).pendingFrostSeals = s.pendingFrostSeals := by cases e <;> rfl

@[simp] theorem running_tables (e : SealEvent) : (s.running e).tables = s.tables := by
  cases e <;> rfl

@[simp] theorem running_outputs (e : SealEvent) : (s.running e).outputs = s.outputs := by
  cases e <;> rfl

@[simp] theorem running_reached (e : SealEvent) : (s.running e).reached = s.reached := by
  cases e <;> rfl

theorem countP_eraseP_lookup (p : Phase → Bool) (id : ℕ) (tasks : List (ℕ × Phase)) :
    (tasks.countP fun task => p task.2) =
      ((tasks.eraseP fun task => task.1 = id).countP fun task => p task.2) +
        ((tasks.lookup id).elim 0 fun phase => if p phase then 1 else 0) := by
  induction tasks with
  | nil => rfl
  | cons task rest ih =>
    obtain ⟨i, phase⟩ := task
    by_cases hid : i = id
    · simp [hid, List.countP_cons]
    · have hne : (id == i) = false := by simpa using Ne.symm hid
      simp only [List.eraseP_cons, List.lookup_cons, hid, hne, List.countP_cons, decide_false,
        cond_false]
      omega

variable (s) in
theorem countP_running (p : Phase → Bool) (e : SealEvent) :
    (s.tasks.countP fun task => p task.2) = ((s.running e).tasks.countP fun task => p task.2) +
      ((s.phaseOf e).elim 0 fun phase => if p phase then 1 else 0) := by
  cases e with
  | resume id answer => exact countP_eraseP_lookup p id s.tasks
  | _ => rfl

theorem mem_running_tasks {e : SealEvent} {task : ℕ × Phase} (h : task ∈ (s.running e).tasks) :
    task ∈ s.tasks := by
  cases e with
  | resume id answer => exact List.mem_of_mem_eraseP h
  | _ => exact h

theorem mem_of_lookup {id : ℕ} {phase : Phase} {tasks : List (ℕ × Phase)}
    (h : tasks.lookup id = some phase) : (id, phase) ∈ tasks := by
  induction tasks with
  | nil => cases h
  | cons task rest ih =>
    obtain ⟨i, phase'⟩ := task
    rw [List.lookup_cons] at h
    split at h
    next hid =>
      obtain rfl := Option.some.inj h
      rw [eq_of_beq hid]
      exact List.mem_cons_self
    · exact List.mem_cons_of_mem _ (ih h)

theorem phaseOf_mem {e : SealEvent} {phase : Phase} (h : s.phaseOf e = some phase) :
    ∃ id, (id, phase) ∈ s.tasks := by
  cases e with
  | resume id answer => exact ⟨id, mem_of_lookup h⟩
  | _ => cases h

/-! ### Rows -/

theorem recordNotarization_rows (db : Tables) (n : SealNotarization) :
    ((∃ r ∈ db.notarizations, r.sessionId = n.sessionId ∧ r.sealType = n.sealType.getD .bilateral) ∧
        (recordNotarization db n).notarizations = db.notarizations) ∨
      ((¬∃ r ∈ db.notarizations, r.sessionId = n.sessionId ∧
          r.sealType = n.sealType.getD .bilateral) ∧
        ∃ r : NotarizationRow, r.sessionId = n.sessionId ∧
          r.sealType = n.sealType.getD .bilateral ∧
          (recordNotarization db n).notarizations = db.notarizations ++ [r]) := by
  have hfields : ∀ (db : Tables) (t : SealType),
      (recordCertificateFields db n t).notarizations = db.notarizations := by
    intro db t
    unfold recordCertificateFields
    split
    · split <;> rfl
    · rfl
  simp only [recordNotarization]
  split
  next hrow => exact Or.inl ⟨hrow, rfl⟩
  next hrow => exact Or.inr ⟨hrow, _, rfl, rfl, hfields _ _⟩

/-! ### A unilateral seal under way -/

/-- The handler is at work on a unilateral seal that has its marker. -/
def Phase.unilateral : Phase → Bool
  | .unilateralKey _ => true
  | .unilateralSign _ => true
  | .unilateralRecord _ => true
  | .frostKey p _ => p.unilateral
  | _ => false

def UnilateralUnderWay (s : SealState) : Prop :=
  (∃ task ∈ s.tasks, task.2.unilateral = true) ∨
    ∃ p, s.pendingFrostSeals = some p ∧ p.unilateral = true

instance (s : SealState) : Decidable (UnilateralUnderWay s) :=
  decidable_of_iff ((∃ task ∈ s.tasks, task.2.unilateral = true) ∨
      s.pendingFrostSeals.any PendingFrostSeal.unilateral = true) (by
    rw [UnilateralUnderWay, Option.any_eq_true])

theorem underWay_of_phaseOf {e : SealEvent} {phase : Phase} (h : s.phaseOf e = some phase)
    (hu : phase.unilateral = true) : UnilateralUnderWay s := by
  obtain ⟨id, hid⟩ := phaseOf_mem h
  exact Or.inl ⟨(id, phase), hid, hu⟩

theorem UnilateralUnderWay.of_running {e : SealEvent} (h : UnilateralUnderWay (s.running e)) :
    UnilateralUnderWay s := by
  rcases h with ⟨task, htask, hu⟩ | ⟨p, hp, hu⟩
  · exact Or.inl ⟨task, mem_running_tasks htask, hu⟩
  · rw [running_pendingFrostSeals] at hp
    exact Or.inr ⟨p, hp, hu⟩

theorem underWay_append {t : SealState} {id : ℕ} {phase : Phase}
    (h : UnilateralUnderWay { t with tasks := t.tasks ++ [(id, phase)] }) :
    UnilateralUnderWay t ∨ phase.unilateral = true := by
  rcases h with ⟨task, htask, hu⟩ | hp
  · rcases List.mem_append.1 htask with hmem | hmem
    · exact Or.inl (Or.inl ⟨task, hmem, hu⟩)
    · rw [List.mem_singleton.1 hmem] at hu
      exact Or.inr hu
  · exact Or.inl (Or.inr hp)

/-- **A unilateral seal gets under way with a marker only.** -/
theorem underWay_step {e : SealEvent} (h : UnilateralUnderWay (sealStep ext cfg sessionId s e)) :
    UnilateralUnderWay s ∨ ∃ id v, sealMove ext cfg sessionId s e = some (id, .enter v) := by
  rcases sealStep_cases ext cfg sessionId s e with ⟨-, hsame⟩ | ⟨id, move, hmove, hof, hstep⟩
  · rw [hsame] at h
    exact Or.inl h
  · rw [hstep] at h
    by_cases henter : ∃ v, move = .enter v
    · obtain ⟨v, rfl⟩ := henter
      exact Or.inr ⟨id, v, hmove⟩
    · refine Or.inl ?_
      generalize hphase : s.phaseOf e = phase at hof
      cases hof with
      | enterAtOnce v first => exact absurd ⟨v, rfl⟩ henter
      | enter sender frame now genesisAt participants highStakes v => exact absurd ⟨v, rfl⟩ henter
      | ask sender frame now genesisAt participants highStakes first =>
        rcases underWay_append h with h | h
        · exact h.of_running
        · cases h
      | adjudicate p =>
        rcases underWay_append h with h | h
        · exact h.of_running
        · cases h
      | signSealAlone p =>
        rcases underWay_append h with h | h
        · exact h.of_running
        · cases h
      | take p signature pending =>
        -- the slot of a unilateral seal goes with the handler
        rcases h with ⟨task, htask, hu⟩ | ⟨q, hq, -⟩
        · rcases List.mem_append.1 htask with hmem | hmem
          · exact Or.inl ⟨task, mem_running_tasks hmem, hu⟩
          · rw [List.mem_singleton.1 hmem] at hu
            exact Or.inr ⟨p, pending, hu⟩
        · cases hq
      | signAlone v => exact underWay_of_phaseOf hphase rfl
      | openUnilateral v out quiet => exact underWay_of_phaseOf hphase rfl
      | recordAlone v c => exact underWay_of_phaseOf hphase rfl
      | completeUnilateral c ok connected => exact underWay_of_phaseOf hphase rfl
      | recordUnilateral p signature c solo => exact underWay_of_phaseOf hphase solo
      | openBilateral p out quiet =>
        rcases h with h | ⟨q, hq, hu⟩
        · exact UnilateralUnderWay.of_running (Or.inl h)
        · obtain rfl := Option.some.inj hq
          cases hu
      | sealAlone p b out quiet =>
        rcases underWay_append (t := { s.running e with outputs := s.outputs ++ out }) h with h | h
        · exact UnilateralUnderWay.of_running h
        · cases h
      | sealBoth p signature b out both quiet =>
        rcases underWay_append (t := { s.running e with outputs := s.outputs ++ out }) h with h | h
        · exact UnilateralUnderWay.of_running h
        · cases h
      | ignore => exact h.of_running
      | refuse at? out quiet => exact UnilateralUnderWay.of_running h
      | record b ok => exact UnilateralUnderWay.of_running h

end Moves

end Cello.Directory.Seal
