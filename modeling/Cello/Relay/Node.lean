import Cello.Lib.OrdSet
import Cello.Relay.Inflight

/-!
# A relay and all its sessions

`packages/relay/src/relay-node.ts` around the handling of one session: the store, and beside it the
maps that say which sessions a participant has, which peer ids and which directory belong to a
session, and which idle timers run.  `recordAssignment` fills them and `#cleanupSessionTracking`
empties them.  A session has the handlers of its frames with it, each suspended at one of its awaits,
and goes on as in `inflightStep`.

Presenting an assignment a second time is answered like the first, unless the pair is at its cap:
`represent_harmless_iff`.
-/

namespace Cello.Relay

open Lib Cello.Interfaces

/-! ### Assignments -/

/-- A `client_record_assignment` frame. -/
structure ClientRecordAssignment where
  sessionId : Bytes
  participantA : Bytes
  participantB : Bytes
  sessionTimestamp : JsNumber
  initiatorSessionPeerId : Option String := none
  counterpartySessionPeerId : Option String := none
  assignmentSignature : Bytes
  priorRelayId : Option String := none

/-- A field of the bytes a directory signs. -/
inductive TbsField where
  | bytes (b : Bytes)
  | num (n : JsNumber)
  | bigint (n : ℤ)
  | str (s : String)
deriving DecidableEq

/-- What a relay is built from, its sessions' maps included. -/
structure NodeExternals extends RelayExternals where
  /-- `#directoryPubkeys`. -/
  directoryPubkeys : List Bytes
  encodeTbs : List TbsField → Bytes
  computeGenesisPrevRoot : Bytes → Bytes → Bytes → JsNumber → Bytes
  encodeCbor : String → Bytes → JsNumber → Bytes → Bytes
  /-- `#sessionCapPerPair`. -/
  sessionCapPerPair : ℕ := 5
  /-- `#sessionIdleTimeoutMs !== undefined`. -/
  hasIdleTimeout : Bool
  /-- `#connectionGater !== undefined`. -/
  hasGater : Bool

def given (s : Option String) : Option String := s.filter (· ≠ "")

def sessionPeerIds (frame : ClientRecordAssignment) : Option (String × String) :=
  match given frame.initiatorSessionPeerId, given frame.counterpartySessionPeerId with
  | some initiator, some counterparty => some (initiator, counterparty)
  | _, _ => none

/-- `ts > 0xffffffff ? BigInt(ts) : ts`; `none` where `BigInt` throws. -/
def timestampField (ts : JsNumber) : Option TbsField :=
  if ts.gt (4294967295 : ℕ) then
    match ts with
    | .fin q => if q.den = 1 then some (.bigint q.num) else none
    | _ => none
  else some (.num ts)

/-- The fields a directory signs.  A resume has one more. -/
def assignmentTbs (frame : ClientRecordAssignment) : Option (List TbsField) :=
  (timestampField frame.sessionTimestamp).map fun ts =>
    [.bytes frame.sessionId, .bytes frame.participantA, .bytes frame.participantB, ts] ++
      (match sessionPeerIds frame with
        | some (initiator, counterparty) => [.str initiator, .str counterparty]
        | none => []) ++
      (match given frame.priorRelayId with
        | some prior => [.str prior]
        | none => [])

def signerOf (ext : NodeExternals) (frame : ClientRecordAssignment) (fields : List TbsField) :
    Option Bytes :=
  ext.directoryPubkeys.find? fun pk => ext.verify pk (ext.encodeTbs fields) frame.assignmentSignature

/-! ### The node -/

structure NodeState where
  sessions : OrdMap Bytes RelaySessionState := OrdMap.empty
  participantSessions : OrdMap Bytes (OrdSet Bytes) := OrdMap.empty
  sessionPeerIdBindings : OrdMap Bytes (String × String) := OrdMap.empty
  /-- The connection gater's own copy. -/
  gaterBindings : OrdMap Bytes (String × String) := OrdMap.empty
  sessionBrokerPubkey : OrdMap Bytes Bytes := OrdMap.empty
  sessionIdleTimers : OrdSet Bytes := OrdSet.empty
  vouchedPubkeys : OrdSet Bytes := OrdSet.empty
  /-- The tails of the locks, by the number of the handler. -/
  sessionLocks : OrdMap Bytes ℕ := OrdMap.empty
  /-- The handlers started for a session. -/
  handlers : OrdMap Bytes (List Task) := OrdMap.empty

def destroySession (n : NodeState) (key : Bytes) : NodeState :=
  { n with sessions := n.sessions.erase key }

/-- `#concurrentSessionsBetween`. -/
def concurrentSessionsBetween (n : NodeState) (a b : Bytes) : ℕ :=
  match n.participantSessions.get a, n.participantSessions.get b with
  | some sa, some sb =>
    if sa.size ≤ sb.size then sa.members.countP fun key => decide (key ∈ sb)
    else sb.members.countP fun key => decide (key ∈ sa)
  | _, _ => 0

def forgetSession (m : OrdMap Bytes (OrdSet Bytes)) (key : Bytes) : OrdMap Bytes (OrdSet Bytes) :=
  (m.filter fun _ sessions =>
    !(decide (key ∈ sessions) && decide ((sessions.delete key).size = 0))).mapValues
      fun sessions => sessions.delete key

/-- `#cleanupSessionTracking`. -/
def cleanupSessionTracking (n : NodeState) (key : Bytes) : NodeState :=
  { n with
    sessionIdleTimers := n.sessionIdleTimers.delete key
    participantSessions := forgetSession n.participantSessions key
    sessionPeerIdBindings := n.sessionPeerIdBindings.erase key
    gaterBindings := n.gaterBindings.erase key
    sessionBrokerPubkey := n.sessionBrokerPubkey.erase key }

/-- `#startSessionIdleTimer` and `#resetSessionIdleTimer`. -/
def startSessionIdleTimer (ext : NodeExternals) (n : NodeState) (key : Bytes) : NodeState :=
  if ext.hasIdleTimeout then { n with sessionIdleTimers := n.sessionIdleTimers.add key } else n

structure TrackingEntryCount where
  participantRefs : ℕ
  hasBinding : Bool
  hasIdleTimer : Bool
  hasBroker : Bool
deriving DecidableEq

def sessionTrackingEntryCount (n : NodeState) (key : Bytes) : TrackingEntryCount where
  participantRefs := n.participantSessions.count fun _ sessions => decide (key ∈ sessions)
  hasBinding := n.sessionPeerIdBindings.has key
  hasIdleTimer := decide (key ∈ n.sessionIdleTimers)
  hasBroker := n.sessionBrokerPubkey.has key

/-! ### Recording -/

structure AssignmentRefusal where
  reason : String
  concurrent : Option ℕ := none
  cap : Option ℕ := none
deriving DecidableEq

/-- What `recordAssignment` comes to.  A refusal writes nothing. -/
inductive RecordOutcome where
  | recorded (n : NodeState)
  | refused (r : AssignmentRefusal)
  /-- `BigInt` threw. -/
  | threw

def addParticipantSession (m : OrdMap Bytes (OrdSet Bytes)) (pubkey key : Bytes) :
    OrdMap Bytes (OrdSet Bytes) :=
  m.set pubkey (((m.get pubkey).getD OrdSet.empty).add key)

def storedAssignment (frame : ClientRecordAssignment) : SessionAssignment where
  sessionId := frame.sessionId
  participantA := frame.participantA
  participantB := frame.participantB
  priorRelayId := given frame.priorRelayId

/-- Everything `recordAssignment` writes once it has refused nothing. -/
def admitAssignment (ext : NodeExternals) (n : NodeState) (frame : ClientRecordAssignment)
    (signer : Bytes) : NodeState :=
  let key := frame.sessionId
  let genesisRoot := ext.computeGenesisPrevRoot frame.participantA frame.participantB key
    frame.sessionTimestamp
  let bind := fun (m : OrdMap Bytes (String × String)) =>
    match sessionPeerIds frame with
    | some ids => m.set key ids
    | none => m
  startSessionIdleTimer ext
    { n with
      sessions := n.sessions.set key (recordSession (storedAssignment frame) genesisRoot)
      sessionBrokerPubkey := n.sessionBrokerPubkey.set key signer
      sessionPeerIdBindings := bind n.sessionPeerIdBindings
      gaterBindings := if ext.hasGater then bind n.gaterBindings else n.gaterBindings
      participantSessions := addParticipantSession
        (addParticipantSession n.participantSessions frame.participantA key) frame.participantB key
      vouchedPubkeys := (n.vouchedPubkeys.add frame.participantA).add frame.participantB } key

def recordAssignment (ext : NodeExternals) (n : NodeState) (frame : ClientRecordAssignment) :
    RecordOutcome :=
  match assignmentTbs frame with
  | none => .threw
  | some fields =>
    if (given frame.priorRelayId).any fun prior => !Bytes.isHex64 prior then
      .refused { reason := "prior_relay_id_malformed" }
    else
      match signerOf ext frame fields with
      | none => .refused { reason := "directory_signature_invalid" }
      | some signer =>
        let concurrent := concurrentSessionsBetween n frame.participantA frame.participantB
        -- the cap is looked at before the store
        if ext.sessionCapPerPair ≤ concurrent then
          .refused { reason := "session_tuple_cap_exceeded", concurrent := some concurrent
                     cap := some ext.sessionCapPerPair }
        else if n.sessions.has frame.sessionId then .refused { reason := "session_already_exists" }
        else .recorded (admitAssignment ext n frame signer)

inductive AssignmentReply where
  | assignmentOk
  | assignmentInvalid (r : AssignmentRefusal)
  /-- The stream died without an answer. -/
  | noReply
deriving DecidableEq

/-- `#processClientRecordAssignment`. -/
def processClientRecordAssignment (ext : NodeExternals) (n : NodeState) (authed : Bytes)
    (frame : ClientRecordAssignment) : AssignmentReply × NodeState :=
  if authed ≠ frame.participantA ∧ authed ≠ frame.participantB then
    (.assignmentInvalid { reason := "not_a_participant" }, n)
  else
    match recordAssignment ext n frame with
    | .recorded n' => (.assignmentOk, n')
    | .refused r =>
      if r.reason = "session_already_exists" then (.assignmentOk, n) else (.assignmentInvalid r, n)
    | .threw => (.noReply, n)

/-! ### The other events -/

def discardSession (n : NodeState) (key : Bytes) : NodeState :=
  destroySession (cleanupSessionTracking n key) key

def NodeState.inflight (n : NodeState) (key : Bytes) : Inflight where
  store := n.sessions.get key
  tasks := (n.handlers.get key).getD []
  lockTail := n.sessionLocks.get key

def NodeState.setInflight (n : NodeState) (key : Bytes) (s : Inflight) : NodeState :=
  { n with
    sessions := n.sessions.update key s.store
    handlers := n.handlers.set key s.tasks
    sessionLocks := n.sessionLocks.update key s.lockTail }

def DirectoryAnswer.isVerdict : DirectoryAnswer → Bool
  | ok | refused _ _ => true
  | unknown _ | unreachable _ => false

def settles (mom : Moment) : Phase → Bool
  | .sealing _ => (dirResult mom.directories).isVerdict
  | _ => false

/-- What handler `i` of the session awaits arrives.  An attempt resolved its broker when it started, so
that the directories of the moment come with one. -/
def resumeHandler (ext : NodeExternals) (n : NodeState) (key : Bytes) (i : ℕ) (mom : Moment) : NodeState :=
  match (n.inflight key).tasks[i]? with
  | none => n
  | some t =>
    let n₁ := if settles mom t.phase then cleanupSessionTracking n key else n
    n₁.setInflight key (inflightStep ext.toRelayExternals (n.inflight key) (.resume i mom))

/-- `#processHashSubmit` up to the lock. -/
def processHashSubmit (ext : NodeExternals) (n : NodeState) (sender : Bytes) (frame : HashSubmit) :
    NodeState :=
  let key := frame.sessionId
  (startSessionIdleTimer ext n key).setInflight key
    (inflightStep ext.toRelayExternals (n.inflight key) (.hashSubmit ⟨sender, frame⟩))

def verdictOf (ext : NodeExternals) (n : NodeState) (submitter : Bytes) (frame : SessionReplay) :
    ReplayVerdict :=
  match n.sessions.get frame.sessionId with
  | none => .refused "session_not_found"
  | some st => replayVerdict ext.toRelayExternals ext.encodeCbor st submitter frame

def processSessionReplayFrame (ext : NodeExternals) (n : NodeState) (submitter : Bytes)
    (frame : SessionReplay) : NodeState :=
  let key := frame.sessionId
  (startSessionIdleTimer ext n key).setInflight key
    (inflightStep ext.toRelayExternals (n.inflight key)
      (.sessionReplay submitter (verdictOf ext n submitter frame)))

/-- The timer of a session fires, if it runs. -/
def idleTimeout (n : NodeState) (key : Bytes) : NodeState :=
  if key ∈ n.sessionIdleTimers then
    let n₁ := { n with sessionIdleTimers := n.sessionIdleTimers.delete key }
    match n₁.sessions.get key with
    | some st => if st.status = .active then discardSession n₁ key else n₁
    | none => n₁
  else n

/-- `sweepIdleSessions`: the active sessions that have been idle for too long. -/
def sweepIdleSessions (n : NodeState) (idle : Bytes → Bool) : List Bytes :=
  (n.sessions.entries.filter fun (key, st) => decide (st.status = .active) && idle key).map Prod.fst

/-- One round of the sweep; the order of `destroySession` and clean-up does not matter. -/
def idleSweep (n : NodeState) (idle : Bytes → Bool) : NodeState :=
  (sweepIdleSessions n idle).foldl discardSession n

def participantConnected (ext : NodeExternals) (n : NodeState) (pubkey : Bytes) : NodeState :=
  ((n.participantSessions.get pubkey).getD OrdSet.empty).members.foldl (startSessionIdleTimer ext) n

/-- `#findSessionsForParticipant`. -/
def findSessionsForParticipant (n : NodeState) (pubkey : Bytes) : List Bytes :=
  ((n.participantSessions.get pubkey).getD OrdSet.empty).members.filter fun key =>
    (n.sessions.get key).any fun st => decide (st.status = .active)

def participantDisconnected (n : NodeState) (pubkey : Bytes) : NodeState :=
  (findSessionsForParticipant n pubkey).foldl
    (fun n key => { n with sessionIdleTimers := n.sessionIdleTimers.delete key }) n

inductive NodeEvent where
  | recordAssignment (authed : Bytes) (frame : ClientRecordAssignment)
  | hashSubmit (sender : Bytes) (frame : HashSubmit)
  | resume (key : Bytes) (i : ℕ) (mom : Moment)
  | sessionReplay (submitter : Bytes) (frame : SessionReplay)
  | discardSession (key : Bytes)
  | idleTimeout (key : Bytes)
  | idleSweep (idle : Bytes → Bool)
  | connected (pubkey : Bytes)
  | disconnected (pubkey : Bytes)

def nodeStep (ext : NodeExternals) (n : NodeState) : NodeEvent → NodeState
  | .recordAssignment authed frame => (processClientRecordAssignment ext n authed frame).2
  | .hashSubmit sender frame => processHashSubmit ext n sender frame
  | .resume key i mom => resumeHandler ext n key i mom
  | .sessionReplay submitter frame => processSessionReplayFrame ext n submitter frame
  | .discardSession key => discardSession n key
  | .idleTimeout key => idleTimeout n key
  | .idleSweep idle => idleSweep n idle
  | .connected pubkey => participantConnected ext n pubkey
  | .disconnected pubkey => participantDisconnected n pubkey

def nodeRun (ext : NodeExternals) (events : List NodeEvent) : NodeState :=
  events.foldl (nodeStep ext) {}

/-! ### Presenting an assignment again -/

/-- A directory signed the assignment, and it is one the relay can read. -/
structure ValidlySigned (ext : NodeExternals) (frame : ClientRecordAssignment) (fields : List TbsField)
    (signer : Bytes) : Prop where
  encoded : assignmentTbs frame = some fields
  signed : signerOf ext frame fields = some signer
  prior : (given frame.priorRelayId).any (fun prior => !Bytes.isHex64 prior) = false

theorem validlySigned_of_recorded {ext : NodeExternals} {n n' : NodeState}
    {frame : ClientRecordAssignment} (h : recordAssignment ext n frame = .recorded n') :
    ∃ fields signer, ValidlySigned ext frame fields signer ∧ n' = admitAssignment ext n frame signer ∧
      n.sessions.has frame.sessionId = false := by
  rw [recordAssignment] at h
  split at h
  · cases h
  · rename_i fields hfields
    split at h
    · cases h
    · rename_i hprior
      split at h
      · cases h
      · rename_i signer hsigner
        simp only at h
        split at h
        · cases h
        · split at h
          · cases h
          · rename_i hhas
            cases h
            exact ⟨fields, signer, ⟨hfields, hsigner, by simpa using hprior⟩, rfl, by simpa using hhas⟩

/-- **When an assignment presented again is harmless.**  A participant who presents the assignment of a
recorded session is told that it is recorded, and nothing changes, exactly while the pair is below its
cap. -/
theorem represent_harmless_iff (ext : NodeExternals) (n : NodeState) (authed : Bytes)
    (frame : ClientRecordAssignment) (fields : List TbsField) (signer : Bytes)
    (hvalid : ValidlySigned ext frame fields signer)
    (hrecorded : n.sessions.has frame.sessionId = true)
    (hauthed : authed = frame.participantA ∨ authed = frame.participantB) :
    processClientRecordAssignment ext n authed frame = (.assignmentOk, n) ↔
      concurrentSessionsBetween n frame.participantA frame.participantB < ext.sessionCapPerPair := by
  have hpart : ¬(authed ≠ frame.participantA ∧ authed ≠ frame.participantB) := by
    rw [not_and_or, not_not, not_not]
    exact hauthed
  have hprior : ¬((given frame.priorRelayId).any fun prior => !Bytes.isHex64 prior) = true := by
    rw [hvalid.prior]
    exact Bool.false_ne_true
  rw [processClientRecordAssignment, if_neg hpart, recordAssignment, hvalid.encoded]
  simp only [if_neg hprior, hvalid.signed, hrecorded, if_true]
  by_cases hcap : ext.sessionCapPerPair ≤
      concurrentSessionsBetween n frame.participantA frame.participantB
  · simp [hcap]
  · simp [hcap, not_le.1 hcap]

namespace Sample

open Interfaces.Sample (key sid)

/-- The bytes of the byte fields; the sample's assignments differ in these alone. -/
def encodeTbs (fields : List TbsField) : Bytes :=
  fields.flatMap fun
    | .bytes b => b.take 1
    | _ => []

/-- A relay that trusts the directory `key 9`. -/
def node : NodeExternals where
  toRelayExternals := externals
  directoryPubkeys := [key 9]
  encodeTbs := encodeTbs
  computeGenesisPrevRoot _ _ _ _ := genesis
  encodeCbor _ _ _ _ := []
  hasIdleTimeout := false
  hasGater := true

/-- Session `i` of `key 1` and `key 2`. -/
def assignmentOf (i : UInt8) : ClientRecordAssignment where
  sessionId := List.replicate 16 i
  participantA := key 1
  participantB := key 2
  sessionTimestamp := (1 : ℕ)
  initiatorSessionPeerId := some "initiator"
  counterpartySessionPeerId := some "counterparty"
  assignmentSignature := signature (key 9) [i, 1, 2]

/-- The fields `key 9` signed. -/
def fieldsOf (i : UInt8) : List TbsField :=
  [.bytes (List.replicate 16 i), .bytes (key 1), .bytes (key 2), .num (1 : ℕ), .str "initiator",
    .str "counterparty"]

theorem validlySigned_first : ValidlySigned node (assignmentOf 1) (fieldsOf 1) (key 9) := by
  constructor <;> decide

/-- `key 1` presents its sessions with `key 2`. -/
def presents (sessions : List UInt8) : List NodeEvent :=
  sessions.map fun i => .recordAssignment (key 1) (assignmentOf i)

end Sample

/-- One session of the pair: the other side presents it and nothing changes. -/
theorem represent_harmless_second_party :
    processClientRecordAssignment Sample.node (nodeRun Sample.node (Sample.presents [1]))
        (Interfaces.Sample.key 2) (Sample.assignmentOf 1) =
      (.assignmentOk, nodeRun Sample.node (Sample.presents [1])) :=
  (represent_harmless_iff Sample.node (nodeRun Sample.node (Sample.presents [1]))
    (Interfaces.Sample.key 2) (Sample.assignmentOf 1) (Sample.fieldsOf 1) (Interfaces.Sample.key 9)
    Sample.validlySigned_first (by decide) (Or.inr rfl)).2 (by decide)

/-- **At the cap the second party is refused** the session that the first one recorded. -/
theorem represent_refused_at_cap :
    ValidlySigned Sample.node (Sample.assignmentOf 1) (Sample.fieldsOf 1) (Interfaces.Sample.key 9) ∧
      (nodeRun Sample.node (Sample.presents [1, 2, 3, 4, 5])).sessions.has
        (Sample.assignmentOf 1).sessionId = true ∧
      (processClientRecordAssignment Sample.node
        (nodeRun Sample.node (Sample.presents [1, 2, 3, 4, 5])) (Interfaces.Sample.key 2)
        (Sample.assignmentOf 1)).1 =
          .assignmentInvalid ⟨"session_tuple_cap_exceeded", some 5, some 5⟩ :=
  ⟨Sample.validlySigned_first, by decide, by decide⟩

end Cello.Relay
