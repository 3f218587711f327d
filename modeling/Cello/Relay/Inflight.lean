import Cello.Lib.GuardedRun
import Cello.Relay.Handover

/-!
# Between the awaits

`#processHashSubmitLocked` reads the session once and works on what it read.  It gives up control
wherever it awaits: for the key of an earlier relay, for the alerts about a counter-submit or a broken
self link, for the signature of the acknowledgement, for its sends, for the directories.  This module
cuts the handler at these points.  A `Phase` is where a handler stands, with the snapshot it still
holds, and `resumeTask` takes it to its next await; `uninterrupted` says that the pieces put together
are the handler.

The lock of a session lines the submits up behind each other.  A discard, the idle timer, the sweep and
a confirmed seal do not take it, and a snapshot that is written back puts the session back in the
store.  `destroyed_stays_destroyed` says when that does not happen: no step takes the session out of the
store or out of `active` while another submit is about to write its snapshot back.
-/

namespace Cello.Relay

open Lib Cello.Interfaces

/-! ### A handler in pieces -/

/-- A frame and the connection it came on. -/
structure Submission where
  sender : Bytes
  frame : HashSubmit

/-- Where a handler is suspended, and what it still needs. -/
inductive Phase where
  /-- `await prev`, behind the lock. -/
  | waiting (f : Submission)
  /-- The key of the relay before is being looked up. -/
  | lookup (f : Submission) (st : RelaySessionState)
  /-- Both participants are told of a counter-submit. -/
  | alerting (f : Submission) (st : RelaySessionState) (w : Witnessed)
  /-- The counterparty is told of a broken self link. -/
  | selfAlert (f : Submission) (st : RelaySessionState)
  /-- The leaf is written, and the acknowledgement is being signed. -/
  | signing (f : Submission) (st : RelaySessionState) (w : Witnessed) (s2 : Structure2)
  | sending (kind : LeafKind)
  /-- The directories are being asked. -/
  | sealing (data : SealData)
  | done

/-- What a handler does up to its next await. -/
structure Segment where
  store : Option RelaySessionState
  out : List Output
  phase : Phase

/-- The relay signs its acknowledgements. -/
def signs (ext : RelayExternals) : Bool := ext.hasSigningKey && ext.relayId.isSome

/-- The acknowledgement is kept in the session as it is by then, and sent. -/
def issueAck (ext : RelayExternals) (mom : Moment) (store : Option RelaySessionState) (f : Submission)
    (st : RelaySessionState) (w : Witnessed) (s2 : Structure2) : Segment :=
  let seq := st.seqCounter + 1
  let s2Cbor := ext.encodeStructure2 s2
  let ack := ackFrame ext mom w.s1.contentHash seq s2Cbor
  let delivery : LeafDeliver :=
    ⟨f.frame.sessionId, f.frame.leafKind, seq, s2Cbor, f.frame.structure1Cbor⟩
  let counterparty := if f.sender = st.assignment.participantA then st.assignment.participantB
    else st.assignment.participantA
  -- the other acknowledgements are those of the snapshot
  let acks := st.issuedAcks.set (submissionKey f.sender w.s1) ack
  { store := if ackIsUsable ext ack then store.map fun latest => { latest with issuedAcks := acks }
      else store
    out := [.ack ack, .echo delivery, .deliver counterparty delivery]
    phase := .sending w.kind }

/-- From the acknowledgement check on, to the write or to the alert about the self link. -/
def sequenceFrom (ext : RelayExternals) (mom : Moment) (store : Option RelaySessionState)
    (f : Submission) (st : RelaySessionState) (w : Witnessed) : Segment :=
  match checkAcknowledgement st w.s1 with
  | .error e => ⟨store, [.error e], .done⟩
  | .ok () =>
    match st.issuedAcks.get (submissionKey f.sender w.s1) with
    | some already => ⟨store, [.ack already], .done⟩
    | none =>
      if w.s1.prevOwnHash ≠ expectedOwn st f.sender then ⟨store, [], .selfAlert f st⟩
      else
        match ext.buildStructure2 (st.seqCounter + 1) w.s1.senderPubkey w.s1.contentHash
            f.frame.senderSignature st.runningRoot with
        | none => ⟨store, [.error ⟨.signatureInvalid, none⟩], .done⟩
        | some s2 =>
          let written := some (appendLeaf ext st f.frame w.kind s2)
          if signs ext then ⟨written, [], .signing f st w s2⟩ else issueAck ext mom written f st w s2

/-- The checks around the earlier relay's acknowledgement, and the alerts of a counter-submit. -/
def identifyFrom (ext : RelayExternals) (mom : Moment) (store : Option RelaySessionState)
    (f : Submission) (st : RelaySessionState) : Segment :=
  match identify ext mom st f.sender f.frame with
  | .error e => ⟨store, unwitnessedAlerts st f.sender e ++ [.error e], .done⟩
  | .ok w =>
    if f.sender ≠ w.author then ⟨store, [], .alerting f st w⟩ else sequenceFrom ext mom store f st w

def SessionAssignment.names (a : SessionAssignment) (pubkey : Bytes) : Prop :=
  pubkey = a.participantA ∨ pubkey = a.participantB

instance (a : SessionAssignment) (pubkey : Bytes) : Decidable (a.names pubkey) :=
  inferInstanceAs (Decidable (_ ∨ _))

/-- The frame names an earlier relay, and gets as far as looking its key up. -/
def looksUp (ext : RelayExternals) (st : RelaySessionState) (f : Submission) : Bool :=
  match decodeStructure1 ext f.frame.structure1Cbor with
  | none => false
  | some s1 =>
    decide (s1.sessionId = f.frame.sessionId) &&
      (witnessLeafSignature ext (expectedKeys st f.sender) f.frame.structure1Cbor
        f.frame.senderSignature).isSome &&
      decide (st.assignment.names f.sender) && f.frame.predecessorRelayId.isSome &&
      f.frame.predecessorRelaySignature.isSome && f.frame.predecessorRelaySequence.isSome &&
      f.frame.predecessorRelayTimestamp.isSome && ext.hasDirectory && ext.hasKeyLookup

/-- The session is read, here and nowhere else before it is written. -/
def startSubmit (ext : RelayExternals) (mom : Moment) (store : Option RelaySessionState)
    (f : Submission) : Segment :=
  match store with
  | none => ⟨none, [.error ⟨.sessionNotFound, none⟩], .done⟩
  | some st =>
    match gate st with
    | .error e => ⟨some st, [.error e], .done⟩
    | .ok () =>
      if looksUp ext st f then ⟨some st, [], .lookup f st⟩ else identifyFrom ext mom (some st) f st

/-- `#maybeProcessSeal` up to its first call. -/
def attemptSeal (ext : RelayExternals) (store : Option RelaySessionState) : Segment :=
  match store with
  | none => ⟨none, [], .done⟩
  | some latest =>
    if AttemptsSeal latest then
      ⟨some { latest with status := .sealing }, [], .sealing (sealData ext latest)⟩
    else ⟨some latest, [], .done⟩

/-- What the last answer does to the session as it is by then. -/
def adjudicate (store : Option RelaySessionState) : DirectoryAnswer → Option RelaySessionState
  | .ok => none
  | .unknown _ => store
  | .unreachable _ =>
    store.map fun latest => if latest.status = .sealing then { latest with status := .active } else latest
  | .refused reason _ => store.map fun latest => rejectSeal latest reason

/-- **A handler from one await to the next.** -/
def resumeTask (ext : RelayExternals) (mom : Moment) (store : Option RelaySessionState) :
    Phase → Segment
  | .waiting f => startSubmit ext mom store f
  | .lookup f st => identifyFrom ext mom store f st
  | .alerting f st w =>
    let rest := sequenceFrom ext mom store f st w
    { rest with out := counterSubmitAlerts st f.sender w.author ++ rest.out }
  -- the snapshot is written back as diverged
  | .selfAlert f st =>
    ⟨some (diverge st), selfChainAlerts st f.sender ++ [.error selfChainError], .done⟩
  | .signing f st w s2 => issueAck ext mom store f st w s2
  | .sending kind =>
    if kind = .ctrl ∧ ext.hasDirectory then attemptSeal ext store else ⟨store, [], .done⟩
  | .sealing data =>
    ⟨adjudicate store (dirResult mom.directories),
      (sealCalls mom.directories).map fun c => .processSeal c.target data, .done⟩
  | .done => ⟨store, [], .done⟩

/-! ### The pieces put together -/

/-- A handler that nothing comes between, for so many awaits. -/
def runAlone (ext : RelayExternals) (mom : Moment) : ℕ → Option RelaySessionState → Phase → Handled
  | 0, store, _ => ⟨store, []⟩
  | k + 1, store, phase =>
    let seg := resumeTask ext mom store phase
    let rest := runAlone ext mom k seg.store seg.phase
    ⟨rest.session, seg.out ++ rest.out⟩

/-- The rest of a handler behind a segment. -/
def Segment.finish (ext : RelayExternals) (mom : Moment) (k : ℕ) (seg : Segment) : Handled :=
  let rest := runAlone ext mom k seg.store seg.phase
  ⟨rest.session, seg.out ++ rest.out⟩

section

variable (ext : RelayExternals) (mom : Moment)

theorem runAlone_succ (k : ℕ) (store : Option RelaySessionState) (phase : Phase) :
    runAlone ext mom (k + 1) store phase = (resumeTask ext mom store phase).finish ext mom k := rfl

@[simp] theorem runAlone_done (k : ℕ) (store : Option RelaySessionState) :
    runAlone ext mom k store .done = ⟨store, []⟩ := by
  induction k with
  | zero => rfl
  | succ k ih => rw [runAlone_succ, Segment.finish, resumeTask, ih, List.append_nil]

@[simp] theorem finish_done (k : ℕ) (store : Option RelaySessionState) (out : List Output) :
    (⟨store, out, .done⟩ : Segment).finish ext mom k = ⟨store, out⟩ := by
  rw [Segment.finish, runAlone_done, List.append_nil]

theorem runAlone_sending (k : ℕ) (st : RelaySessionState) (kind : LeafKind) :
    runAlone ext mom (k + 2) (some st) (.sending kind) = sealTrigger ext mom kind st := by
  rw [runAlone_succ, resumeTask, sealTrigger]
  split
  · rcases maybeProcessSeal_cases ext mom.directories st with ⟨hn, he⟩ | ⟨ha, he⟩
    · rw [attemptSeal, if_neg hn, finish_done, he]
    · rw [attemptSeal, if_pos ha, Segment.finish, runAlone_succ, resumeTask, finish_done, he]
      cases dirResult mom.directories <;> rfl
  · exact finish_done ..

theorem finish_issueAck (k : ℕ) (f : Submission) (st : RelaySessionState) (w : Witnessed)
    (s2 : Structure2) :
    (issueAck ext mom (some (appendLeaf ext st f.frame w.kind s2)) f st w s2).finish ext mom (k + 2) =
      ⟨(sealTrigger ext mom w.kind (committed ext mom st f.sender f.frame w s2)).session,
        (issueAck ext mom (some (appendLeaf ext st f.frame w.kind s2)) f st w s2).out ++
          (sealTrigger ext mom w.kind (committed ext mom st f.sender f.frame w s2)).out⟩ := by
  have hstore : (issueAck ext mom (some (appendLeaf ext st f.frame w.kind s2)) f st w s2).store =
      some (committed ext mom st f.sender f.frame w s2) := by
    simp only [issueAck, committed, recordAck]
    split <;> rfl
  have hphase : (issueAck ext mom (some (appendLeaf ext st f.frame w.kind s2)) f st w s2).phase =
      .sending w.kind := rfl
  rw [Segment.finish, hstore, hphase, runAlone_sending]

theorem finish_sequenceFrom (k : ℕ) (f : Submission) (st : RelaySessionState) (w : Witnessed) :
    (sequenceFrom ext mom (some st) f st w).finish ext mom (k + 3) =
      match checkAcknowledgement st w.s1 with
      | .error e => ⟨some st, [.error e]⟩
      | .ok () => sequenceLeaf ext mom st f.sender f.frame w := by
  rw [sequenceFrom]
  cases checkAcknowledgement st w.s1 with
  | error e => exact finish_done ..
  | ok u =>
    simp only [sequenceLeaf]
    cases st.issuedAcks.get (submissionKey f.sender w.s1) with
    | some already => exact finish_done ..
    | none =>
      simp only
      split
      · rw [Segment.finish, runAlone_succ, resumeTask, finish_done]
        rfl
      · cases ext.buildStructure2 (st.seqCounter + 1) w.s1.senderPubkey w.s1.contentHash
            f.frame.senderSignature st.runningRoot with
        | none => exact finish_done ..
        | some s2 =>
          simp only
          split
          · rw [Segment.finish, runAlone_succ, resumeTask, finish_issueAck]
            rfl
          · rw [finish_issueAck]
            rfl

theorem finish_prepend (k : ℕ) (alerts : List Output) (seg : Segment) :
    ({ seg with out := alerts ++ seg.out } : Segment).finish ext mom k =
      ⟨(seg.finish ext mom k).session, alerts ++ (seg.finish ext mom k).out⟩ := by
  simp only [Segment.finish, List.append_assoc]

theorem finish_identifyFrom (k : ℕ) (f : Submission) (st : RelaySessionState)
    (hgate : gate st = .ok ()) :
    (identifyFrom ext mom (some st) f st).finish ext mom (k + 4) =
      processHashSubmitLocked ext mom (some st) f.sender f.frame := by
  rw [identifyFrom]
  simp only [processHashSubmitLocked, hgate]
  cases identify ext mom st f.sender f.frame with
  | error e => exact finish_done ..
  | ok w =>
    simp only
    split
    · have hrest := finish_sequenceFrom ext mom k f st w
      rw [Segment.finish, runAlone_succ, resumeTask, finish_prepend, hrest]
      cases checkAcknowledgement st w.s1 <;> rfl
    · rename_i hown
      have hrest := finish_sequenceFrom ext mom (k + 1) f st w
      have halerts : counterSubmitAlerts st f.sender w.author = [] := by
        rw [counterSubmitAlerts, if_neg hown]
      rw [hrest, halerts]
      cases checkAcknowledgement st w.s1 <;> rfl

theorem uninterrupted (store : Option RelaySessionState) (f : Submission) :
    runAlone ext mom 6 store (.waiting f) =
      processHashSubmitLocked ext mom store f.sender f.frame := by
  rw [runAlone_succ, resumeTask]
  cases store with
  | none => exact finish_done ..
  | some st =>
    cases hgate : gate st with
    | error e =>
      simp only [startSubmit, processHashSubmitLocked, hgate]
      exact finish_done ..
    | ok u =>
      simp only [startSubmit, hgate]
      split
      · rw [Segment.finish, runAlone_succ, resumeTask, finish_identifyFrom ext mom 0 f st hgate]
        rfl
      · exact finish_identifyFrom ext mom 1 f st hgate

end

/-! ### A session and its handlers -/

structure Task where
  /-- The handler that held the lock's tail before. -/
  waitsFor : Option ℕ
  phase : Phase

/-- One session, the handlers that were started for it, and the tail of its lock. -/
structure Inflight where
  store : Option RelaySessionState := none
  tasks : List Task := []
  lockTail : Option ℕ := none

def Phase.isDone : Phase → Bool
  | done => true
  | _ => false

def Inflight.ready (s : Inflight) (t : Task) : Bool :=
  match t.phase, t.waitsFor with
  | .waiting _, some j => (s.tasks[j]?).all fun u => u.phase.isDone
  | _, _ => true

/-- `confirmSeal` takes the lock's tail away. -/
def confirms (mom : Moment) : Phase → Bool
  | .sealing _ => (dirResult mom.directories).isOk
  | _ => false

/-- The relay waits for a replay of this session, and `submitter` may send one. -/
structure AwaitsReplay (st : RelaySessionState) (submitter : Bytes) : Prop where
  participant : st.assignment.names submitter
  resume : st.priorRelayId.isNone = false
  active : st.status = .active
  awaiting : st.awaitingReplay = true
  empty : st.leafLog.isEmpty = true

instance (st : RelaySessionState) (submitter : Bytes) : Decidable (AwaitsReplay st submitter) :=
  decidable_of_iff (st.assignment.names submitter ∧ st.priorRelayId.isNone = false ∧
      st.status = .active ∧ st.awaitingReplay = true ∧ st.leafLog.isEmpty = true)
    ⟨fun ⟨h1, h2, h3, h4, h5⟩ => ⟨h1, h2, h3, h4, h5⟩, fun ⟨h1, h2, h3, h4, h5⟩ => ⟨h1, h2, h3, h4, h5⟩⟩

/-- `#processSessionReplay` up to its seal attempt; it does not take the lock. -/
def replaySegment (ext : RelayExternals) (store : Option RelaySessionState) (submitter : Bytes)
    (verdict : ReplayVerdict) : Segment :=
  match store with
  | none => ⟨none, [], .done⟩
  | some st =>
    if AwaitsReplay st submitter then
      match verdict with
      | .refused _ => ⟨some st, [], .done⟩
      | .diverged _ =>
        ⟨some { st with
            status := .diverged, awaitingReplay := false
            divergedReason := some ("the replayed chain and the counterparty's signed tip " ++
              "disagree about a message both sides hold") }, [], .done⟩
      | .adopted leaves =>
        if ext.hasDirectory then attemptSeal ext (some (adoptLeaves ext st leaves))
        else ⟨some (adoptLeaves ext st leaves), [], .done⟩
    else ⟨some st, [], .done⟩

inductive InflightEvent where
  | hashSubmit (f : Submission)
  /-- What a handler awaits arrives. -/
  | resume (i : ℕ) (mom : Moment)
  | sessionReplay (submitter : Bytes) (verdict : ReplayVerdict)
  | discardSession
  /-- The idle timer of the session fires. -/
  | idleTimeout
  /-- The sweep finds the session idle for too long. -/
  | sweepIdleSessions
  | confirmSeal
  /-- An assignment that passed the checks before the store. -/
  | recordAssignment (assignment : SessionAssignment) (genesisRoot : Bytes)

def ActiveIn (store : Option RelaySessionState) : Prop := ∃ st, store = some st ∧ st.status = .active

instance (store : Option RelaySessionState) : Decidable (ActiveIn store) :=
  decidable_of_iff (∃ st ∈ store, st.status = .active) Iff.rfl

def Inflight.removeIdle (s : Inflight) : Inflight :=
  if ActiveIn s.store then { s with store := none } else s

def Inflight.resume (ext : RelayExternals) (mom : Moment) (s : Inflight) (i : ℕ) (t : Task) : Inflight :=
  let seg := resumeTask ext mom s.store t.phase
  { store := seg.store
    tasks := s.tasks.set i { t with phase := seg.phase }
    lockTail := if confirms mom t.phase then none else s.lockTail }

def inflightStep (ext : RelayExternals) (s : Inflight) : InflightEvent → Inflight
  | .hashSubmit f =>
    { s with tasks := s.tasks ++ [⟨s.lockTail, .waiting f⟩], lockTail := some s.tasks.length }
  | .resume i mom =>
    match s.tasks[i]? with
    | none => s
    | some t => if s.ready t then s.resume ext mom i t else s
  | .sessionReplay submitter verdict =>
    let seg := replaySegment ext s.store submitter verdict
    { s with store := seg.store, tasks := s.tasks ++ [⟨none, seg.phase⟩] }
  | .discardSession => { s with store := none }
  | .idleTimeout => s.removeIdle
  | .sweepIdleSessions => s.removeIdle
  | .confirmSeal => { s with store := none, lockTail := none }
  | .recordAssignment assignment genesisRoot =>
    match s.store with
    | some _ => s
    | none => { s with store := some (recordSession assignment genesisRoot) }

def inflightRun (ext : RelayExternals) (events : List InflightEvent) : Inflight :=
  events.foldl (inflightStep ext) {}

/-! ### Who will write -/

def Writes (ext : RelayExternals) (st : RelaySessionState) (f : Submission) (w : Witnessed) : Prop :=
  checkAcknowledgement st w.s1 = .ok () ∧ st.issuedAcks.get (submissionKey f.sender w.s1) = none ∧
    (w.s1.prevOwnHash = expectedOwn st f.sender →
      (ext.buildStructure2 (st.seqCounter + 1) w.s1.senderPubkey w.s1.contentHash
        f.frame.senderSignature st.runningRoot).isSome = true)

def Pending (ext : RelayExternals) : Phase → Prop
  | .lookup f st => ∃ mom w, identify ext mom st f.sender f.frame = .ok w ∧ Writes ext st f w
  | .alerting f st w => Writes ext st f w
  | .selfAlert _ _ => True
  | _ => False

/-- The step takes the session out of the store, or out of `active`. -/
def Deactivates (ext : RelayExternals) (s : Inflight) : InflightEvent → Prop
  | .discardSession | .confirmSeal => True
  | .idleTimeout | .sweepIdleSessions => ActiveIn s.store
  | .sessionReplay submitter verdict => ∃ st, s.store = some st ∧ AwaitsReplay st submitter ∧
      match verdict with
      | .refused _ => False
      | .diverged _ => True
      | .adopted leaves => ext.hasDirectory = true ∧ AttemptsSeal (adoptLeaves ext st leaves)
  | .resume i mom => ∃ t, s.tasks[i]? = some t ∧
      match t.phase with
      | .selfAlert _ _ => True
      | .sending kind => kind = .ctrl ∧ ext.hasDirectory = true ∧
          ∃ st, s.store = some st ∧ AttemptsSeal st
      | .sealing _ =>
        match dirResult mom.directories with
        | .ok | .refused _ _ => True
        | .unknown _ | .unreachable _ => False
      | _ => False
  | _ => False

/-- **No step ends the session under another handler that will write.** -/
def Uncrossed (ext : RelayExternals) (s : Inflight) (e : InflightEvent) : Prop :=
  Deactivates ext s e → ∀ j t, s.tasks[j]? = some t → (∀ mom, e ≠ .resume j mom) → ¬Pending ext t.phase

/-! ### What a resumed handler can do -/

def Phase.snapshot : Phase → Option RelaySessionState
  | lookup _ st | alerting _ st _ | selfAlert _ st => some st
  | _ => none

def WorksOn (ext : RelayExternals) (store : Option RelaySessionState) (p : Phase)
    (held : RelaySessionState) : Prop :=
  (Pending ext p ∧ p.snapshot = some held) ∨ (store = some held ∧ held.status = .active)

/-- **The ways a handler goes on**: from its phase to a store and its next phase. -/
inductive Resumed (ext : RelayExternals) (mom : Moment) (store : Option RelaySessionState) :
    Phase → Option RelaySessionState → Phase → Prop
  /-- Nothing is written yet.  Whoever will write now would have before, or has just read. -/
  | kept (p p' : Phase)
      (h : ∀ held, Pending ext p' → p'.snapshot = some held → WorksOn ext store p held) :
      Resumed ext mom store p store p'
  /-- The snapshot is written back with one leaf more. -/
  | wrote (p p' : Phase) (held st : RelaySessionState) (h : WorksOn ext store p held)
      (hst : st.status = .active) (hassignment : st.assignment = held.assignment)
      (hp' : ¬Pending ext p') : Resumed ext mom store p (some st) p'
  /-- The acknowledgement is noted in the session as it is. -/
  | noted (p p' : Phase) (note : RelaySessionState → RelaySessionState)
      (hnote : ∀ st, (note st).status = st.status ∧ (note st).assignment = st.assignment)
      (hp' : ¬Pending ext p') : Resumed ext mom store p (store.map note) p'
  | diverged (f : Submission) (st : RelaySessionState) :
      Resumed ext mom store (.selfAlert f st) (some (diverge st)) .done
  | attempted (st : RelaySessionState) (data : SealData) (hstore : store = some st)
      (hdirectory : ext.hasDirectory = true) (hattempts : AttemptsSeal st) :
      Resumed ext mom store (.sending .ctrl) (some { st with status := .sealing }) (.sealing data)
  | adjudicated (data : SealData) :
      Resumed ext mom store (.sealing data) (adjudicate store (dirResult mom.directories)) .done

section

variable {ext : RelayExternals} {mom : Moment} {store : Option RelaySessionState}

theorem Pending.snapshot {p : Phase} (h : Pending ext p) : ∃ held, p.snapshot = some held := by
  cases p with
  | lookup f st => exact ⟨st, rfl⟩
  | alerting f st w => exact ⟨st, rfl⟩
  | selfAlert f st => exact ⟨st, rfl⟩
  | _ => exact absurd h id

theorem WorksOn.active {p : Phase} {held : RelaySessionState} (h : WorksOn ext store p held)
    (hp : Pending ext p → ActiveIn store) : ActiveIn store :=
  h.elim (fun hpending => hp hpending.1) fun hread => ⟨held, hread⟩

theorem Resumed.pending {p p' : Phase} {store' : Option RelaySessionState}
    (h : Resumed ext mom store p store' p') (hp' : Pending ext p')
    (hp : Pending ext p → ActiveIn store) : ActiveIn store' := by
  cases h with
  | kept _ _ hk =>
    obtain ⟨held, hheld⟩ := hp'.snapshot
    exact (hk held hp' hheld).active hp
  | wrote _ _ held written hw hwritten hassignment hnot => exact absurd hp' hnot
  | noted _ _ note hnote hnot => exact absurd hp' hnot
  | diverged f held => exact absurd hp' id
  | attempted held data hstore hdirectory hattempts => exact absurd hp' id
  | adjudicated data => exact absurd hp' id

theorem not_pending_done : ¬Pending ext .done := id

theorem not_pending_issueAck {f : Submission} {st : RelaySessionState} {w : Witnessed}
    {s2 : Structure2} : ¬Pending ext (issueAck ext mom store f st w s2).phase := id

theorem issueAck_store (ext : RelayExternals) (mom : Moment) (f : Submission) (st : RelaySessionState)
    (w : Witnessed) (s2 : Structure2) :
    ∃ note : RelaySessionState → RelaySessionState,
      (∀ l, (note l).status = l.status ∧ (note l).assignment = l.assignment) ∧
      ∀ store, (issueAck ext mom store f st w s2).store = store.map note := by
  have hack : ∃ ack, ∀ store, (issueAck ext mom store f st w s2).store =
      if ackIsUsable ext ack then store.map fun latest =>
        { latest with issuedAcks := st.issuedAcks.set (submissionKey f.sender w.s1) ack }
      else store := ⟨_, fun _ => rfl⟩
  obtain ⟨ack, hstore⟩ := hack
  cases hu : ackIsUsable ext ack with
  | true =>
    refine ⟨fun latest =>
      { latest with issuedAcks := st.issuedAcks.set (submissionKey f.sender w.s1) ack },
      fun _ => ⟨rfl, rfl⟩, fun store => ?_⟩
    rw [hstore, hu, if_pos rfl]
  | false =>
    refine ⟨id, fun _ => ⟨rfl, rfl⟩, fun store => ?_⟩
    rw [hstore, hu, if_neg Bool.false_ne_true, Option.map_id, id]

theorem resumed_sequenceFrom {p : Phase} {f : Submission} {st : RelaySessionState} {w : Witnessed}
    (hst : st.status = .active) (hwill : Writes ext st f w → WorksOn ext store p st) :
    Resumed ext mom store p (sequenceFrom ext mom store f st w).store
      (sequenceFrom ext mom store f st w).phase := by
  rw [sequenceFrom]
  cases hack : checkAcknowledgement st w.s1 with
  | error e => exact .kept p .done fun _ h => absurd h not_pending_done
  | ok u =>
    cases hget : st.issuedAcks.get (submissionKey f.sender w.s1) with
    | some already => exact .kept p .done fun _ h => absurd h not_pending_done
    | none =>
      simp only
      split
      · rename_i hlink
        refine .kept p _ fun held _ hheld => ?_
        cases hheld
        exact hwill ⟨hack, hget, fun h => absurd h hlink⟩
      · cases hs2 : ext.buildStructure2 (st.seqCounter + 1) w.s1.senderPubkey w.s1.contentHash
            f.frame.senderSignature st.runningRoot with
        | none => exact .kept p .done fun _ h => absurd h not_pending_done
        | some s2 =>
          have hwrites : Writes ext st f w := ⟨hack, hget, fun _ => by rw [hs2]; rfl⟩
          simp only
          split
          · exact .wrote p _ st _ (hwill hwrites) hst rfl id
          · obtain ⟨note, hnote, hstore⟩ := issueAck_store ext mom f st w s2
            rw [hstore, Option.map_some]
            exact .wrote p _ st _ (hwill hwrites) ((hnote _).1.trans hst) (hnote _).2
              not_pending_issueAck

theorem resumed_identifyFrom {p : Phase} {f : Submission} {st : RelaySessionState}
    (hst : st.status = .active)
    (hwill : ∀ w, identify ext mom st f.sender f.frame = .ok w → Writes ext st f w →
      WorksOn ext store p st) :
    Resumed ext mom store p (identifyFrom ext mom store f st).store
      (identifyFrom ext mom store f st).phase := by
  rw [identifyFrom]
  cases hw : identify ext mom st f.sender f.frame with
  | error e => exact .kept p .done fun _ h => absurd h not_pending_done
  | ok w =>
    simp only
    split
    · refine .kept p _ fun held h hheld => ?_
      cases hheld
      exact hwill w hw h
    · exact resumed_sequenceFrom hst (hwill w hw)

/-- **Every handler goes one of these ways.** -/
theorem resumed {p : Phase} (hsnap : ∀ st, p.snapshot = some st → st.status = .active) :
    Resumed ext mom store p (resumeTask ext mom store p).store (resumeTask ext mom store p).phase := by
  cases p with
  | waiting f =>
    cases store with
    | none => exact .kept _ .done fun _ h => absurd h not_pending_done
    | some st =>
      simp only [resumeTask, startSubmit]
      cases hgate : gate st with
      | error e => exact .kept _ .done fun _ h => absurd h not_pending_done
      | ok u =>
        have hactive := (gate_ok hgate).1
        simp only
        split
        · refine .kept _ _ fun held _ hheld => ?_
          cases hheld
          exact Or.inr ⟨rfl, hactive⟩
        · exact resumed_identifyFrom hactive fun _ _ _ => Or.inr ⟨rfl, hactive⟩
  | lookup f st =>
    exact resumed_identifyFrom (hsnap st rfl) fun w hw hwrites => Or.inl ⟨⟨mom, w, hw, hwrites⟩, rfl⟩
  | alerting f st w =>
    exact resumed_sequenceFrom (hsnap st rfl) fun hwrites => Or.inl ⟨hwrites, rfl⟩
  | selfAlert f st => exact .diverged f st
  | signing f st w s2 =>
    obtain ⟨note, hnote, hstore⟩ := issueAck_store ext mom f st w s2
    simp only [resumeTask, hstore]
    exact .noted _ _ note hnote not_pending_issueAck
  | sending kind =>
    simp only [resumeTask]
    split
    · rename_i hctrl
      obtain ⟨rfl, hdirectory⟩ := hctrl
      cases store with
      | none => exact .kept _ .done fun _ h => absurd h not_pending_done
      | some st =>
        simp only [attemptSeal]
        split
        · rename_i hattempts
          exact .attempted st _ rfl hdirectory hattempts
        · exact .kept _ .done fun _ h => absurd h not_pending_done
    · exact .kept _ .done fun _ h => absurd h not_pending_done
  | sealing data => exact .adjudicated data
  | done => exact .kept _ .done fun _ h => absurd h not_pending_done

theorem sequenceFrom_snapshot {f : Submission} {st st' : RelaySessionState} {w : Witnessed}
    (h : (sequenceFrom ext mom store f st w).phase.snapshot = some st') : st' = st := by
  rw [sequenceFrom] at h
  split at h
  · cases h
  · split at h
    · cases h
    · split at h
      · exact (Option.some.inj h).symm
      · split at h
        · cases h
        · simp only at h
          split at h <;> cases h

theorem identifyFrom_snapshot {f : Submission} {st st' : RelaySessionState}
    (h : (identifyFrom ext mom store f st).phase.snapshot = some st') : st' = st := by
  rw [identifyFrom] at h
  split at h
  · cases h
  · split at h
    · exact (Option.some.inj h).symm
    · exact sequenceFrom_snapshot h

theorem resumeTask_snapshot {p : Phase} {st : RelaySessionState}
    (hsnap : ∀ st, p.snapshot = some st → st.status = .active)
    (h : (resumeTask ext mom store p).phase.snapshot = some st) : st.status = .active := by
  cases p with
  | waiting f =>
    cases store with
    | none => cases h
    | some latest =>
      simp only [resumeTask, startSubmit] at h
      cases hgate : gate latest with
      | error e =>
        rw [hgate] at h
        cases h
      | ok u =>
        have hactive := (gate_ok hgate).1
        simp only [hgate] at h
        split at h
        · cases h
          exact hactive
        · rw [identifyFrom_snapshot h]
          exact hactive
  | lookup f held =>
    rw [identifyFrom_snapshot h]
    exact hsnap held rfl
  | alerting f held w =>
    rw [sequenceFrom_snapshot h]
    exact hsnap held rfl
  | selfAlert f held => cases h
  | signing f held w s2 => cases h
  | sending kind =>
    simp only [resumeTask, attemptSeal] at h
    split at h
    · split at h
      · cases h
      · split at h <;> cases h
    · cases h
  | sealing data => cases h
  | done => cases h

end

/-! ### The invariant -/

/-- **Whoever will write finds the session as it left it**: in the store, and active. -/
structure Undisturbed (ext : RelayExternals) (s : Inflight) : Prop where
  pending : ∀ (j : ℕ) (t : Task), s.tasks[j]? = some t → Pending ext t.phase → ActiveIn s.store
  snapshot : ∀ (j : ℕ) (t : Task) (st : RelaySessionState), s.tasks[j]? = some t →
    t.phase.snapshot = some st → st.status = .active

theorem undisturbed_empty (ext : RelayExternals) : Undisturbed ext {} := ⟨by simp, by simp⟩

section

variable {ext : RelayExternals} {mom : Moment} {s : Inflight}

theorem getElem?_set_cases {tasks : List Task} {i j : ℕ} {t u : Task}
    (h : (tasks.set i t)[j]? = some u) : u = t ∨ (j ≠ i ∧ tasks[j]? = some u) := by
  rw [List.getElem?_set] at h
  split at h
  · split at h
    · exact Or.inl (Option.some.inj h).symm
    · cases h
  · rename_i hne
    exact Or.inr ⟨fun he => hne he.symm, h⟩

theorem getElem?_append_cases {tasks : List Task} {j : ℕ} {t u : Task}
    (h : (tasks ++ [t])[j]? = some u) : u = t ∨ tasks[j]? = some u := by
  rw [List.getElem?_append] at h
  split at h
  · exact Or.inr h
  · rw [List.getElem?_singleton] at h
    split at h
    · exact Or.inl (Option.some.inj h).symm
    · cases h

theorem Undisturbed.resumes (h : Undisturbed ext s) {i : ℕ} {t : Task} (ht : s.tasks[i]? = some t) :
    Resumed ext mom s.store t.phase (resumeTask ext mom s.store t.phase).store
      (resumeTask ext mom s.store t.phase).phase :=
  resumed fun st hst => h.snapshot i t st ht hst

theorem Undisturbed.of_store (h : Undisturbed ext s) {store : Option RelaySessionState}
    {lockTail : Option ℕ}
    (hstore : ∀ (j : ℕ) (t : Task), s.tasks[j]? = some t → Pending ext t.phase → ActiveIn store) :
    Undisturbed ext ⟨store, s.tasks, lockTail⟩ where
  pending := hstore
  snapshot := h.snapshot

theorem Undisturbed.append (h : Undisturbed ext s) {t : Task} {lockTail : Option ℕ}
    (hp : ¬Pending ext t.phase) (hs : t.phase.snapshot = none) :
    Undisturbed ext ⟨s.store, s.tasks ++ [t], lockTail⟩ where
  pending j u hu hpend := by
    rcases getElem?_append_cases hu with rfl | hu
    · exact absurd hpend hp
    · exact h.pending j u hu hpend
  snapshot j u st hu hst := by
    rcases getElem?_append_cases hu with rfl | hu
    · rw [hs] at hst
      cases hst
    · exact h.snapshot j u st hu hst

theorem Uncrossed.alone {i : ℕ} (h : Uncrossed ext s (.resume i mom))
    (hd : Deactivates ext s (.resume i mom)) {j : ℕ} {t : Task} (hj : j ≠ i)
    (ht : s.tasks[j]? = some t) : ¬Pending ext t.phase :=
  h hd j t ht fun _ he => hj (InflightEvent.resume.inj he).1.symm

theorem Resumed.active {i : ℕ} {t : Task} {store' : Option RelaySessionState} {p' : Phase}
    (h : Resumed ext mom s.store t.phase store' p') (ht : s.tasks[i]? = some t)
    (hactive : ActiveIn s.store) (hd : ¬Deactivates ext s (.resume i mom)) : ActiveIn store' := by
  obtain ⟨waitsFor, phase⟩ := t
  obtain ⟨st, hst, hstatus⟩ := hactive
  cases h with
  | kept _ _ hk => exact ⟨st, hst, hstatus⟩
  | wrote _ _ held written hw hwritten hassignment hp' => exact ⟨written, rfl, hwritten⟩
  | noted _ _ note hnote hp' =>
    refine ⟨note st, by rw [hst, Option.map_some], ?_⟩
    rw [(hnote st).1, hstatus]
  | diverged f held => exact absurd ⟨_, ht, trivial⟩ hd
  | attempted held data hstore hdirectory hattempts =>
    exact absurd ⟨_, ht, rfl, hdirectory, held, hstore, hattempts⟩ hd
  | adjudicated data =>
    have hanswer : ¬Deactivates ext s (.resume i mom) := hd
    cases hr : dirResult mom.directories with
    | ok => exact absurd ⟨_, ht, by simp only [hr]⟩ hanswer
    | refused reason redirect => exact absurd ⟨_, ht, by simp only [hr]⟩ hanswer
    | unknown reason => exact ⟨st, hst, hstatus⟩
    | unreachable reason =>
      refine ⟨st, ?_, hstatus⟩
      simp [adjudicate, hst, hstatus]

/-- **A resumed handler leaves the others undisturbed.** -/
theorem Undisturbed.resume (h : Undisturbed ext s) {i : ℕ} {t : Task} (ht : s.tasks[i]? = some t)
    (hcross : Uncrossed ext s (.resume i mom)) : Undisturbed ext (s.resume ext mom i t) := by
  constructor
  · intro j u hu hp
    change ActiveIn (resumeTask ext mom s.store t.phase).store
    rcases getElem?_set_cases hu with rfl | ⟨hj, hu⟩
    · have hp : Pending ext (resumeTask ext mom s.store t.phase).phase := hp
      exact (h.resumes ht).pending hp (h.pending i t ht)
    · by_cases hd : Deactivates ext s (.resume i mom)
      · exact absurd hp (hcross.alone hd hj hu)
      · exact (h.resumes ht).active ht (h.pending j u hu hp) hd
  · intro j u st hu hst
    rcases getElem?_set_cases hu with rfl | ⟨hj, hu⟩
    · exact resumeTask_snapshot (fun held hheld => h.snapshot i t held ht hheld) hst
    · exact h.snapshot j u st hu hst

theorem Undisturbed.removeIdle (h : Undisturbed ext s)
    (hcross : ActiveIn s.store → ∀ (j : ℕ) (t : Task), s.tasks[j]? = some t → ¬Pending ext t.phase) :
    Undisturbed ext s.removeIdle := by
  rw [Inflight.removeIdle]
  split
  · rename_i hactive
    exact h.of_store fun j t ht hp => absurd hp (hcross hactive j t ht)
  · exact h

theorem attemptSeal_quiet (ext : RelayExternals) (store : Option RelaySessionState) :
    ¬Pending ext (attemptSeal ext store).phase ∧ (attemptSeal ext store).phase.snapshot = none := by
  unfold attemptSeal
  split
  · exact ⟨id, rfl⟩
  · split
    · exact ⟨id, rfl⟩
    · exact ⟨id, rfl⟩

theorem replaySegment_quiet (ext : RelayExternals) (store : Option RelaySessionState)
    (submitter : Bytes) (verdict : ReplayVerdict) :
    ¬Pending ext (replaySegment ext store submitter verdict).phase ∧
      (replaySegment ext store submitter verdict).phase.snapshot = none := by
  unfold replaySegment
  split
  · exact ⟨id, rfl⟩
  · split
    · split
      · exact ⟨id, rfl⟩
      · exact ⟨id, rfl⟩
      · split
        · exact attemptSeal_quiet ext _
        · exact ⟨id, rfl⟩
    · exact ⟨id, rfl⟩

theorem replaySegment_active {submitter : Bytes} {verdict : ReplayVerdict} (hactive : ActiveIn s.store)
    (hd : ¬Deactivates ext s (.sessionReplay submitter verdict)) :
    ActiveIn (replaySegment ext s.store submitter verdict).store := by
  obtain ⟨st, hst, hstatus⟩ := hactive
  rw [hst]
  simp only [replaySegment]
  split
  · rename_i hawaits
    split
    · exact ⟨st, rfl, hstatus⟩
    · exact absurd ⟨st, hst, hawaits, trivial⟩ hd
    · rename_i leaves
      have hadopted : (adoptLeaves ext st leaves).status = .active := hstatus
      split
      · rename_i hdirectory
        have hno : ¬AttemptsSeal (adoptLeaves ext st leaves) :=
          fun ha => hd ⟨st, hst, hawaits, hdirectory, ha⟩
        simp only [attemptSeal, if_neg hno]
        exact ⟨_, rfl, hadopted⟩
      · exact ⟨_, rfl, hadopted⟩
  · exact ⟨st, rfl, hstatus⟩

theorem Undisturbed.sessionReplay (h : Undisturbed ext s) {submitter : Bytes} {verdict : ReplayVerdict}
    (hcross : Uncrossed ext s (.sessionReplay submitter verdict)) :
    Undisturbed ext (inflightStep ext s (.sessionReplay submitter verdict)) := by
  obtain ⟨hquiet, hsnap⟩ := replaySegment_quiet ext s.store submitter verdict
  refine Undisturbed.append (s := ⟨_, s.tasks, s.lockTail⟩) (h.of_store fun j t ht hp => ?_) hquiet hsnap
  refine replaySegment_active (h.pending j t ht hp) fun hd => ?_
  exact hcross hd j t ht (fun _ he => by cases he) hp

/-- **One step.** -/
theorem Undisturbed.step (h : Undisturbed ext s) {e : InflightEvent} (hcross : Uncrossed ext s e) :
    Undisturbed ext (inflightStep ext s e) := by
  cases e with
  | hashSubmit f => exact h.append id rfl
  | resume i mom =>
    simp only [inflightStep]
    split
    · exact h
    · rename_i t ht
      split
      · exact h.resume ht hcross
      · exact h
  | sessionReplay submitter verdict => exact h.sessionReplay hcross
  | discardSession =>
    exact h.of_store fun j t ht hp => absurd hp (hcross trivial j t ht fun _ he => by cases he)
  | confirmSeal =>
    exact h.of_store fun j t ht hp => absurd hp (hcross trivial j t ht fun _ he => by cases he)
  | idleTimeout =>
    exact h.removeIdle fun hactive j t ht => hcross hactive j t ht fun _ he => by cases he
  | sweepIdleSessions =>
    exact h.removeIdle fun hactive j t ht => hcross hactive j t ht fun _ he => by cases he
  | recordAssignment assignment genesisRoot =>
    simp only [inflightStep]
    split
    · exact h
    · exact h.of_store fun _ _ _ _ => ⟨_, rfl, rfl⟩

end

/-! ### A session that is over -/

def InflightEvent.IsRecord : InflightEvent → Prop
  | recordAssignment _ _ => True
  | _ => False

def RollsBack (s : Inflight) : InflightEvent → Prop
  | .resume i mom => ∃ t data reason, s.tasks[i]? = some t ∧ t.phase = .sealing data ∧
      dirResult mom.directories = .unreachable reason
  | _ => False

section

variable {ext : RelayExternals} {mom : Moment} {s : Inflight}

theorem Resumed.removed {p p' : Phase} {store store' : Option RelaySessionState}
    (h : Resumed ext mom store p store' p') (hp : Pending ext p → ActiveIn store)
    (hnone : store = none) : store' = none := by
  have hover : ¬ActiveIn store := by
    rintro ⟨st, hst, -⟩
    rw [hnone] at hst
    cases hst
  cases h with
  | kept _ _ hk => exact hnone
  | wrote _ _ held written hw hwritten hassignment hnot => exact absurd (hw.active hp) hover
  | noted _ _ note hnote hnot => rw [hnone, Option.map_none]
  | diverged f held => exact absurd (hp trivial) hover
  | attempted held data hstore hdirectory hattempts =>
    rw [hnone] at hstore
    cases hstore
  | adjudicated data =>
    rw [hnone]
    cases dirResult mom.directories <;> rfl

theorem Resumed.ended {p p' : Phase} {store store' : Option RelaySessionState}
    (h : Resumed ext mom store p store' p') (hp : Pending ext p → ActiveIn store)
    (hover : ¬ActiveIn store) (hactive : ActiveIn store') :
    ∃ data reason, p = .sealing data ∧ dirResult mom.directories = .unreachable reason := by
  cases h with
  | kept _ _ hk => exact absurd hactive hover
  | wrote _ _ held written hw hwritten hassignment hnot => exact absurd (hw.active hp) hover
  | noted _ _ note hnote hnot =>
    obtain ⟨st', hst', hstatus⟩ := hactive
    obtain ⟨st, hst, rfl⟩ := Option.map_eq_some_iff.1 hst'
    exact absurd ⟨st, hst, (hnote st).1.symm.trans hstatus⟩ hover
  | diverged f held => exact absurd (hp trivial) hover
  | attempted held data hstore hdirectory hattempts => exact absurd ⟨held, hstore, hattempts.1⟩ hover
  | adjudicated data =>
    cases hr : dirResult mom.directories with
    | ok =>
      rw [hr] at hactive
      obtain ⟨st', hst', -⟩ := hactive
      cases hst'
    | unknown reason =>
      rw [hr] at hactive
      exact absurd hactive hover
    | unreachable reason => exact ⟨data, reason, rfl, rfl⟩
    | refused reason redirect =>
      rw [hr] at hactive
      obtain ⟨st', hst', hstatus⟩ := hactive
      obtain ⟨st, -, rfl⟩ := Option.map_eq_some_iff.1 hst'
      cases hstatus

theorem Undisturbed.removed (h : Undisturbed ext s) {e : InflightEvent} (hrecord : ¬e.IsRecord)
    (hnone : s.store = none) : (inflightStep ext s e).store = none := by
  cases e with
  | hashSubmit f => exact hnone
  | resume i mom =>
    simp only [inflightStep]
    split
    · exact hnone
    · rename_i t ht
      split
      · exact (h.resumes ht).removed (h.pending i t ht) hnone
      · exact hnone
  | sessionReplay submitter verdict =>
    simp only [inflightStep, hnone, replaySegment]
  | discardSession => rfl
  | confirmSeal => rfl
  | idleTimeout =>
    simp only [inflightStep, Inflight.removeIdle]
    split
    · rfl
    · exact hnone
  | sweepIdleSessions =>
    simp only [inflightStep, Inflight.removeIdle]
    split
    · rfl
    · exact hnone
  | recordAssignment assignment genesisRoot => exact absurd trivial hrecord

theorem replaySegment_ended {store : Option RelaySessionState} {submitter : Bytes}
    {verdict : ReplayVerdict} (hover : ¬ActiveIn store) :
    (replaySegment ext store submitter verdict).store = store := by
  cases store with
  | none => rfl
  | some st =>
    have hno : ¬AwaitsReplay st submitter := fun ha => hover ⟨st, rfl, ha.active⟩
    simp only [replaySegment, if_neg hno]

theorem Undisturbed.ended (h : Undisturbed ext s) {e : InflightEvent} (hpresent : s.store ≠ none)
    (hover : ¬ActiveIn s.store) (hactive : ActiveIn (inflightStep ext s e).store) : RollsBack s e := by
  cases e with
  | hashSubmit f => exact absurd hactive hover
  | resume i mom =>
    simp only [inflightStep] at hactive
    split at hactive
    · exact absurd hactive hover
    · rename_i t ht
      split at hactive
      · obtain ⟨data, reason, hp, hr⟩ := (h.resumes ht).ended (h.pending i t ht) hover hactive
        exact ⟨t, data, reason, ht, hp, hr⟩
      · exact absurd hactive hover
  | sessionReplay submitter verdict =>
    simp only [inflightStep, replaySegment_ended hover] at hactive
    exact absurd hactive hover
  | discardSession =>
    obtain ⟨st, hst, -⟩ := hactive
    cases hst
  | confirmSeal =>
    obtain ⟨st, hst, -⟩ := hactive
    cases hst
  | idleTimeout =>
    simp only [inflightStep, Inflight.removeIdle, if_neg hover] at hactive
    exact absurd hactive hover
  | sweepIdleSessions =>
    simp only [inflightStep, Inflight.removeIdle, if_neg hover] at hactive
    exact absurd hactive hover
  | recordAssignment assignment genesisRoot =>
    cases hst : s.store with
    | none => exact absurd hst hpresent
    | some st =>
      simp only [inflightStep, hst] at hactive
      rw [← hst] at hactive
      exact absurd hactive hover

end

/-- What `destroyed` asks of a run: a session that is removed is not in the store again before an
assignment is recorded, and a session that is over is not made active again, except by the seal attempt
that could not reach a directory. -/
structure StaysDestroyed (ext : RelayExternals) (events : List InflightEvent) : Prop where
  removed : ∀ m k, m ≤ k → (inflightRun ext (events.take m)).store = none →
    (∀ i e, m ≤ i → i < k → events[i]? = some e → ¬e.IsRecord) →
    (inflightRun ext (events.take k)).store = none
  ended : ∀ m e st st', events[m]? = some e → (inflightRun ext (events.take m)).store = some st →
    st.status ≠ .active → (inflightRun ext (events.take (m + 1))).store = some st' →
    st'.status = .active → RollsBack (inflightRun ext (events.take m)) e

/-- **A destroyed session stays destroyed**, in every run in which no step takes the session out of the
store or out of `active` while another submit is going to write its snapshot back. -/
theorem destroyed_stays_destroyed (ext : RelayExternals) (events : List InflightEvent)
    (hcross : Guarded (inflightStep ext) (Uncrossed ext) {} events) : StaysDestroyed ext events := by
  have hinv : ∀ m, Undisturbed ext (inflightRun ext (events.take m)) :=
    hcross.invariant (fun _ _ h hc => h.step hc) (undisturbed_empty ext)
  constructor
  · intro m k hmk hnone hrecord
    induction k, hmk using Nat.le_induction with
    | base => exact hnone
    | succ k hmk ih =>
      have hk := ih fun i e hi hik => hrecord i e hi (by omega)
      cases he : events[k]? with
      | none =>
        rwa [List.take_of_length_le (by rw [List.getElem?_eq_none_iff] at he; omega),
          ← List.take_of_length_le (List.getElem?_eq_none_iff.1 he)]
      | some e =>
        rw [inflightRun, foldl_take_succ he]
        exact (hinv k).removed (hrecord k e hmk (by omega) he) hk
  · intro m e st st' he hst hover hst' hactive
    rw [inflightRun, foldl_take_succ he] at hst'
    refine (hinv m).ended ?_ ?_ ⟨st', hst', hactive⟩
    · rw [hst]
      exact Option.some_ne_none st
    · rintro ⟨latest, hlatest, hstatus⟩
      rw [hst] at hlatest
      cases hlatest
      exact hover hstatus

def Phase.holds : Phase → Bool
  | lookup _ _ | alerting _ _ _ | selfAlert _ _ => true
  | _ => false

theorem holds_of_pending {ext : RelayExternals} {p : Phase} (h : Pending ext p) : p.holds = true := by
  cases p with
  | lookup f st => rfl
  | alerting f st w => rfl
  | selfAlert f st => rfl
  | _ => exact absurd h id

theorem uncrossed_of_holds {ext : RelayExternals} {s : Inflight} {e : InflightEvent}
    (h : s.tasks.all (fun t => !t.phase.holds) = true) : Uncrossed ext s e := by
  intro _ j t ht _ hp
  have hfree := List.all_eq_true.1 h t (List.mem_of_getElem? ht)
  rw [holds_of_pending hp] at hfree
  cases hfree

namespace Sample

open Interfaces.Sample (key sid)

/-- The session is recorded and `s` submits the first leaf of `key 1`; the handler comes to its first
await behind the lock. -/
def firstAwait (s : UInt8) : List InflightEvent :=
  [.recordAssignment ⟨sid, key 1, key 2, none⟩ genesis, .hashSubmit ⟨key s, frame 0 1 [1, 5, 0, 0, 1]⟩,
    .resume 0 (moment unreachable)]

/-- The session is discarded while the handler is suspended. -/
def discardedUnder (s : UInt8) : List InflightEvent :=
  firstAwait s ++ [.discardSession, .resume 0 (moment unreachable)]

theorem discardedUnder_uncrossed :
    Guarded (inflightStep externals) (Uncrossed externals) {} (discardedUnder 1) := by
  refine ⟨?_, ?_, ?_, ?_, ?_, trivial⟩ <;> exact uncrossed_of_holds (by decide)

end Sample

theorem discarded_stays_destroyed : StaysDestroyed Sample.externals (Sample.discardedUnder 1) :=
  destroyed_stays_destroyed Sample.externals _ Sample.discardedUnder_uncrossed

/-- **A counter-submit brings a discarded session back.**  `key 2` hands over the leaf; both are told,
the session is discarded meanwhile, and the handler writes what it read before. -/
theorem counter_submit_resurrects :
    (inflightRun Sample.externals ((Sample.discardedUnder 2).take 4)).store.isNone = true ∧
      (inflightRun Sample.externals ((Sample.discardedUnder 2).take 5)).store.map
        RelaySessionState.status = some .active ∧
      ¬StaysDestroyed Sample.externals (Sample.discardedUnder 2) := by
  have hgone : (inflightRun Sample.externals ((Sample.discardedUnder 2).take 4)).store.isNone = true := by
    decide
  have hback : (inflightRun Sample.externals ((Sample.discardedUnder 2).take 5)).store.map
      RelaySessionState.status = some .active := by
    decide
  refine ⟨hgone, hback, fun h => ?_⟩
  have hnone := h.removed 4 5 (by decide) (Option.isNone_iff_eq_none.1 hgone) fun i e hi hlt he => by
    obtain rfl : i = 4 := by omega
    cases he
    exact id
  rw [hnone] at hback
  cases hback

end Cello.Relay
