import Cello.Relay.HashSubmit

/-!
# Runs of a relay session

A session meets three kinds of events: a `hash_submit` frame, a `session_replay` frame
and its removal.  `step` is what one of them does and `run` what a list of them does.
`Submitted` says once what handling a `hash_submit` frame can come to; the results
about sessions are read off its four cases.
-/

namespace Cello.Relay

open Lib Cello.Interfaces

/-! ### Taking over a conversation -/

/-- What the verification of a replayed chain came to. -/
inductive ReplayVerdict where
  | adopted (leaves : List RelaySealLeaf)
  /-- The counterparty's signed tip contradicts the chain. -/
  | diverged (reason : String)
  | refused (reason : String)
deriving DecidableEq, Repr

/-- The state with the verified leaves as its log. -/
def adoptLeaves (ext : RelayExternals) (st : RelaySessionState) (leaves : List RelaySealLeaf) :
    RelaySessionState :=
  let push := fun (acc : Stack × Bytes) (leaf : RelaySealLeaf) =>
    let node := ext.leafHash leaf.kind (ext.encodeStructure2 leaf.s2)
    let stack := pushNode ext.nodeHash node 0 acc.1
    (stack, stackRoot ext.nodeHash node stack)
  let rebuilt := leaves.foldl push ([], st.genesisPrevRoot)
  { st with
    seqCounter := leaves.length
    leafLog := leaves.map fun l => { l with contentBytes := none }
    treeStack := rebuilt.1
    runningRoot := rebuilt.2
    awaitingReplay := false }

/-- `#processSessionReplay` around the verification of the chain it is handed. -/
def processSessionReplay (ext : RelayExternals) (d : Directories) (session : Option RelaySessionState)
    (submitter : Bytes) (verdict : ReplayVerdict) : Handled :=
  match session with
  | none => ⟨none, [.replayResult (.error "session_not_found")]⟩
  | some st =>
    if submitter ≠ st.assignment.participantA ∧ submitter ≠ st.assignment.participantB then
      ⟨some st, [.replayResult (.error "not_a_participant")]⟩
    else if st.priorRelayId.isNone then
      ⟨some st, [.replayResult (.error "session_not_a_resume")]⟩
    else if st.status ≠ .active then
      ⟨some st, [.replayResult (.error
        (if st.status = .diverged then "session_diverged" else "session_not_active"))]⟩
    else if !st.awaitingReplay || !st.leafLog.isEmpty then
      ⟨some st, [.replayResult (.error "replay_already_adopted")]⟩
    else
      match verdict with
      | .refused reason => ⟨some st, [.replayResult (.error reason)]⟩
      | .diverged reason =>
        let counterparty := if submitter = st.assignment.participantA then st.assignment.participantB
          else st.assignment.participantA
        ⟨some { st with
            status := .diverged, awaitingReplay := false
            divergedReason := some ("the replayed chain and the counterparty's signed tip " ++
              "disagree about a message both sides hold") },
          [.alert counterparty .replayChainDiverged true, .replayResult (.error reason)]⟩
      | .adopted leaves =>
        let st' := adoptLeaves ext st leaves
        let sealed := if ext.hasDirectory then maybeProcessSeal ext d st' else ⟨some st', []⟩
        ⟨sealed.session, sealed.out ++ [.replayResult (.ok leaves.length)]⟩

/-! ### Events -/

inductive Event where
  | submit (mom : Moment) (sender : Bytes) (frame : HashSubmit)
  | replay (d : Directories) (submitter : Bytes) (verdict : ReplayVerdict)
  /-- `discardSession`, or the sweep of an idle session. -/
  | discard

/-- The directories as the event meets them. -/
def Event.directories : Event → Option Directories
  | submit mom _ _ => some mom.directories
  | replay d _ _ => some d
  | discard => none

def step (ext : RelayExternals) (session : Option RelaySessionState) : Event → Handled
  | .submit mom sender frame => processHashSubmitLocked ext mom session sender frame
  | .replay d submitter verdict => processSessionReplay ext d session submitter verdict
  | .discard => ⟨none, []⟩

def run (ext : RelayExternals) (session : Option RelaySessionState) (events : List Event) :
    Option RelaySessionState :=
  events.foldl (fun s e => (step ext s e).session) session

@[simp] theorem run_cons (ext : RelayExternals) (session : Option RelaySessionState) (e : Event)
    (events : List Event) :
    run ext session (e :: events) = run ext (step ext session e).session events := rfl

@[simp] theorem run_nil (ext : RelayExternals) (session : Option RelaySessionState) :
    run ext session [] = session := rfl

theorem run_induction {ext : RelayExternals} {P : Option RelaySessionState → Prop}
    (hstep : ∀ s e, P s → P (step ext s e).session) :
    ∀ (events : List Event) (s : Option RelaySessionState), P s → P (run ext s events) := by
  intro events
  induction events with
  | nil => intro s h; exact h
  | cons e rest ih => intro s h; exact ih _ (hstep s e h)

/-! ### What a submit can come to -/

/-- The leaf passed every check before the retry lookup. -/
structure Passed (ext : RelayExternals) (mom : Moment) (st : RelaySessionState) (sender : Bytes)
    (frame : HashSubmit) (w : Witnessed) : Prop where
  gate : gate st = .ok ()
  identified : identify ext mom st sender frame = .ok w
  acknowledged : checkAcknowledgement st w.s1 = .ok ()

/-- `buildStructure2` takes a signature of 64 bytes and returns the record of its arguments. -/
def BuildsStructure2 (ext : RelayExternals) : Prop :=
  ∀ (seq : ℕ) (pk ch sig prev : Bytes), sig.length = 64 →
    ext.buildStructure2 seq pk ch sig prev = some ⟨(seq : ℕ), pk, ch, sig, prev⟩

theorem sealTrigger_sameRecord {ext : RelayExternals} {mom : Moment} {kind : LeafKind}
    {st st' : RelaySessionState} (h : (sealTrigger ext mom kind st).session = some st') :
    SameRecord st st' := by
  rw [sealTrigger] at h
  split at h
  · exact maybeProcessSeal_sameRecord h
  · obtain rfl := Option.some.inj h
    exact SameRecord.refl _

def committed (ext : RelayExternals) (mom : Moment) (st : RelaySessionState) (sender : Bytes)
    (frame : HashSubmit) (w : Witnessed) (s2 : Structure2) : RelaySessionState :=
  recordAck ext (appendLeaf ext st frame w.kind s2) (submissionKey sender w.s1)
    (ackFrame ext mom w.s1.contentHash (st.seqCounter + 1) (ext.encodeStructure2 s2))

theorem gate_ok {st : RelaySessionState} (h : gate st = .ok ()) :
    st.status = .active ∧ st.awaitingReplay = false := by
  rw [gate] at h
  cases hs : st.status with
  | active =>
    simp only [hs] at h
    split at h
    · simp at h
    · rename_i hr
      exact ⟨rfl, by simpa using hr⟩
  | _ => simp [hs] at h

theorem identify_ok {ext : RelayExternals} {mom : Moment} {st : RelaySessionState} {sender : Bytes}
    {frame : HashSubmit} {w : Witnessed} (h : identify ext mom st sender frame = .ok w) :
    decodeStructure1 ext frame.structure1Cbor = some w.s1 ∧
      witnessLeafSignature ext (expectedKeys st sender) frame.structure1Cbor frame.senderSignature =
        some w.author ∧
      (sender = st.assignment.participantA ∨ sender = st.assignment.participantB) ∧
      relayLeafKind frame.leafKind = some w.kind ∧ w.s1.senderPubkey = w.author ∧
      (sender ≠ w.author → alreadyHeld st.leafLog w.author w.s1.contentHash = false) := by
  rw [identify] at h
  cases hd : decodeStructure1 ext frame.structure1Cbor with
  | none => simp [hd] at h
  | some s1 =>
    simp only [hd] at h
    split at h
    · simp at h
    cases hw : witnessLeafSignature ext (expectedKeys st sender) frame.structure1Cbor
        frame.senderSignature with
    | none => simp [hw] at h
    | some author =>
      simp only [hw] at h
      split at h
      · simp at h
      rename_i hpart
      split at h
      · simp at h
      cases hk : relayLeafKind frame.leafKind with
      | none => simp [hk] at h
      | some kind =>
        simp only [hk] at h
        split at h
        · simp at h
        rename_i hsender
        split at h
        · simp at h
        rename_i hheld
        obtain rfl := Except.ok.inj h
        refine ⟨rfl, rfl, ?_, rfl, not_not.1 hsender, fun hne => ?_⟩
        · rw [not_and_or, not_not, not_not] at hpart
          exact hpart
        · rw [not_and, Bool.not_eq_true] at hheld
          exact hheld hne

def witnessedLeaf (frame : HashSubmit) (w : Witnessed) (s2 : Structure2) : RelaySealLeaf where
  kind := w.kind
  s2 := s2
  structure1Cbor := frame.structure1Cbor
  contentBytes := frame.contentBytes

section committed

variable (ext : RelayExternals) (mom : Moment) (st : RelaySessionState) (sender : Bytes)
  (frame : HashSubmit) (w : Witnessed) (s2 : Structure2)

@[simp] theorem committed_leafLog : (committed ext mom st sender frame w s2).leafLog =
    st.leafLog ++ [witnessedLeaf frame w s2] := by
  rw [committed, recordAck]
  split <;> rfl

@[simp] theorem committed_seqCounter :
    (committed ext mom st sender frame w s2).seqCounter = st.seqCounter + 1 := by
  rw [committed, recordAck]
  split <;> rfl

@[simp] theorem committed_status : (committed ext mom st sender frame w s2).status = st.status := by
  rw [committed, recordAck]
  split <;> rfl

@[simp] theorem committed_awaitingReplay :
    (committed ext mom st sender frame w s2).awaitingReplay = st.awaitingReplay := by
  rw [committed, recordAck]
  split <;> rfl

@[simp] theorem committed_assignment :
    (committed ext mom st sender frame w s2).assignment = st.assignment := by
  rw [committed, recordAck]
  split <;> rfl

@[simp] theorem committed_genesisPrevRoot :
    (committed ext mom st sender frame w s2).genesisPrevRoot = st.genesisPrevRoot := by
  rw [committed, recordAck]
  split <;> rfl

end committed

/-- A leaf nothing is wrong with, up to its own link: `author` signed it for this session and it is in step
with the relay's log. -/
structure HonestLeaf (ext : RelayExternals) (st : RelaySessionState) (author : Bytes)
    (frame : HashSubmit) (s1 : Structure1) (kind : LeafKind) : Prop where
  decoded : decodeStructure1 ext frame.structure1Cbor = some s1
  session : s1.sessionId = frame.sessionId
  signed : ext.verify author frame.structure1Cbor frame.senderSignature = true
  claimed : s1.senderPubkey = author
  noPredecessor : frame.predecessorRelayId = none
  kind : relayLeafKind frame.leafKind = some kind
  notAhead : s1.lastSeenSeq.gt (st.seqCounter : ℕ) = false
  seen : expectedAck st s1.lastSeenSeq = some s1.lastSeenHash

theorem HonestLeaf.passed {ext : RelayExternals} {mom : Moment} {st : RelaySessionState}
    {sender author : Bytes} {frame : HashSubmit} {s1 : Structure1} {kind : LeafKind}
    (h : HonestLeaf ext st author frame s1 kind) (hactive : st.status = .active)
    (hreplay : st.awaitingReplay = false)
    (hsender : sender = st.assignment.participantA ∨ sender = st.assignment.participantB)
    (hwitness : witnessLeafSignature ext (expectedKeys st sender) frame.structure1Cbor
      frame.senderSignature = some author)
    (hfresh : sender ≠ author → alreadyHeld st.leafLog author s1.contentHash = false) :
    Passed ext mom st sender frame ⟨s1, author, kind⟩ := by
  refine ⟨by simp [gate, hactive, hreplay], ?_, ?_⟩
  · have hpart : ¬(sender ≠ st.assignment.participantA ∧ sender ≠ st.assignment.participantB) := by
      rcases hsender with hs | hs <;> simp [hs]
    have hdup : ¬(sender ≠ author ∧ alreadyHeld st.leafLog author s1.contentHash = true) := by
      rintro ⟨hne, hheld⟩
      simp [hfresh hne] at hheld
    simp only [identify, h.decoded, hwitness, h.kind]
    rw [if_neg (by simp [h.session]), if_neg hpart,
      if_neg (by simp [predecessorVerified, h.noPredecessor]), if_neg (by simp [h.claimed]), if_neg hdup]
  · simp [checkAcknowledgement, h.notAhead, h.seen]

/-- **The four ways a submit to a session goes.** -/
inductive Submitted (ext : RelayExternals) (mom : Moment) (st : RelaySessionState) (sender : Bytes)
    (frame : HashSubmit) : Handled → Prop
  /-- Refused, with no trace in the session. -/
  | refused (out : List Output) (hquiet : ∀ o ∈ out, o.Quiet) :
      Submitted ext mom st sender frame ⟨some st, out⟩
  /-- Answered from the record of issued acknowledgements. -/
  | replayed (w : Witnessed) (hw : Passed ext mom st sender frame w) (already : HashSubmitAck)
      (hget : st.issuedAcks.get (submissionKey sender w.s1) = some already) :
      Submitted ext mom st sender frame
        ⟨some st, counterSubmitAlerts st sender w.author ++ [.ack already]⟩
  /-- The self link does not match. -/
  | diverged (w : Witnessed) (hw : Passed ext mom st sender frame w)
      (hget : st.issuedAcks.get (submissionKey sender w.s1) = none)
      (hlink : w.s1.prevOwnHash ≠ expectedOwn st sender) :
      Submitted ext mom st sender frame ⟨some (diverge st), counterSubmitAlerts st sender w.author ++
        (selfChainAlerts st sender ++ [.error selfChainError])⟩
  /-- Sequenced. -/
  | sequenced (w : Witnessed) (hw : Passed ext mom st sender frame w)
      (hget : st.issuedAcks.get (submissionKey sender w.s1) = none)
      (hlink : w.s1.prevOwnHash = expectedOwn st sender) (s2 : Structure2)
      (hs2 : ext.buildStructure2 (st.seqCounter + 1) w.s1.senderPubkey w.s1.contentHash
        frame.senderSignature st.runningRoot = some s2) (sent : List Output)
      (hsent : ∀ o ∈ sent, o.Quiet) :
      Submitted ext mom st sender frame
        ⟨(sealTrigger ext mom w.kind (committed ext mom st sender frame w s2)).session,
          counterSubmitAlerts st sender w.author ++
            (.ack (ackFrame ext mom w.s1.contentHash (st.seqCounter + 1) (ext.encodeStructure2 s2)) ::
              (sent ++ (sealTrigger ext mom w.kind (committed ext mom st sender frame w s2)).out))⟩

theorem quiet_counterSubmitAlerts (st : RelaySessionState) (sender author : Bytes) :
    ∀ o ∈ counterSubmitAlerts st sender author, o.Quiet := by
  intro o ho
  rw [counterSubmitAlerts] at ho
  split at ho
  · obtain ⟨k, -, rfl⟩ := List.mem_map.1 ho
    exact Output.quiet_alert _ _ _
  · simp at ho

theorem quiet_unwitnessedAlerts (st : RelaySessionState) (sender : Bytes) (e : HashSubmitError) :
    ∀ o ∈ unwitnessedAlerts st sender e, o.Quiet := by
  intro o ho
  rw [unwitnessedAlerts] at ho
  split at ho
  · obtain ⟨k, -, rfl⟩ := List.mem_map.1 ho
    exact Output.quiet_alert _ _ _
  · simp at ho

theorem quiet_selfChainAlerts (st : RelaySessionState) (sender : Bytes) :
    ∀ o ∈ selfChainAlerts st sender, o.Quiet := by
  intro o ho
  obtain ⟨k, -, rfl⟩ := List.mem_map.1 ho
  exact Output.quiet_alert _ _ _

theorem quiet_append_error {alerts : List Output} (h : ∀ o ∈ alerts, o.Quiet) (e : HashSubmitError) :
    ∀ o ∈ alerts ++ [.error e], o.Quiet := by
  intro o ho
  rcases List.mem_append.1 ho with ho | ho
  · exact h o ho
  · rw [List.mem_singleton.1 ho]
    exact Output.quiet_error e

theorem quiet_diverged (st : RelaySessionState) (sender author : Bytes) :
    ∀ o ∈ counterSubmitAlerts st sender author ++
      (selfChainAlerts st sender ++ [.error selfChainError]), o.Quiet := by
  intro o ho
  rcases List.mem_append.1 ho with ho | ho
  · exact quiet_counterSubmitAlerts _ _ _ o ho
  · exact quiet_append_error (quiet_selfChainAlerts st sender) _ o ho

theorem processHashSubmitLocked_of_passed {ext : RelayExternals} {mom : Moment}
    {st : RelaySessionState} {sender : Bytes} {frame : HashSubmit} {w : Witnessed}
    (hw : Passed ext mom st sender frame w) :
    processHashSubmitLocked ext mom (some st) sender frame =
      ⟨(sequenceLeaf ext mom st sender frame w).session,
        counterSubmitAlerts st sender w.author ++ (sequenceLeaf ext mom st sender frame w).out⟩ := by
  simp only [processHashSubmitLocked, hw.gate, hw.identified, hw.acknowledged]

theorem submitted_of_passed {ext : RelayExternals} {mom : Moment} {st : RelaySessionState}
    {sender : Bytes} {frame : HashSubmit} {w : Witnessed} (hw : Passed ext mom st sender frame w) :
    Submitted ext mom st sender frame (processHashSubmitLocked ext mom (some st) sender frame) := by
  rw [processHashSubmitLocked_of_passed hw, sequenceLeaf]
  cases hget : st.issuedAcks.get (submissionKey sender w.s1) with
  | some already => exact .replayed w hw already hget
  | none =>
    by_cases hlink : w.s1.prevOwnHash = expectedOwn st sender
    · cases hs2 : ext.buildStructure2 (st.seqCounter + 1) w.s1.senderPubkey w.s1.contentHash
          frame.senderSignature st.runningRoot with
      | none =>
        simp only [hlink, ne_eq, not_true_eq_false, if_false, hs2]
        exact .refused _ (quiet_append_error (quiet_counterSubmitAlerts _ _ _) _)
      | some s2 =>
        simp only [hlink, ne_eq, not_true_eq_false, if_false, hs2]
        refine .sequenced w hw hget hlink s2 hs2 [_, _] fun o ho => ?_
        rcases List.mem_pair.1 ho with rfl | rfl
        · exact Output.quiet_echo _
        · exact Output.quiet_deliver _ _
    · simp only [ne_eq, hlink, not_false_eq_true, if_true]
      exact .diverged w hw hget hlink

theorem submitted (ext : RelayExternals) (mom : Moment) (st : RelaySessionState) (sender : Bytes)
    (frame : HashSubmit) :
    Submitted ext mom st sender frame (processHashSubmitLocked ext mom (some st) sender frame) := by
  cases hg : gate st with
  | error e =>
    simp only [processHashSubmitLocked, hg]
    exact .refused _ (quiet_append_error (List.forall_mem_nil _) e)
  | ok u =>
    cases hi : identify ext mom st sender frame with
    | error e =>
      simp only [processHashSubmitLocked, hg, hi]
      exact .refused _ (quiet_append_error (quiet_unwitnessedAlerts _ _ _) e)
    | ok w =>
      cases hc : checkAcknowledgement st w.s1 with
      | error e =>
        simp only [processHashSubmitLocked, hg, hi, hc]
        exact .refused _ (quiet_append_error (quiet_counterSubmitAlerts _ _ _) e)
      | ok u' => exact submitted_of_passed ⟨hg, hi, hc⟩

end Cello.Relay
