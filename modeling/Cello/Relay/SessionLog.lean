import Cello.Interfaces.MerkleTree
import Cello.Relay.SealOutcome

/-!
# The log of a session

The log, the counter, the stack and the running root of a session are written in one place and
copied along everywhere else.  `LogInvariant` says how they belong together: leaf `i` is numbered
`i + 1`, was signed by a participant for this session, and names the root over the leaves before
it.  Every event keeps it (`session_log_invariant`), and a submit that is refused leaves all four
alone.
-/

namespace Cello.Relay

open Lib Cello.Interfaces

/-- `getSealLeaves`: the package of `submitForSeal` without the mark. -/
def getSealLeaves (ext : RelayExternals) (st : RelaySessionState) : Except String SealData :=
  if st.status ≠ .active ∧ st.status ≠ .sealing then
    .error (if st.status = .diverged then "session_diverged" else "session_not_active")
  else if st.awaitingReplay then .error "session_awaiting_replay"
  else .ok (sealData ext st)

/-- The frame of a submit is looked up by the session it names. -/
def Event.RoutedTo (sid : Bytes) : Event → Prop
  | submit _ _ frame => frame.sessionId = sid
  | replay _ _ _ => True
  | discard => True

/-! ### The invariant -/

/-- What is true of the leaf at index `i`. -/
structure InPlace (ext : RelayExternals) (st : RelaySessionState) (i : ℕ) (leaf : RelaySealLeaf) :
    Prop where
  numbered : leaf.s2.sequenceNumber = ((i + 1 : ℕ) : JsNumber)
  signed : ∃ s1, decodeStructure1 ext leaf.structure1Cbor = some s1 ∧
    s1.sessionId = st.assignment.sessionId ∧ s1.senderPubkey = leaf.s2.senderPubkey ∧
    s1.contentHash = leaf.s2.contentHash
  participant : leaf.s2.senderPubkey = st.assignment.participantA ∨
    leaf.s2.senderPubkey = st.assignment.participantB
  verified : ext.verify leaf.s2.senderPubkey leaf.structure1Cbor leaf.s2.senderSignature = true
  prevRoot : leaf.s2.prevRoot = rootOver ext.toExternals st.genesisPrevRoot (st.leafLog.take i)

/-- **The session's four records agree.** -/
structure LogInvariant (ext : RelayExternals) (st : RelaySessionState) : Prop where
  counter : st.seqCounter = st.leafLog.length
  leaves : ∀ i leaf, st.leafLog[i]? = some leaf → InPlace ext st i leaf
  grown : Grown ext.toExternals st.genesisPrevRoot st.leafLog st.treeStack st.runningRoot

/-- The fields the invariant speaks of. -/
structure SameLog (st st' : RelaySessionState) : Prop where
  seqCounter : st'.seqCounter = st.seqCounter
  leafLog : st'.leafLog = st.leafLog
  treeStack : st'.treeStack = st.treeStack
  runningRoot : st'.runningRoot = st.runningRoot

/-- What a session was recorded with. -/
structure SameOrigin (st st' : RelaySessionState) : Prop where
  assignment : st'.assignment = st.assignment
  genesisPrevRoot : st'.genesisPrevRoot = st.genesisPrevRoot
  priorRelayId : st'.priorRelayId = st.priorRelayId

variable {ext : RelayExternals} {st : RelaySessionState} {mom : Moment}

theorem LogInvariant.congr {st st' : RelaySessionState} (h : LogInvariant ext st)
    (hlog : SameLog st st') (hsame : SameOrigin st st') :
    LogInvariant ext st' := by
  refine ⟨?_, ?_, ?_⟩
  · rw [hlog.seqCounter, hlog.leafLog, h.counter]
  · intro i leaf hi
    rw [hlog.leafLog] at hi
    obtain ⟨hn, hs, hp, hv, hr⟩ := h.leaves i leaf hi
    refine ⟨hn, ?_, ?_, hv, ?_⟩
    · rw [hsame.assignment]
      exact hs
    · rw [hsame.assignment]
      exact hp
    · rw [hsame.genesisPrevRoot, hlog.leafLog]
      exact hr
  · rw [hsame.genesisPrevRoot, hlog.leafLog, hlog.treeStack, hlog.runningRoot]
    exact h.grown

/-! ### What the steps do to the log -/

theorem settleSeal_same {st st' : RelaySessionState} {r : DirectoryAnswer}
    (h : settleSeal st r = some st') : SameLog st st' ∧ SameOrigin st st' := by
  cases r with
  | ok => simp [settleSeal] at h
  | unknown reason =>
    obtain rfl := Option.some.inj h
    exact ⟨⟨rfl, rfl, rfl, rfl⟩, ⟨rfl, rfl, rfl⟩⟩
  | unreachable reason =>
    obtain rfl := Option.some.inj h
    exact ⟨⟨rfl, rfl, rfl, rfl⟩, ⟨rfl, rfl, rfl⟩⟩
  | refused reason redirect =>
    obtain rfl := Option.some.inj h
    exact ⟨⟨rfl, rfl, rfl, rfl⟩, ⟨rfl, rfl, rfl⟩⟩

theorem maybeProcessSeal_same {d : Directories} {st st' : RelaySessionState}
    (h : (maybeProcessSeal ext d st).session = some st') : SameLog st st' ∧ SameOrigin st st' := by
  rcases maybeProcessSeal_cases ext d st with ⟨-, he⟩ | ⟨-, he⟩
  · rw [he] at h
    obtain rfl := Option.some.inj h
    exact ⟨⟨rfl, rfl, rfl, rfl⟩, ⟨rfl, rfl, rfl⟩⟩
  · rw [he] at h
    obtain ⟨⟨h1, h2, h3, h4⟩, ⟨h5, h6, h7⟩⟩ := settleSeal_same h
    exact ⟨⟨h1, h2, h3, h4⟩, ⟨h5, h6, h7⟩⟩

theorem sealTrigger_same {kind : LeafKind} {st st' : RelaySessionState}
    (h : (sealTrigger ext mom kind st).session = some st') :
    SameLog st st' ∧ SameOrigin st st' := by
  rw [sealTrigger] at h
  split at h
  · exact maybeProcessSeal_same h
  · obtain rfl := Option.some.inj h
    exact ⟨⟨rfl, rfl, rfl, rfl⟩, ⟨rfl, rfl, rfl⟩⟩

theorem committed_tree (ext : RelayExternals) (mom : Moment) (st : RelaySessionState) (sender : Bytes)
    (frame : HashSubmit) (w : Witnessed) (s2 : Structure2) :
    (committed ext mom st sender frame w s2).treeStack =
        pushNode ext.nodeHash (treeLeaf ext.toExternals (witnessedLeaf frame w s2)) 0 st.treeStack ∧
      (committed ext mom st sender frame w s2).runningRoot =
        stackRoot ext.nodeHash (treeLeaf ext.toExternals (witnessedLeaf frame w s2))
          (committed ext mom st sender frame w s2).treeStack := by
  rw [committed, recordAck]
  split <;> exact ⟨rfl, rfl⟩

theorem committed_priorRelayId (ext : RelayExternals) (mom : Moment) (st : RelaySessionState)
    (sender : Bytes) (frame : HashSubmit) (w : Witnessed) (s2 : Structure2) :
    (committed ext mom st sender frame w s2).priorRelayId = st.priorRelayId := by
  rw [committed, recordAck]
  split <;> rfl

theorem Passed.signed {sender : Bytes} {frame : HashSubmit} {w : Witnessed}
    (h : Passed ext mom st sender frame w) :
    decodeStructure1 ext frame.structure1Cbor = some w.s1 ∧ w.s1.sessionId = frame.sessionId ∧
      w.s1.senderPubkey = w.author ∧
      (w.author = st.assignment.participantA ∨ w.author = st.assignment.participantB) ∧
      ext.verify w.author frame.structure1Cbor frame.senderSignature = true := by
  obtain ⟨hdec, hwitness, -, -, hclaim, -⟩ := identify_ok h.identified
  refine ⟨hdec, ?_, hclaim, ?_, ?_⟩
  · have hid := h.identified
    rw [identify, hdec] at hid
    by_contra hne
    simp [hne] at hid
  · have hmem := List.mem_of_find?_eq_some hwitness
    rw [expectedKeys] at hmem
    split at hmem
    · rcases List.mem_pair.1 hmem with h | h
      · exact Or.inr h
      · exact Or.inl h
    · exact List.mem_pair.1 hmem
  · exact List.find?_some (p := fun key => ext.verify key _ _) hwitness

/-- **The append keeps the invariant.** -/
theorem LogInvariant.committed (hbuild : BuildsStructure2 ext) {sender : Bytes} {frame : HashSubmit}
    {w : Witnessed} {s2 : Structure2} (h : LogInvariant ext st)
    (hw : Passed ext mom st sender frame w) (hroute : frame.sessionId = st.assignment.sessionId)
    (hs2 : ext.buildStructure2 (st.seqCounter + 1) w.s1.senderPubkey w.s1.contentHash
      frame.senderSignature st.runningRoot = some s2) :
    LogInvariant ext (committed ext mom st sender frame w s2) := by
  obtain ⟨hstack, hroot⟩ := committed_tree ext mom st sender frame w s2
  obtain ⟨hdec, hsid, hclaim, hpart, hver⟩ := hw.signed
  rw [hbuild _ _ _ _ _ frame.signature_length] at hs2
  obtain rfl := Option.some.inj hs2
  refine ⟨?_, ?_, ?_⟩
  · rw [committed_seqCounter, committed_leafLog, List.length_append, h.counter]
    rfl
  · intro i leaf hi
    rw [committed_leafLog] at hi
    by_cases hlt : i < st.leafLog.length
    · rw [List.getElem?_append_left hlt] at hi
      obtain ⟨hn, hs, hp, hv, hr⟩ := h.leaves i leaf hi
      refine ⟨hn, ?_, ?_, hv, ?_⟩
      · rw [committed_assignment]
        exact hs
      · rw [committed_assignment]
        exact hp
      · rw [committed_genesisPrevRoot, committed_leafLog, List.take_append_of_le_length hlt.le]
        exact hr
    · -- the new leaf
      obtain ⟨hidx, hlen⟩ := List.getElem?_eq_some_iff.1 hi
      rw [List.length_append, List.length_singleton] at hidx
      obtain rfl : i = st.leafLog.length := by omega
      obtain rfl : witnessedLeaf frame w _ = leaf := by simpa using hi
      refine ⟨?_, ⟨w.s1, hdec, ?_, rfl, rfl⟩, ?_, ?_, ?_⟩
      · rw [← h.counter]
        rfl
      · rw [committed_assignment, hsid, hroute]
      · rw [committed_assignment]
        exact hclaim ▸ hpart
      · exact hclaim ▸ hver
      · rw [committed_genesisPrevRoot, committed_leafLog, List.take_left]
        exact h.grown.root
  · rw [committed_genesisPrevRoot, committed_leafLog, hroot, hstack]
    exact h.grown.append _

/-! ### Along a run -/

theorem run_induction_of_forall {P : Option RelaySessionState → Prop} {Q : Event → Prop}
    (hstep : ∀ s e, Q e → P s → P (step ext s e).session) :
    ∀ (events : List Event) (s : Option RelaySessionState), (∀ e ∈ events, Q e) → P s →
      P (run ext s events) := by
  intro events
  induction events with
  | nil => intro s _ h; exact h
  | cons e rest ih =>
    intro s hQ h
    exact ih _ (fun e' he' => hQ e' (List.mem_cons_of_mem _ he')) (hstep s e (hQ e List.mem_cons_self) h)

/-- A session with this assignment that this relay witnessed from the start, in good order. -/
structure Kept (ext : RelayExternals) (assignment : SessionAssignment) (genesisRoot : Bytes)
    (st : RelaySessionState) : Prop where
  log : LogInvariant ext st
  assignment : st.assignment = assignment
  genesis : st.genesisPrevRoot = genesisRoot
  fresh : st.priorRelayId = none

theorem Kept.congr {assignment : SessionAssignment} {genesisRoot : Bytes}
    {st st' : RelaySessionState} (h : Kept ext assignment genesisRoot st) (hlog : SameLog st st')
    (hsame : SameOrigin st st') : Kept ext assignment genesisRoot st' where
  log := h.log.congr hlog hsame
  assignment := hsame.assignment.trans h.assignment
  genesis := hsame.genesisPrevRoot.trans h.genesis
  fresh := hsame.priorRelayId.trans h.fresh

theorem kept_of_submitted (hbuild : BuildsStructure2 ext) {assignment : SessionAssignment}
    {genesisRoot : Bytes} {sender : Bytes} {frame : HashSubmit} {h : Handled}
    (hs : Submitted ext mom st sender frame h) (hst : Kept ext assignment genesisRoot st)
    (hroute : frame.sessionId = assignment.sessionId) :
    ∀ st', h.session = some st' → Kept ext assignment genesisRoot st' := by
  intro st' hst'
  cases hs with
  | refused out hquiet =>
    obtain rfl := Option.some.inj hst'
    exact hst
  | replayed w hw already hget =>
    obtain rfl := Option.some.inj hst'
    exact hst
  | diverged w hw hget hlink =>
    obtain rfl := Option.some.inj hst'
    exact hst.congr ⟨rfl, rfl, rfl, rfl⟩ ⟨rfl, rfl, rfl⟩
  | sequenced w hw hget hlink s2 hs2 sent hsent =>
    obtain ⟨hlog, hsame⟩ := sealTrigger_same hst'
    refine Kept.congr ⟨?_, ?_, ?_, ?_⟩ hlog hsame
    · exact hst.log.committed hbuild hw (hroute.trans (by rw [hst.assignment])) hs2
    · rw [committed_assignment, hst.assignment]
    · rw [committed_genesisPrevRoot, hst.genesis]
    · rw [committed_priorRelayId, hst.fresh]

theorem processSessionReplay_of_fresh {d : Directories} (hfresh : st.priorRelayId = none)
    (submitter : Bytes) (verdict : ReplayVerdict) :
    (processSessionReplay ext d (some st) submitter verdict).session = some st := by
  by_cases hpart : submitter ≠ st.assignment.participantA ∧ submitter ≠ st.assignment.participantB
  · simp only [processSessionReplay, if_pos hpart]
  · simp only [processSessionReplay, if_neg hpart, hfresh, Option.isNone_none, if_true]

theorem kept_step (hbuild : BuildsStructure2 ext) {assignment : SessionAssignment}
    {genesisRoot : Bytes} (s : Option RelaySessionState) (e : Event)
    (hroute : e.RoutedTo assignment.sessionId)
    (h : ∀ st, s = some st → Kept ext assignment genesisRoot st) :
    ∀ st, (step ext s e).session = some st → Kept ext assignment genesisRoot st := by
  intro st' hst'
  cases s with
  | none => cases e <;> simp [step, processHashSubmitLocked, processSessionReplay] at hst'
  | some st =>
    have hst := h st rfl
    cases e with
    | submit mom sender frame =>
      exact kept_of_submitted hbuild (submitted ext mom st sender frame) hst hroute st' hst'
    | replay d submitter verdict =>
      rw [step, processSessionReplay_of_fresh hst.fresh] at hst'
      obtain rfl := Option.some.inj hst'
      exact hst
    | discard => simp [step] at hst'

theorem kept_recordSession (ext : RelayExternals) {assignment : SessionAssignment}
    (hfresh : assignment.priorRelayId = none) (genesisRoot : Bytes) :
    Kept ext assignment genesisRoot (recordSession assignment genesisRoot) :=
  ⟨⟨rfl, fun i leaf hi => by simp [recordSession] at hi, Grown.nil _ _⟩, rfl, rfl, hfresh⟩

theorem kept_run (hbuild : BuildsStructure2 ext) {assignment : SessionAssignment}
    (hfresh : assignment.priorRelayId = none) (genesisRoot : Bytes) {events : List Event}
    (hroute : ∀ e ∈ events, e.RoutedTo assignment.sessionId) :
    ∀ st, run ext (some (recordSession assignment genesisRoot)) events = some st →
      Kept ext assignment genesisRoot st := by
  refine run_induction_of_forall (P := fun s => ∀ st, s = some st → Kept ext assignment genesisRoot st)
    (fun s e he h => kept_step hbuild s e he h) events _ hroute fun st hst => ?_
  obtain rfl := Option.some.inj hst
  exact kept_recordSession ext hfresh genesisRoot

/-! ### Refusals -/

theorem not_error_of_mem_alerts {sender author : Bytes} {e : HashSubmitError}
    (h : .error e ∈ counterSubmitAlerts st sender author) : False := by
  rw [counterSubmitAlerts] at h
  split at h
  · obtain ⟨k, -, hk⟩ := List.mem_map.1 h
    exact Output.noConfusion hk
  · simp at h

theorem not_error_of_mem_maybeProcessSeal {d : Directories} {e : HashSubmitError}
    (h : .error e ∈ (maybeProcessSeal ext d st).out) : False := by
  rcases maybeProcessSeal_cases ext d st with ⟨-, he⟩ | ⟨-, he⟩
  · simp [he] at h
  · rw [he] at h
    obtain ⟨c, -, hc⟩ := List.mem_map.1 h
    exact Output.noConfusion hc

theorem not_error_of_mem_sealTrigger {kind : LeafKind} {e : HashSubmitError}
    (h : .error e ∈ (sealTrigger ext mom kind st).out) : False := by
  rw [sealTrigger] at h
  split at h
  · exact not_error_of_mem_maybeProcessSeal h
  · simp at h

/-- **A refused submit leaves the log alone.** -/
theorem sameLog_of_error {sender : Bytes} {frame : HashSubmit} {e : HashSubmitError}
    (h : .error e ∈ (processHashSubmitLocked ext mom (some st) sender frame).out) :
    ∃ st', (processHashSubmitLocked ext mom (some st) sender frame).session = some st' ∧
      SameLog st st' := by
  have hrefl : SameLog st st := ⟨rfl, rfl, rfl, rfl⟩
  cases hg : gate st with
  | error e => exact ⟨st, by simp only [processHashSubmitLocked, hg], hrefl⟩
  | ok u =>
    cases hi : identify ext mom st sender frame with
    | error e => exact ⟨st, by simp only [processHashSubmitLocked, hg, hi], hrefl⟩
    | ok w =>
      cases hc : checkAcknowledgement st w.s1 with
      | error e => exact ⟨st, by simp only [processHashSubmitLocked, hg, hi, hc], hrefl⟩
      | ok u' =>
        rw [processHashSubmitLocked_of_passed ⟨hg, hi, hc⟩] at h ⊢
        rcases List.mem_append.1 h with h | h
        · exact (not_error_of_mem_alerts h).elim
        rw [sequenceLeaf] at h ⊢
        cases hget : st.issuedAcks.get (submissionKey sender w.s1) with
        | some already => exact ⟨st, by simp only, hrefl⟩
        | none =>
          simp only [hget] at h ⊢
          split at h
          · rename_i hlink
            rw [if_pos hlink]
            exact ⟨diverge st, rfl, ⟨rfl, rfl, rfl, rfl⟩⟩
          · rename_i hlink
            rw [if_neg hlink]
            cases hs2 : ext.buildStructure2 (st.seqCounter + 1) w.s1.senderPubkey w.s1.contentHash
                frame.senderSignature st.runningRoot with
            | none => exact ⟨st, by simp only, hrefl⟩
            | some s2 =>
              -- an accepted leaf is answered with an acknowledgement, never with an error
              simp only [hs2] at h
              rcases List.mem_append.1 h with h | h
              · simp at h
              · exact (not_error_of_mem_sealTrigger h).elim

/-! ### The packages a directory is given -/

theorem submitForSeal_data {st st' : RelaySessionState} {data : SealData}
    (h : submitForSeal ext st = .ok (st', data)) : data = sealData ext st := by
  rw [submitForSeal] at h
  split at h
  · simp at h
  split at h
  · simp at h
  · exact (Prod.mk.inj (Except.ok.inj h)).2.symm

theorem getSealLeaves_data {data : SealData} (h : getSealLeaves ext st = .ok data) :
    data = sealData ext st := by
  rw [getSealLeaves] at h
  split at h
  · simp at h
  split at h
  · simp at h
  · exact (Except.ok.inj h).symm

theorem LogInvariant.merkleRoot (hroot : ComputesTreeHead ext.toExternals) (h : LogInvariant ext st)
    (hne : st.leafLog ≠ []) :
    (sealData ext st).merkleRoot = st.runningRoot := by
  rw [h.grown.root]
  exact merkleRoot_eq_rootOver hroot hne

/-- **The session log, in every run of a session the relay witnessed from the start.**  The counter, the
log, the stack and the running root agree leaf by leaf; the root that is handed to a directory is the
running root; and a submit that is refused changes none of the four. -/
theorem session_log_invariant (ext : RelayExternals) (hbuild : BuildsStructure2 ext)
    (hroot : ComputesTreeHead ext.toExternals) (assignment : SessionAssignment)
    (hfresh : assignment.priorRelayId = none) (genesisRoot : Bytes) (events : List Event)
    (hroute : ∀ e ∈ events, e.RoutedTo assignment.sessionId) (st : RelaySessionState)
    (hst : run ext (some (recordSession assignment genesisRoot)) events = some st) :
    (st.assignment = assignment ∧ st.genesisPrevRoot = genesisRoot) ∧
    LogInvariant ext st ∧
    (st.leafLog ≠ [] → ∀ data, (∃ st', submitForSeal ext st = .ok (st', data)) ∨
      getSealLeaves ext st = .ok data → data.merkleRoot = st.runningRoot) ∧
    ∀ mom sender frame e,
      .error e ∈ (step ext (some st) (.submit mom sender frame)).out →
      ∃ st', (step ext (some st) (.submit mom sender frame)).session = some st' ∧ SameLog st st' := by
  obtain ⟨hlog, hassign, hgenesis, -⟩ := kept_run hbuild hfresh genesisRoot hroute st hst
  refine ⟨⟨hassign, hgenesis⟩, hlog, fun hne data hdata => ?_, fun mom sender frame e he => ?_⟩
  · have hdata' : data = sealData ext st := by
      rcases hdata with ⟨st', h⟩ | h
      · exact submitForSeal_data h
      · exact getSealLeaves_data h
    rw [hdata', hlog.merkleRoot hroot hne]
  · exact sameLog_of_error he

namespace Sample

open Interfaces.Sample (key sid)

/-- The relay of the samples over the RFC 6962 root. -/
def treeExternals : RelayExternals :=
  { externals with
    toExternals := { externals.toExternals with
      merkleRoot := TreeHead.treeHead externals.nodeHash [] } }

/-- Both speak, then sender 1 once more. -/
def conversation : List Event :=
  [submits unreachable 0 1 [1, 5, 0, 0, 1], submits unreachable 0 2 [2, 6, 0, 0, 2],
    submits unreachable 0 1 [1, 7, 0, 5, 3]]

/-- The session after them. -/
def conversed : RelaySessionState :=
  (run treeExternals (some session) conversation).get (by decide)

end Sample

/-- The log of three messages. -/
theorem session_log_invariant_three_messages :
    Sample.conversed.leafLog.length = 3 ∧ LogInvariant Sample.treeExternals Sample.conversed :=
  ⟨by decide, (session_log_invariant Sample.treeExternals (fun _ _ _ _ _ _ => rfl)
    (fun _ _ => rfl) ⟨Interfaces.Sample.sid, Interfaces.Sample.key 1, Interfaces.Sample.key 2, none⟩ rfl
    Sample.genesis Sample.conversation (by
      intro e he
      simp only [Sample.conversation, List.mem_cons, List.not_mem_nil, or_false] at he
      rcases he with rfl | rfl | rfl <;> rfl)
    Sample.conversed (Option.some_get _).symm).2.1⟩

end Cello.Relay
