import Cello.Relay.SealOutcome

/-!
# Handing over the other side's leaf

A participant may submit a leaf its counterparty signed and did not submit.  The
author of such a leaf is not the connection it comes on, and the checks behind the
duplicate check use the connection: the retry key carries the submitter, and the self
link is compared with the submitter's own last leaf.  `counter_submit_sequenced_iff`
says what that leaves of an honest counter-submit.
-/

namespace Cello.Relay

open Lib Cello.Interfaces

/-- A counter-submit nothing is wrong with: the leaf is the other participant's for this session, new to
the relay, in step with the relay's log and linked to its author's last leaf. -/
structure HonestCounterSubmit (ext : RelayExternals) (st : RelaySessionState) (sender author : Bytes)
    (frame : HashSubmit) (s1 : Structure1) (kind : LeafKind) : Prop
    extends HonestLeaf ext st author frame s1 kind where
  parties : (sender = st.assignment.participantA ∧ author = st.assignment.participantB) ∨
    (sender = st.assignment.participantB ∧ author = st.assignment.participantA)
  distinct : sender ≠ author
  notOwn : ext.verify sender frame.structure1Cbor frame.senderSignature = false
  fresh : alreadyHeld st.leafLog author s1.contentHash = false
  linked : s1.prevOwnHash = expectedOwn st author

/-- The leaf is at the next position under its author, in a session that is active when the seal trigger
looks at it. -/
def CounterSequenced (ext : RelayExternals) (mom : Moment) (st : RelaySessionState) (author : Bytes)
    (s1 : Structure1) (kind : LeafKind) (h : Handled) : Prop :=
  ∃ leaf st₁, st₁.leafLog = st.leafLog ++ [leaf] ∧ st₁.seqCounter = st.seqCounter + 1 ∧
    leaf.s2.sequenceNumber = ((st.seqCounter + 1 : ℕ) : JsNumber) ∧
    leaf.s2.senderPubkey = author ∧ leaf.s2.contentHash = s1.contentHash ∧
    st₁.status = .active ∧ h.session = (sealTrigger ext mom kind st₁).session

section

variable {ext : RelayExternals} {mom : Moment} {st : RelaySessionState} {sender author : Bytes}
  {frame : HashSubmit} {s1 : Structure1} {kind : LeafKind}

theorem HonestCounterSubmit.witnessed (h : HonestCounterSubmit ext st sender author frame s1 kind) :
    witnessLeafSignature ext (expectedKeys st sender) frame.structure1Cbor frame.senderSignature =
      some author := by
  rw [witnessLeafSignature, expectedKeys]
  rcases h.parties with ⟨hs, ha⟩ | ⟨hs, ha⟩
  · have hne : sender ≠ st.assignment.participantB := ha ▸ h.distinct
    rw [if_neg hne, ← hs, ← ha]
    simp [h.notOwn, h.signed]
  · rw [if_pos hs, ← hs, ← ha]
    simp [h.notOwn, h.signed]

theorem log_ne_of_appended {st₁ st' : RelaySessionState} {leaf : RelaySealLeaf}
    (hlog₁ : st₁.leafLog = st.leafLog ++ [leaf])
    (hs : (sealTrigger ext mom kind st₁).session = some st') : st'.leafLog ≠ st.leafLog := by
  intro hlog
  have hsame := (sealTrigger_sameRecord hs).leafLog
  rw [hlog, hlog₁] at hsame
  simpa using congrArg List.length hsame

theorem not_counterSequenced_of_log {h : Handled} {st' : RelaySessionState}
    (hs : h.session = some st') (hlog : st'.leafLog = st.leafLog) :
    ¬CounterSequenced ext mom st author s1 kind h := by
  rintro ⟨leaf, st₁, hlog₁, -, -, -, -, -, hsession⟩
  exact log_ne_of_appended hlog₁ (hsession.symm.trans hs) hlog

theorem passed_cases (hbuild : BuildsStructure2 ext) {w : Witnessed}
    (hw : Passed ext mom st sender frame w) :
    (st.issuedAcks.get (submissionKey sender w.s1) = none ∧
        w.s1.prevOwnHash = expectedOwn st sender ∧
        (processHashSubmitLocked ext mom (some st) sender frame).session =
          (sealTrigger ext mom w.kind (committed ext mom st sender frame w
            ⟨((st.seqCounter + 1 : ℕ) : JsNumber), w.s1.senderPubkey, w.s1.contentHash,
              frame.senderSignature, st.runningRoot⟩)).session) ∨
      (¬(st.issuedAcks.get (submissionKey sender w.s1) = none ∧
          w.s1.prevOwnHash = expectedOwn st sender) ∧
        ∃ st', (processHashSubmitLocked ext mom (some st) sender frame).session = some st' ∧
          st'.leafLog = st.leafLog) := by
  rw [processHashSubmitLocked_of_passed hw, sequenceLeaf]
  cases hget : st.issuedAcks.get (submissionKey sender w.s1) with
  | some already => exact Or.inr ⟨by simp, st, rfl, rfl⟩
  | none =>
    by_cases hlink : w.s1.prevOwnHash = expectedOwn st sender
    · have hs2 := hbuild (st.seqCounter + 1) w.s1.senderPubkey w.s1.contentHash
        frame.senderSignature st.runningRoot frame.signature_length
      refine Or.inl ⟨rfl, hlink, ?_⟩
      simp only [hlink, ne_eq, not_true_eq_false, if_false, hs2]
      rfl
    · refine Or.inr ⟨fun h => hlink h.2, diverge st, ?_, rfl⟩
      simp only [hlink, ne_eq, not_false_eq_true, if_true]

end

/-- **When an honest counter-submit is sequenced.**  In every session a relay reaches, it is exactly when
the relay has not acknowledged the same link and content from the submitter, and the submitter's own last
leaf has the content hash of the author's last leaf (or neither has spoken). -/
theorem counter_submit_sequenced_iff (ext : RelayExternals) (hbuild : BuildsStructure2 ext)
    (assignment : SessionAssignment) (genesisRoot : Bytes) (events : List Event)
    (st : RelaySessionState)
    (hst : run ext (some (recordSession assignment genesisRoot)) events = some st)
    (hactive : st.status = .active) (hreplay : st.awaitingReplay = false)
    (mom : Moment) (sender author : Bytes) (frame : HashSubmit) (s1 : Structure1) (kind : LeafKind)
    (h : HonestCounterSubmit ext st sender author frame s1 kind) :
    CounterSequenced ext mom st author s1 kind
        (step ext (run ext (some (recordSession assignment genesisRoot)) events)
          (.submit mom sender frame)) ↔
      st.issuedAcks.get (submissionKey sender s1) = none ∧
        expectedOwn st sender = expectedOwn st author := by
  have hpassed : Passed ext mom st sender frame ⟨s1, author, kind⟩ :=
    h.toHonestLeaf.passed hactive hreplay (h.parties.imp And.left And.left) h.witnessed fun _ => h.fresh
  rw [hst, step, ← h.linked]
  rcases passed_cases hbuild hpassed with ⟨hget, hlink, hsession⟩ | ⟨hnot, st', hs, hlog⟩
  · refine iff_of_true ?_ ⟨hget, hlink.symm⟩
    refine ⟨_, _, committed_leafLog .., ?_, ?_, ?_, ?_, ?_, hsession⟩
    · simp
    · rfl
    · exact h.claimed
    · rfl
    · simpa using hactive
  · refine iff_of_false (not_counterSequenced_of_log hs hlog) fun hseq => ?_
    exact hnot ⟨hseq.1, hseq.2.symm⟩

/-! ### Two counter-submits -/

namespace Sample

open Interfaces.Sample (key)

theorem buildsStructure2 : BuildsStructure2 externals := fun _ _ _ _ _ _ => rfl

/-- Sender 2 hands over a leaf of sender 1. -/
def handsOver (leaf : Bytes) : Event := .submit (moment unreachable) (key 2) (frame 0 1 leaf)

theorem honest_first_leaf : HonestCounterSubmit externals session (key 2) (key 1)
    (frame 0 1 [1, 5, 0, 0, 1]) ⟨⟨List.replicate 32 5, Interfaces.Sample.sid, ((0 : ℕ) : JsNumber),
      .inl ((1 : ℕ) : JsNumber), genesis, genesis⟩, key 1⟩ .msg := by
  refine ⟨?_, ?_, ?_, ?_, ?_, ?_⟩
  · constructor <;> decide
  all_goals decide

/-- The session after sender 1 said something. -/
def spoken : RelaySessionState :=
  (run externals (some session) [submits unreachable 0 1 [1, 5, 0, 0, 1]]).get (by decide)

theorem honest_second_leaf : HonestCounterSubmit externals spoken (key 2) (key 1)
    (frame 0 1 [1, 6, 0, 5, 2]) ⟨⟨List.replicate 32 6, Interfaces.Sample.sid, ((0 : ℕ) : JsNumber),
      .inl ((2 : ℕ) : JsNumber), genesis, List.replicate 32 5⟩, key 1⟩ .msg := by
  refine ⟨?_, ?_, ?_, ?_, ?_, ?_⟩
  · constructor <;> decide
  all_goals decide

end Sample

/-- Nobody has spoken, and the counter-submit is sequenced. -/
theorem counter_submit_sequenced_first_leaf :
    CounterSequenced Sample.externals (Sample.moment Sample.unreachable) Sample.session
      (Interfaces.Sample.key 1) ⟨⟨List.replicate 32 5, Interfaces.Sample.sid, ((0 : ℕ) : JsNumber),
        .inl ((1 : ℕ) : JsNumber), Sample.genesis, Sample.genesis⟩, Interfaces.Sample.key 1⟩ .msg
      (step Sample.externals (run Sample.externals (some Sample.session) [])
        (Sample.handsOver [1, 5, 0, 0, 1])) :=
  (counter_submit_sequenced_iff Sample.externals Sample.buildsStructure2
    ⟨Interfaces.Sample.sid, Interfaces.Sample.key 1, Interfaces.Sample.key 2, none⟩ Sample.genesis []
    Sample.session rfl rfl rfl (Sample.moment Sample.unreachable) (Interfaces.Sample.key 2)
    (Interfaces.Sample.key 1) (Sample.frame 0 1 [1, 5, 0, 0, 1]) _ .msg Sample.honest_first_leaf).2
    ⟨rfl, rfl⟩

/-- **Sender 2 hands over sender 1's second message and the session is marked diverged**: the link to
sender 1's first message is compared with the start of the session, sender 2 having said nothing. -/
theorem counter_submit_diverges :
    run Sample.externals (some Sample.session) [Sample.submits Sample.unreachable 0 1 [1, 5, 0, 0, 1]] =
        some Sample.spoken ∧
      Sample.spoken.status = .active ∧ Sample.spoken.awaitingReplay = false ∧
      HonestCounterSubmit Sample.externals Sample.spoken (Interfaces.Sample.key 2)
        (Interfaces.Sample.key 1) (Sample.frame 0 1 [1, 6, 0, 5, 2])
        ⟨⟨List.replicate 32 6, Interfaces.Sample.sid, ((0 : ℕ) : JsNumber), .inl ((2 : ℕ) : JsNumber),
          Sample.genesis, List.replicate 32 5⟩, Interfaces.Sample.key 1⟩ .msg ∧
      ((step Sample.externals (some Sample.spoken) (Sample.handsOver [1, 6, 0, 5, 2])).session.map
        fun st => (st.status, st.leafLog.length)) = some (.diverged, 1) ∧
      Output.error selfChainError ∈
        (step Sample.externals (some Sample.spoken) (Sample.handsOver [1, 6, 0, 5, 2])).out :=
  ⟨(Option.some_get _).symm, by decide, by decide, Sample.honest_second_leaf,
    by decide +kernel, by decide +kernel⟩

/-! ### What the parties are told -/

/-- One of the parties was told that its counterparty handed over a leaf. -/
def WitnessStatement (h : Handled) : Prop :=
  ∃ k b, Output.alert k .leafWitnessedByCounterparty b ∈ h.out

/-- The frame's leaf is at the end of the log the seal trigger looks at. -/
def LeafAppended (ext : RelayExternals) (mom : Moment) (st : RelaySessionState) (frame : HashSubmit)
    (h : Handled) : Prop :=
  ∃ leaf st₁ kind, st₁.leafLog = st.leafLog ++ [leaf] ∧ leaf.structure1Cbor = frame.structure1Cbor ∧
    leaf.s2.senderSignature = frame.senderSignature ∧ h.session = (sealTrigger ext mom kind st₁).session

section

variable {ext : RelayExternals} {mom : Moment} {st : RelaySessionState} {sender : Bytes}
  {frame : HashSubmit}

theorem not_leafAppended_of_log {h : Handled} {st' : RelaySessionState} (hs : h.session = some st')
    (hlog : st'.leafLog = st.leafLog) : ¬LeafAppended ext mom st frame h := by
  rintro ⟨leaf, st₁, kind, hlog₁, -, -, hsession⟩
  exact log_ne_of_appended hlog₁ (hsession.symm.trans hs) hlog

theorem not_statement_of_quiet_error {alerts : List Output}
    (halerts : ∀ k b, Output.alert k .leafWitnessedByCounterparty b ∉ alerts)
    (session : Option RelaySessionState) (e : HashSubmitError) :
    ¬WitnessStatement ⟨session, alerts ++ [.error e]⟩ := by
  rintro ⟨k, b, hmem⟩
  rcases List.mem_append.1 hmem with h | h
  · exact halerts k b h
  · simp at h

theorem not_mem_unwitnessedAlerts (e : HashSubmitError) (k : Bytes) (b : Bool) :
    Output.alert k .leafWitnessedByCounterparty b ∉ unwitnessedAlerts st sender e := by
  rw [unwitnessedAlerts]
  split
  · intro h
    obtain ⟨k', -, hk⟩ := List.mem_map.1 h
    cases hk
  · simp

theorem statement_of_counterSubmitAlerts {author : Bytes} (hne : sender ≠ author)
    (session : Option RelaySessionState) (out : List Output) :
    WitnessStatement ⟨session, counterSubmitAlerts st sender author ++ out⟩ := by
  refine ⟨st.assignment.participantA, decide (st.assignment.participantA = author), ?_⟩
  rw [counterSubmitAlerts, if_pos hne]
  simp

theorem not_mem_sequenceLeaf (w : Witnessed) (k : Bytes) (b : Bool) :
    Output.alert k .leafWitnessedByCounterparty b ∉ (sequenceLeaf ext mom st sender frame w).out := by
  have hseal : ∀ st', Output.alert k .leafWitnessedByCounterparty b ∉
      (sealTrigger ext mom w.kind st').out := by
    intro st'
    rw [sealTrigger]
    split
    · rcases maybeProcessSeal_cases ext mom.directories st' with ⟨-, he⟩ | ⟨-, he⟩ <;> simp [he]
    · simp
  rw [sequenceLeaf]
  cases hget : st.issuedAcks.get (submissionKey sender w.s1) with
  | some already => simp
  | none =>
    by_cases hlink : w.s1.prevOwnHash = expectedOwn st sender
    · cases hs2 : ext.buildStructure2 (st.seqCounter + 1) w.s1.senderPubkey w.s1.contentHash
          frame.senderSignature st.runningRoot with
      | none => simp [hlink, hs2]
      | some s2 => simp [hlink, hs2, hseal]
    · simp only [hlink, ne_eq, not_false_eq_true, if_true]
      intro h
      rcases List.mem_append.1 h with h | h
      · obtain ⟨k', -, hk⟩ := List.mem_map.1 h
        cases hk
      · simp at h

theorem leafAppended_iff (hbuild : BuildsStructure2 ext) {w : Witnessed}
    (hw : Passed ext mom st sender frame w) :
    LeafAppended ext mom st frame (processHashSubmitLocked ext mom (some st) sender frame) ↔
      st.issuedAcks.get (submissionKey sender w.s1) = none ∧
        w.s1.prevOwnHash = expectedOwn st sender := by
  rcases passed_cases hbuild hw with ⟨hget, hlink, hsession⟩ | ⟨hnot, st', hs, hlog⟩
  · refine iff_of_true ?_ ⟨hget, hlink⟩
    exact ⟨_, _, w.kind, committed_leafLog .., rfl, rfl, hsession⟩
  · exact iff_of_false (not_leafAppended_of_log hs hlog) hnot

/-- **Who is told.**  Both parties, as soon as the leaf is attributed to the other participant. -/
theorem witnessStatement_iff :
    WitnessStatement (processHashSubmitLocked ext mom (some st) sender frame) ↔
      gate st = .ok () ∧ ∃ w, identify ext mom st sender frame = .ok w ∧ sender ≠ w.author := by
  cases hg : gate st with
  | error e =>
    have hnot : ¬WitnessStatement ⟨some st, [] ++ [.error e]⟩ :=
      not_statement_of_quiet_error (by simp) (some st) e
    simp only [processHashSubmitLocked, hg]
    exact ⟨fun h => absurd h hnot, fun h => by cases h.1⟩
  | ok u =>
    cases hi : identify ext mom st sender frame with
    | error e =>
      have hnot : ¬WitnessStatement ⟨some st, unwitnessedAlerts st sender e ++ [.error e]⟩ :=
        not_statement_of_quiet_error (not_mem_unwitnessedAlerts e) (some st) e
      simp only [processHashSubmitLocked, hg, hi]
      constructor
      · exact fun h => absurd h hnot
      · rintro ⟨-, w, h, -⟩
        cases h
    | ok w =>
      constructor
      · -- on the author's own connection there is no alert
        rintro ⟨k, b, hmem⟩
        refine ⟨rfl, w, rfl, fun hown => ?_⟩
        have halerts : counterSubmitAlerts st sender w.author = [] := by
          rw [counterSubmitAlerts, if_neg (not_not.2 hown)]
        cases hc : checkAcknowledgement st w.s1 with
        | error e => simp [processHashSubmitLocked, hg, hi, hc, halerts] at hmem
        | ok u' =>
          simp only [processHashSubmitLocked, hg, hi, hc, halerts, List.nil_append] at hmem
          exact not_mem_sequenceLeaf w k b hmem
      · rintro ⟨-, w', hw', hne⟩
        obtain rfl := Except.ok.inj hw'
        cases hc : checkAcknowledgement st w.s1 with
        | error e =>
          simp only [processHashSubmitLocked, hg, hi, hc]
          exact statement_of_counterSubmitAlerts hne _ _
        | ok u' =>
          simp only [processHashSubmitLocked, hg, hi, hc]
          exact statement_of_counterSubmitAlerts hne _ _

end

/-- **When a witness statement is only made about a sequenced leaf.**  In every state and for every frame: if
the frame is a counter-submit that passes the checks up to the duplicate check, it has also to pass the
acknowledgement check, to be new to the record of issued acknowledgements and to link to the submitter's own
last leaf. -/
theorem witness_statement_only_if_appended_iff (ext : RelayExternals) (hbuild : BuildsStructure2 ext)
    (mom : Moment) (st : RelaySessionState) (sender : Bytes) (frame : HashSubmit) :
    (WitnessStatement (step ext (some st) (.submit mom sender frame)) →
        LeafAppended ext mom st frame (step ext (some st) (.submit mom sender frame))) ↔
      ∀ w, gate st = .ok () → identify ext mom st sender frame = .ok w → sender ≠ w.author →
        checkAcknowledgement st w.s1 = .ok () ∧
          st.issuedAcks.get (submissionKey sender w.s1) = none ∧
          w.s1.prevOwnHash = expectedOwn st sender := by
  rw [step, witnessStatement_iff]
  constructor
  · intro h w hg hi hne
    have happended := h ⟨hg, w, hi, hne⟩
    cases hc : checkAcknowledgement st w.s1 with
    | error e =>
      simp only [processHashSubmitLocked, hg, hi, hc] at happended
      exact absurd happended (not_leafAppended_of_log rfl rfl)
    | ok u => exact ⟨rfl, (leafAppended_iff hbuild ⟨hg, hi, hc⟩).1 happended⟩
  · rintro h ⟨hg, w, hi, hne⟩
    obtain ⟨hc, hnew⟩ := h w hg hi hne
    exact (leafAppended_iff hbuild ⟨hg, hi, hc⟩).2 hnew

/-- Nobody has spoken, and the leaf that is handed over is told about and sequenced. -/
theorem witness_statement_first_leaf :
    LeafAppended Sample.externals (Sample.moment Sample.unreachable) Sample.session
      (Sample.frame 0 1 [1, 5, 0, 0, 1])
      (step Sample.externals (some Sample.session) (Sample.handsOver [1, 5, 0, 0, 1])) :=
  (witness_statement_only_if_appended_iff Sample.externals Sample.buildsStructure2
    (Sample.moment Sample.unreachable) Sample.session (Interfaces.Sample.key 2)
    (Sample.frame 0 1 [1, 5, 0, 0, 1])).2 (by
      intro w _ hw _
      obtain rfl := Except.ok.inj (hw.symm.trans (by decide :
        identify Sample.externals (Sample.moment Sample.unreachable) Sample.session
          (Interfaces.Sample.key 2) (Sample.frame 0 1 [1, 5, 0, 0, 1]) = .ok
            ⟨⟨⟨List.replicate 32 5, Interfaces.Sample.sid, ((0 : ℕ) : JsNumber),
              .inl ((1 : ℕ) : JsNumber), Sample.genesis, Sample.genesis⟩, Interfaces.Sample.key 1⟩,
              Interfaces.Sample.key 1, .msg⟩))
      decide)
    (by
      refine ⟨Interfaces.Sample.key 1, true, ?_⟩
      decide)

/-- **A leaf that is ahead of the log is refused, and both parties are told that it was witnessed.** -/
theorem witness_statement_on_refusal :
    WitnessStatement (step Sample.externals (some Sample.session) (Sample.handsOver [1, 5, 9, 0, 1])) ∧
      Output.error ⟨.lastSeenSeqAhead, none⟩ ∈
        (step Sample.externals (some Sample.session) (Sample.handsOver [1, 5, 9, 0, 1])).out ∧
      ((step Sample.externals (some Sample.session) (Sample.handsOver [1, 5, 9, 0, 1])).session.map
        fun st => st.leafLog) = some [] ∧
      ¬LeafAppended Sample.externals (Sample.moment Sample.unreachable) Sample.session
        (Sample.frame 0 1 [1, 5, 9, 0, 1])
        (step Sample.externals (some Sample.session) (Sample.handsOver [1, 5, 9, 0, 1])) :=
  ⟨⟨Interfaces.Sample.key 1, true, by decide⟩, by decide, by decide,
    not_leafAppended_of_log rfl rfl⟩

end Cello.Relay
