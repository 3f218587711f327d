import Cello.Interfaces.SealChainAccepts
import Cello.Relay.SessionLog

/-!
# What the relay accepts and what a directory verifies

The relay checks a leaf when it arrives and a directory checks the whole log when the session is
sealed.  The two agree on signatures, sessions, positions, roots and self links.  They differ in
one place: the relay compares an acknowledgement with whatever leaf stands at the acknowledged
position, the directory asks that the counterparty has got that far.  A log is therefore accepted
exactly when no sender acknowledged beyond the counterparty's last leaf
(`relay_log_verifies_iff`).
-/

namespace Cello.Relay

open Lib Cello.Interfaces

/-! ### Conditions on the leaves that are accepted -/

/-- `Q` holds of the leaf this event appends, if it appends one. -/
def Event.Appends (ext : RelayExternals) (Q : List RelaySealLeaf → Bytes → RelaySealLeaf → Prop)
    (session : Option RelaySessionState) : Event → Prop
  | submit mom sender frame => ∀ st st' leaf, session = some st →
      (step ext session (submit mom sender frame)).session = some st' →
      st'.leafLog = st.leafLog ++ [leaf] → Q st.leafLog sender leaf
  | replay _ _ _ => True
  | discard => True

/-- `Q` holds of every leaf the events append. -/
def EveryAppend (ext : RelayExternals) (Q : List RelaySealLeaf → Bytes → RelaySealLeaf → Prop) :
    Option RelaySessionState → List Event → Prop
  | _, [] => True
  | session, e :: rest => e.Appends ext Q session ∧ EveryAppend ext Q (step ext session e).session rest

/-- Every accepted leaf came on the connection of its author. -/
def SubmittedByAuthors (ext : RelayExternals) : Option RelaySessionState → List Event → Prop :=
  EveryAppend ext fun _ sender leaf => leaf.s2.senderPubkey = sender

def AcknowledgesCounterparty (ext : RelayExternals) (log : List RelaySealLeaf) (leaf : RelaySealLeaf) :
    Prop :=
  ∀ s1, decodeStructure1 ext leaf.structure1Cbor = some s1 →
    s1.lastSeenSeq = .fin 0 ∨ ∃ j other, log[j]? = some other ∧
      other.s2.senderPubkey ≠ leaf.s2.senderPubkey ∧ ((j + 1 : ℕ) : JsNumber).ge s1.lastSeenSeq = true

/-- No accepted leaf acknowledges beyond its author's counterparty. -/
def CounterpartyAcknowledged (ext : RelayExternals) : Option RelaySessionState → List Event → Prop :=
  EveryAppend ext fun log _ leaf => AcknowledgesCounterparty ext log leaf

/-! ### What an event appends -/

theorem submit_leafLog {ext : RelayExternals} {st st' : RelaySessionState} {mom : Moment}
    {sender : Bytes} {frame : HashSubmit}
    (h : (step ext (some st) (.submit mom sender frame)).session = some st') :
    st'.leafLog = st.leafLog ∨ ∃ w s2, Passed ext mom st sender frame w ∧
      w.s1.prevOwnHash = expectedOwn st sender ∧
      ext.buildStructure2 (st.seqCounter + 1) w.s1.senderPubkey w.s1.contentHash
        frame.senderSignature st.runningRoot = some s2 ∧
      st'.leafLog = st.leafLog ++ [witnessedLeaf frame w s2] := by
  have hs := submitted ext mom st sender frame
  rw [step] at h
  generalize processHashSubmitLocked ext mom (some st) sender frame = handled at hs h
  cases hs with
  | refused out hquiet =>
    obtain rfl := Option.some.inj h
    exact Or.inl rfl
  | replayed w hw already hget =>
    obtain rfl := Option.some.inj h
    exact Or.inl rfl
  | diverged w hw hget hlink =>
    obtain rfl := Option.some.inj h
    exact Or.inl rfl
  | sequenced w hw hget hlink s2 hs2 sent hsent =>
    refine Or.inr ⟨w, s2, hw, hlink, hs2, ?_⟩
    rw [(sealTrigger_sameRecord h).leafLog, committed_leafLog]

theorem step_leafLog {ext : RelayExternals} {st st' : RelaySessionState} {e : Event}
    (hfresh : st.priorRelayId = none) (h : (step ext (some st) e).session = some st') :
    st'.leafLog = st.leafLog ∨ ∃ mom sender frame leaf, e = .submit mom sender frame ∧
      st'.leafLog = st.leafLog ++ [leaf] := by
  cases e with
  | submit mom sender frame =>
    rcases submit_leafLog h with hlog | ⟨w, s2, -, -, -, hlog⟩
    · exact Or.inl hlog
    · exact Or.inr ⟨mom, sender, frame, _, rfl, hlog⟩
  | replay d submitter verdict =>
    rw [step, processSessionReplay_of_fresh hfresh] at h
    obtain rfl := Option.some.inj h
    exact Or.inl rfl
  | discard => simp [step] at h

theorem EveryAppend.imp {ext : RelayExternals}
    {P Q : List RelaySealLeaf → Bytes → RelaySealLeaf → Prop}
    (himp : ∀ {st st' mom sender frame leaf},
      (step ext (some st) (.submit mom sender frame)).session = some st' →
      st'.leafLog = st.leafLog ++ [leaf] → P st.leafLog sender leaf → Q st.leafLog sender leaf) :
    ∀ {events : List Event} {session : Option RelaySessionState},
      EveryAppend ext P session events → EveryAppend ext Q session events := by
  intro events
  induction events with
  | nil => intro session _; trivial
  | cons e rest ih =>
    intro session h
    refine ⟨?_, ih h.2⟩
    cases e with
    | submit mom sender frame =>
      rintro st st' leaf rfl hst' hleaf
      exact himp hst' hleaf (h.1 st st' leaf rfl hst' hleaf)
    | replay d submitter verdict => trivial
    | discard => trivial

theorem run_none (ext : RelayExternals) : ∀ events : List Event, run ext none events = none := by
  intro events
  induction events with
  | nil => rfl
  | cons e rest ih =>
    have hstep : (step ext none e).session = none := by
      cases e <;> rfl
    rw [run_cons, hstep, ih]

section

variable {ext : RelayExternals} {assignment : SessionAssignment} {genesisRoot : Bytes}

/-- **The leaves a run appends are the ones its log ends with.** -/
theorem everyAppend_iff (hbuild : BuildsStructure2 ext)
    (Q : List RelaySealLeaf → RelaySealLeaf → Prop) :
    ∀ {events : List Event} {st₀ st : RelaySessionState}, Kept ext assignment genesisRoot st₀ →
    (∀ e ∈ events, e.RoutedTo assignment.sessionId) → run ext (some st₀) events = some st →
    st₀.leafLog <+: st.leafLog ∧
      (EveryAppend ext (fun log _ leaf => Q log leaf) (some st₀) events ↔
        ∀ i leaf, st₀.leafLog.length ≤ i → st.leafLog[i]? = some leaf → Q (st.leafLog.take i) leaf) := by
  intro events
  induction events with
  | nil =>
    intro st₀ st _ _ hrun
    obtain rfl := Option.some.inj hrun
    refine ⟨List.prefix_rfl, ⟨fun _ i leaf hi hleaf => ?_, fun _ => trivial⟩⟩
    obtain ⟨hlt, -⟩ := List.getElem?_eq_some_iff.1 hleaf
    omega
  | cons e rest ih =>
    intro st₀ st hkept hroute hrun
    rw [run_cons] at hrun
    cases hstep : (step ext (some st₀) e).session with
    | none =>
      rw [hstep, run_none] at hrun
      cases hrun
    | some st₁ =>
      rw [hstep] at hrun
      have hkept₁ : Kept ext assignment genesisRoot st₁ :=
        kept_step hbuild (some st₀) e (hroute e List.mem_cons_self)
          (fun st h => Option.some.inj h ▸ hkept) st₁ hstep
      obtain ⟨hpre, hiff⟩ := ih hkept₁ (fun e' he' => hroute e' (List.mem_cons_of_mem _ he')) hrun
      rw [EveryAppend, hstep, hiff]
      rcases step_leafLog hkept.fresh hstep with hlog | ⟨mom, sender, frame, new, rfl, hlog⟩
      · -- nothing is appended
        have happ : e.Appends ext (fun log _ leaf => Q log leaf) (some st₀) := by
          cases e with
          | submit mom sender frame =>
            intro st' st'' leaf hst' hst'' hleaf
            obtain rfl := Option.some.inj hst'
            obtain rfl : st₁ = st'' := Option.some.inj (hstep.symm.trans hst'')
            rw [hlog] at hleaf
            simpa using congrArg List.length hleaf
          | replay d submitter verdict => trivial
          | discard => trivial
        rw [hlog] at hpre ⊢
        exact ⟨hpre, ⟨And.right, fun h => ⟨happ, h⟩⟩⟩
      · -- the leaf at the end of the old log is the appended one
        have hnew : st.leafLog[st₀.leafLog.length]? = some new := by
          obtain ⟨tail, htail⟩ := hpre
          rw [← htail, hlog]
          simp
        have hold : st.leafLog.take st₀.leafLog.length = st₀.leafLog := by
          obtain ⟨tail, htail⟩ := hpre
          rw [← htail, hlog, List.append_assoc, List.take_left]
        have happ : Event.Appends ext (fun log _ leaf => Q log leaf) (some st₀)
            (.submit mom sender frame) ↔ Q st₀.leafLog new := by
          constructor
          · intro h
            exact h st₀ st₁ _ rfl hstep hlog
          · intro h st' st'' leaf hst' hst'' hleaf
            obtain rfl := Option.some.inj hst'
            obtain rfl : st₁ = st'' := Option.some.inj (hstep.symm.trans hst'')
            rw [hlog] at hleaf
            obtain rfl : new = leaf := by simpa using hleaf
            exact h
        refine ⟨(hlog ▸ List.prefix_append _ _ : st₀.leafLog <+: st₁.leafLog).trans hpre, ?_⟩
        rw [happ, hlog, List.length_append, List.length_singleton]
        constructor
        · rintro ⟨hq, hrest⟩ i leaf hi hleaf
          rcases Nat.eq_or_lt_of_le hi with rfl | hlt
          · obtain rfl : _ = leaf := Option.some.inj (hnew.symm.trans hleaf)
            rw [hold]
            exact hq
          · exact hrest i leaf hlt hleaf
        · intro h
          refine ⟨?_, fun i leaf hi hleaf => h i leaf (by omega) hleaf⟩
          have := h _ _ le_rfl hnew
          rwa [hold] at this

end

/-! ### What the relay checked of a leaf -/

theorem decodeStructure1Fields_of_some {ext : RelayExternals} {cbor : Bytes} {s1 : Structure1}
    (h : decodeStructure1 ext cbor = some s1) :
    decodeStructure1Fields ext.toExternals cbor = some s1.toStructure1Fields := by
  obtain ⟨v, hv, hs⟩ := Option.bind_eq_some_iff.1 h
  rw [decodeStructure1Fields, hv, Option.bind_some]
  unfold relayStructure1Of at hs
  split at hs
  · obtain ⟨fields, hf, hs⟩ := Option.bind_eq_some_iff.1 hs
    obtain ⟨pk, -, hs⟩ := Option.bind_eq_some_iff.1 hs
    obtain rfl := Option.some.inj hs
    exact hf
  · cases hs

theorem lastOwnLeaf_eq_lastContent (log : List RelaySealLeaf) (sender : Bytes) :
    lastOwnLeaf log sender = lastContent log sender := by
  rw [lastOwnLeaf, lastContent, ← List.head?_filter, List.filter_reverse, List.head?_reverse]

/-- **An acknowledged position is one of the log's, or the start.** -/
theorem acknowledged_position {st : RelaySessionState} {s1 : Structure1}
    (h : checkAcknowledgement st s1 = .ok ()) :
    ∃ n : ℕ, n ≤ st.leafLog.length ∧ s1.lastSeenSeq = (n : JsNumber) := by
  rw [checkAcknowledgement] at h
  split at h
  · simp at h
  cases hack : expectedAck st s1.lastSeenSeq with
  | none => simp [hack] at h
  | some hash =>
    rw [expectedAck] at hack
    split at hack
    · rename_i hzero
      exact ⟨0, Nat.zero_le _, by rw [hzero]; rfl⟩
    · obtain ⟨l, hl, -⟩ := Option.map_eq_some_iff.1 hack
      cases hs : s1.lastSeenSeq with
      | fin q =>
        rw [hs, leafAt] at hl
        split at hl
        · rename_i hq
          obtain ⟨hlt, -⟩ := List.getElem?_eq_some_iff.1 hl
          refine ⟨q.num.toNat, by omega, ?_⟩
          rw [JsNumber.natCast_eq]
          congr 1
          rw [← Rat.coe_int_num_of_den_eq_one hq.1]
          have := Int.toNat_of_nonneg hq.2.le
          exact_mod_cast this.symm
        · simp at hl
      | nan => simp [hs, leafAt] at hl
      | negInf => simp [hs, leafAt] at hl
      | posInf => simp [hs, leafAt] at hl

/-- What the relay checked of a leaf it appended to `log`, beyond `InPlace`. -/
def Chained (ext : RelayExternals) (log : List RelaySealLeaf) (leaf : RelaySealLeaf) : Prop :=
  ∃ s1, decodeStructure1 ext leaf.structure1Cbor = some s1 ∧
    (∃ n : ℕ, s1.lastSeenSeq = (n : JsNumber)) ∧
    ∀ p, lastContent log leaf.s2.senderPubkey = some p → s1.prevOwnHash = p

theorem chained_of_append {ext : RelayExternals}
    {st st' : RelaySessionState} {mom : Moment} {sender : Bytes} {frame : HashSubmit}
    {leaf : RelaySealLeaf} (h : (step ext (some st) (.submit mom sender frame)).session = some st')
    (hleaf : st'.leafLog = st.leafLog ++ [leaf]) (hauthor : leaf.s2.senderPubkey = sender) :
    Chained ext st.leafLog leaf := by
  rcases submit_leafLog h with hlog | ⟨w, s2, hw, hlink, hs2, hlog⟩
  · rw [hlog] at hleaf
    simpa using congrArg List.length hleaf
  · obtain rfl : witnessedLeaf frame w s2 = leaf := by simpa [hlog] using hleaf
    obtain ⟨n, -, hn⟩ := acknowledged_position hw.acknowledged
    refine ⟨w.s1, hw.signed.1, ⟨n, hn⟩, fun p hp => ?_⟩
    rw [hauthor, ← lastOwnLeaf_eq_lastContent] at hp
    rw [hlink, expectedOwn, hp, Option.getD_some]

/-! ### The bound of the causal check -/

theorem causal_iff {ext : RelayExternals} {log : List RelaySealLeaf} {leaf : RelaySealLeaf}
    {s1 : Structure1} (hnum : Numbered log) (hdec : decodeStructure1 ext leaf.structure1Cbor = some s1)
    (hn : ∃ n : ℕ, s1.lastSeenSeq = (n : JsNumber)) :
    s1.lastSeenSeq.gt (effectiveSeen leaf.s2.senderPubkey log) = false ↔
      AcknowledgesCounterparty ext log leaf := by
  obtain ⟨n, hn⟩ := hn
  obtain ⟨m, -, hm, hiff⟩ := effectiveSeen_eq leaf.s2.senderPubkey hnum
  have hbound : s1.lastSeenSeq.gt (effectiveSeen leaf.s2.senderPubkey log) = false ↔ n ≤ m := by
    rw [hn, hm, JsNumber.gt_natCast, decide_eq_false_iff_not, not_lt]
  have hzero : s1.lastSeenSeq = .fin 0 ↔ n = 0 := by
    rw [hn]
    exact ⟨fun h => JsNumber.natCast_inj (h.trans rfl), fun h => by rw [h]; rfl⟩
  have hge : ∀ j : ℕ, ((j + 1 : ℕ) : JsNumber).ge s1.lastSeenSeq = true ↔ n ≤ j + 1 := by
    intro j
    rw [hn, JsNumber.ge_natCast, decide_eq_true_eq]
  rw [hbound, hiff, AcknowledgesCounterparty]
  simp only [hdec, Option.some.injEq, forall_eq', hzero, hge]

/-! ### The log a directory is given -/

section

variable {ext : RelayExternals} {assignment : SessionAssignment} {genesisRoot : Bytes}
  {st : RelaySessionState}

theorem Kept.numbered (h : Kept ext assignment genesisRoot st) : Numbered st.leafLog :=
  fun i leaf hi => (h.log.leaves i leaf hi).numbered

theorem Kept.startOf (h : Kept ext assignment genesisRoot st) (hne : st.leafLog ≠ []) :
    startOf st.leafLog = st.genesisPrevRoot := by
  cases hlog : st.leafLog with
  | nil => exact absurd hlog hne
  | cons l rest =>
    have := (h.log.leaves 0 l (by rw [hlog]; rfl)).prevRoot
    rw [List.take_zero] at this
    exact this

theorem Kept.follows_iff (h : Kept ext assignment genesisRoot st) {i : ℕ} {leaf : RelaySealLeaf}
    (hi : st.leafLog[i]? = some leaf) (hc : Chained ext (st.leafLog.take i) leaf) :
    (∃ s1, Follows ext.toExternals st.genesisPrevRoot (st.leafLog.take i) leaf s1) ↔
      AcknowledgesCounterparty ext (st.leafLog.take i) leaf := by
  obtain ⟨s1, hdec, hnat, hlink⟩ := hc
  have hplace := h.log.leaves i leaf hi
  have hfields := decodeStructure1Fields_of_some hdec
  rw [← causal_iff (h.numbered.take i) hdec hnat]
  constructor
  · rintro ⟨s1', hf⟩
    obtain rfl := Option.some.inj (hfields.symm.trans hf.decoded)
    exact hf.causal
  · intro hcausal
    obtain ⟨s1'', hdec'', -, -, hcontent⟩ := hplace.signed
    obtain rfl := Option.some.inj (hdec.symm.trans hdec'')
    exact ⟨s1.toStructure1Fields, ⟨hplace.verified, hfields, hcontent, hcausal⟩, hplace.prevRoot, hlink⟩

theorem Kept.belongsTo (h : Kept ext assignment genesisRoot st) {leaf : RelaySealLeaf}
    (hl : leaf ∈ st.leafLog) : BelongsTo ext.toExternals assignment.sessionId
      (assignment.participantA, assignment.participantB) leaf := by
  obtain ⟨i, hi⟩ := List.mem_iff_getElem?.1 hl
  obtain ⟨-, ⟨s1, hdec, hsid, -, -⟩, hpart, -, -⟩ := h.log.leaves i leaf hi
  rw [h.assignment] at hsid hpart
  refine ⟨hpart.imp Eq.symm Eq.symm, s1.contentHash, ?_⟩
  rw [decodeStructure1Signed, decodeStructure1Fields_of_some hdec, Option.map_some, hsid]

end

/-- **When a directory accepts what the relay accepted.**  In every run of a session the relay witnessed
from the start, with every accepted leaf submitted by its author, the log verifies exactly when no accepted
leaf acknowledges a position beyond its author's counterparty. -/
theorem relay_log_verifies_iff (ext : RelayExternals) (hbuild : BuildsStructure2 ext)
    (assignment : SessionAssignment) (hfresh : assignment.priorRelayId = none) (genesisRoot : Bytes)
    (events : List Event) (hroute : ∀ e ∈ events, e.RoutedTo assignment.sessionId)
    (hauthors : SubmittedByAuthors ext (some (recordSession assignment genesisRoot)) events)
    (st : RelaySessionState)
    (hst : run ext (some (recordSession assignment genesisRoot)) events = some st)
    (hne : st.leafLog ≠ []) :
    (∃ root, verifySealLeafChain ext.toExternals st.leafLog
        (ext.merkleRoot (st.leafLog.map fun l => l.s2.contentHash)) assignment.sessionId
        (assignment.participantA, assignment.participantB) = .ok root) ↔
      CounterpartyAcknowledged ext (some (recordSession assignment genesisRoot)) events := by
  have hstart := kept_recordSession ext hfresh genesisRoot
  have hkept := kept_run hbuild hfresh genesisRoot hroute st hst
  have hchained : ∀ i leaf, st.leafLog[i]? = some leaf → Chained ext (st.leafLog.take i) leaf := by
    intro i leaf hi
    refine (everyAppend_iff hbuild (Chained ext) hstart hroute hst).2.1 ?_ i leaf (Nat.zero_le _) hi
    exact EveryAppend.imp (fun h hleaf hauthor => chained_of_append h hleaf hauthor) hauthors
  rw [CounterpartyAcknowledged,
    (everyAppend_iff hbuild (AcknowledgesCounterparty ext) hstart hroute hst).2]
  simp only [verifySealLeafChain_ok_iff, true_and, exists_eq_left, hkept.startOf hne]
  constructor
  · rintro ⟨hfollows, -⟩ i leaf - hi
    obtain ⟨hlt, hget⟩ := List.getElem?_eq_some_iff.1 hi
    refine (hkept.follows_iff hi (hchained i leaf hi)).1 (hfollows _ leaf (st.leafLog.drop (i + 1)) ?_)
    rw [← hget, List.getElem_cons_drop, List.take_append_drop]
  · intro hack
    refine ⟨fun pre leaf post he => ?_, fun leaf hl => hkept.belongsTo hl⟩
    have hi : st.leafLog[pre.length]? = some leaf := by simp [he]
    have htake : st.leafLog.take pre.length = pre := by rw [he, List.take_left]
    have := (hkept.follows_iff hi (hchained _ leaf hi)).2 (hack _ leaf (Nat.zero_le _) hi)
    rwa [htake] at this

/-! ### An answer, and a sender that acknowledges itself -/

theorem senderPubkey_of_append {ext : RelayExternals} (hbuild : BuildsStructure2 ext)
    {st st' : RelaySessionState} {mom : Moment} {sender : Bytes} {frame : HashSubmit}
    {leaf : RelaySealLeaf} (h : (step ext (some st) (.submit mom sender frame)).session = some st')
    (hleaf : st'.leafLog = st.leafLog ++ [leaf]) :
    ∃ s1, decodeStructure1 ext frame.structure1Cbor = some s1 ∧ leaf.s2.senderPubkey = s1.senderPubkey := by
  rcases submit_leafLog h with hlog | ⟨w, s2, hw, -, hs2, hlog⟩
  · rw [hlog] at hleaf
    simpa using congrArg List.length hleaf
  · obtain rfl : witnessedLeaf frame w s2 = leaf := by simpa [hlog] using hleaf
    rw [hbuild _ _ _ _ _ frame.signature_length] at hs2
    obtain rfl := Option.some.inj hs2
    exact ⟨w.s1, hw.signed.1, rfl⟩

namespace Sample

open Interfaces.Sample (key sid)

/-- `s` sends `c`, having seen position `seen`, after its message `link`. -/
def speaks (s c seen link t : UInt8) : Event := submits unreachable 0 s [s, c, seen, link, t]

theorem submittedByAuthors : ∀ (messages : List (UInt8 × UInt8 × UInt8 × UInt8 × UInt8))
    (session : Option RelaySessionState), SubmittedByAuthors treeExternals session
      (messages.map fun (s, c, seen, link, t) => speaks s c seen link t) := by
  intro messages
  induction messages with
  | nil => intro session; trivial
  | cons m rest ih =>
    obtain ⟨s, c, seen, link, t⟩ := m
    intro session
    refine ⟨?_, ih _⟩
    rintro st st' leaf rfl hst' hleaf
    obtain ⟨s1, hdec, hkey⟩ := senderPubkey_of_append (fun _ _ _ _ _ _ => rfl) hst' hleaf
    obtain rfl := Option.some.inj hdec
    exact hkey

/-- Sender 1 sends `0`; sender 2 answers it. -/
def answered : List Event :=
  [(1, 0, 0, 0, 1), (2, 6, 1, 0, 2)].map fun (s, c, seen, link, t) => speaks s c seen link t

/-- Sender 1 sends `0` and then acknowledges having seen it. -/
def selfAcknowledged : List Event :=
  [(1, 0, 0, 0, 1), (1, 6, 1, 0, 2)].map fun (s, c, seen, link, t) => speaks s c seen link t

def afterAnswer : RelaySessionState :=
  (run treeExternals (some session) answered).get (by decide)

def afterSelfAcknowledgement : RelaySessionState :=
  (run treeExternals (some session) selfAcknowledged).get (by decide)

end Sample

/-- The answer acknowledges the other side's message. -/
theorem answer_acknowledges_counterparty :
    CounterpartyAcknowledged Sample.treeExternals (some Sample.session) Sample.answered :=
  (relay_log_verifies_iff Sample.treeExternals (fun _ _ _ _ _ _ => rfl)
    ⟨Interfaces.Sample.sid, Interfaces.Sample.key 1, Interfaces.Sample.key 2, none⟩ rfl Sample.genesis
    Sample.answered (by
      intro e he
      simp only [Sample.answered, List.map_cons, List.map_nil, List.mem_cons, List.not_mem_nil,
        or_false] at he
      rcases he with rfl | rfl <;> rfl)
    (Sample.submittedByAuthors _ _) Sample.afterAnswer (Option.some_get _).symm (by decide)).1
    ⟨_, (by decide : verifySealLeafChain Sample.treeExternals.toExternals
      Sample.afterAnswer.leafLog (Sample.treeExternals.merkleRoot
        (Sample.afterAnswer.leafLog.map fun l => l.s2.contentHash)) Interfaces.Sample.sid
        (Interfaces.Sample.key 1, Interfaces.Sample.key 2) =
      .ok (Sample.treeExternals.merkleRoot
        (Sample.afterAnswer.leafLog.map fun l => l.s2.contentHash)))⟩

/-- **The relay acknowledges both messages and no directory will verify the log**: the second message claims
that its author has seen position 1, which is the author's own. -/
theorem self_acknowledgement_unsealable :
    BuildsStructure2 Sample.treeExternals ∧
      SubmittedByAuthors Sample.treeExternals (some Sample.session) Sample.selfAcknowledged ∧
      run Sample.treeExternals (some Sample.session) Sample.selfAcknowledged =
        some Sample.afterSelfAcknowledgement ∧
      Sample.afterSelfAcknowledgement.leafLog.length = 2 ∧
      Sample.afterSelfAcknowledgement.status = .active ∧
      verifySealLeafChain Sample.treeExternals.toExternals Sample.afterSelfAcknowledgement.leafLog
        (Sample.treeExternals.merkleRoot
          (Sample.afterSelfAcknowledgement.leafLog.map fun l => l.s2.contentHash))
        Interfaces.Sample.sid (Interfaces.Sample.key 1, Interfaces.Sample.key 2) =
          .error (.chain .causalOrderViolation) :=
  ⟨fun _ _ _ _ _ _ => rfl, Sample.submittedByAuthors _ _, (Option.some_get _).symm, by decide,
    by decide, by decide⟩

end Cello.Relay
