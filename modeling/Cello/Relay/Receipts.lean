import Cello.Relay.Author

/-!
# The receipts of a relay

An acknowledgement is the relay's word for the place of a leaf.  Along any run of a session, taken over from
another relay or not, no two of them give one place to different leaves, and each is for a leaf of the log
(`receipts_never_equivocate`).
-/

namespace Cello.Relay

open Lib Interfaces

def receipts (ext : RelayExternals) : Option RelaySessionState → List Event → List HashSubmitAck
  | _, [] => []
  | s, e :: rest => acksOf (step ext s e).out ++ receipts ext (step ext s e).session rest

def ReceiptFor (ext : RelayExternals) (log : List RelaySealLeaf) (a : HashSubmitAck) : Prop :=
  ∃ i leaf, log[i]? = some leaf ∧ a.sequenceNumber = i + 1 ∧ a.structure2Cbor = ext.encodeStructure2 leaf.s2

/-- What is true of a session and the acknowledgements that went out. -/
structure Receipted (ext : RelayExternals) (acks : List HashSubmitAck) (s : Option RelaySessionState) : Prop where
  once : Set.InjOn HashSubmitAck.sequenceNumber {a | a ∈ acks}
  counter : ∀ st, s = some st → st.seqCounter = st.leafLog.length
  logged : ∀ st, s = some st → ∀ a ∈ acks, ReceiptFor ext st.leafLog a
  kept : ∀ st, s = some st → ∀ key a, st.issuedAcks.get key = some a → a ∈ acks

variable {ext : RelayExternals} {acks : List HashSubmitAck} {mom : Moment} {st : RelaySessionState}
  {s s' : Option RelaySessionState}

theorem Receipted.congr (h : Receipted ext acks s) {new : List HashSubmitAck} (hnew : ∀ a ∈ new, a ∈ acks)
    (hs : ∀ st', s' = some st' → ∃ st, s = some st ∧ st'.leafLog = st.leafLog ∧ st'.seqCounter = st.seqCounter ∧
      st'.issuedAcks = st.issuedAcks) : Receipted ext (acks ++ new) s' := by
  have hold : ∀ a ∈ acks ++ new, a ∈ acks := List.forall_mem_append.2 ⟨fun _ ha => ha, hnew⟩
  refine ⟨h.once.mono hold, fun st' hst' => ?_, fun st' hst' a ha => ?_, fun st' hst' key a hget => ?_⟩
  all_goals obtain ⟨st, hst, hlog, hcounter, hacks⟩ := hs st' hst'
  · rw [hlog, hcounter, h.counter st hst]
  · rw [hlog]
    exact h.logged st hst a (hold a ha)
  · rw [hacks] at hget
    exact List.mem_append_left _ (h.kept st hst key a hget)

theorem Receipted.gone (h : Receipted ext acks s) : Receipted ext (acks ++ []) none :=
  h.congr (List.forall_mem_nil _) fun st' hst' => by cases hst'

theorem ackFrame_structure2Cbor (contentHash : Bytes) (seq : ℕ) (s2Cbor : Bytes) :
    (ackFrame ext mom contentHash seq s2Cbor).structure2Cbor = s2Cbor := by
  rw [ackFrame]
  split
  · split <;> rfl
  · rfl

/-- **A leaf that is sequenced** is acknowledged at a place of its own. -/
theorem Receipted.sequenced (h : Receipted ext acks (some st)) {sender : Bytes} {frame : HashSubmit} {w : Witnessed}
    {s2 : Structure2} (hs' : ∀ st', s' = some st' → SameRecord (committed ext mom st sender frame w s2) st') :
    Receipted ext
      (acks ++ [ackFrame ext mom w.s1.contentHash (st.seqCounter + 1) (ext.encodeStructure2 s2)]) s' := by
  have hcounter := h.counter st rfl
  have hnumber := ackFrame_sequenceNumber ext mom w.s1.contentHash (st.seqCounter + 1) (ext.encodeStructure2 s2)
  have hbelow : ∀ a ∈ acks, a.sequenceNumber < st.seqCounter + 1 := by
    intro a ha
    obtain ⟨i, leaf, hi, hseq, -⟩ := h.logged st rfl a ha
    have := (List.getElem?_eq_some_iff.1 hi).1
    omega
  refine ⟨?_, fun st' hst' => ?_, fun st' hst' => ?_, fun st' hst' key a hget => ?_⟩
  · intro a ha b hb hab
    rcases List.mem_append.1 ha with ha | ha <;> rcases List.mem_append.1 hb with hb | hb
    · exact h.once ha hb hab
    · rw [List.mem_singleton.1 hb, hnumber] at hab
      exact absurd hab (hbelow a ha).ne
    · rw [List.mem_singleton.1 ha, hnumber] at hab
      exact absurd hab (hbelow b hb).ne'
    · rw [List.mem_singleton.1 ha, List.mem_singleton.1 hb]
  · rw [(hs' st' hst').seqCounter, (hs' st' hst').leafLog, committed_seqCounter, committed_leafLog, hcounter,
      List.length_append]
    rfl
  · rw [(hs' st' hst').leafLog, committed_leafLog]
    refine List.forall_mem_append.2 ⟨fun a ha => ?_, List.forall_mem_singleton.2 ?_⟩
    · obtain ⟨i, leaf, hi, hrest⟩ := h.logged st rfl a ha
      exact ⟨i, leaf, by rw [List.getElem?_append_left (List.getElem?_eq_some_iff.1 hi).1, hi], hrest⟩
    · exact ⟨_, _, List.getElem?_concat_length, hnumber.trans (by rw [hcounter]), ackFrame_structure2Cbor ..⟩
  · rw [(hs' st' hst').issuedAcks, committed, recordAck] at hget
    split at hget
    · rw [OrdMap.get_set] at hget
      split at hget
      · rw [← Option.some.inj hget]
        exact List.mem_append_right _ List.mem_cons_self
      · exact List.mem_append_left _ (h.kept st rfl key a hget)
    · exact List.mem_append_left _ (h.kept st rfl key a hget)

theorem Receipted.adopt (h : Receipted ext acks (some st)) (hempty : st.leafLog = [])
    {leaves : List RelaySealLeaf} (hs' : ∀ st', s' = some st' → SameRecord (adoptLeaves ext st leaves) st') :
    Receipted ext (acks ++ []) s' := by
  have hnone : ∀ a, a ∉ acks := by
    intro a ha
    obtain ⟨i, leaf, hi, -⟩ := h.logged st rfl a ha
    rw [hempty] at hi
    cases hi
  rw [List.append_nil]
  refine ⟨h.once, fun st' hst' => ?_, fun st' hst' a ha => absurd ha (hnone a), fun st' hst' key a hget => ?_⟩
  · rw [(hs' st' hst').seqCounter, (hs' st' hst').leafLog]
    exact (List.length_map _).symm
  · rw [(hs' st' hst').issuedAcks] at hget
    exact absurd (h.kept st rfl key a hget) (hnone a)

theorem Receipted.replay (h : Receipted ext acks (some st)) (d : Directories) (submitter : Bytes)
    (verdict : ReplayVerdict) :
    Receipted ext (acks ++ acksOf (processSessionReplay ext d (some st) submitter verdict).out)
      (processSessionReplay ext d (some st) submitter verdict).session := by
  have hsame : Receipted ext (acks ++ []) (some st) := (List.append_nil acks).symm ▸ h
  simp only [processSessionReplay]
  split
  · exact hsame
  split
  · exact hsame
  split
  · exact hsame
  split
  · exact hsame
  next hready =>
    have hempty : st.leafLog = [] := List.isEmpty_iff.1 (by_contra fun hlog => hready (by simp [hlog]))
    cases verdict with
    | refused reason => exact hsame
    | diverged reason =>
      exact h.congr (List.forall_mem_nil _) fun st' hst' => ⟨st, rfl, Option.some.inj hst' ▸ ⟨rfl, rfl, rfl⟩⟩
    | adopted leaves =>
      have hseal : (if ext.hasDirectory = true then maybeProcessSeal ext d (adoptLeaves ext st leaves)
          else ⟨some (adoptLeaves ext st leaves), []⟩) =
          sealTrigger ext ⟨0, fun _ => none, fun _ => none, d⟩ .ctrl (adoptLeaves ext st leaves) := by
        simp only [sealTrigger, true_and]
      dsimp only
      rw [hseal, acksOf_append, acksOf_sealTrigger]
      exact h.adopt hempty fun st' hst' => sealTrigger_sameRecord hst'

/-- **One event**: by the four ways a submit goes, and the replay. -/
theorem Receipted.step (h : Receipted ext acks s) (e : Event) :
    Receipted ext (acks ++ acksOf (step ext s e).out) (step ext s e).session := by
  cases s with
  | none => cases e <;> exact h.gone
  | some st =>
    cases e with
    | discard => exact h.gone
    | replay d submitter verdict => exact h.replay d submitter verdict
    | submit mom sender frame =>
      have hsub := submitted ext mom st sender frame
      have halerts := fun author => acksOf_eq_nil fun o ho => (quiet_counterSubmitAlerts st sender author o ho).1
      rw [Relay.step]
      generalize processHashSubmitLocked ext mom (some st) sender frame = handled at *
      cases hsub with
      | refused out hquiet =>
        rw [acksOf_eq_nil fun o ho => (hquiet o ho).1]
        exact h.congr (List.forall_mem_nil _) fun st' hst' => ⟨st', hst'.symm ▸ rfl, rfl, rfl, rfl⟩
      | replayed w hw already hget =>
        rw [acksOf_append, halerts]
        exact h.congr (List.forall_mem_singleton.2 (h.kept st rfl _ already hget)) fun st' hst' =>
          ⟨st', hst'.symm ▸ rfl, rfl, rfl, rfl⟩
      | diverged w hw hget hlink =>
        rw [acksOf_eq_nil fun o ho => (quiet_diverged st sender w.author o ho).1]
        exact h.congr (List.forall_mem_nil _) fun st' hst' => ⟨st, rfl, Option.some.inj hst' ▸ ⟨rfl, rfl, rfl⟩⟩
      | sequenced w hw hget hlink s2 hs2 sent hsent =>
        have hone : ∀ a st', acksOf (.ack a :: (sent ++ (sealTrigger ext mom w.kind st').out)) = [a] := by
          intro a st'
          show a :: acksOf _ = [a]
          rw [acksOf_append, acksOf_eq_nil fun o ho => (hsent o ho).1, acksOf_sealTrigger]
          rfl
        rw [acksOf_append, halerts, hone]
        exact h.sequenced fun st' hst' => sealTrigger_sameRecord hst'

theorem receipts_never_equivocate (ext : RelayExternals) (assignment : SessionAssignment) (genesisRoot : Bytes)
    (events : List Event) :
    Set.InjOn HashSubmitAck.sequenceNumber
        {a | a ∈ receipts ext (some (recordSession assignment genesisRoot)) events} ∧
      ∀ st, run ext (some (recordSession assignment genesisRoot)) events = some st →
        ∀ a ∈ receipts ext (some (recordSession assignment genesisRoot)) events, ReceiptFor ext st.leafLog a := by
  have hrun : ∀ (events : List Event) (acks : List HashSubmitAck) (s : Option RelaySessionState),
      Receipted ext acks s → Receipted ext (acks ++ receipts ext s events) (run ext s events) := by
    intro events
    induction events with
    | nil => exact fun acks s h => (List.append_nil acks).symm ▸ h
    | cons e rest ih =>
      intro acks s h
      rw [receipts, ← List.append_assoc, run_cons]
      exact ih _ _ (h.step e)
  have hstart : Receipted ext [] (some (recordSession assignment genesisRoot)) := by
    refine ⟨by nofun, fun st hst => ?_, fun _ _ => List.forall_mem_nil _, fun st hst key a hget => ?_⟩ <;>
      obtain rfl := Option.some.inj hst
    · rfl
    · cases hget
  exact ⟨(hrun events [] _ hstart).once, (hrun events [] _ hstart).logged⟩

end Cello.Relay
