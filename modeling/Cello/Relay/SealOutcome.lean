import Cello.Interfaces.SealChainSpec
import Cello.Relay.Run

/-!
# What a seal attempt leaves behind

A directory that was sent a seal and did not answer may have certified it, so the
session must neither take leaves again nor be marked refused.  One attempt asks up to
three directories and decides by the last answer: a broker that did not answer is
routed around, and then the configured directory's answer counts alone.
`seal_outcome_safe_iff` says for which answers the outcome is safe in every run.

The second half is about making an attempt at all.  A closing leaf is the trigger, and
a retransmission is answered before the trigger is reached
(`seal_attempted_iff_not_retransmitted`).
-/

namespace Cello.Relay

open Lib Cello.Interfaces

/-! ### The answers -/

/-- A call that went out to a directory which may have certified the seal. -/
def SealCall.MayHaveCertified (c : SealCall) : Prop := c.answer.isOk ∨ c.answer.isUnknown

instance (c : SealCall) : Decidable c.MayHaveCertified :=
  inferInstanceAs (Decidable (c.answer.isOk = true ∨ c.answer.isUnknown = true))

/-- Where the broker was asked and did not answer, the directory that has the last word must itself
have been reached: the configured one, or the one it redirects to. -/
def SafeAnswers (d : Directories) : Prop :=
  d.broker.isSome → (d.answer .broker).isUnknown →
    match d.answer .configured with
    | .ok => True
    | .unknown _ => True
    | .unreachable _ => False
    | .refused _ none => False
    | .refused _ (some _) => (d.answer .redirect).isOk ∨ (d.answer .redirect).isUnknown

def SettledSafely (r : DirectoryAnswer) : Prop := r.isOk ∨ r.isUnknown

theorem DirectoryAnswer.redirect_eq_none {r : DirectoryAnswer} (h : SettledSafely r) :
    r.redirect = none := by
  cases r with
  | refused reason redirect => simp [SettledSafely, DirectoryAnswer.isOk, DirectoryAnswer.isUnknown] at h
  | _ => rfl

theorem settledSafely_of_redirect {d : Directories} {c : SealCall}
    (h : ∃ x ∈ c :: (redirectCall d c.answer).toList, x.MayHaveCertified) :
    SettledSafely ((redirectCall d c.answer).getD c).answer := by
  obtain ⟨x, hx, hmay⟩ := h
  cases hr : redirectCall d c.answer with
  | none =>
    simp only [hr, Option.toList_none, List.mem_singleton] at hx
    subst hx
    exact hmay
  | some third =>
    simp only [hr, Option.toList_some, List.mem_cons, List.not_mem_nil, or_false] at hx
    rcases hx with rfl | rfl
    · rw [redirectCall, DirectoryAnswer.redirect_eq_none hmay] at hr
      simp at hr
    · exact hmay

theorem settledSafely_of_no_fallback {d : Directories}
    (hf : fallbackCall d (firstCall d).answer = none)
    (h : ∃ c ∈ sealCalls d, c.MayHaveCertified) : SettledSafely (dirResult d) := by
  simp only [sealCalls, hf, Option.toList_none, List.nil_append, Option.getD_none] at h
  simp only [dirResult, hf, Option.getD_none]
  exact settledSafely_of_redirect h

theorem settledSafely_of_fallback {d : Directories} {second : SealCall}
    (hf : fallbackCall d (firstCall d).answer = some second)
    (hfirst : ¬(firstCall d).MayHaveCertified)
    (h : ∃ c ∈ sealCalls d, c.MayHaveCertified) : SettledSafely (dirResult d) := by
  simp only [sealCalls, hf, Option.toList_some, List.cons_append, List.nil_append,
    Option.getD_some] at h
  simp only [dirResult, hf, Option.getD_some]
  obtain ⟨c, hc, hmay⟩ := h
  rcases List.mem_cons.1 hc with rfl | hc
  · exact absurd hmay hfirst
  · exact settledSafely_of_redirect ⟨c, hc, hmay⟩

/-- **When the last answer may stand.** -/
theorem settledSafely_iff {d : Directories} (h : ∃ c ∈ sealCalls d, c.MayHaveCertified) :
    SettledSafely (dirResult d) ↔ SafeAnswers d := by
  by_cases hsilent : d.broker.isSome ∧ (d.answer .broker).isUnknown
  · obtain ⟨hb, hu⟩ := hsilent
    obtain ⟨t, ht⟩ := Option.isSome_iff_exists.1 hb
    have hsafe : SafeAnswers d ↔ match d.answer .configured with
        | .ok => True
        | .unknown _ => True
        | .unreachable _ => False
        | .refused _ none => False
        | .refused _ (some _) => (d.answer .redirect).isOk ∨ (d.answer .redirect).isUnknown :=
      ⟨fun hs => hs hb hu, fun hs _ _ => hs⟩
    have hf : fallbackCall d (firstCall d).answer = some ⟨.configured, none, d.answer .configured⟩ := by
      cases ha : d.answer .broker <;>
        simp_all [fallbackCall, firstCall, DirectoryAnswer.isOk, DirectoryAnswer.isUnknown,
          DirectoryAnswer.redirect]
    rw [hsafe]
    simp only [dirResult, hf, Option.getD_some]
    -- the broker's silence is forgotten, so only the configured directory is left to look at
    cases hc : d.answer .configured with
    | ok => simp [redirectCall, DirectoryAnswer.redirect, SettledSafely, DirectoryAnswer.isOk]
    | unknown reason =>
      simp [redirectCall, DirectoryAnswer.redirect, SettledSafely, DirectoryAnswer.isUnknown]
    | unreachable reason =>
      simp [redirectCall, DirectoryAnswer.redirect, SettledSafely, DirectoryAnswer.isOk,
        DirectoryAnswer.isUnknown]
    | refused reason redirect =>
      cases redirect with
      | none =>
        simp [redirectCall, DirectoryAnswer.redirect, SettledSafely, DirectoryAnswer.isOk,
          DirectoryAnswer.isUnknown]
      | some t' => simp [redirectCall, DirectoryAnswer.redirect, SettledSafely]
  · have hsafe : SafeAnswers d := fun hb hu => absurd ⟨hb, hu⟩ hsilent
    refine ⟨fun _ => hsafe, fun _ => ?_⟩
    cases hf : fallbackCall d (firstCall d).answer with
    | none => exact settledSafely_of_no_fallback hf h
    | some second =>
      refine settledSafely_of_fallback hf ?_ h
      rw [fallbackCall] at hf
      split at hf
      · rename_i hcond
        simp only [Bool.and_eq_true, Bool.not_eq_true'] at hcond
        obtain ⟨⟨hok, -⟩, hb⟩ := hcond
        rintro (hmay | hmay)
        · simp [hok] at hmay
        · obtain ⟨t, ht⟩ := Option.isSome_iff_exists.1 hb
          simp only [firstCall, ht] at hmay
          exact hsilent ⟨hb, hmay⟩
      · simp at hf

/-! ### The attempt within a step -/

/-- A handled frame that made an attempt in `st`. -/
structure Attempted (ext : RelayExternals) (d : Directories) (st : RelaySessionState) (h : Handled) :
    Prop where
  attempts : AttemptsSeal st
  settled : h.session = settleSeal { st with status := .sealing } (dirResult d)
  data : ∀ target data, .processSeal target data ∈ h.out → data = sealData ext st

variable {ext : RelayExternals} {d : Directories} {st : RelaySessionState}

theorem attempted_of_maybeProcessSeal {o : Output} (ho : o ∈ (maybeProcessSeal ext d st).out) :
    Attempted ext d st (maybeProcessSeal ext d st) := by
  rcases maybeProcessSeal_cases ext d st with ⟨-, he⟩ | ⟨ha, he⟩
  · simp [he] at ho
  · refine ⟨ha, by rw [he], fun target data hmem => ?_⟩
    rw [he] at hmem
    obtain ⟨c, -, hc⟩ := List.mem_map.1 hmem
    exact (Output.processSeal.inj hc).2.symm

theorem Attempted.append {h : Handled} (ha : Attempted ext d st h) {pre post : List Output}
    (hpre : ∀ o ∈ pre, ¬o.IsSealCall) (hpost : ∀ o ∈ post, ¬o.IsSealCall) :
    Attempted ext d st ⟨h.session, pre ++ (h.out ++ post)⟩ := by
  refine ⟨ha.attempts, ha.settled, fun target data hmem => ?_⟩
  rcases List.mem_append.1 hmem with hmem | hmem
  · exact absurd ⟨target, data, rfl⟩ (hpre _ hmem)
  rcases List.mem_append.1 hmem with hmem | hmem
  · exact ha.data target data hmem
  · exact absurd ⟨target, data, rfl⟩ (hpost _ hmem)

theorem mem_sealTrigger_of_isSealCall {sender author : Bytes} {ack : HashSubmitAck}
    {sent out : List Output} (hsent : ∀ o ∈ sent, o.Quiet) {o : Output}
    (ho : o ∈ counterSubmitAlerts st sender author ++ (.ack ack :: (sent ++ out)))
    (hcall : o.IsSealCall) : o ∈ out := by
  rcases List.mem_append.1 ho with ho | ho
  · exact absurd hcall (quiet_counterSubmitAlerts _ _ _ o ho).2
  rcases List.mem_cons.1 ho with rfl | ho
  · exact absurd hcall (Output.not_isSealCall_ack _)
  rcases List.mem_append.1 ho with ho | ho
  · exact absurd hcall (hsent o ho).2
  · exact ho

/-- **A submit that asks a directory** was sequenced, and the attempt is on the session with its
leaf. -/
theorem attempted_of_submit {mom : Moment} {sender : Bytes} {frame : HashSubmit} {h : Handled}
    (hs : Submitted ext mom st sender frame h) {o : Output} (ho : o ∈ h.out) (hcall : o.IsSealCall) :
    ∃ st', Attempted ext mom.directories st' h := by
  cases hs with
  | refused out hquiet => exact absurd hcall (hquiet o ho).2
  | replayed w hw already hget =>
    rcases List.mem_append.1 ho with ho | ho
    · exact absurd hcall (quiet_counterSubmitAlerts _ _ _ o ho).2
    · rw [List.mem_singleton.1 ho] at hcall
      exact absurd hcall (Output.not_isSealCall_ack _)
  | diverged w hw hget hlink =>
    exact absurd hcall (quiet_diverged st sender w.author o ho).2
  | sequenced w hw hget hlink s2 hs2 sent hsent =>
    set st' := committed ext mom st sender frame w s2
    have hpre : ∀ o ∈ counterSubmitAlerts st sender w.author ++ (.ack (ackFrame ext mom w.s1.contentHash
        (st.seqCounter + 1) (ext.encodeStructure2 s2)) :: sent), ¬o.IsSealCall := by
      intro o ho
      rcases List.mem_append.1 ho with ho | ho
      · exact (quiet_counterSubmitAlerts _ _ _ o ho).2
      rcases List.mem_cons.1 ho with rfl | ho
      · exact Output.not_isSealCall_ack _
      · exact (hsent o ho).2
    have hout := mem_sealTrigger_of_isSealCall hsent ho hcall
    have htrigger : sealTrigger ext mom w.kind st' = maybeProcessSeal ext mom.directories st' := by
      rw [sealTrigger] at hout ⊢
      split at hout
      · rename_i hc
        rw [if_pos hc]
      · simp at hout
    rw [htrigger] at hout ⊢
    have ha := (attempted_of_maybeProcessSeal hout).append hpre (List.forall_mem_nil _)
    refine ⟨st', ?_⟩
    simpa using ha

theorem attempted_of_replay {s : Option RelaySessionState} {submitter : Bytes}
    {verdict : ReplayVerdict} {o : Output}
    (ho : o ∈ (processSessionReplay ext d s submitter verdict).out) (hcall : o.IsSealCall) :
    ∃ st', Attempted ext d st' (processSessionReplay ext d s submitter verdict) := by
  have hresult : ∀ r : Except String ℕ, ¬(Output.replayResult r).IsSealCall := by
    simp [Output.IsSealCall]
  have refused : ∀ {r : Except String ℕ}, o ∈ [Output.replayResult r] → False := by
    intro r ho
    rw [List.mem_singleton.1 ho] at hcall
    exact hresult r hcall
  cases s with
  | none => exact (refused ho).elim
  | some st =>
    simp only [processSessionReplay] at ho ⊢
    split at ho
    · exact (refused ho).elim
    rename_i h1
    split at ho
    · exact (refused ho).elim
    rename_i h2
    split at ho
    · exact (refused ho).elim
    rename_i h3
    split at ho
    · exact (refused ho).elim
    rename_i h4
    rw [if_neg h1, if_neg h2, if_neg h3, if_neg h4]
    cases verdict with
    | refused reason => exact (refused ho).elim
    | diverged reason =>
      rcases List.mem_pair.1 ho with rfl | rfl
      · exact absurd hcall (Output.quiet_alert _ _ _).2
      · exact absurd hcall (hresult _)
    | adopted leaves =>
      simp only at ho ⊢
      split at ho
      · rename_i hd
        rw [if_pos hd]
        have hout : o ∈ (maybeProcessSeal ext d (adoptLeaves ext st leaves)).out := by
          rcases List.mem_append.1 ho with ho | ho
          · exact ho
          · rw [List.mem_singleton.1 ho] at hcall
            exact absurd hcall (hresult _)
        refine ⟨_, (attempted_of_maybeProcessSeal hout).append (List.forall_mem_nil _) fun x hx => ?_⟩
        rw [List.mem_singleton.1 hx]
        exact hresult _
      · exact (refused ho).elim

theorem attempted_of_isSealCall {s : Option RelaySessionState} {e : Event}
    (hd : e.directories = some d) {o : Output} (ho : o ∈ (step ext s e).out) (hcall : o.IsSealCall) :
    ∃ st, Attempted ext d st (step ext s e) := by
  cases e with
  | submit mom sender frame =>
    obtain rfl := Option.some.inj hd
    cases s with
    | none => exact absurd hcall (by rw [List.mem_singleton.1 ho]; exact (Output.quiet_error _).2)
    | some st => exact attempted_of_submit (submitted ext mom st sender frame) ho hcall
  | replay d' submitter verdict =>
    obtain rfl := Option.some.inj hd
    exact attempted_of_replay ho hcall
  | discard => simp [Event.directories] at hd

/-! ### After the attempt -/

def Frozen (log : List RelaySealLeaf) (s : Option RelaySessionState) : Prop :=
  ∀ st, s = some st → st.status = .sealing ∧ st.leafLog = log

theorem frozen_step {log : List RelaySealLeaf} (s : Option RelaySessionState) (e : Event)
    (h : Frozen log s) : Frozen log (step ext s e).session := by
  cases s with
  | none =>
    cases e <;> exact fun st hst => by simp [step, processHashSubmitLocked, processSessionReplay] at hst
  | some st =>
    obtain ⟨hstatus, hlog⟩ := h st rfl
    have same : (step ext (some st) e).session = some st ∨ (step ext (some st) e).session = none := by
      cases e with
      | submit mom sender frame =>
        left
        simp only [step, processHashSubmitLocked, gate, hstatus]
      | replay d submitter verdict =>
        left
        simp only [step, processSessionReplay, hstatus, ne_eq, reduceCtorEq, not_false_eq_true, if_true]
        split
        · rfl
        · split <;> rfl
      | discard => exact Or.inr rfl
    rcases same with he | he
    · rw [he]
      exact h
    · rw [he]
      exact fun st' hst' => by simp at hst'

theorem settleSeal_safe_iff (hs : st.status = .sealing) {r : DirectoryAnswer} :
    (∀ st', settleSeal st r = some st' → st'.status ≠ .active ∧ st'.status ≠ .sealRejected) ↔
      SettledSafely r := by
  cases r <;>
    simp [settleSeal, SettledSafely, DirectoryAnswer.isOk, DirectoryAnswer.isUnknown, rejectSeal, hs]

theorem frozen_of_settledSafely (hs : st.status = .sealing) {r : DirectoryAnswer}
    (h : SettledSafely r) : Frozen st.leafLog (settleSeal st r) := by
  intro st' hst'
  cases r with
  | ok => simp [settleSeal] at hst'
  | unknown reason =>
    obtain rfl := Option.some.inj hst'
    exact ⟨hs, rfl⟩
  | unreachable reason => simp [SettledSafely, DirectoryAnswer.isOk, DirectoryAnswer.isUnknown] at h
  | refused reason redirect =>
    simp [SettledSafely, DirectoryAnswer.isOk, DirectoryAnswer.isUnknown] at h

/-- **When a seal that may have been certified closes the session.**  In every run, at every attempt in
which a directory certified or fell silent, the session is neither reopened nor marked refused exactly
when the answers were safe; and then, whatever events follow, the session holds nothing but the leaves
the directories were given. -/
theorem seal_outcome_safe_iff (ext : RelayExternals) (s₀ : Option RelaySessionState)
    (events : List Event) (e : Event) (d : Directories) (hd : e.directories = some d)
    (hcall : ∃ o ∈ (step ext (run ext s₀ events) e).out, o.IsSealCall)
    (hmay : ∃ c ∈ sealCalls d, c.MayHaveCertified) :
    ((∀ st, (step ext (run ext s₀ events) e).session = some st →
        st.status ≠ .active ∧ st.status ≠ .sealRejected) ↔ SafeAnswers d) ∧
      (SafeAnswers d → ∀ (later : List Event) (st : RelaySessionState),
        run ext (step ext (run ext s₀ events) e).session later = some st →
        ∀ target data, .processSeal target data ∈ (step ext (run ext s₀ events) e).out →
          st.status = .sealing ∧ st.leafLog = data.leaves) := by
  obtain ⟨o, ho, hcall⟩ := hcall
  obtain ⟨st₁, hatt⟩ := attempted_of_isSealCall hd ho hcall
  rw [hatt.settled, settleSeal_safe_iff rfl, settledSafely_iff hmay]
  refine ⟨Iff.rfl, fun hsafe later st hst target data hdata => ?_⟩
  have hfrozen : Frozen st₁.leafLog (settleSeal { st₁ with status := .sealing } (dirResult d)) := by
    refine frozen_of_settledSafely ?_ ((settledSafely_iff hmay).2 hsafe)
    rfl
  rw [hatt.data target data hdata]
  exact run_induction (P := Frozen st₁.leafLog) frozen_step later _ hfrozen st hst

/-! ### A session of two participants -/

namespace Sample

open Interfaces.Sample (key sid)

/-- A signature of 64 bytes that repeats key and message. -/
def signature (k m : Bytes) : Bytes := (k ++ m ++ List.replicate 64 0).take 64

theorem length_signature (k m : Bytes) : (signature k m).length = 64 := by
  simp [signature]
  omega

/-- A relay with a signing key and a directory. -/
def externals : RelayExternals where
  toExternals := { Interfaces.Sample.externals with
    verify := fun k m sig => decide (sig = signature k m) }
  buildStructure2 seq pk ch sig prev := some ⟨(seq : ℕ), pk, ch, sig, prev⟩
  buildRelayAckTbs ch _ _ := ch
  relayId := some "relay"
  hasSigningKey := true
  hasDirectory := true
  hasKeyLookup := false

def genesis : Bytes := List.replicate 32 0

/-- The session of senders 1 and 2, just recorded. -/
def session : RelaySessionState := recordSession ⟨sid, key 1, key 2, none⟩ genesis

/-- A leaf coded as in the chain verifier's sample, signed by sender `s`. -/
def frame (kind : ℕ) (s : UInt8) (leaf : Bytes) : HashSubmit where
  sessionId := sid
  leafKind := kind
  structure1Cbor := leaf
  senderSignature := signature (key s) leaf
  signature_length := length_signature _ _

/-- A moment at which the signer works and the directories answer so. -/
def moment (d : Directories) : Moment where
  now := 1
  sign m := some m
  relayPublicKey _ := none
  directories := d

/-- The broker falls silent, and the configured directory answers `r`. -/
def silentBroker (r : DirectoryAnswer) : Directories where
  broker := some ⟨"broker", "/p2p/broker"⟩
  answer
    | .broker => .unknown "no_response"
    | _ => r

/-- No directory can be dialled. -/
def unreachable : Directories where
  broker := none
  answer _ := .unreachable "directory_unavailable"

/-- `s` submits its own leaf. -/
def submits (d : Directories) (kind : ℕ) (s : UInt8) (leaf : Bytes) : Event :=
  .submit (moment d) (key s) (frame kind s leaf)

/-- Sender 1 closes. -/
def firstSeal (d : Directories) : Event := submits d 2 1 [1, 5, 0, 0, 1]

/-- Sender 2 closes, having seen nothing. -/
def secondSeal (d : Directories) : Event := submits d 2 2 [2, 6, 0, 0, 2]

end Sample

/-- Both directories fall silent: the session stays closed. -/
theorem seal_outcome_safe_silent_directories :
    (∀ st, (step Sample.externals (run Sample.externals (some Sample.session)
        [Sample.firstSeal Sample.unreachable])
          (Sample.secondSeal (Sample.silentBroker (.unknown "no_response")))).session = some st →
        st.status ≠ .active ∧ st.status ≠ .sealRejected) ∧
      SafeAnswers (Sample.silentBroker (.unknown "no_response")) := by
  have h := (seal_outcome_safe_iff Sample.externals (some Sample.session)
    [Sample.firstSeal Sample.unreachable]
    (Sample.secondSeal (Sample.silentBroker (.unknown "no_response"))) _ rfl (by decide)
    (by decide)).1
  have hsafe : SafeAnswers (Sample.silentBroker (.unknown "no_response")) := fun _ _ => trivial
  exact ⟨h.2 hsafe, hsafe⟩

/-- **The configured directory's answer hides the broker's silence.**  The broker was sent the seal and
may have certified it; with the configured directory down the session is active again and takes a third
leaf, and with a refusal there it is marked refused. -/
theorem seal_outcome_forgets_broker :
    (∃ c ∈ sealCalls (Sample.silentBroker (.unreachable "directory_unavailable")),
        c.answer.isUnknown = true) ∧
      ((run Sample.externals (some Sample.session) [Sample.firstSeal Sample.unreachable,
        Sample.secondSeal (Sample.silentBroker (.unreachable "directory_unavailable"))]).map
          fun st => (st.status, st.leafLog.length)) = some (.active, 2) ∧
      ((run Sample.externals (some Sample.session) [Sample.firstSeal Sample.unreachable,
        Sample.secondSeal (Sample.silentBroker (.unreachable "directory_unavailable")),
        Sample.submits Sample.unreachable 0 1 [1, 7, 0, 5, 3]]).map
          fun st => (st.status, st.leafLog.length)) = some (.active, 3) ∧
      ((run Sample.externals (some Sample.session) [Sample.firstSeal Sample.unreachable,
        Sample.secondSeal (Sample.silentBroker (.refused "merkle_root_mismatch" none))]).map
          fun st => st.status) = some .sealRejected := by
  decide

/-! ### Making an attempt -/

theorem attempt_of_sequenced {ext : RelayExternals} {mom : Moment} {st st' : RelaySessionState}
    {sender : Bytes} {frame : HashSubmit} {w : Witnessed} {s2 : Structure2}
    (hw : Passed ext mom st sender frame w) (hkind : w.kind = .ctrl)
    (hafter : (sealTrigger ext mom w.kind (committed ext mom st sender frame w s2)).session = some st')
    (hboth : closedByBoth st'.leafLog = true) :
    (∃ o ∈ (sealTrigger ext mom w.kind (committed ext mom st sender frame w s2)).out, o.IsSealCall) ↔
      ext.hasDirectory = true := by
  obtain ⟨hactive, hreplay⟩ := gate_ok hw.gate
  rw [sealTrigger] at hafter ⊢
  by_cases hdir : ext.hasDirectory = true
  · rw [if_pos ⟨hkind, hdir⟩] at hafter ⊢
    have hlog := (maybeProcessSeal_sameRecord hafter).leafLog
    have ha : AttemptsSeal (committed ext mom st sender frame w s2) :=
      ⟨by simpa using hactive, hlog ▸ hboth, by simpa using hreplay⟩
    obtain ⟨target, data, hmem⟩ := (maybeProcessSeal_calls ext mom.directories).2 ha
    exact ⟨fun _ => hdir, fun _ => ⟨_, hmem, target, data, rfl⟩⟩
  · rw [if_neg fun h => hdir h.2]
    simp [hdir]

/-- **When an acknowledged closing leaf is followed by a seal attempt.**  In every run, a closing leaf
that is answered with an acknowledgement and leaves the session active and closed by both had a
directory asked exactly when the relay has a directory and had not acknowledged the same submission
before. -/
theorem seal_attempted_iff_not_retransmitted (ext : RelayExternals) (s₀ : Option RelaySessionState)
    (events : List Event) (mom : Moment) (sender : Bytes) (frame : HashSubmit)
    (st st' : RelaySessionState) (s1 : Structure1) (hbefore : run ext s₀ events = some st)
    (hs1 : decodeStructure1 ext frame.structure1Cbor = some s1)
    (hkind : relayLeafKind frame.leafKind = some .ctrl)
    (hack : ∃ o ∈ (step ext (run ext s₀ events) (.submit mom sender frame)).out, o.IsAck)
    (hafter : (step ext (run ext s₀ events) (.submit mom sender frame)).session = some st')
    (hboth : closedByBoth st'.leafLog = true) :
    (∃ o ∈ (step ext (run ext s₀ events) (.submit mom sender frame)).out, o.IsSealCall) ↔
      ext.hasDirectory = true ∧ st.issuedAcks.get (submissionKey sender s1) = none := by
  rw [hbefore] at hack hafter ⊢
  simp only [step] at hack hafter ⊢
  obtain ⟨o, ho, hack⟩ := hack
  have hsub := submitted ext mom st sender frame
  generalize processHashSubmitLocked ext mom (some st) sender frame = h at *
  cases hsub with
  | refused out hquiet => exact absurd hack (hquiet o ho).1
  | diverged w hw hget hlink => exact absurd hack (quiet_diverged st sender w.author o ho).1
  | replayed w hw already hget =>
    obtain ⟨hdec, -⟩ := identify_ok hw.identified
    obtain rfl := Option.some.inj (hs1.symm.trans hdec)
    -- the cached answer is the last thing this path does
    have hno : ¬∃ o ∈ counterSubmitAlerts st sender w.author ++ [.ack already], o.IsSealCall := by
      rintro ⟨o, ho, hcall⟩
      rcases List.mem_append.1 ho with ho | ho
      · exact (quiet_counterSubmitAlerts _ _ _ o ho).2 hcall
      · rw [List.mem_singleton.1 ho] at hcall
        exact Output.not_isSealCall_ack _ hcall
    exact ⟨fun h => absurd h hno, fun h => by simp [hget] at h⟩
  | sequenced w hw hget hlink s2 hs2 sent hsent =>
    obtain ⟨hdec, -, -, hk, -⟩ := identify_ok hw.identified
    obtain rfl := Option.some.inj (hs1.symm.trans hdec)
    have hctrl : w.kind = .ctrl := Option.some.inj (hk.symm.trans hkind)
    rw [and_iff_left hget, ← attempt_of_sequenced hw hctrl hafter hboth]
    constructor
    · rintro ⟨o, ho, hcall⟩
      exact ⟨o, mem_sealTrigger_of_isSealCall hsent ho hcall, hcall⟩
    · rintro ⟨o, ho, hcall⟩
      refine ⟨o, ?_, hcall⟩
      exact List.mem_append_right _ (List.mem_cons_of_mem _ (List.mem_append_right _ ho))

/-- The second closing leaf is new, so the directories are asked. -/
theorem seal_attempted_second_seal :
    ∃ o ∈ (step Sample.externals (run Sample.externals (some Sample.session)
      [Sample.firstSeal Sample.unreachable]) (Sample.secondSeal Sample.unreachable)).out,
        o.IsSealCall := by
  have hst : (run Sample.externals (some Sample.session)
      [Sample.firstSeal Sample.unreachable]).isSome := by decide
  have hst' : (step Sample.externals (run Sample.externals (some Sample.session)
      [Sample.firstSeal Sample.unreachable]) (Sample.secondSeal Sample.unreachable)).session.isSome := by
    decide
  have hs1 : (decodeStructure1 Sample.externals [2, 6, 0, 0, 2]).isSome := by decide
  refine (seal_attempted_iff_not_retransmitted Sample.externals (some Sample.session)
    [Sample.firstSeal Sample.unreachable] (Sample.moment Sample.unreachable) (Interfaces.Sample.key 2)
    (Sample.frame 2 2 [2, 6, 0, 0, 2]) _ _ _ (Option.some_get hst).symm (Option.some_get hs1).symm
    rfl (by decide) (Option.some_get hst').symm (by decide +revert)).2
    ⟨rfl, by decide +revert⟩

/-- **A retransmitted closing leaf is not acted on.**  The attempt could not reach a directory, the
session is active with both closing leaves, and sender 2's retry gets its old acknowledgement without
any directory being asked. -/
theorem seal_not_attempted_on_retransmission :
    ((run Sample.externals (some Sample.session) [Sample.firstSeal Sample.unreachable,
        Sample.secondSeal Sample.unreachable]).map
          fun st => (st.status, closedByBoth st.leafLog)) = some (.active, true) ∧
      (∃ o ∈ (step Sample.externals (run Sample.externals (some Sample.session)
        [Sample.firstSeal Sample.unreachable, Sample.secondSeal Sample.unreachable])
          (Sample.submits Sample.unreachable 2 2 [2, 6, 0, 0, 9])).out, o.IsAck) ∧
      ¬∃ o ∈ (step Sample.externals (run Sample.externals (some Sample.session)
        [Sample.firstSeal Sample.unreachable, Sample.secondSeal Sample.unreachable])
          (Sample.submits Sample.unreachable 2 2 [2, 6, 0, 0, 9])).out, o.IsSealCall := by
  decide

end Cello.Relay
