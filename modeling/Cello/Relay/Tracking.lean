import Cello.Relay.Node

/-!
# What a finished session leaves behind

The maps beside the store are torn down by `#cleanupSessionTracking`, on each of the ways a session
can end: a discard, the idle timer, the idle sweep, a confirmed and a rejected seal.  A session whose
two accounts disagree ends on none of them; it is marked `diverged` and stays in every map, and
counts against the cap of its pair for as long as the relay runs.  An idle timer is started for
whatever session a frame names.  And a handler that was suspended when its session ended writes what
it had read, which brings the session back without its tracking.

`terminal_sessions_hold_no_capacity` says that these three are all: as long as no session diverges, no
timer is started for a finished session and none ends under a handler that is going to write, finished
sessions are in no map, and the sessions counted between two participants are the ones they still have.
-/

namespace Cello.Relay

open Lib Cello.Interfaces

/-- No leaf will ever be accepted again. -/
def SessionStatus.terminal : SessionStatus → Bool
  | sealRejected | diverged => true
  | active | sealing => false

/-- The assignment of a session that is not over. -/
def live (store : Option RelaySessionState) : Option SessionAssignment :=
  (store.filter fun st => !st.status.terminal).map RelaySessionState.assignment

def liveOf (sessions : OrdMap Bytes RelaySessionState) (key : Bytes) : Option SessionAssignment :=
  live (sessions.get key)

def Listed (m : OrdMap Bytes (OrdSet Bytes)) (pubkey key : Bytes) : Prop :=
  ∃ sessions, m.get pubkey = some sessions ∧ key ∈ sessions

/-- **The maps hold the sessions that are not over**, and the participant sets hold each under its
two participants. -/
structure Accounted (n : NodeState) : Prop where
  listed : ∀ pubkey key, Listed n.participantSessions pubkey key ↔
    ∃ a, liveOf n.sessions key = some a ∧ a.names pubkey
  binding : ∀ key, n.sessionPeerIdBindings.has key = true → (liveOf n.sessions key).isSome = true
  gater : ∀ key, n.gaterBindings.has key = true → (liveOf n.sessions key).isSome = true
  broker : ∀ key, n.sessionBrokerPubkey.has key = true → (liveOf n.sessions key).isSome = true
  timer : ∀ key, key ∈ n.sessionIdleTimers → (liveOf n.sessions key).isSome = true

/-! ### The participant sets -/

theorem listed_forgetSession {m : OrdMap Bytes (OrdSet Bytes)} {gone pubkey key : Bytes} :
    Listed (forgetSession m gone) pubkey key ↔ key ≠ gone ∧ Listed m pubkey key := by
  rw [Listed, forgetSession]
  simp only [OrdMap.get_mapValues, Option.map_eq_some_iff, OrdMap.get_filter]
  constructor
  · rintro ⟨_, ⟨sessions, ⟨hget, -⟩, rfl⟩, hmem⟩
    rw [OrdSet.mem_delete] at hmem
    exact ⟨hmem.1, sessions, hget, hmem.2⟩
  · rintro ⟨hne, sessions, hget, hmem⟩
    have hleft : key ∈ sessions.delete gone := (OrdSet.mem_delete _ _ _).2 ⟨hne, hmem⟩
    refine ⟨_, ⟨sessions, ⟨hget, ?_⟩, rfl⟩, hleft⟩
    have hsize : (sessions.delete gone).size ≠ 0 := fun h => OrdSet.size_eq_zero.1 h key hleft
    simp [hsize]

theorem listed_addParticipantSession {m : OrdMap Bytes (OrdSet Bytes)} {added new pubkey key : Bytes} :
    Listed (addParticipantSession m added new) pubkey key ↔
      (pubkey = added ∧ key = new) ∨ Listed m pubkey key := by
  rw [Listed, addParticipantSession]
  by_cases hp : pubkey = added
  · subst hp
    simp only [OrdMap.get_set_self, Option.some.injEq, exists_eq_left', OrdSet.mem_add, true_and]
    refine or_congr_right ?_
    cases hget : m.get pubkey with
    | none => simp [Listed, hget]
    | some sessions => simp [Listed, hget]
  · simp only [OrdMap.get_set_of_ne _ _ hp, hp, false_and, false_or]
    rfl

/-! ### The ways the maps change -/

theorem liveOf_congr {s s' : OrdMap Bytes RelaySessionState} {key : Bytes}
    (h : s'.get key = s.get key) : liveOf s' key = liveOf s key := by
  rw [liveOf, liveOf, h]

theorem accounted_empty : Accounted {} where
  listed pubkey key := by simp [Listed, liveOf, live]
  binding key h := by cases h
  gater key h := by cases h
  broker key h := by cases h
  timer key h := absurd h (OrdSet.not_mem_empty key)

section

variable {n : NodeState} {sessions : OrdMap Bytes RelaySessionState}
  {handlers : OrdMap Bytes (List Task)} {locks : OrdMap Bytes ℕ} {key : Bytes}

theorem Accounted.kept (h : Accounted n) (hlive : ∀ x, liveOf sessions x = liveOf n.sessions x) :
    Accounted { n with sessions := sessions, handlers := handlers, sessionLocks := locks } where
  listed pubkey x := by
    rw [hlive]
    exact h.listed pubkey x
  binding x hx := by
    rw [hlive]
    exact h.binding x hx
  gater x hx := by
    rw [hlive]
    exact h.gater x hx
  broker x hx := by
    rw [hlive]
    exact h.broker x hx
  timer x hx := by
    rw [hlive]
    exact h.timer x hx

theorem live_of_erase {β : Type} {m : OrdMap Bytes β}
    (hm : ∀ x, m.has x = true → (liveOf n.sessions x).isSome = true)
    (hlive : ∀ x, x ≠ key → liveOf sessions x = liveOf n.sessions x) (x : Bytes)
    (hx : (m.erase key).has x = true) : (liveOf sessions x).isSome = true := by
  obtain ⟨hne, hhas⟩ := (OrdMap.has_erase _ _ _).1 hx
  rw [hlive x hne]
  exact hm x hhas

theorem Accounted.ended (h : Accounted n) (hend : liveOf sessions key = none)
    (hlive : ∀ x, x ≠ key → liveOf sessions x = liveOf n.sessions x) :
    Accounted { cleanupSessionTracking n key with
      sessions := sessions, handlers := handlers, sessionLocks := locks } where
  listed pubkey x := by
    change Listed (forgetSession n.participantSessions key) pubkey x ↔ _
    rw [listed_forgetSession]
    by_cases hx : x = key
    · subst hx
      simp [hend]
    · simp only [ne_eq, hx, not_false_eq_true, true_and, hlive x hx]
      exact h.listed pubkey x
  binding := live_of_erase h.binding hlive
  gater := live_of_erase h.gater hlive
  broker := live_of_erase h.broker hlive
  timer x hx := by
    obtain ⟨hne, hmem⟩ := (OrdSet.mem_delete _ _ _).1 hx
    rw [hlive x hne]
    exact h.timer x hmem

theorem Accounted.discard (h : Accounted n) (key : Bytes) : Accounted (discardSession n key) := by
  refine h.ended ?_ fun x hx => liveOf_congr ?_
  · rw [liveOf]
    simp [cleanupSessionTracking, live]
  · simp [cleanupSessionTracking, OrdMap.get_erase_of_ne _ hx]

theorem Accounted.startTimer (h : Accounted n) (ext : NodeExternals)
    (hlive : ext.hasIdleTimeout = true → (liveOf n.sessions key).isSome = true) :
    Accounted (startSessionIdleTimer ext n key) := by
  rw [startSessionIdleTimer]
  split
  · rename_i htimeout
    refine { h with timer := fun x hx => ?_ }
    rcases (OrdSet.mem_add _ _ _).1 hx with rfl | hx
    · exact hlive htimeout
    · exact h.timer x hx
  · exact h

theorem Accounted.stopTimer (h : Accounted n) (key : Bytes) :
    Accounted { n with sessionIdleTimers := n.sessionIdleTimers.delete key } :=
  { h with timer := fun x hx => h.timer x ((OrdSet.mem_delete _ _ _).1 hx).2 }

end

/-! ### Recording -/

variable {n : NodeState} {st : RelaySessionState}

theorem liveOf_of_get {s : OrdMap Bytes RelaySessionState} {key : Bytes} (h : s.get key = some st) :
    liveOf s key = if st.status.terminal then none else some st.assignment := by
  cases ht : st.status.terminal <;> simp [liveOf, live, h, ht]

theorem liveOf_set {s : OrdMap Bytes RelaySessionState} {key x : Bytes} :
    liveOf (s.set key st) x =
      if x = key then (if st.status.terminal then none else some st.assignment) else liveOf s x := by
  by_cases hx : x = key
  · subst hx
    rw [if_pos rfl]
    exact liveOf_of_get (OrdMap.get_set_self _ _ _)
  · rw [if_neg hx]
    exact liveOf_congr (OrdMap.get_set_of_ne _ _ hx)

theorem liveOf_update {s : OrdMap Bytes RelaySessionState} {key : Bytes}
    {store : Option RelaySessionState} (h : live store = liveOf s key) (x : Bytes) :
    liveOf (s.update key store) x = liveOf s x := by
  rw [liveOf, OrdMap.get_update]
  split
  · rename_i hx
    rw [hx, h]
  · rfl

theorem has_bind {ids : Option (String × String)} {m : OrdMap Bytes (String × String)} {key x : Bytes}
    (h : (match ids with
      | some ids => m.set key ids
      | none => m).has x = true) : x = key ∨ m.has x = true := by
  cases ids with
  | none => exact Or.inr h
  | some ids => exact (OrdMap.has_set _ _ _ _).1 h

/-- **Recording a session the store does not hold.** -/
theorem Accounted.admit (h : Accounted n) (ext : NodeExternals) (frame : ClientRecordAssignment)
    (signer : Bytes) (hnew : n.sessions.has frame.sessionId = false) :
    Accounted (admitAssignment ext n frame signer) := by
  have hget : n.sessions.get frame.sessionId = none := by
    simpa [OrdMap.has] using hnew
  have hnone : liveOf n.sessions frame.sessionId = none := by
    rw [liveOf, hget]
    rfl
  have hlive : ∀ genesisRoot x,
      liveOf (n.sessions.set frame.sessionId (recordSession (storedAssignment frame) genesisRoot)) x =
        if x = frame.sessionId then some (storedAssignment frame) else liveOf n.sessions x := by
    intro genesisRoot x
    rw [liveOf_set]
    rfl
  -- what is tracked is the new session, or was live before
  have hsome : ∀ genesisRoot x, x = frame.sessionId ∨ (liveOf n.sessions x).isSome = true →
      (liveOf (n.sessions.set frame.sessionId
        (recordSession (storedAssignment frame) genesisRoot)) x).isSome = true := by
    intro genesisRoot x hx
    rw [hlive]
    split
    · rfl
    · rename_i hne
      exact hx.resolve_left hne
  rw [admitAssignment]
  refine Accounted.startTimer ?_ ext fun _ => hsome _ _ (Or.inl rfl)
  constructor
  · intro pubkey x
    simp only [listed_addParticipantSession, hlive]
    by_cases hx : x = frame.sessionId
    · subst hx
      simp only [and_true, if_true, Option.some.injEq, exists_eq_left', h.listed, hnone]
      simp [SessionAssignment.names, storedAssignment, or_comm]
    · simp only [hx, and_false, false_or, if_false]
      exact h.listed pubkey x
  · exact fun x hx => hsome _ _ ((has_bind hx).imp_right (h.binding x))
  · intro x hx
    refine hsome _ _ ?_
    simp only at hx
    split at hx
    · exact (has_bind hx).imp_right (h.gater x)
    · exact Or.inr (h.gater x hx)
  · exact fun x hx => hsome _ _ (((OrdMap.has_set _ _ _ _).1 hx).imp_right (h.broker x))
  · exact fun x hx => hsome _ _ (Or.inr (h.timer x hx))

theorem Accounted.record (h : Accounted n) (ext : NodeExternals) (authed : Bytes)
    (frame : ClientRecordAssignment) :
    Accounted (processClientRecordAssignment ext n authed frame).2 := by
  rw [processClientRecordAssignment]
  split
  · exact h
  · split
    · rename_i n' hrecorded
      obtain ⟨fields, signer, -, rfl, hnew⟩ := validlySigned_of_recorded hrecorded
      exact h.admit ext frame signer hnew
    · split
      · exact h
      · exact h
    · exact h

/-! ### Timers -/

theorem startSessionIdleTimer_sessions (ext : NodeExternals) (n : NodeState) (key : Bytes) :
    (startSessionIdleTimer ext n key).sessions = n.sessions := by
  rw [startSessionIdleTimer]
  split <;> rfl

section

variable (h : Accounted n)

include h

theorem Accounted.connected (ext : NodeExternals) (pubkey : Bytes) :
    Accounted (participantConnected ext n pubkey) := by
  -- a session is only in the set of a participant while it is live
  have hlive : ∀ key ∈ ((n.participantSessions.get pubkey).getD OrdSet.empty).members,
      (liveOf n.sessions key).isSome = true := by
    intro key hkey
    cases hget : n.participantSessions.get pubkey with
    | none => simp [hget, OrdSet.empty] at hkey
    | some sessions =>
      rw [hget] at hkey
      obtain ⟨a, ha, -⟩ := (h.listed pubkey key).1 ⟨sessions, hget, hkey⟩
      rw [ha]
      rfl
  rw [participantConnected]
  generalize ((n.participantSessions.get pubkey).getD OrdSet.empty).members = keys at hlive
  induction keys generalizing n with
  | nil => exact h
  | cons key rest ih =>
    refine ih (h.startTimer ext fun _ => hlive key List.mem_cons_self) fun x hx => ?_
    rw [startSessionIdleTimer_sessions]
    exact hlive x (List.mem_cons_of_mem _ hx)

end

/-! ### The handlers -/

section

variable {ext : RelayExternals} {mom : Moment} {store : Option RelaySessionState} {p : Phase}

def LinkBroken (st : RelaySessionState) (f : Submission) (w : Witnessed) : Prop :=
  checkAcknowledgement st w.s1 = .ok () ∧ st.issuedAcks.get (submissionKey f.sender w.s1) = none ∧
    w.s1.prevOwnHash ≠ expectedOwn st f.sender

/-- The handler is about to find a broken self link: the frame passes every check, is no retransmission,
and does not link to the last message of its sender. -/
def BreaksSelfLink (ext : RelayExternals) (mom : Moment) (store : Option RelaySessionState) : Phase → Prop
  | .waiting f => ∃ st w, store = some st ∧ gate st = .ok () ∧ looksUp ext st f = false ∧
      identify ext mom st f.sender f.frame = .ok w ∧ f.sender = w.author ∧ LinkBroken st f w
  | .lookup f st => ∃ w, identify ext mom st f.sender f.frame = .ok w ∧ f.sender = w.author ∧
      LinkBroken st f w
  | .alerting f st w => LinkBroken st f w
  | _ => False

theorem linkBroken_of_selfAlert {f f' : Submission} {st st' : RelaySessionState} {w : Witnessed}
    (h : (sequenceFrom ext mom store f st w).phase = .selfAlert f' st') : LinkBroken st f w := by
  rw [sequenceFrom] at h
  split at h
  · cases h
  · rename_i hack
    split at h
    · cases h
    · rename_i hget
      split at h
      · rename_i hlink
        exact ⟨hack, hget, hlink⟩
      · split at h
        · cases h
        · simp only at h
          split at h <;> cases h

theorem linkBroken_of_identify {f f' : Submission} {st st' : RelaySessionState}
    (h : (identifyFrom ext mom store f st).phase = .selfAlert f' st') :
    ∃ w, identify ext mom st f.sender f.frame = .ok w ∧ f.sender = w.author ∧ LinkBroken st f w := by
  rw [identifyFrom] at h
  split at h
  · cases h
  · rename_i w hw
    split at h
    · cases h
    · rename_i hown
      exact ⟨w, hw, not_not.1 hown, linkBroken_of_selfAlert h⟩

theorem breaksSelfLink_of_selfAlert {f : Submission} {st : RelaySessionState}
    (h : (resumeTask ext mom store p).phase = .selfAlert f st) : BreaksSelfLink ext mom store p := by
  cases p with
  | waiting g =>
    cases store with
    | none => cases h
    | some latest =>
      simp only [resumeTask, startSubmit] at h
      cases hgate : gate latest with
      | error e =>
        rw [hgate] at h
        cases h
      | ok u =>
        simp only [hgate] at h
        split at h
        · cases h
        · rename_i hlookup
          obtain ⟨w, hw, hown, hbroken⟩ := linkBroken_of_identify h
          exact ⟨latest, w, rfl, hgate, by simpa using hlookup, hw, hown, hbroken⟩
  | lookup g held => exact linkBroken_of_identify h
  | alerting g held w => exact linkBroken_of_selfAlert h
  | selfAlert g held => cases h
  | signing g held w s2 => cases h
  | sending kind =>
    simp only [resumeTask, attemptSeal] at h
    split at h
    · split at h
      · cases h
      · split at h <;> cases h
    · cases h
  | sealing data => cases h
  | done => cases h

theorem alerts_of_linkBroken {f : Submission} {st : RelaySessionState} {w : Witnessed}
    (h : LinkBroken st f w) : (sequenceFrom ext mom store f st w).phase = .selfAlert f st := by
  obtain ⟨hack, hget, hlink⟩ := h
  simp only [sequenceFrom, hack, hget, if_pos hlink]

theorem alerts_of_identified {f : Submission} {st : RelaySessionState} {w : Witnessed}
    (hw : identify ext mom st f.sender f.frame = .ok w) (hown : f.sender = w.author)
    (h : LinkBroken st f w) : (identifyFrom ext mom store f st).phase = .selfAlert f st := by
  rw [identifyFrom]
  simp only [hw]
  rw [if_neg (not_not.2 hown)]
  exact alerts_of_linkBroken h

theorem alerts_of_breaksSelfLink (h : BreaksSelfLink ext mom store p) :
    ∃ f st, (resumeTask ext mom store p).phase = .selfAlert f st := by
  cases p with
  | waiting f =>
    obtain ⟨st, w, rfl, hgate, hlookup, hw, hown, hbroken⟩ := h
    refine ⟨f, st, ?_⟩
    simp only [resumeTask, startSubmit, hgate, hlookup, Bool.false_eq_true, if_false]
    exact alerts_of_identified hw hown hbroken
  | lookup f st =>
    obtain ⟨w, hw, hown, hbroken⟩ := h
    exact ⟨f, st, alerts_of_identified hw hown hbroken⟩
  | alerting f st w => exact ⟨f, st, alerts_of_linkBroken h⟩
  | _ => exact absurd h id

/-- **A suspended handler has the session as it is by now**: what it holds is of the assignment that is
still live, and it has found no broken link. -/
structure Steady (ext : RelayExternals) (now : Option SessionAssignment) (p : Phase) : Prop where
  active : ∀ st, p.snapshot = some st → st.status = .active
  pending : ∀ st, Pending ext p → p.snapshot = some st → now = some st.assignment
  linked : ∀ f st, p ≠ .selfAlert f st

theorem live_of_active {st : RelaySessionState} (h : st.status = .active) :
    live (some st) = some st.assignment := by
  simp [live, h, SessionStatus.terminal]

theorem WorksOn.live {held : RelaySessionState} (h : WorksOn ext store p held)
    (hsteady : Steady ext (live store) p) : live store = some held.assignment := by
  rcases h with ⟨hp, hheld⟩ | ⟨rfl, hactive⟩
  · exact hsteady.pending held hp hheld
  · exact live_of_active hactive

theorem live_map {note : RelaySessionState → RelaySessionState} {store : Option RelaySessionState}
    (hterminal : ∀ st, store = some st → (note st).status.terminal = st.status.terminal)
    (hassignment : ∀ st, store = some st → (note st).assignment = st.assignment) :
    live (store.map note) = live store := by
  cases store with
  | none => rfl
  | some st =>
    simp only [live, Option.map_some, Option.filter_some, hterminal st rfl]
    split
    · simp [hassignment st rfl]
    · rfl

theorem Resumed.live {p' : Phase} {store' : Option RelaySessionState}
    (h : Resumed ext mom store p store' p') (hsteady : Steady ext (live store) p)
    (hp : ∀ data, p ≠ .sealing data) : Relay.live store' = Relay.live store := by
  cases h with
  | kept _ _ hk => rfl
  | wrote _ _ held st hw hst hassignment hnot =>
    rw [live_of_active hst, hassignment, hw.live hsteady]
  | noted _ _ note hnote hnot =>
    exact live_map (fun st _ => by rw [(hnote st).1]) fun st _ => (hnote st).2
  | diverged f held => exact absurd rfl (hsteady.linked f held)
  | attempted st data hstore hdirectory hattempts =>
    rw [hstore, live_of_active hattempts.1]
    rfl
  | adjudicated data => exact absurd rfl (hp data)

theorem adjudicate_live (store : Option RelaySessionState) (answer : DirectoryAnswer) :
    live (adjudicate store answer) = if answer.isVerdict = true then none else live store := by
  cases answer with
  | ok => rfl
  | unknown reason => rfl
  | unreachable reason =>
    refine live_map (fun st _ => ?_) fun st _ => ?_
    · split
      · rename_i hsealing
        rw [hsealing]
        rfl
      · rfl
    · split <;> rfl
  | refused reason redirect => cases store <;> rfl

theorem resumeTask_live (hsteady : Steady ext (live store) p) :
    live (resumeTask ext mom store p).store = if settles mom p = true then none else live store := by
  by_cases hp : ∃ data, p = .sealing data
  · obtain ⟨data, rfl⟩ := hp
    exact adjudicate_live ..
  · have hsettles : settles mom p = false := by
      cases p with
      | sealing data => exact absurd ⟨data, rfl⟩ hp
      | _ => rfl
    rw [(resumed hsteady.active).live hsteady fun data he => hp ⟨data, he⟩, hsettles]
    rfl

theorem Resumed.steady {p' : Phase} {store' : Option RelaySessionState}
    (h : Resumed ext mom store p store' p') (hsteady : Steady ext (Relay.live store) p)
    {st : RelaySessionState} (hp' : Pending ext p') (hst : p'.snapshot = some st) :
    Relay.live store' = some st.assignment := by
  cases h with
  | kept _ _ hk => exact (hk st hp' hst).live hsteady
  | wrote _ _ held written hw hwritten hassignment hnot => exact absurd hp' hnot
  | noted _ _ note hnote hnot => exact absurd hp' hnot
  | diverged f held => exact absurd hp' id
  | attempted held data hstore hdirectory hattempts => exact absurd hp' id
  | adjudicated data => exact absurd hp' id

theorem Steady.resume (h : Steady ext (live store) p) (hlink : ¬BreaksSelfLink ext mom store p) :
    Steady ext (live (resumeTask ext mom store p).store) (resumeTask ext mom store p).phase where
  active _ hst := resumeTask_snapshot h.active hst
  pending _ hp hst := (resumed h.active).steady h hp hst
  linked _ _ he := hlink (breaksSelfLink_of_selfAlert he)

theorem Steady.quiet {now now' : Option SessionAssignment} (h : Steady ext now p)
    (hp : ¬Pending ext p) : Steady ext now' p :=
  ⟨h.active, fun _ hpending => absurd hpending hp, h.linked⟩

end

/-! ### A replay -/

def TipContradicts (ext : NodeExternals) (st : RelaySessionState) (submitter : Bytes)
    (frame : SessionReplay) : Prop :=
  AwaitsReplay st submitter ∧
    ∃ reason, replayVerdict ext.toRelayExternals ext.encodeCbor st submitter frame = .diverged reason

theorem attemptSeal_live (ext : RelayExternals) (store : Option RelaySessionState) :
    live (attemptSeal ext store).store = live store := by
  cases store with
  | none => rfl
  | some st =>
    simp only [attemptSeal]
    split
    · rename_i hattempts
      rw [live_of_active hattempts.1]
      rfl
    · rfl

theorem replaySegment_live {ext : RelayExternals} {store : Option RelaySessionState} {submitter : Bytes}
    {verdict : ReplayVerdict}
    (htip : ∀ st reason, store = some st → verdict = .diverged reason → ¬AwaitsReplay st submitter) :
    live (replaySegment ext store submitter verdict).store = live store := by
  cases store with
  | none => rfl
  | some st =>
    simp only [replaySegment]
    split
    · rename_i hawaits
      cases verdict with
      | refused reason => rfl
      | diverged reason => exact absurd hawaits (htip st reason rfl rfl)
      | adopted leaves =>
        have hadopted : live (some (adoptLeaves ext st leaves)) = live (some st) := by
          rw [live_of_active hawaits.active]
          exact live_of_active hawaits.active
        simp only
        split
        · rw [attemptSeal_live, hadopted]
        · exact hadopted
    · rfl

theorem replaySegment_steady (ext : RelayExternals) (store : Option RelaySessionState)
    (submitter : Bytes) (verdict : ReplayVerdict) (now : Option SessionAssignment) :
    Steady ext now (replaySegment ext store submitter verdict).phase := by
  obtain ⟨hquiet, hsnap⟩ := replaySegment_quiet ext store submitter verdict
  refine ⟨fun st hst => ?_, fun _ hp => absurd hp hquiet, fun f st he => ?_⟩
  · rw [hsnap] at hst
    cases hst
  · rw [he] at hsnap
    cases hsnap

/-! ### Steps and runs -/

def TimerInOrder (ext : NodeExternals) (n : NodeState) (key : Bytes) : Prop :=
  ext.hasIdleTimeout = true → (liveOf n.sessions key).isSome = true

def Unwritten (ext : NodeExternals) (n : NodeState) (key : Bytes) : Prop :=
  ∀ t ∈ (n.inflight key).tasks, ¬Pending ext.toRelayExternals t.phase

/-- **No session diverges, no timer is started for a finished session, and none ends under a handler
that is going to write.** -/
def InOrder (ext : NodeExternals) (n : NodeState) : NodeEvent → Prop
  | .hashSubmit _ frame => TimerInOrder ext n frame.sessionId
  | .resume key i mom => ∀ t, (n.inflight key).tasks[i]? = some t →
      ¬BreaksSelfLink ext.toRelayExternals mom (n.sessions.get key) t.phase ∧
        (settles mom t.phase = true → Unwritten ext n key)
  | .sessionReplay submitter frame => TimerInOrder ext n frame.sessionId ∧
      ∀ st, n.sessions.get frame.sessionId = some st → ¬TipContradicts ext st submitter frame
  | .discardSession key => Unwritten ext n key
  | .idleTimeout key => key ∈ n.sessionIdleTimers → ActiveIn (n.sessions.get key) → Unwritten ext n key
  | .idleSweep idle => ∀ key ∈ sweepIdleSessions n idle, Unwritten ext n key
  | _ => True

/-- The books are right, and every handler has its session as it is. -/
structure Tracked (ext : NodeExternals) (n : NodeState) : Prop where
  accounted : Accounted n
  steady : ∀ key, ∀ t ∈ (n.inflight key).tasks,
    Steady ext.toRelayExternals (liveOf n.sessions key) t.phase

theorem startSessionIdleTimer_inflight (ext : NodeExternals) (n : NodeState) (key x : Bytes) :
    (startSessionIdleTimer ext n key).inflight x = n.inflight x := by
  rw [startSessionIdleTimer]
  split <;> rfl

theorem inflight_setInflight (n : NodeState) (key x : Bytes) (s : Inflight) :
    (n.setInflight key s).inflight x = if x = key then s else n.inflight x := by
  simp only [NodeState.inflight, NodeState.setInflight, OrdMap.get_update, OrdMap.get_set]
  split <;> rfl

theorem liveOf_inflight (n : NodeState) (key : Bytes) :
    liveOf n.sessions key = live (n.inflight key).store := rfl

theorem tracked_empty (ext : NodeExternals) : Tracked ext {} where
  accounted := accounted_empty
  steady key t ht := by cases ht

section

variable {ext : NodeExternals} {n : NodeState} (h : Tracked ext n)

include h

theorem Tracked.beside {n' : NodeState} (haccounted : Accounted n')
    (htasks : ∀ key, (n'.inflight key).tasks = (n.inflight key).tasks)
    (hlive : ∀ key, liveOf n'.sessions key = liveOf n.sessions key ∨ Unwritten ext n key) :
    Tracked ext n' where
  accounted := haccounted
  steady key t ht := by
    rw [htasks] at ht
    rcases hlive key with he | hun
    · rw [he]
      exact h.steady key t ht
    · exact (h.steady key t ht).quiet (hun t ht)

theorem Tracked.set {n₁ : NodeState} {key : Bytes} {s : Inflight}
    (haccounted : Accounted (n₁.setInflight key s))
    (hother : ∀ x, x ≠ key → n₁.inflight x = n.inflight x)
    (hsteady : ∀ t ∈ s.tasks, Steady ext.toRelayExternals (live s.store) t.phase) :
    Tracked ext (n₁.setInflight key s) where
  accounted := haccounted
  steady x t ht := by
    rw [liveOf_inflight]
    rw [inflight_setInflight] at ht ⊢
    split at ht
    · rename_i hx
      rw [if_pos hx]
      exact hsteady t ht
    · rename_i hx
      rw [hother x hx] at ht
      rw [if_neg hx, hother x hx]
      exact h.steady x t ht

theorem Tracked.unwritten {key : Bytes} (hover : liveOf n.sessions key = none) :
    Unwritten ext n key := by
  intro t ht hp
  obtain ⟨held, hheld⟩ := hp.snapshot
  have hlive := (h.steady key t ht).pending held hp hheld
  rw [hover] at hlive
  cases hlive

theorem Tracked.record (authed : Bytes) (frame : ClientRecordAssignment) :
    Tracked ext (processClientRecordAssignment ext n authed frame).2 := by
  have haccounted := h.accounted.record ext authed frame
  revert haccounted
  rw [processClientRecordAssignment]
  split
  · exact fun _ => h
  · split
    · rename_i n' hrecorded
      obtain ⟨fields, signer, -, rfl, hnew⟩ := validlySigned_of_recorded hrecorded
      intro haccounted
      have hadmitted : (admitAssignment ext n frame signer).handlers = n.handlers ∧
          ∀ x, x ≠ frame.sessionId →
            (admitAssignment ext n frame signer).sessions.get x = n.sessions.get x := by
        rw [admitAssignment, startSessionIdleTimer]
        split
        · exact ⟨rfl, fun x hx => OrdMap.get_set_of_ne _ _ hx⟩
        · exact ⟨rfl, fun x hx => OrdMap.get_set_of_ne _ _ hx⟩
      refine h.beside haccounted (fun x => ?_) fun x => ?_
      · simp only [NodeState.inflight, hadmitted.1]
      · by_cases hx : x = frame.sessionId
        · subst hx
          refine Or.inr (h.unwritten ?_)
          have hget : n.sessions.get frame.sessionId = none := by simpa [OrdMap.has] using hnew
          rw [liveOf, hget]
          rfl
        · exact Or.inl (liveOf_congr (hadmitted.2 x hx))
    · split
      · exact fun _ => h
      · exact fun _ => h
    · exact fun _ => h

theorem Tracked.hashSubmit {sender : Bytes} {frame : HashSubmit}
    (horder : TimerInOrder ext n frame.sessionId) :
    Tracked ext (processHashSubmit ext n sender frame) := by
  rw [processHashSubmit]
  refine h.set ?_ (fun x _ => startSessionIdleTimer_inflight ..) fun t ht => ?_
  · refine (h.accounted.startTimer ext horder).kept (liveOf_update ?_)
    rw [startSessionIdleTimer_sessions]
    rfl
  · rcases List.mem_append.1 ht with ht | ht
    · exact h.steady frame.sessionId t ht
    · rw [List.mem_singleton.1 ht]
      refine ⟨fun _ hst => ?_, fun _ hp => absurd hp id, fun _ _ he => ?_⟩
      · cases hst
      · cases he

theorem Tracked.resume {key : Bytes} {i : ℕ} {mom : Moment}
    (horder : InOrder ext n (.resume key i mom)) : Tracked ext (resumeHandler ext n key i mom) := by
  rw [resumeHandler]
  cases ht : (n.inflight key).tasks[i]? with
  | none => exact h
  | some t =>
    obtain ⟨hlink, hsettled⟩ := horder t ht
    have hsteady := h.steady key t (List.mem_of_getElem? ht)
    have hlive : live (resumeTask ext.toRelayExternals mom (n.sessions.get key) t.phase).store =
        if settles mom t.phase = true then none else live (n.sessions.get key) := resumeTask_live hsteady
    by_cases hready : (n.inflight key).ready t = true
    · have hstep : inflightStep ext.toRelayExternals (n.inflight key) (.resume i mom) =
          (n.inflight key).resume ext.toRelayExternals mom i t := by
        simp only [inflightStep, ht, if_pos hready]
      -- the handler has its session as it is, and the others are not in its way
      have htasks : ∀ u ∈ ((n.inflight key).resume ext.toRelayExternals mom i t).tasks,
          Steady ext.toRelayExternals
            (live (resumeTask ext.toRelayExternals mom (n.sessions.get key) t.phase).store) u.phase := by
        intro u hu
        rcases List.mem_or_eq_of_mem_set hu with hu | rfl
        · rw [hlive]
          split
          · rename_i hs
            exact (h.steady key u hu).quiet (hsettled hs u hu)
          · exact h.steady key u hu
        · exact hsteady.resume hlink
      simp only [hstep]
      split
      · rename_i hs
        rw [if_pos hs] at hlive
        refine h.set (h.accounted.ended ?_ fun x hx => ?_) (fun _ _ => rfl) htasks
        · rw [liveOf, OrdMap.get_update, if_pos rfl]
          exact hlive
        · rw [liveOf, OrdMap.get_update, if_neg hx]
          rfl
      · rename_i hs
        rw [if_neg hs] at hlive
        exact h.set (h.accounted.kept (liveOf_update hlive)) (fun _ _ => rfl) htasks
    -- behind the lock
    · have hwaiting : settles mom t.phase = false := by
        rw [Inflight.ready] at hready
        split at hready
        · rename_i f j hphase hwaits
          rw [hphase]
          rfl
        · exact absurd rfl hready
      have hstep : inflightStep ext.toRelayExternals (n.inflight key) (.resume i mom) =
          n.inflight key := by
        simp only [inflightStep, ht, if_neg hready]
      simp only [hstep, hwaiting, Bool.false_eq_true, if_false]
      exact h.set (h.accounted.kept (liveOf_update rfl)) (fun _ _ => rfl) (h.steady key)

theorem Tracked.sessionReplay {submitter : Bytes} {frame : SessionReplay}
    (horder : InOrder ext n (.sessionReplay submitter frame)) :
    Tracked ext (processSessionReplayFrame ext n submitter frame) := by
  have hlive : live (replaySegment ext.toRelayExternals (n.inflight frame.sessionId).store submitter
      (verdictOf ext n submitter frame)).store = liveOf n.sessions frame.sessionId := by
    refine replaySegment_live fun st reason hst hverdict hawaits => ?_
    have hst : n.sessions.get frame.sessionId = some st := hst
    rw [verdictOf, hst] at hverdict
    exact horder.2 st hst ⟨hawaits, reason, hverdict⟩
  rw [processSessionReplayFrame]
  refine h.set ?_ (fun x _ => startSessionIdleTimer_inflight ..) fun t ht => ?_
  · refine (h.accounted.startTimer ext horder.1).kept (liveOf_update ?_)
    rw [startSessionIdleTimer_sessions]
    exact hlive
  · rcases List.mem_append.1 ht with ht | ht
    · have hsteady := h.steady frame.sessionId t ht
      rw [← hlive] at hsteady
      exact hsteady
    · rw [List.mem_singleton.1 ht]
      exact replaySegment_steady ..

theorem Tracked.discard {key : Bytes} (hun : Unwritten ext n key) :
    Tracked ext (discardSession n key) := by
  refine h.beside (h.accounted.discard key) (fun _ => rfl) fun x => ?_
  by_cases hx : x = key
  · rw [hx]
    exact Or.inr hun
  · exact Or.inl (liveOf_congr (OrdMap.get_erase_of_ne _ hx))

theorem Tracked.idleTimeout {key : Bytes} (horder : InOrder ext n (.idleTimeout key)) :
    Tracked ext (idleTimeout n key) := by
  rw [Relay.idleTimeout]
  split
  · rename_i hruns
    have hstopped : Tracked ext { n with sessionIdleTimers := n.sessionIdleTimers.delete key } :=
      h.beside (h.accounted.stopTimer key) (fun _ => rfl) fun _ => Or.inl rfl
    simp only
    split
    · rename_i st hst
      split
      · rename_i hactive
        exact hstopped.discard (horder hruns ⟨st, hst, hactive⟩)
      · exact hstopped
    · exact hstopped
  · exact h

theorem Tracked.idleSweep {idle : Bytes → Bool} (horder : InOrder ext n (.idleSweep idle)) :
    Tracked ext (idleSweep n idle) := by
  rw [Relay.idleSweep]
  change ∀ key ∈ sweepIdleSessions n idle, Unwritten ext n key at horder
  generalize sweepIdleSessions n idle = swept at horder
  induction swept generalizing n with
  | nil => exact h
  | cons key rest ih =>
    exact ih (h.discard (horder key List.mem_cons_self)) fun x hx =>
      horder x (List.mem_cons_of_mem _ hx)

theorem Tracked.connected (pubkey : Bytes) : Tracked ext (participantConnected ext n pubkey) := by
  have hframe : ∀ (keys : List Bytes) (n : NodeState),
      (keys.foldl (startSessionIdleTimer ext) n).sessions = n.sessions ∧
        ∀ x, (keys.foldl (startSessionIdleTimer ext) n).inflight x = n.inflight x := by
    intro keys
    induction keys with
    | nil => exact fun _ => ⟨rfl, fun _ => rfl⟩
    | cons key rest ih =>
      intro n
      obtain ⟨hsessions, hinflight⟩ := ih (startSessionIdleTimer ext n key)
      refine ⟨hsessions.trans (startSessionIdleTimer_sessions ..), fun x => ?_⟩
      exact (hinflight x).trans (startSessionIdleTimer_inflight ..)
  refine h.beside (h.accounted.connected ext pubkey) (fun x => ?_) fun x => Or.inl ?_
  · rw [participantConnected, (hframe _ _).2]
  · rw [participantConnected, (hframe _ _).1]

theorem Tracked.disconnected (pubkey : Bytes) : Tracked ext (participantDisconnected n pubkey) := by
  rw [participantDisconnected]
  generalize findSessionsForParticipant n pubkey = keys
  induction keys generalizing n with
  | nil => exact h
  | cons key rest ih =>
    exact ih (h.beside (h.accounted.stopTimer key) (fun _ => rfl) fun _ => Or.inl rfl)

end
/-- **One event in order keeps the books.** -/
theorem Tracked.step {ext : NodeExternals} {n : NodeState} {e : NodeEvent} (h : Tracked ext n)
    (horder : InOrder ext n e) : Tracked ext (nodeStep ext n e) := by
  cases e with
  | recordAssignment authed frame => exact h.record authed frame
  | hashSubmit sender frame => exact h.hashSubmit horder
  | resume key i mom => exact h.resume horder
  | sessionReplay submitter frame => exact h.sessionReplay horder
  | discardSession key => exact h.discard horder
  | idleTimeout key => exact h.idleTimeout horder
  | idleSweep idle => exact h.idleSweep horder
  | connected pubkey => exact h.connected pubkey
  | disconnected pubkey => exact h.disconnected pubkey

/-! ### What the books say -/

/-- **Finished sessions hold no capacity.** -/
structure HoldsNoCapacity (n : NodeState) : Prop where
  unlisted : ∀ key, liveOf n.sessions key = none → ∀ pubkey, ¬Listed n.participantSessions pubkey key
  unbound : ∀ key, liveOf n.sessions key = none → n.sessionPeerIdBindings.get key = none ∧
    n.gaterBindings.get key = none ∧ n.sessionBrokerPubkey.get key = none
  untracked : ∀ key, liveOf n.sessions key = none →
    sessionTrackingEntryCount n key = ⟨0, false, false, false⟩
  /-- The count is of the sessions that are not over and name both. -/
  concurrent : ∀ a b, concurrentSessionsBetween n a b = n.sessions.count fun _ st =>
    !st.status.terminal && (decide (st.assignment.names a) && decide (st.assignment.names b))

theorem Accounted.unlisted (h : Accounted n) {key : Bytes} (hover : liveOf n.sessions key = none)
    (pubkey : Bytes) :
    ¬Listed n.participantSessions pubkey key := by
  rw [h.listed, hover]
  rintro ⟨a, ha, -⟩
  cases ha

theorem has_eq_false_of_over {key : Bytes} {b : Bool}
    (h : b = true → (liveOf n.sessions key).isSome = true) (hover : liveOf n.sessions key = none) :
    b = false := by
  rw [hover] at h
  cases b with
  | false => rfl
  | true => cases h rfl

theorem get_eq_none_of_has {α : Type*} {m : OrdMap Bytes α} {key : Bytes} (h : m.has key = false) :
    m.get key = none := by
  simpa [OrdMap.has] using h

theorem Accounted.untracked (h : Accounted n) {key : Bytes} (hover : liveOf n.sessions key = none) :
    sessionTrackingEntryCount n key = ⟨0, false, false, false⟩ := by
  have hrefs : (n.participantSessions.count fun _ sessions => decide (key ∈ sessions)) = 0 := by
    refine OrdMap.count_eq_length _ (l := []) List.nodup_nil fun pubkey => ?_
    simp only [List.not_mem_nil, decide_eq_true_eq, false_iff]
    exact h.unlisted hover pubkey
  have htimer : key ∉ n.sessionIdleTimers := by
    intro hmem
    have := h.timer key hmem
    rw [hover] at this
    cases this
  rw [sessionTrackingEntryCount, hrefs, has_eq_false_of_over (h.binding key) hover,
    has_eq_false_of_over (h.broker key) hover, decide_eq_false htimer]

theorem Accounted.listed_both (h : Accounted n) (a b key : Bytes) :
    (Listed n.participantSessions a key ∧ Listed n.participantSessions b key) ↔
      ∃ st, n.sessions.get key = some st ∧ (!st.status.terminal &&
        (decide (st.assignment.names a) && decide (st.assignment.names b))) = true := by
  have hlive : ∀ x, liveOf n.sessions key = some x ↔
      ∃ st, n.sessions.get key = some st ∧ st.status.terminal = false ∧ st.assignment = x := by
    intro x
    rw [liveOf, live, Option.map_eq_some_iff]
    simp only [Option.filter_eq_some_iff, Bool.not_eq_true', and_assoc]
  rw [h.listed, h.listed]
  constructor
  · rintro ⟨⟨x, hx, ha⟩, ⟨y, hy, hb⟩⟩
    obtain ⟨st, hst, hterm, rfl⟩ := (hlive x).1 hx
    obtain rfl : st.assignment = y := Option.some.inj (hx.symm.trans hy)
    exact ⟨st, hst, by simp [hterm, ha, hb]⟩
  · rintro ⟨st, hst, hp⟩
    simp only [Bool.and_eq_true, Bool.not_eq_true', decide_eq_true_eq] at hp
    have hx := (hlive _).2 ⟨st, hst, hp.1, rfl⟩
    exact ⟨⟨_, hx, hp.2.1⟩, ⟨_, hx, hp.2.2⟩⟩

theorem Accounted.concurrent (h : Accounted n) (a b : Bytes) :
    concurrentSessionsBetween n a b = n.sessions.count fun _ st =>
      !st.status.terminal && (decide (st.assignment.names a) && decide (st.assignment.names b)) := by
  have hboth := h.listed_both a b
  rw [concurrentSessionsBetween]
  split
  · rename_i sa sb ha hb
    have hmem : ∀ key, (key ∈ sa ∧ key ∈ sb) ↔
        Listed n.participantSessions a key ∧ Listed n.participantSessions b key := by
      intro key
      simp [Listed, ha, hb]
    split
    · rw [List.countP_eq_length_filter]
      refine (OrdMap.count_eq_length _ (sa.nodup.filter _) fun key => ?_).symm
      rw [← hboth, ← hmem, List.mem_filter, decide_eq_true_eq]
      rfl
    · rw [List.countP_eq_length_filter]
      refine (OrdMap.count_eq_length _ (sb.nodup.filter _) fun key => ?_).symm
      rw [← hboth, ← hmem, List.mem_filter, decide_eq_true_eq, and_comm]
      rfl
  · rename_i hnone
    refine (OrdMap.count_eq_length _ (l := []) List.nodup_nil fun key => ?_).symm
    rw [← hboth]
    simp only [List.not_mem_nil, false_iff]
    rintro ⟨⟨sa, ha, -⟩, ⟨sb, hb, -⟩⟩
    exact hnone sa sb ha hb

theorem Accounted.holdsNoCapacity (h : Accounted n) : HoldsNoCapacity n where
  unlisted _ hover := h.unlisted hover
  unbound key hover := ⟨get_eq_none_of_has (has_eq_false_of_over (h.binding key) hover),
    get_eq_none_of_has (has_eq_false_of_over (h.gater key) hover),
    get_eq_none_of_has (has_eq_false_of_over (h.broker key) hover)⟩
  untracked _ hover := h.untracked hover
  concurrent := h.concurrent

/-- **Terminal sessions hold no capacity**, in every state of a run in which no session diverges and no
timer is started for a finished session. -/
theorem terminal_sessions_hold_no_capacity (ext : NodeExternals) (events : List NodeEvent)
    (horder : Guarded (nodeStep ext) (InOrder ext) {} events) (m : ℕ) :
    HoldsNoCapacity (nodeRun ext (events.take m)) :=
  (horder.invariant (fun _ _ h ho => h.step ho) (tracked_empty ext) m).accounted.holdsNoCapacity

def Phase.isSelfAlert : Phase → Bool
  | selfAlert _ _ => true
  | _ => false

namespace Sample

open Interfaces.Sample (key sid)

/-- `key 1` presents a session, and `s` submits a leaf of `key 1` for it. -/
def opensWith (s : UInt8) (leaf : Bytes) : List NodeEvent :=
  [.recordAssignment (key 1) (assignmentOf 7), .hashSubmit (key s) (frame 0 1 leaf),
    .resume sid 0 (moment unreachable), .resume sid 0 (moment unreachable)]

/-- The first leaf comes from the counterparty, and the session is discarded when it is written. -/
def carried : List NodeEvent := opensWith 2 [1, 5, 0, 0, 1] ++ [.discardSession sid]

theorem resume_inOrder {i : ℕ} {n : NodeState}
    (hquiet : ((n.inflight sid).tasks[i]?).all (fun t =>
      !(resumeTask externals (moment unreachable) (n.sessions.get sid) t.phase).phase.isSelfAlert &&
        !settles (moment unreachable) t.phase) = true) :
    InOrder node n (.resume sid i (moment unreachable)) := by
  intro t ht
  rw [ht, Option.all_some, Bool.and_eq_true, Bool.not_eq_true', Bool.not_eq_true'] at hquiet
  refine ⟨fun hbreaks => ?_, fun hs => ?_⟩
  · obtain ⟨f, st, hphase⟩ := alerts_of_breaksSelfLink hbreaks
    rw [show node.toRelayExternals = externals from rfl] at hphase
    rw [hphase] at hquiet
    cases hquiet.1
  · rw [hquiet.2] at hs
    cases hs

theorem carried_inOrder : Guarded (nodeStep node) (InOrder node) {} carried := by
  refine ⟨trivial, fun h => absurd h Bool.false_ne_true, resume_inOrder (by decide),
    resume_inOrder (by decide), fun t ht hp => ?_, trivial⟩
  have hwritten : ∀ t ∈ ((nodeRun node (opensWith 2 [1, 5, 0, 0, 1])).inflight sid).tasks,
      t.phase.holds = false := by decide
  have hfree := hwritten t ht
  rw [holds_of_pending hp] at hfree
  cases hfree

end Sample

/-- A leaf that the counterparty carries is sequenced, and the session discarded. -/
theorem discarded_holds_no_capacity :
    HoldsNoCapacity (nodeRun Sample.node (Sample.carried.take 5)) :=
  terminal_sessions_hold_no_capacity Sample.node _ Sample.carried_inOrder 5

/-- **A diverged session is in every map, and is counted.**  Its first leaf links to something that is
not the start of the session. -/
theorem diverged_session_holds_capacity :
    ((nodeRun Sample.node (Sample.opensWith 1 [1, 5, 0, 9, 1])).sessions.get Interfaces.Sample.sid).map
        RelaySessionState.status = some .diverged ∧
      sessionTrackingEntryCount (nodeRun Sample.node (Sample.opensWith 1 [1, 5, 0, 9, 1]))
        Interfaces.Sample.sid = ⟨2, true, false, true⟩ ∧
      (nodeRun Sample.node (Sample.opensWith 1 [1, 5, 0, 9, 1])).gaterBindings.has
        Interfaces.Sample.sid = true ∧
      concurrentSessionsBetween (nodeRun Sample.node (Sample.opensWith 1 [1, 5, 0, 9, 1]))
        (Interfaces.Sample.key 1) (Interfaces.Sample.key 2) = 1 ∧
      ((nodeRun Sample.node (Sample.opensWith 1 [1, 5, 0, 9, 1])).sessions.count fun _ st =>
        !st.status.terminal) = 0 := by
  decide

/-- The session is discarded under the counterparty's submit, which brings it back active and uncounted. -/
def Sample.crossed : List NodeEvent :=
  (opensWith 2 [1, 5, 0, 0, 1]).take 3 ++
    [.discardSession Interfaces.Sample.sid, .resume Interfaces.Sample.sid 0 (moment unreachable)]

example : ((nodeRun Sample.node Sample.crossed).sessions.get Interfaces.Sample.sid).map
      RelaySessionState.status = some .active ∧
    concurrentSessionsBetween (nodeRun Sample.node Sample.crossed) (Interfaces.Sample.key 1)
      (Interfaces.Sample.key 2) = 0 := by
  decide

end Cello.Relay
