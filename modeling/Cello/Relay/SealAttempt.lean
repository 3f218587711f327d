import Cello.Relay.Session

/-!
# Asking a directory to seal

`#maybeProcessSeal` of `packages/relay/src/relay-node.ts`, with `submitForSeal`,
`confirmSeal` and `rejectSeal`.  One attempt asks up to three directories in turn: the
one that brokered the session, the configured one when the broker gave no verdict and
no redirect, and the one a refusal points to.  The status afterwards depends on the
last answer alone.
-/

namespace Cello.Relay

open Lib Cello.Interfaces

/-- How a `processSeal` call ends. -/
inductive DirectoryAnswer where
  | ok
  /-- A directory read the seal and rejected it, maybe pointing to another one. -/
  | refused (reason : String) (redirect : Option Target)
  /-- Nothing was sent. -/
  | unreachable (reason : String)
  /-- Sent, and no answer came back. -/
  | unknown (reason : String)
deriving DecidableEq, Repr

namespace DirectoryAnswer

def redirect : DirectoryAnswer → Option Target
  | refused _ t => t
  | _ => none

def isOk : DirectoryAnswer → Bool
  | ok => true
  | _ => false

def isUnknown : DirectoryAnswer → Bool
  | unknown _ => true
  | _ => false

end DirectoryAnswer

/-- Which directory a call goes to. -/
inductive Adjudicator where
  | broker
  | configured
  | redirect
deriving DecidableEq, Repr

/-- The directories as one attempt meets them: an answer for each call, and the dialable address of
the broker if there is one. -/
structure Directories where
  broker : Option Target
  answer : Adjudicator → DirectoryAnswer

/-- One call: who is asked, under which address, and the answer. -/
structure SealCall where
  adjudicator : Adjudicator
  target : Option Target
  answer : DirectoryAnswer
deriving DecidableEq, Repr

def firstCall (d : Directories) : SealCall :=
  match d.broker with
  | some t => ⟨.broker, some t, d.answer .broker⟩
  | none => ⟨.configured, none, d.answer .configured⟩

def fallbackCall (d : Directories) (r : DirectoryAnswer) : Option SealCall :=
  if !r.isOk && r.redirect.isNone && d.broker.isSome then
    some ⟨.configured, none, d.answer .configured⟩
  else none

def redirectCall (d : Directories) (r : DirectoryAnswer) : Option SealCall :=
  r.redirect.map fun t => ⟨.redirect, some t, d.answer .redirect⟩

/-- The calls of one attempt, in order. -/
def sealCalls (d : Directories) : List SealCall :=
  let first := firstCall d
  let second := fallbackCall d first.answer
  let third := redirectCall d (second.getD first).answer
  first :: (second.toList ++ third.toList)

def dirResult (d : Directories) : DirectoryAnswer :=
  let first := firstCall d
  let second := (fallbackCall d first.answer).getD first
  ((redirectCall d second.answer).getD second).answer

/-! ### The session around an attempt -/

/-- What handling a frame leaves: the session, and what was sent. -/
structure Handled where
  session : Option RelaySessionState
  out : List Output

def sealData (ext : RelayExternals) (st : RelaySessionState) : SealData where
  leaves := st.leafLog
  seqCount := st.seqCounter
  merkleRoot := ext.merkleRoot
    (st.leafLog.map fun l => ext.leafHash l.kind (ext.encodeStructure2 l.s2))

/-- `submitForSeal`: package the log and mark the session. -/
def submitForSeal (ext : RelayExternals) (st : RelaySessionState) :
    Except String (RelaySessionState × SealData) :=
  if st.status ≠ .active then
    .error (if st.status = .diverged then "session_diverged" else "session_not_active")
  else if st.awaitingReplay then .error "session_awaiting_replay"
  else .ok ({ st with status := .sealing }, sealData ext st)

def rejectSeal (st : RelaySessionState) (reason : String) : RelaySessionState :=
  { st with status := .sealRejected, sealRejectedReason := some reason }

/-- What the last answer does to a session that is being sealed. -/
def settleSeal (st : RelaySessionState) : DirectoryAnswer → Option RelaySessionState
  -- `confirmSeal` destroys the session
  | .ok => none
  | .unknown _ => some st
  | .unreachable _ => some { st with status := .active }
  | .refused reason _ => some (rejectSeal st reason)

/-- `#maybeProcessSeal`. -/
def maybeProcessSeal (ext : RelayExternals) (d : Directories) (st : RelaySessionState) : Handled :=
  if st.status ≠ .active then ⟨some st, []⟩
  else if !closedByBoth st.leafLog then ⟨some st, []⟩
  else
    match submitForSeal ext st with
    | .error _ => ⟨some st, []⟩
    | .ok (st', data) =>
      ⟨settleSeal st' (dirResult d), (sealCalls d).map fun c => .processSeal c.target data⟩

/-! ### What an attempt can do -/

def AttemptsSeal (st : RelaySessionState) : Prop :=
  st.status = .active ∧ closedByBoth st.leafLog = true ∧ st.awaitingReplay = false

instance (st : RelaySessionState) : Decidable (AttemptsSeal st) := by
  unfold AttemptsSeal
  infer_instance

theorem maybeProcessSeal_cases (ext : RelayExternals) (d : Directories) (st : RelaySessionState) :
    (¬AttemptsSeal st ∧ maybeProcessSeal ext d st = ⟨some st, []⟩) ∨
      (AttemptsSeal st ∧ maybeProcessSeal ext d st =
        ⟨settleSeal { st with status := .sealing } (dirResult d),
          (sealCalls d).map fun c => .processSeal c.target (sealData ext st)⟩) := by
  rw [maybeProcessSeal, submitForSeal]
  by_cases hs : st.status = .active
  · by_cases hc : closedByBoth st.leafLog = true
    · by_cases hr : st.awaitingReplay = true
      · exact Or.inl ⟨fun h => by simp [h.2.2] at hr, by simp [hs, hc, hr]⟩
      · rw [Bool.not_eq_true] at hr
        exact Or.inr ⟨⟨hs, hc, hr⟩, by simp [hs, hc, hr]⟩
    · exact Or.inl ⟨fun h => hc h.2.1, by simp [hs, hc]⟩
  · exact Or.inl ⟨fun h => hs h.1, by simp [hs]⟩

/-- The fields an attempt leaves alone. -/
structure SameRecord (st st' : RelaySessionState) : Prop where
  leafLog : st'.leafLog = st.leafLog
  seqCounter : st'.seqCounter = st.seqCounter
  issuedAcks : st'.issuedAcks = st.issuedAcks
  assignment : st'.assignment = st.assignment
  genesisPrevRoot : st'.genesisPrevRoot = st.genesisPrevRoot
  awaitingReplay : st'.awaitingReplay = st.awaitingReplay

theorem SameRecord.refl (st : RelaySessionState) : SameRecord st st := ⟨rfl, rfl, rfl, rfl, rfl, rfl⟩

theorem settleSeal_sameRecord {st st' : RelaySessionState} {r : DirectoryAnswer}
    (h : settleSeal st r = some st') : SameRecord st st' := by
  cases r with
  | ok => simp [settleSeal] at h
  | unknown reason =>
    obtain rfl := Option.some.inj h
    exact SameRecord.refl _
  | unreachable reason =>
    obtain rfl := Option.some.inj h
    exact ⟨rfl, rfl, rfl, rfl, rfl, rfl⟩
  | refused reason redirect =>
    obtain rfl := Option.some.inj h
    exact ⟨rfl, rfl, rfl, rfl, rfl, rfl⟩

theorem maybeProcessSeal_sameRecord {ext : RelayExternals} {d : Directories}
    {st st' : RelaySessionState} (h : (maybeProcessSeal ext d st).session = some st') :
    SameRecord st st' := by
  rcases maybeProcessSeal_cases ext d st with ⟨-, he⟩ | ⟨-, he⟩
  · rw [he] at h
    obtain rfl := Option.some.inj h
    exact SameRecord.refl _
  · rw [he] at h
    obtain ⟨h1, h2, h3, h4, h5, h6⟩ := settleSeal_sameRecord h
    exact ⟨h1, h2, h3, h4, h5, h6⟩

theorem maybeProcessSeal_calls (ext : RelayExternals) (d : Directories) {st : RelaySessionState} :
    (∃ target data, .processSeal target data ∈ (maybeProcessSeal ext d st).out) ↔ AttemptsSeal st := by
  rcases maybeProcessSeal_cases ext d st with ⟨hn, he⟩ | ⟨ha, he⟩
  · simp [he, hn]
  · refine ⟨fun _ => ha, fun _ => ?_⟩
    rw [he]
    exact ⟨(firstCall d).target, sealData ext st, List.mem_map.2 ⟨firstCall d, by simp [sealCalls], rfl⟩⟩

end Cello.Relay
