import Cello.Directory.Frost.Handler
import Cello.Lib.GuardedRun

/-!
# The handler at work

The methods of the handler return at once, but for three: `dkgRound3` and `refreshRound2` wait for
their share to be durable, and `destroyShares` for the rows of the agent to be overwritten.  The store
writes its memory first, so other calls see the new share, or none, while they wait; a call goes on
with what it has when the database has answered.  A restart loses what is in memory, and loads the
shares from the rows; a row that does not decrypt is skipped.

A step is a call, an answer of the database, or a restart.  The calls into the crypto library that a
pair of nonces goes through are written down: when the pair was drawn, and when it was used.
-/

namespace Cello.Directory.Frost

open Lib

/-! ### Calls that wait -/

inductive Caller where
  | dkgRound3
  | refreshRound2
deriving DecidableEq, Repr

/-- A call that waits for a share to be durable. -/
structure Write (Share : Type) where
  caller : Caller
  agent : AgentKey
  epochId : String
  share : Share
  landed : Bool
deriving DecidableEq

/-- A call of `destroyShares` that waits. -/
structure Burn where
  agent : AgentKey
  zeroed : Bool

/-! ### The calls of the library -/

/-- `commit`, of `generateCommitment`. -/
structure Commit (Share : Type) where
  agent : AgentKey
  epochId : String
  share : Share
  now : ℤ

/-- `signShare`, of `signRawMessage`; `drawn` pairs of nonces were there. -/
structure Use (Share : Type) where
  nonce : ℕ
  agent : AgentKey
  epochId : String
  share : Share
  now : ℤ
  drawn : ℕ

/-! ### The system -/

/-- The process, `agent_key_shares`, the calls that wait, and what the library was called with. -/
structure System (Share : Type) where
  handler : Handler Share
  rows : OrdMap (AgentKey × String) (Option Share)
  writes : ℕ → Option (Write Share)
  burns : ℕ → Option Burn
  commits : List (Commit Share)
  uses : List (Use Share)

inductive Action (Share : Type) where
  | generateCommitment (commits : Share → Bool) (now : ℤ) (agent : AgentKey) (epochId : String)
  | signRawMessage (signShare : Share → ℕ → Option Bytes) (now : ℤ) (agent : AgentKey)
      (epochId peerIdString : String)
  | handleCeremonyRound (commit : Share → Option ℕ) (signShare : Share → ℕ → Option Bytes)
      (agent : AgentKey) (epochId peerIdString : String)
  | markInFlight (agent : AgentKey) (epochId peerIdString : String)
  | clearInFlight (agent : AgentKey) (epochId : String)
  | dkgRound1 (round1 : Bool) (agent : AgentKey) (epochId : String)
  | dkgRound2 (round2 : Bool) (agent : AgentKey) (epochId : String)
  | dkgRound3 (call : ℕ) (round3 : Option Share) (agent : AgentKey) (epochId : String)
  | refreshRound1 (contribution : Share → Bool) (agent : AgentKey) (fromEpochId : String)
  | refreshRound2 (call : ℕ) (applyRefresh : Share → Except String Share) (agent : AgentKey)
      (fromEpochId toEpochId : String)
  /-- The row of a share is written. -/
  | land (call : ℕ)
  /-- The database has answered a write. -/
  | settle (call : ℕ) (ok : Bool)
  | destroyShares (call : ℕ) (agent : AgentKey)
  /-- The rows of an agent are overwritten. -/
  | zero (call : ℕ)
  /-- The database has answered that they are. -/
  | finish (call : ℕ)
  /-- The process starts again, and these of its rows decrypt. -/
  | restart (decrypts : AgentKey × String → Bool)

inductive Answer where
  /-- No call returns. -/
  | waiting
  /-- The library has thrown. -/
  | thrown
  | failed (reason : Reason)
  | commitment (agent : AgentKey) (epochId : String) (nonce : ℕ)
  | partialSignature (agent : AgentKey) (epochId : String) (signature : Bytes)
  | round (agent : AgentKey) (epochId : String)
  | generated (agent : AgentKey) (epochId : String)
  | refreshed (agent : AgentKey) (toEpochId : String)
  | destroyed (agent : AgentKey)
deriving DecidableEq

section Step

variable {Share : Type}

/-- A process that has just started. -/
def startHandler (rows : OrdMap (AgentKey × String) (Option Share)) : Handler Share where
  shares := rows.entries.foldl
    (fun shares row =>
      match row.2 with
      | some share => storeShare row.1.1 row.1.2 share shares
      | none => shares) OrdMap.empty
  currentEpoch := OrdMap.empty
  pendingNonces := OrdMap.empty
  inFlight := OrdMap.empty
  dkgStates := OrdMap.empty

section StartHandler

variable (rows : OrdMap (AgentKey × String) (Option Share))

@[simp] theorem startHandler_pendingNonces : (startHandler rows).pendingNonces = OrdMap.empty := rfl

@[simp] theorem startHandler_currentEpoch : (startHandler rows).currentEpoch = OrdMap.empty := rfl

@[simp] theorem startHandler_dkgStates : (startHandler rows).dkgStates = OrdMap.empty := rfl

@[simp] theorem startHandler_inFlight : (startHandler rows).inFlight = OrdMap.empty := rfl

end StartHandler

/-- The rows with the shares that `getAllShareBytes` can read. -/
def decryptedRows (decrypts : AgentKey × String → Bool)
    (rows : OrdMap (AgentKey × String) (Option Share)) : OrdMap (AgentKey × String) (Option Share) :=
  rows.mapWithKey fun key share => if decrypts key then share else none

def System.start (rows : OrdMap (AgentKey × String) (Option Share)) : System Share where
  handler := startHandler rows
  rows := rows
  writes _ := none
  burns _ := none
  commits := []
  uses := []

def System.setHandler (s : System Share) (h : Handler Share) : System Share := { s with handler := h }

@[simp] theorem System.setHandler_handler (s : System Share) (h : Handler Share) :
    (s.setHandler h).handler = h := rfl

def answerOf (answer : Answer) : Option (Except Reason Unit) → Answer
  | some (.ok ()) => answer
  | some (.error reason) => .failed reason
  | none => .thrown

def answerSigned (agent : AgentKey) (epochId : String) : Except Reason Bytes → Answer
  | .ok signature => .partialSignature agent epochId signature
  | .error reason => .failed reason

/-- The pair of nonces that `generateCommitment` draws. -/
def drawnBy (commits : Share → Bool) (now : ℤ) (agent : AgentKey) (epochId : String)
    (h : Handler Share) : List (Commit Share) :=
  match shareToCommit agent epochId h with
  | .ok share => if commits share then [⟨agent, epochId, share, now⟩] else []
  | .error _ => []

/-- The pair of nonces that `signRawMessage` signs with. -/
def usedBy (now : ℤ) (agent : AgentKey) (epochId peerIdString : String) (s : System Share) :
    List (Use Share) :=
  match (takeNonce now agent epochId peerIdString s.handler).1 with
  | .ok pending => [⟨pending.nonce, agent, epochId, pending.share, now, s.commits.length⟩]
  | .error _ => []

/-- A share is handed to `storeShareDurable`, which has written its memory. -/
def startWrite (call : ℕ) (caller : Caller) (agent : AgentKey) (epochId : String)
    (called : Except Reason Share × Handler Share) (s : System Share) : System Share × Answer :=
  match called.1 with
  | .error reason => (s.setHandler called.2, .failed reason)
  | .ok share =>
    ({ s with
      handler := called.2
      writes := Function.update s.writes call (some ⟨caller, agent, epochId, share, false⟩) },
      .waiting)

/-- `storeShareDurable` has returned, or thrown. -/
def settleWrite (call : ℕ) (w : Write Share) (ok : Bool) (s : System Share) :
    System Share × Answer :=
  let s := { s with writes := Function.update s.writes call none }
  match w.caller, ok with
  | .dkgRound3, true =>
    (s.setHandler (dkgStored w.agent w.epochId s.handler), .generated w.agent w.epochId)
  | .dkgRound3, false =>
    (s.setHandler (endDkg w.agent w.epochId s.handler), .failed .shareVerificationFailed)
  | .refreshRound2, true =>
    (s.setHandler (refreshStored w.agent w.epochId s.handler), .refreshed w.agent w.epochId)
  | .refreshRound2, false => (s, .failed .internalError)

/-- `UPDATE agent_key_shares SET encrypted_share = '' WHERE agent_id = $1`. -/
def zeroRows (agent : AgentKey) (rows : OrdMap (AgentKey × String) (Option Share)) :
    OrdMap (AgentKey × String) (Option Share) :=
  rows.mapWithKey fun key share => if key.1 = agent then none else share

/-- What happens next, and what a call answers. -/
def act (s : System Share) : Action Share → System Share × Answer
  | .generateCommitment commits now agent epochId =>
    let called := generateCommitment
      (fun share => if commits share then some s.commits.length else none) now agent epochId s.handler
    ({ s with
      handler := called.2
      commits := s.commits ++ drawnBy commits now agent epochId s.handler },
      match called.1 with
      | .ok nonce => .commitment agent epochId nonce
      | .error reason => .failed reason)
  | .signRawMessage signShare now agent epochId peerIdString =>
    let called := signRawMessage signShare now agent epochId peerIdString s.handler
    ({ s with
      handler := called.2
      uses := s.uses ++ usedBy now agent epochId peerIdString s },
      answerSigned agent epochId called.1)
  | .handleCeremonyRound commit signShare agent epochId peerIdString =>
    (s, ((handleCeremonyRound commit signShare agent epochId peerIdString s.handler).map
      (answerSigned agent epochId)).getD .thrown)
  | .markInFlight agent epochId peerIdString =>
    (s.setHandler (markInFlight agent epochId peerIdString s.handler), .waiting)
  | .clearInFlight agent epochId =>
    (s.setHandler (clearInFlight agent epochId s.handler), .waiting)
  | .dkgRound1 round1 agent epochId =>
    let called := dkgRound1 round1 agent epochId s.handler
    (s.setHandler called.2, answerOf (.round agent epochId) called.1)
  | .dkgRound2 round2 agent epochId =>
    let called := dkgRound2 round2 agent epochId s.handler
    (s.setHandler called.2, answerOf (.round agent epochId) called.1)
  | .dkgRound3 call round3 agent epochId =>
    match s.writes call with
    | none =>
      startWrite call .dkgRound3 agent epochId (dkgRound3 round3 agent epochId s.handler) s
    | some _ => (s, .waiting)
  | .refreshRound1 contribution agent fromEpochId =>
    (s, answerOf (.round agent fromEpochId)
      (some (refreshRound1 contribution agent fromEpochId s.handler)))
  | .refreshRound2 call applyRefresh agent fromEpochId toEpochId =>
    match s.writes call with
    | none =>
      startWrite call .refreshRound2 agent toEpochId
        (refreshRound2 applyRefresh agent fromEpochId toEpochId s.handler) s
    | some _ => (s, .waiting)
  | .land call =>
    match s.writes call with
    | some w =>
      if w.landed then (s, .waiting)
      else
        ({ s with
          rows := s.rows.set (w.agent, w.epochId) (some w.share)
          writes := Function.update s.writes call (some { w with landed := true }) }, .waiting)
    | none => (s, .waiting)
  | .settle call ok =>
    match s.writes call with
    | some w =>
      -- a write is only confirmed when it is there; it can be there and not be confirmed
      if ok && !w.landed then (s, .waiting) else settleWrite call w ok s
    | none => (s, .waiting)
  | .destroyShares call agent =>
    match s.burns call with
    | none =>
      ({ s with
        handler := { s.handler with shares := dropShares agent s.handler.shares }
        burns := Function.update s.burns call (some ⟨agent, false⟩) }, .waiting)
    | some _ => (s, .waiting)
  | .zero call =>
    match s.burns call with
    | some burn =>
      if burn.zeroed then (s, .waiting)
      else
        ({ s with
          rows := zeroRows burn.agent s.rows
          burns := Function.update s.burns call (some { burn with zeroed := true }) }, .waiting)
    | none => (s, .waiting)
  | .finish call =>
    match s.burns call with
    | some burn =>
      if burn.zeroed then
        ({ s with burns := Function.update s.burns call none }, .destroyed burn.agent)
      else (s, .waiting)
    | none => (s, .waiting)
  | .restart decrypts =>
    ({ s with
      handler := startHandler (decryptedRows decrypts s.rows)
      writes := fun _ => none
      burns := fun _ => none }, .waiting)

def step (s : System Share) (a : Action Share) : System Share := (act s a).1

/-- The state after the first steps of a run. -/
def stateAt (rows : OrdMap (AgentKey × String) (Option Share)) (actions : List (Action Share))
    (m : ℕ) : System Share :=
  (actions.take m).foldl step (.start rows)

def answerAt (rows : OrdMap (AgentKey × String) (Option Share)) (actions : List (Action Share))
    (m : ℕ) : Answer :=
  (actions[m]?.map fun a => (act (stateAt rows actions m) a).2).getD .waiting

theorem stateAt_succ {rows : OrdMap (AgentKey × String) (Option Share)}
    {actions : List (Action Share)} {m : ℕ} {a : Action Share} (ha : actions[m]? = some a) :
    stateAt rows actions (m + 1) = step (stateAt rows actions m) a :=
  foldl_take_succ ha _

theorem stateAt_of_end {rows : OrdMap (AgentKey × String) (Option Share)}
    {actions : List (Action Share)} {m : ℕ} (ha : actions[m]? = none) :
    stateAt rows actions (m + 1) = stateAt rows actions m := by
  rw [stateAt, stateAt, List.take_add_one, ha, Option.toList_none, List.append_nil]

theorem answerAt_cases {rows : OrdMap (AgentKey × String) (Option Share)}
    {actions : List (Action Share)} {m : ℕ} {answer : Answer}
    (h : answerAt rows actions m = answer) (hne : answer ≠ .waiting) :
    ∃ a, actions[m]? = some a ∧ (act (stateAt rows actions m) a).2 = answer := by
  rw [answerAt] at h
  cases ha : actions[m]? with
  | none =>
    rw [ha] at h
    exact absurd h.symm hne
  | some a =>
    rw [ha] at h
    exact ⟨a, rfl, h⟩

/-! ### What is answered -/

section Answers

variable {s : System Share} {agent : AgentKey} {epochId : String} {signature : Bytes}

def Answer.IsResult : Answer → Prop
  | .partialSignature .. => True
  | .refreshed .. => True
  | .destroyed .. => True
  | _ => False

/-- The action can be answered with a result. -/
def Action.HasResult : Action Share → Prop
  | .signRawMessage .. => True
  | .handleCeremonyRound .. => True
  | .settle .. => True
  | .finish .. => True
  | _ => False

theorem not_isResult_answerOf (agent : AgentKey) (epochId : String)
    (r : Option (Except Reason Unit)) : ¬ (answerOf (.round agent epochId) r).IsResult := by
  unfold answerOf
  split <;> exact id

theorem not_isResult_startWrite (s : System Share) (call : ℕ) (caller : Caller) (agent : AgentKey)
    (epochId : String) (called : Except Reason Share × Handler Share) :
    ¬ (startWrite call caller agent epochId called s).2.IsResult := by
  rw [startWrite]
  split <;> exact id

theorem not_isResult (s : System Share) (a : Action Share) (ha : ¬ a.HasResult) :
    ¬ (act s a).2.IsResult := by
  cases a with
  | signRawMessage => exact absurd trivial ha
  | handleCeremonyRound => exact absurd trivial ha
  | settle => exact absurd trivial ha
  | finish => exact absurd trivial ha
  | generateCommitment commits now agent epochId =>
    rw [act]
    dsimp only
    split <;> exact id
  | markInFlight => exact id
  | clearInFlight => exact id
  | dkgRound1 => exact not_isResult_answerOf _ _ _
  | dkgRound2 => exact not_isResult_answerOf _ _ _
  | dkgRound3 =>
    rw [act]
    split
    · exact not_isResult_startWrite _ _ _ _ _ _
    · exact id
  | refreshRound1 => exact not_isResult_answerOf _ _ _
  | refreshRound2 =>
    rw [act]
    split
    · exact not_isResult_startWrite _ _ _ _ _ _
    · exact id
  | land =>
    rw [act]
    split
    · split_ifs <;> exact id
    · exact id
  | destroyShares =>
    rw [act]
    split <;> exact id
  | zero =>
    rw [act]
    split
    · split_ifs <;> exact id
    · exact id
  | restart => exact id

theorem answerSigned_eq {agent' : AgentKey} {epochId' : String} {r : Except Reason Bytes}
    {answer : Answer} (hresult : answer.IsResult) (hanswer : answerSigned agent' epochId' r = answer) :
    ∃ signature, r = .ok signature ∧ answer = .partialSignature agent' epochId' signature := by
  subst hanswer
  cases r with
  | ok signature => exact ⟨signature, rfl, rfl⟩
  | error => exact hresult.elim

/-- `signRawMessage` comes to a pair of nonces that it may use. -/
def FindsNonce (now : ℤ) (agent : AgentKey) (epochId peerIdString : String) (h : Handler Share) : Prop :=
  conflicts agent epochId peerIdString h = false ∧
    ∃ pending, h.pendingNonces.get (storeKey agent epochId) = some pending ∧ now ≤ pending.expiresAt

/-- `handleCeremonyRound` comes to a share. -/
def FindsShare (agent : AgentKey) (epochId peerIdString : String) (h : Handler Share) : Prop :=
  conflicts agent epochId peerIdString h = false ∧
    ∃ share, getShare agent epochId h.shares = some share

theorem signRawMessage_ok {signShare : Share → ℕ → Option Bytes} {now : ℤ} {peerIdString : String}
    {h : Handler Share}
    (hok : (signRawMessage signShare now agent epochId peerIdString h).1 = .ok signature) :
    FindsNonce now agent epochId peerIdString h := by
  by_cases hconflict : conflicts agent epochId peerIdString h = true
  · rw [signRawMessage, takeNonce, if_pos hconflict] at hok
    cases hok
  rw [signRawMessage] at hok
  rcases takeNonce_cases now agent epochId peerIdString h with
    ⟨_, _, htake, -⟩ | ⟨pending, hget, hvalid, -⟩
  · rw [htake] at hok
    cases hok
  · exact ⟨by simpa using hconflict, pending, hget, hvalid⟩

theorem handleCeremonyRound_ok {commit : Share → Option ℕ} {signShare : Share → ℕ → Option Bytes}
    {peerIdString : String} {h : Handler Share}
    (hok : handleCeremonyRound commit signShare agent epochId peerIdString h = some (.ok signature)) :
    FindsShare agent epochId peerIdString h := by
  by_cases hconflict : conflicts agent epochId peerIdString h = true
  · rw [handleCeremonyRound, if_pos hconflict] at hok
    cases hok
  refine ⟨by simpa using hconflict, ?_⟩
  cases hshare : getShare agent epochId h.shares with
  | some share => exact ⟨share, rfl⟩
  | none =>
    rw [handleCeremonyRound, hshare] at hok
    split_ifs at hok <;> cases hok

/-- **Where a result comes from.** -/
theorem result_cases (a : Action Share) (hresult : (act s a).2.IsResult) :
    (∃ signShare now agent epochId peerIdString signature,
      a = .signRawMessage signShare now agent epochId peerIdString ∧
        (act s a).2 = .partialSignature agent epochId signature ∧
        FindsNonce now agent epochId peerIdString s.handler) ∨
    (∃ commit signShare agent epochId peerIdString signature,
      a = .handleCeremonyRound commit signShare agent epochId peerIdString ∧
        (act s a).2 = .partialSignature agent epochId signature ∧
        FindsShare agent epochId peerIdString s.handler) ∨
    (∃ call w, a = .settle call true ∧ s.writes call = some w ∧ w.landed = true ∧
      w.caller = .refreshRound2 ∧ act s a = settleWrite call w true s) ∨
    ∃ call burn, a = .finish call ∧ s.burns call = some burn ∧ burn.zeroed = true ∧
      act s a = ({ s with burns := Function.update s.burns call none }, .destroyed burn.agent) := by
  cases a with
  | signRawMessage signShare now agent epochId peerIdString =>
    obtain ⟨signature, hok, hanswer⟩ := answerSigned_eq hresult rfl
    exact Or.inl ⟨signShare, now, agent, epochId, peerIdString, signature, rfl, hanswer,
      signRawMessage_ok hok⟩
  | handleCeremonyRound commit signShare agent epochId peerIdString =>
    rw [act] at hresult
    cases hround : handleCeremonyRound commit signShare agent epochId peerIdString s.handler with
    | none =>
      rw [hround] at hresult
      exact hresult.elim
    | some r =>
      rw [hround] at hresult
      obtain ⟨signature, rfl, hanswer⟩ := answerSigned_eq hresult rfl
      refine Or.inr (Or.inl ⟨commit, signShare, agent, epochId, peerIdString, signature, rfl, ?_,
        handleCeremonyRound_ok hround⟩)
      rw [act, hround]
      rfl
  | settle call ok =>
    rw [act] at hresult ⊢
    cases hw : s.writes call with
    | none =>
      rw [hw] at hresult
      exact hresult.elim
    | some w =>
      rw [hw] at hresult
      dsimp only at hresult ⊢
      split_ifs at hresult ⊢ with hlanded
      · exact hresult.elim
      · obtain ⟨caller, agent, epochId, share, landed⟩ := w
        cases caller <;> cases ok
        · exact hresult.elim
        · exact hresult.elim
        · exact hresult.elim
        · exact Or.inr (Or.inr (Or.inl ⟨call, _, rfl, hw, by simpa using hlanded, rfl, rfl⟩))
  | finish call =>
    rw [act] at hresult ⊢
    cases hburn : s.burns call with
    | none =>
      rw [hburn] at hresult
      exact hresult.elim
    | some burn =>
      rw [hburn] at hresult
      dsimp only at hresult ⊢
      split_ifs at hresult ⊢ with hzeroed
      · exact Or.inr (Or.inr (Or.inr ⟨call, burn, rfl, hburn, hzeroed, rfl⟩))
      · exact hresult.elim
  | _ => exact absurd hresult (not_isResult s _ id)

theorem signed_cases {a : Action Share}
    (hanswer : (act s a).2 = .partialSignature agent epochId signature) :
    (∃ signShare now peerIdString, a = .signRawMessage signShare now agent epochId peerIdString ∧
        FindsNonce now agent epochId peerIdString s.handler) ∨
      ∃ commit signShare peerIdString,
        a = .handleCeremonyRound commit signShare agent epochId peerIdString ∧
          FindsShare agent epochId peerIdString s.handler := by
  have hresult : (act s a).2.IsResult := by
    rw [hanswer]
    trivial
  rcases result_cases a hresult with ⟨signShare, now, _, _, peer, _, ha, hsigned, hfound⟩ |
    ⟨commit, signShare, _, _, peer, _, ha, hsigned, hfound⟩ | ⟨_, w, -, -, -, hcaller, hact⟩ |
    ⟨_, _, -, -, -, hact⟩
  · obtain ⟨rfl, rfl, -⟩ := Answer.partialSignature.inj (hanswer.symm.trans hsigned)
    exact Or.inl ⟨signShare, now, peer, ha, hfound⟩
  · obtain ⟨rfl, rfl, -⟩ := Answer.partialSignature.inj (hanswer.symm.trans hsigned)
    exact Or.inr ⟨commit, signShare, peer, ha, hfound⟩
  · obtain ⟨caller, agent', epochId', share, landed⟩ := w
    obtain rfl : caller = .refreshRound2 := hcaller
    rw [hact] at hanswer
    cases hanswer
  · rw [hact] at hanswer
    cases hanswer

theorem refreshed_cases {a : Action Share} (hanswer : (act s a).2 = .refreshed agent epochId) :
    ∃ call share, a = .settle call true ∧
      s.writes call = some ⟨.refreshRound2, agent, epochId, share, true⟩ ∧
      step s a = (settleWrite call ⟨.refreshRound2, agent, epochId, share, true⟩ true s).1 := by
  have hresult : (act s a).2.IsResult := by
    rw [hanswer]
    trivial
  rcases result_cases a hresult with ⟨_, _, _, _, _, _, -, hother, -⟩ |
    ⟨_, _, _, _, _, _, -, hother, -⟩ | ⟨call, w, ha, hw, hlanded, hcaller, hact⟩ |
    ⟨_, _, -, -, -, hact⟩
  · cases hanswer.symm.trans hother
  · cases hanswer.symm.trans hother
  · obtain ⟨caller, agent', epochId', share, landed⟩ := w
    obtain rfl : caller = .refreshRound2 := hcaller
    obtain rfl : landed = true := hlanded
    rw [hact] at hanswer
    obtain ⟨rfl, rfl⟩ := Answer.refreshed.inj hanswer
    exact ⟨call, share, ha, hw, by rw [step, hact]⟩
  · rw [hact] at hanswer
    cases hanswer

theorem destroyed_cases {a : Action Share} (hanswer : (act s a).2 = .destroyed agent) :
    ∃ call, a = .finish call ∧ s.burns call = some ⟨agent, true⟩ ∧
      step s a = { s with burns := Function.update s.burns call none } := by
  have hresult : (act s a).2.IsResult := by
    rw [hanswer]
    trivial
  rcases result_cases a hresult with ⟨_, _, _, _, _, _, -, hother, -⟩ |
    ⟨_, _, _, _, _, _, -, hother, -⟩ | ⟨_, w, -, -, -, hcaller, hact⟩ |
    ⟨call, burn, ha, hburn, hzeroed, hact⟩
  · cases hanswer.symm.trans hother
  · cases hanswer.symm.trans hother
  · obtain ⟨caller, agent', epochId', share, landed⟩ := w
    obtain rfl : caller = .refreshRound2 := hcaller
    rw [hact] at hanswer
    cases hanswer
  · obtain ⟨agent', zeroed⟩ := burn
    obtain rfl : zeroed = true := hzeroed
    rw [hact] at hanswer
    obtain rfl := Answer.destroyed.inj hanswer
    exact ⟨call, ha, hburn, by rw [step, hact]⟩

end Answers

/-! ### Where a burn comes from -/

/-- The action changes the calls of `destroyShares` that wait. -/
def Action.ChangesBurns : Action Share → Prop
  | .destroyShares .. => True
  | .zero .. => True
  | .finish .. => True
  | .restart _ => True
  | _ => False

theorem burns_step (s : System Share) (a : Action Share) (ha : ¬ a.ChangesBurns) :
    (step s a).burns = s.burns := by
  have hstart : ∀ (call : ℕ) (caller : Caller) (agent : AgentKey) (epochId : String)
      (called : Except Reason Share × Handler Share),
      (startWrite call caller agent epochId called s).1.burns = s.burns := by
    intro call caller agent epochId called
    rw [startWrite]
    split <;> rfl
  cases a with
  | destroyShares => exact absurd trivial ha
  | zero => exact absurd trivial ha
  | finish => exact absurd trivial ha
  | restart => exact absurd trivial ha
  | dkgRound3 =>
    rw [step, act]
    split
    · exact hstart _ _ _ _ _
    · rfl
  | refreshRound2 =>
    rw [step, act]
    split
    · exact hstart _ _ _ _ _
    · rfl
  | land =>
    rw [step, act]
    split
    · split_ifs <;> rfl
    · rfl
  | settle call ok =>
    rw [step, act]
    split
    · next w _ =>
      split_ifs
      · rfl
      · obtain ⟨caller, agent, epochId, share, landed⟩ := w
        cases caller <;> cases ok <;> rfl
    · rfl
  | _ => rfl

theorem burns_cases {s : System Share} {a : Action Share} {call : ℕ} {burn : Burn}
    (hburn : (step s a).burns call = some burn) :
    s.burns call = some burn ∨
    (∃ agent, a = .destroyShares call agent ∧ burn = ⟨agent, false⟩ ∧
      (step s a).handler.shares = dropShares agent s.handler.shares) ∨
    ∃ agent, a = .zero call ∧ s.burns call = some ⟨agent, false⟩ ∧ burn = ⟨agent, true⟩ ∧
      step s a = { s with
        rows := zeroRows agent s.rows
        burns := Function.update s.burns call (some ⟨agent, true⟩) } := by
  by_cases hsame : (step s a).burns = s.burns
  · exact Or.inl (hsame ▸ hburn)
  cases a with
  | destroyShares call' agent =>
    rw [step, act] at hburn hsame ⊢
    cases hfree : s.burns call' with
    | some _ =>
      rw [hfree] at hsame
      exact absurd rfl hsame
    | none =>
      rw [hfree] at hburn
      dsimp only at hburn ⊢
      by_cases hcall : call = call'
      · subst hcall
        rw [Function.update_self] at hburn
        exact Or.inr (Or.inl ⟨agent, rfl, (Option.some.inj hburn).symm, rfl⟩)
      · rw [Function.update_of_ne hcall] at hburn
        exact Or.inl hburn
  | zero call' =>
    rw [step, act] at hburn hsame ⊢
    cases hold : s.burns call' with
    | none =>
      rw [hold] at hsame
      exact absurd rfl hsame
    | some old =>
      rw [hold] at hburn hsame
      dsimp only at hburn hsame ⊢
      split_ifs at hburn hsame ⊢ with hzeroed
      · exact absurd rfl hsame
      · obtain ⟨agent, zeroed⟩ := old
        obtain rfl : zeroed = false := by simpa using hzeroed
        by_cases hcall : call = call'
        · subst hcall
          dsimp only at hburn
          rw [Function.update_self] at hburn
          exact Or.inr (Or.inr ⟨agent, rfl, hold, (Option.some.inj hburn).symm, rfl⟩)
        · dsimp only at hburn
          rw [Function.update_of_ne hcall] at hburn
          exact Or.inl hburn
  | finish call' =>
    rw [step, act] at hburn hsame
    cases hold : s.burns call' with
    | none =>
      rw [hold] at hsame
      exact absurd rfl hsame
    | some old =>
      rw [hold] at hburn hsame
      dsimp only at hburn hsame
      split_ifs at hburn hsame
      · dsimp only at hburn
        by_cases hcall : call = call'
        · subst hcall
          rw [Function.update_self] at hburn
          cases hburn
        · rw [Function.update_of_ne hcall] at hburn
          exact Or.inl hburn
      · exact absurd rfl hsame
  | restart => cases hburn
  | _ => exact absurd (burns_step s _ id) hsame

/-! ### What a restart loads -/

theorem getShare_load {agent : AgentKey} {epochId : String} {share : Share} :
    ∀ {rows : List ((AgentKey × String) × Option Share)} {shares : OrdMap String Share},
      (rows.map Prod.fst).Nodup →
      (getShare agent epochId (rows.foldl
          (fun shares row =>
            match row.2 with
            | some share => storeShare row.1.1 row.1.2 share shares
            | none => shares) shares) = some share ↔
        ((agent, epochId), some share) ∈ rows ∨
          ((∀ share, ((agent, epochId), some share) ∉ rows) ∧
            getShare agent epochId shares = some share)) := by
  intro rows
  induction rows with
  | nil => simp
  | cons row rest ih =>
    intro shares hnodup
    obtain ⟨⟨agent', epochId'⟩, loaded⟩ := row
    obtain ⟨hfresh, hrest⟩ := List.nodup_cons.1 hnodup
    rw [List.foldl_cons, ih hrest]
    cases loaded with
    | none => simp
    | some loaded =>
      by_cases hkey : agent = agent' ∧ epochId = epochId'
      · obtain ⟨rfl, rfl⟩ := hkey
        have habsent : ∀ share, ((agent, epochId), some share) ∉ rest := fun share hmem =>
          hfresh (List.mem_map.2 ⟨_, hmem, rfl⟩)
        simp [habsent, eq_comm]
      · have hne : ∀ share, ((agent, epochId), some share) ≠ ((agent', epochId'), some loaded) :=
          fun share heq => hkey (by simpa using (Prod.mk.inj heq).1)
        simp [getShare_storeShare_of_ne _ _ hkey, hne]

theorem getShare_startHandler {agent : AgentKey} {epochId : String} {share : Share}
    {rows : OrdMap (AgentKey × String) (Option Share)} :
    getShare agent epochId (startHandler rows).shares = some share ↔
      rows.get (agent, epochId) = some (some share) := by
  rw [startHandler, getShare_load rows.nodup, ← OrdMap.get_eq_some_iff]
  simp [getShare, OrdMap.empty, OrdMap.get, OrdMap.getList]

theorem getShare_restarted {agent : AgentKey} {epochId : String} {share : Share}
    {rows : OrdMap (AgentKey × String) (Option Share)} {decrypts : AgentKey × String → Bool} :
    getShare agent epochId (startHandler (decryptedRows decrypts rows)).shares = some share ↔
      rows.get (agent, epochId) = some (some share) ∧ decrypts (agent, epochId) = true := by
  rw [getShare_startHandler, decryptedRows, OrdMap.get_mapWithKey]
  cases rows.get (agent, epochId) with
  | none => simp
  | some loaded =>
    rw [Option.map_some, Option.some_inj, Option.some_inj]
    split_ifs with hread
    · simp [hread]
    · simp [hread]

end Step

/-! ### An agent with a share -/

namespace Sample

section OneShare

variable (agent : AgentKey) (epochId toEpochId : String)

/-- The rows of a node that holds one share. -/
def rows : OrdMap (AgentKey × String) (Option ℕ) := OrdMap.empty.set (agent, epochId) (some 7)

/-- A refresh of the share, up to its durable write. -/
def refresh : Action ℕ :=
  .refreshRound2 0 (fun share => .ok (share + 1)) agent epochId toEpochId

theorem start_shares :
    (startHandler (rows agent epochId)).shares = storeShare agent epochId 7 OrdMap.empty := rfl

@[simp] theorem getShare_start :
    getShare agent epochId (startHandler (rows agent epochId)).shares = some 7 := by
  rw [getShare_startHandler, rows, OrdMap.get_set, if_pos rfl]

theorem holds_start {m : EpochNumber} :
    Holds agent (startHandler (rows agent epochId)).shares.keys m ↔
      keyEpoch (storeKey agent epochId) = some m := by
  rw [start_shares, holds_storeShare]
  simp [Holds, OrdMap.keys, OrdMap.empty]

theorem not_expired_start :
    isExpiredEpoch agent epochId (startHandler (rows agent epochId)) = false := by
  rw [Bool.eq_false_iff, Ne, isExpiredEpoch_iff_holds rfl]
  rintro ⟨n, hn, m, hm, hlt⟩
  rw [holds_start, keyEpoch_storeKey hn] at hm
  exact hlt.ne (Option.some.inj hm)

end OneShare

def agent : AgentKey where
  text := "8f14e45fceea167a5a36dedd4bea2543a3c65c2c8f6b7d4e1f0a9b8c7d6e5f40"
  noColon := by decide

def firstEpoch : String := "8f14e45fceea167a5a36dedd4bea2543a3c65c2c8f6b7d4e1f0a9b8c7d6e5f40:epoch:1"

def secondEpoch : String := "8f14e45fceea167a5a36dedd4bea2543a3c65c2c8f6b7d4e1f0a9b8c7d6e5f40:epoch:2"

theorem parse_firstEpoch : parseEpochN firstEpoch = some 1 := by decide +kernel

theorem parse_secondEpoch : parseEpochN secondEpoch = some 2 := by decide +kernel

theorem firstEpoch_ne : firstEpoch ≠ secondEpoch := by
  intro h
  have hparse := parse_firstEpoch
  rw [h, parse_secondEpoch] at hparse
  revert hparse
  decide

end Sample

end Cello.Directory.Frost
