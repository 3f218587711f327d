import Cello.Directory.Frost.Machine

/-!
# A nonce signs once

A pair of nonces is drawn for an agent, an epoch and a share, and waits in the cache under the key of
the agent and the epoch.  The next pair for the key takes its place, so the one that waits is the
latest (`NonceSound`), and it leaves the cache before it is used, whatever the library then does.
-/

namespace Cello.Directory.Frost

open Lib

variable {Share : Type}

/-- `j` is a later pair than `nonce`, for the same agent and epoch. -/
def Newer (commits : List (Commit Share)) (nonce : ℕ) (agent : AgentKey) (epochId : String)
    (j : ℕ) : Prop :=
  nonce < j ∧ ∃ c, commits[j]? = some c ∧ c.agent = agent ∧ c.epochId = epochId

/-- **A pair of nonces is used at most once**, for what it was drawn for, in time, and while it is the
latest. -/
structure NonceLaw (s : System Share) : Prop where
  once : (s.uses.map Use.nonce).Nodup
  drawn : ∀ u ∈ s.uses, ∃ c, s.commits[u.nonce]? = some c ∧
    c.agent = u.agent ∧ c.epochId = u.epochId ∧ c.share = u.share ∧
    u.now ≤ c.now + pendingNonceTtlMs
  latest : ∀ u ∈ s.uses, u.nonce < u.drawn ∧ u.drawn ≤ s.commits.length ∧
    ∀ j < u.drawn, ¬ Newer s.commits u.nonce u.agent u.epochId j

/-- What a pair in the cache is. -/
structure PendingSound (commits : List (Commit Share)) (uses : List (Use Share)) (key : String)
    (p : PendingNonce Share) : Prop where
  drawn : ∃ c, commits[p.nonce]? = some c ∧ key = storeKey c.agent c.epochId ∧
    p.share = c.share ∧ p.expiresAt = c.now + pendingNonceTtlMs ∧
    ∀ j, ¬ Newer commits p.nonce c.agent c.epochId j
  unused : p.nonce ∉ uses.map Use.nonce

/-- **What holds in every state of a run.** -/
structure NonceSound (s : System Share) : Prop where
  law : NonceLaw s
  pending : ∀ key p, s.handler.pendingNonces.get key = some p →
    PendingSound s.commits s.uses key p

/-! ### Steps without nonces -/

/-- The step calls nothing of the library that a cached pair goes through. -/
structure Quiet (s s' : System Share) : Prop where
  pending : ∀ key p, s'.handler.pendingNonces.get key = some p →
    s.handler.pendingNonces.get key = some p
  commits : s'.commits = s.commits
  uses : s'.uses = s.uses

theorem Quiet.of_eq {s s' : System Share}
    (hpending : s'.handler.pendingNonces = s.handler.pendingNonces)
    (hcommits : s'.commits = s.commits) (huses : s'.uses = s.uses) : Quiet s s' :=
  ⟨fun key p hp => by rwa [hpending] at hp, hcommits, huses⟩

theorem NonceSound.quiet {s s' : System Share} (h : NonceSound s) (hq : Quiet s s') :
    NonceSound s' := by
  obtain ⟨hpending, hcommits, huses⟩ := hq
  refine ⟨⟨?_, ?_, ?_⟩, ?_⟩
  · rw [huses]
    exact h.law.once
  · rw [huses, hcommits]
    exact h.law.drawn
  · rw [huses, hcommits]
    exact h.law.latest
  · rw [huses, hcommits]
    exact fun key p hp => h.pending key p (hpending key p hp)

theorem quiet_startWrite {s : System Share} {call : ℕ} {caller : Caller} {agent : AgentKey}
    {epochId : String} {called : Except Reason Share × Handler Share}
    (hcalled : called.2.pendingNonces = s.handler.pendingNonces) :
    Quiet s (startWrite call caller agent epochId called s).1 := by
  rw [startWrite]
  split
  · exact .of_eq hcalled rfl rfl
  · exact .of_eq hcalled rfl rfl

theorem quiet_settleWrite (s : System Share) (call : ℕ) (w : Write Share) (ok : Bool) :
    Quiet s (settleWrite call w ok s).1 := by
  obtain ⟨caller, agent, epochId, share, landed⟩ := w
  cases caller <;> cases ok <;> exact .of_eq rfl rfl rfl

/-- The action is a call of `generateCommitment` or of `signRawMessage`. -/
def Action.GoesThroughCache : Action Share → Prop
  | .generateCommitment .. => True
  | .signRawMessage .. => True
  | _ => False

theorem quiet_step (s : System Share) (a : Action Share) (ha : ¬ a.GoesThroughCache) :
    Quiet s (step s a) := by
  have hsame : Quiet s s := .of_eq rfl rfl rfl
  cases a with
  | generateCommitment => exact absurd trivial ha
  | signRawMessage => exact absurd trivial ha
  | handleCeremonyRound => exact hsame
  | markInFlight => exact .of_eq rfl rfl rfl
  | clearInFlight => exact .of_eq rfl rfl rfl
  | dkgRound1 => exact .of_eq (dkgRound1_pendingNonces _ _ _ _) rfl rfl
  | dkgRound2 => exact .of_eq (dkgRound2_pendingNonces _ _ _ _) rfl rfl
  | dkgRound3 call round3 agent epochId =>
    rw [step, act]
    split
    · refine quiet_startWrite ?_
      rcases dkgRound3_cases round3 agent epochId s.handler with ⟨_, h | h⟩ | ⟨_, _, h⟩ <;> rw [h]
      rfl
    · exact hsame
  | refreshRound1 => exact hsame
  | refreshRound2 call applyRefresh agent fromEpochId toEpochId =>
    rw [step, act]
    split
    · refine quiet_startWrite ?_
      rcases refreshRound2_cases applyRefresh agent fromEpochId toEpochId s.handler with
        ⟨_, h⟩ | ⟨_, _, _, h⟩ <;> rw [h]
    · exact hsame
  | land call =>
    rw [step, act]
    split
    · split_ifs
      · exact hsame
      · exact .of_eq rfl rfl rfl
    · exact hsame
  | settle call ok =>
    rw [step, act]
    split
    · next w _ =>
      split_ifs
      · exact hsame
      · exact quiet_settleWrite s call w ok
    · exact hsame
  | destroyShares call agent =>
    rw [step, act]
    split
    · exact .of_eq rfl rfl rfl
    · exact hsame
  | zero call =>
    rw [step, act]
    split
    · split_ifs
      · exact hsame
      · exact .of_eq rfl rfl rfl
    · exact hsame
  | finish call =>
    rw [step, act]
    split
    · split_ifs
      · exact .of_eq rfl rfl rfl
      · exact hsame
    · exact hsame
  | restart => exact ⟨fun key p hp => (by cases hp), rfl, rfl⟩

/-! ### Steps with nonces -/

section Draw

variable {s : System Share}

theorem Newer.lt_length {commits : List (Commit Share)} {nonce j : ℕ} {agent : AgentKey}
    {epochId : String} (h : Newer commits nonce agent epochId j) : j < commits.length := by
  obtain ⟨-, c, hc, -⟩ := h
  exact (List.getElem?_eq_some_iff.1 hc).1

theorem newer_append {commits : List (Commit Share)} {c : Commit Share} {nonce j : ℕ}
    {agent : AgentKey} {epochId : String} (hj : j < commits.length) :
    Newer (commits ++ [c]) nonce agent epochId j ↔ Newer commits nonce agent epochId j := by
  rw [Newer, Newer, List.getElem?_append_left hj]

theorem NonceLaw.draw (h : NonceLaw s) (handler : Handler Share) (c : Commit Share) :
    NonceLaw { s with handler := handler, commits := s.commits ++ [c] } where
  once := h.once
  drawn := by
    intro u hu
    obtain ⟨c', hc', hrest⟩ := h.drawn u hu
    refine ⟨c', ?_, hrest⟩
    rw [List.getElem?_append_left (List.getElem?_eq_some_iff.1 hc').1, hc']
  latest := by
    intro u hu
    obtain ⟨hlt, hle, hnewer⟩ := h.latest u hu
    refine ⟨hlt, hle.trans (by simp), fun j hj => ?_⟩
    rw [newer_append (hj.trans_le hle)]
    exact hnewer j hj

theorem PendingSound.draw {commits : List (Commit Share)} {uses : List (Use Share)} {key : String}
    {p : PendingNonce Share} {c : Commit Share} (h : PendingSound commits uses key p)
    (hkey : key ≠ storeKey c.agent c.epochId) : PendingSound (commits ++ [c]) uses key p := by
  obtain ⟨⟨c', hc', hkey', hshare, hexpires, hlatest⟩, hunused⟩ := h
  have hlt := (List.getElem?_eq_some_iff.1 hc').1
  refine ⟨⟨c', by rw [List.getElem?_append_left hlt, hc'], hkey', hshare, hexpires,
    fun j hnewer => ?_⟩, hunused⟩
  rcases Nat.lt_succ_iff_lt_or_eq.1 (by simpa using hnewer.lt_length) with hj | rfl
  · exact hlatest j ((newer_append hj).1 hnewer)
  · obtain ⟨-, c'', hc'', hagent, hepoch⟩ := hnewer
    rw [List.getElem?_concat_length] at hc''
    obtain rfl := Option.some.inj hc''
    exact hkey (by rw [hkey', hagent, hepoch])

theorem nonceSound_generateCommitment (h : NonceSound s) (commits : Share → Bool) (now : ℤ)
    (agent : AgentKey) (epochId : String) :
    NonceSound (step s (.generateCommitment commits now agent epochId)) := by
  have hquiet : ∀ pendingNonces, (∀ key p, pendingNonces.get key = some p →
      s.handler.pendingNonces.get key = some p) →
      NonceSound { s with
        handler := { s.handler with pendingNonces := pendingNonces }
        commits := s.commits ++ [] } :=
    fun pendingNonces hpending => h.quiet ⟨hpending, List.append_nil _, rfl⟩
  rw [step, act, generateCommitment, drawnBy]
  cases hshare : shareToCommit agent epochId s.handler with
  | error reason => exact hquiet s.handler.pendingNonces fun _ _ => id
  | ok share =>
    cases hcommits : commits share with
    | false =>
      simp only [hcommits, Bool.false_eq_true, if_false]
      exact hquiet _ fun key p hp => (get_sweepNonces hp).2
    | true =>
      simp only [hcommits, if_true]
      refine ⟨h.law.draw _ ⟨agent, epochId, share, now⟩, fun key p hp => ?_⟩
      dsimp only at hp
      rw [OrdMap.get_set] at hp
      split_ifs at hp with hkey
      · obtain rfl := Option.some.inj hp
        refine ⟨⟨⟨agent, epochId, share, now⟩, List.getElem?_concat_length, hkey, rfl, rfl,
          fun j hnewer => ?_⟩, fun hused => ?_⟩
        · have hlt := hnewer.lt_length
          have hgt := hnewer.1
          simp at hlt hgt
          omega
        · obtain ⟨u, hu, hnonce⟩ := List.mem_map.1 hused
          obtain ⟨hlt, hle, -⟩ := h.law.latest u hu
          exact absurd (hnonce ▸ hlt.trans_le hle) (lt_irrefl _)
      · exact (h.pending key p (get_sweepNonces hp).2).draw hkey

end Draw

theorem nonceSound_signRawMessage {s : System Share} (h : NonceSound s)
    (signShare : Share → ℕ → Option Bytes) (now : ℤ) (agent : AgentKey)
    (epochId peerIdString : String) :
    NonceSound (step s (.signRawMessage signShare now agent epochId peerIdString)) := by
  rw [step, act, signRawMessage, usedBy]
  rcases takeNonce_cases now agent epochId peerIdString s.handler with
    ⟨reason, pendingNonces, htake, hpending⟩ | ⟨pending, hget, hintime, htake⟩
  · rw [htake]
    exact h.quiet ⟨hpending, rfl, List.append_nil _⟩
  · rw [htake]
    obtain ⟨⟨c, hc, hkey, hshare, hexpires, hlatest⟩, hunused⟩ := h.pending _ pending hget
    obtain ⟨hagent, hepoch⟩ := storeKey_inj.1 hkey
    subst hagent hepoch
    have hlt := (List.getElem?_eq_some_iff.1 hc).1
    refine ⟨⟨?_, ?_, ?_⟩, fun key p hp => ?_⟩
    · dsimp only
      rw [List.map_append, List.map_singleton, ← List.concat_eq_append]
      exact h.law.once.concat hunused
    · intro u hu
      rcases List.mem_append.1 hu with hu | hu
      · exact h.law.drawn u hu
      · rw [List.mem_singleton.1 hu]
        exact ⟨c, hc, rfl, rfl, hshare.symm, hexpires ▸ hintime⟩
    · intro u hu
      rcases List.mem_append.1 hu with hu | hu
      · exact h.law.latest u hu
      · rw [List.mem_singleton.1 hu]
        exact ⟨hlt, le_rfl, fun j _ => hlatest j⟩
    · dsimp only at hp
      rw [OrdMap.get_erase] at hp
      split_ifs at hp with hne
      obtain ⟨hdrawn, hunused'⟩ := h.pending key p hp
      refine ⟨hdrawn, fun hused => ?_⟩
      rw [List.map_append, List.mem_append, List.map_singleton, List.mem_singleton] at hused
      rcases hused with hused | hsame
      · exact hunused' hused
      · -- the same pair would wait under the same key
        obtain ⟨c', hc', hkey', -⟩ := hdrawn
        rw [hsame, hc] at hc'
        obtain rfl := Option.some.inj hc'
        exact hne hkey'

theorem nonceSound_step {s : System Share} (h : NonceSound s) (a : Action Share) :
    NonceSound (step s a) := by
  cases a with
  | generateCommitment commits now agent epochId =>
    exact nonceSound_generateCommitment h commits now agent epochId
  | signRawMessage signShare now agent epochId peerIdString =>
    exact nonceSound_signRawMessage h signShare now agent epochId peerIdString
  | _ => exact h.quiet (quiet_step s _ id)

theorem nonceSound_start (rows : OrdMap (AgentKey × String) (Option Share)) :
    NonceSound (System.start rows) where
  law :=
    { once := List.nodup_nil
      drawn := fun _ hu => absurd hu List.not_mem_nil
      latest := fun _ hu => absurd hu List.not_mem_nil }
  pending _ _ hp := by cases hp

/-- **In every state of every run, no pair of nonces has been used twice, or for anything that it was
not drawn for, or too late.** -/
theorem nonce_signs_once (rows : OrdMap (AgentKey × String) (Option Share))
    (actions : List (Action Share)) (m : ℕ) : NonceLaw (stateAt rows actions m) := by
  have hsound : NonceSound (stateAt rows actions m) :=
    List.foldlRecOn _ _ (nonceSound_start rows) fun _ h a _ => nonceSound_step h a
  exact hsound.law

end Cello.Directory.Frost
