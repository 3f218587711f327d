import Cello.Directory.Frost.Machine

/-!
# A durable write that fails

`dkgRound3` and `refreshRound2` answer `ok: false` when their share cannot be made durable, and leave
the counter as it is.  The store has put the share in its memory before, and there it stays: requests
for its epoch are served with it, and where the counter is not set, after a restart, the epochs below
have expired.  What `generateCommitment` answers is the same only if the very share was there before,
or its epoch has expired (`failed_write_unchanged_iff`).
-/

namespace Cello.Directory.Frost

open Lib

variable {Share : Type}

/-! ### What commitments are given -/

/-- `generateCommitment` succeeds, with nonces for this share. -/
def CommitsWith (commit : Share → Option ℕ) (now : ℤ) (agent : AgentKey) (epochId : String)
    (share : Share) (h : Handler Share) : Prop :=
  shareToCommit agent epochId h = .ok share ∧
    ∃ nonce, (generateCommitment commit now agent epochId h).1 = .ok nonce

/-- Commitments are given for the same agents and epochs, with the same shares, whatever the library
draws. -/
def SameCommitments (h h' : Handler Share) : Prop :=
  ∀ commit now agent epochId share,
    CommitsWith commit now agent epochId share h ↔ CommitsWith commit now agent epochId share h'

/-- A call hands a share to the store, and the durable write fails, or its answer is lost. -/
def FailedCall (s : System Share) (w : Write Share) (s' : System Share) : Prop :=
  ∃ call, s.writes call = none ∧ ∃ started : System Share,
    ((∃ round3 agent epochId, started = step s (.dkgRound3 call round3 agent epochId)) ∨
      ∃ applyRefresh agent fromEpochId toEpochId,
        started = step s (.refreshRound2 call applyRefresh agent fromEpochId toEpochId)) ∧
    started.writes call = some w ∧
    (s' = step started (.settle call false) ∨
      s' = step (step started (.land call)) (.settle call false))

theorem commitsWith_iff {commit : Share → Option ℕ} {now : ℤ} {agent : AgentKey} {epochId : String}
    {share : Share} {h : Handler Share} :
    CommitsWith commit now agent epochId share h ↔
      shareToCommit agent epochId h = .ok share ∧ ∃ nonce, commit share = some nonce := by
  rw [CommitsWith, and_congr_right_iff]
  intro hshare
  rw [generateCommitment, hshare]
  dsimp only
  cases commit share with
  | none => simp
  | some nonce => simp

theorem sameCommitments_iff {h h' : Handler Share} :
    SameCommitments h h' ↔ ∀ agent epochId share,
      shareToCommit agent epochId h = .ok share ↔ shareToCommit agent epochId h' = .ok share := by
  constructor
  · intro hsame agent epochId share
    have hdrawn := hsame (fun _ => some 0) 0 agent epochId share
    simpa only [commitsWith_iff, Option.some.injEq, exists_eq', and_true] using hdrawn
  · intro hsame commit now agent epochId share
    rw [commitsWith_iff, commitsWith_iff, hsame]

/-! ### The store after the call -/

section Stored

variable {h h' : Handler Share} {agent : AgentKey} {epochId : String} {share : Share}

/-- The handler has a share more, or another one, and nothing else that a commitment depends on. -/
structure Stored (h h' : Handler Share) (agent : AgentKey) (epochId : String) (share : Share) :
    Prop where
  shares : h'.shares = storeShare agent epochId share h.shares
  currentEpoch : h'.currentEpoch = h.currentEpoch

theorem Stored.isExpiredEpoch_of_counter (hs : Stored h h' agent epochId share) {agent' : AgentKey}
    {m : EpochNumber} (hcounter : h.currentEpoch.get agent' = some m) (epochId' : String) :
    isExpiredEpoch agent' epochId' h' = isExpiredEpoch agent' epochId' h := by
  have hcounter' : h'.currentEpoch.get agent' = some m := by rw [hs.currentEpoch, hcounter]
  rw [isExpiredEpoch, isExpiredEpoch, currentN, currentN, hcounter, hcounter']
  rfl

theorem Stored.isExpiredEpoch_iff (hs : Stored h h' agent epochId share) {agent' : AgentKey}
    (hcounter : h.currentEpoch.get agent' = none) {epochId' : String} :
    isExpiredEpoch agent' epochId' h' = true ↔
      (agent' = agent ∧ ∃ n m, parseEpochN epochId' = some n ∧
        keyEpoch (storeKey agent epochId) = some m ∧ n < m) ∨
      isExpiredEpoch agent' epochId' h = true := by
  have hcounter' : h'.currentEpoch.get agent' = none := by rw [hs.currentEpoch, hcounter]
  rw [isExpiredEpoch_iff_holds hcounter, isExpiredEpoch_iff_holds hcounter', hs.shares]
  simp only [holds_storeShare]
  constructor
  · rintro ⟨n, hn, m, ⟨hagent, hm⟩ | hm, hlt⟩
    · exact Or.inl ⟨hagent, n, m, hn, hm, hlt⟩
    · exact Or.inr ⟨n, hn, m, hm, hlt⟩
  · rintro (⟨hagent, n, m, hn, hm, hlt⟩ | ⟨n, hn, m, hm, hlt⟩)
    · exact ⟨n, hn, m, Or.inl ⟨hagent, hm⟩, hlt⟩
    · exact ⟨n, hn, m, Or.inr hm, hlt⟩

theorem Stored.isExpiredEpoch_self (hs : Stored h h' agent epochId share) :
    isExpiredEpoch agent epochId h' = isExpiredEpoch agent epochId h := by
  cases hcounter : h.currentEpoch.get agent with
  | some m => exact hs.isExpiredEpoch_of_counter hcounter epochId
  | none =>
    rw [Bool.eq_iff_iff, hs.isExpiredEpoch_iff hcounter, or_iff_right_iff_imp]
    rintro ⟨-, n, m, hn, hm, hlt⟩
    rw [keyEpoch_storeKey hn] at hm
    exact absurd (Option.some.inj hm) hlt.ne

theorem Stored.isExpiredEpoch_eq (hs : Stored h h' agent epochId share)
    (hold : getShare agent epochId h.shares = some share ∨ isExpiredEpoch agent epochId h = true)
    (agent' : AgentKey) (epochId' : String) :
    isExpiredEpoch agent' epochId' h' = isExpiredEpoch agent' epochId' h := by
  cases hcounter : h.currentEpoch.get agent' with
  | some m => exact hs.isExpiredEpoch_of_counter hcounter epochId'
  | none =>
    rw [Bool.eq_iff_iff, hs.isExpiredEpoch_iff hcounter, or_iff_right_iff_imp]
    rintro ⟨rfl, n, m, hn, hm, hlt⟩
    rw [isExpiredEpoch_iff_holds hcounter]
    rcases hold with hheld | hexpired
    · exact ⟨n, hn, m, holds_of_getShare hheld hm, hlt⟩
    · -- a later epoch was there already
      obtain ⟨k, hk, later, hlater, hklt⟩ := (isExpiredEpoch_iff_holds hcounter).1 hexpired
      rw [keyEpoch_storeKey hk] at hm
      obtain rfl := Option.some.inj hm
      exact ⟨n, hn, later, hlater, hlt.trans hklt⟩

theorem Stored.sameCommitments_iff (hs : Stored h h' agent epochId share) :
    SameCommitments h h' ↔ getShare agent epochId h.shares = some share ∨
      isExpiredEpoch agent epochId h = true := by
  rw [Frost.sameCommitments_iff]
  constructor
  · intro hsame
    cases hexpired : isExpiredEpoch agent epochId h with
    | true => exact Or.inr rfl
    | false =>
      have hafter : shareToCommit agent epochId h' = .ok share := by
        rw [shareToCommit_eq_ok, hs.isExpiredEpoch_self, hs.shares, getShare_storeShare]
        exact ⟨hexpired, rfl⟩
      exact Or.inl (shareToCommit_eq_ok.1 ((hsame agent epochId share).2 hafter)).2
  · intro hold agent' epochId' share'
    rw [shareToCommit_eq_ok, shareToCommit_eq_ok, hs.isExpiredEpoch_eq hold, hs.shares]
    refine and_congr_right fun hvalid => ?_
    by_cases hkey : agent' = agent ∧ epochId' = epochId
    · obtain ⟨rfl, rfl⟩ := hkey
      rcases hold with hheld | hexpired
      · rw [hheld, getShare_storeShare]
      · rw [hexpired] at hvalid
        cases hvalid
    · rw [getShare_storeShare_of_ne _ _ hkey]

end Stored

/-! ### The call -/

section Call

variable {s : System Share} {call : ℕ} {w : Write Share}

theorem stored_of_start {caller : Caller} {agent : AgentKey} {epochId : String}
    {called : Except Reason Share × Handler Share} (hfree : s.writes call = none)
    (hcalled : ∀ share, called.1 = .ok share → Stored s.handler called.2 agent epochId share)
    (hw : (startWrite call caller agent epochId called s).1.writes call = some w) :
    Stored s.handler (startWrite call caller agent epochId called s).1.handler w.agent w.epochId
      w.share := by
  obtain ⟨result, handler⟩ := called
  cases result with
  | error reason =>
    change s.writes call = some w at hw
    rw [hfree] at hw
    cases hw
  | ok share =>
    change Function.update s.writes call _ call = some w at hw
    rw [Function.update_self] at hw
    rw [← Option.some.inj hw]
    exact hcalled share rfl

theorem settle_failed (hw : s.writes call = some w) :
    (step s (.settle call false)).handler.shares = s.handler.shares ∧
      (step s (.settle call false)).handler.currentEpoch = s.handler.currentEpoch := by
  rw [step, act, hw]
  obtain ⟨caller, agent, epochId, share, landed⟩ := w
  cases caller <;> exact ⟨rfl, rfl⟩

theorem land_handler (hw : s.writes call = some w) :
    (step s (.land call)).handler = s.handler ∧
      ∃ w', (step s (.land call)).writes call = some w' := by
  rw [step, act, hw]
  dsimp only
  split_ifs
  · exact ⟨rfl, w, hw⟩
  · exact ⟨rfl, _, Function.update_self _ _ _⟩

end Call

theorem stored_of_failedCall {s s' : System Share} {w : Write Share} (h : FailedCall s w s') :
    Stored s.handler s'.handler w.agent w.epochId w.share := by
  obtain ⟨call, hfree, started, hstart, hw, hend⟩ := h
  have hstored : Stored s.handler started.handler w.agent w.epochId w.share := by
    rcases hstart with ⟨round3, agent, epochId, rfl⟩ |
      ⟨applyRefresh, agent, fromEpochId, toEpochId, rfl⟩
    · rw [step, act, hfree] at hw ⊢
      refine stored_of_start hfree (fun share hok => ?_) hw
      rcases dkgRound3_cases round3 agent epochId s.handler with ⟨_, hc | hc⟩ | ⟨_, -, hc⟩
      · rw [hc] at hok
        cases hok
      · rw [hc] at hok
        cases hok
      · rw [hc] at hok ⊢
        obtain rfl := Except.ok.inj hok
        exact ⟨rfl, rfl⟩
    · rw [step, act, hfree] at hw ⊢
      refine stored_of_start hfree (fun share hok => ?_) hw
      rcases refreshRound2_cases applyRefresh agent fromEpochId toEpochId s.handler with
        ⟨_, hc⟩ | ⟨_, _, -, hc⟩
      · rw [hc] at hok
        cases hok
      · rw [hc] at hok ⊢
        obtain rfl := Except.ok.inj hok
        exact ⟨rfl, rfl⟩
  rcases hend with rfl | rfl
  · obtain ⟨hshares, hcounter⟩ := settle_failed hw
    exact ⟨hshares.trans hstored.shares, hcounter.trans hstored.currentEpoch⟩
  · obtain ⟨hhandler, w', hw'⟩ := land_handler hw
    obtain ⟨hshares, hcounter⟩ := settle_failed hw'
    rw [hhandler] at hshares hcounter
    exact ⟨hshares.trans hstored.shares, hcounter.trans hstored.currentEpoch⟩

/-- **After a durable write that fails the same commitments are given, just when the store held the
very share before, or its epoch has expired.** -/
theorem failed_write_unchanged_iff (s : System Share) (w : Write Share) (s' : System Share)
    (hcall : FailedCall s w s') :
    SameCommitments s.handler s'.handler ↔
      getShare w.agent w.epochId s.handler.shares = some w.share ∨
        isExpiredEpoch w.agent w.epochId s.handler = true :=
  (stored_of_failedCall hcall).sameCommitments_iff

/-! ### A refresh that fails after a restart -/

namespace Sample

section Failed

variable (agent : AgentKey) (epochId toEpochId : String)

/-- The refresh has failed. -/
def failed : System ℕ :=
  step (step (.start (rows agent epochId)) (refresh agent epochId toEpochId)) (.settle 0 false)

theorem failedCall_refresh : FailedCall (.start (rows agent epochId))
    ⟨.refreshRound2, agent, toEpochId, 8, false⟩ (failed agent epochId toEpochId) := by
  refine ⟨0, rfl, _, Or.inr ⟨_, agent, epochId, toEpochId, rfl⟩, ?_, Or.inl rfl⟩
  simp [step, act, System.start, startWrite, refreshRound2]

end Failed

variable {agent : AgentKey} {epochId toEpochId : String} {n N : EpochNumber}

theorem not_sameCommitments_failed (hn : parseEpochN epochId = some n)
    (hN : parseEpochN toEpochId = some N) (hlt : n < N) :
    ¬ SameCommitments (System.start (rows agent epochId)).handler
      (failed agent epochId toEpochId).handler := by
  have hstored := stored_of_failedCall (failedCall_refresh agent epochId toEpochId)
  have hne : toEpochId ≠ epochId := by
    rintro rfl
    exact hlt.ne (Option.some.inj (hn.symm.trans hN))
  rw [hstored.sameCommitments_iff]
  dsimp only
  rintro (hheld | hexpired)
  · have hrow := getShare_startHandler.1 hheld
    rw [rows, OrdMap.get_set, if_neg (fun heq => hne (Prod.mk.inj heq).2)] at hrow
    cases hrow
  · obtain ⟨k, hk, m, hm, hkm⟩ := (isExpiredEpoch_iff_holds (by rfl)).1 hexpired
    change Holds agent (startHandler (rows agent epochId)).shares.keys m at hm
    rw [holds_start, keyEpoch_storeKey hn] at hm
    obtain rfl := Option.some.inj (hN.symm.trans hk)
    obtain rfl := Option.some.inj hm
    exact absurd hlt hkm.asymm

end Sample

open Sample in
theorem failed_write_unchanged_iff_refresh :
    SameCommitments (System.start (rows agent firstEpoch)).handler
        (failed agent firstEpoch secondEpoch).handler ↔
      getShare agent secondEpoch (System.start (rows agent firstEpoch)).handler.shares = some 8 ∨
        isExpiredEpoch agent secondEpoch (System.start (rows agent firstEpoch)).handler = true :=
  failed_write_unchanged_iff (.start (rows agent firstEpoch))
    ⟨.refreshRound2, agent, secondEpoch, 8, false⟩ (failed agent firstEpoch secondEpoch)
    (failedCall_refresh agent firstEpoch secondEpoch)

open Sample in
/-- Right after a restart, a refresh whose durable write fails. -/
theorem failed_refresh_changes : FailedCall (.start (rows agent firstEpoch))
      ⟨.refreshRound2, agent, secondEpoch, 8, false⟩ (failed agent firstEpoch secondEpoch) ∧
    ¬ SameCommitments (System.start (rows agent firstEpoch)).handler
      (failed agent firstEpoch secondEpoch).handler :=
  ⟨failedCall_refresh agent firstEpoch secondEpoch,
    not_sameCommitments_failed parse_firstEpoch parse_secondEpoch (by decide)⟩

end Cello.Directory.Frost
