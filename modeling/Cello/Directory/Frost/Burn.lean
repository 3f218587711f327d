import Cello.Directory.Frost.Machine

/-!
# Destroyed shares

`destroyShares` takes the shares of an agent out of the memory, and then has its rows overwritten.
A share is in two more places: a pair of nonces that waits in the cache carries the share it was drawn
for, and a call that waits for its durable write will put its share into the rows, after they were
overwritten, if the database answers late.  `BurnsComplete` is the condition that neither is left, and
that no key generation of the agent is under way; then the agent has no share (`Dead`), and no step but
the start of another key generation gives it one.
-/

namespace Cello.Directory.Frost

open Lib

variable {Share : Type}

/-! ### The law -/

/-- No share of the agent is in the store, neither in its memory nor in a row. -/
structure NoShare (agent : AgentKey) (s : System Share) : Prop where
  memory : ∀ epochId, getShare agent epochId s.handler.shares = none
  rows : ∀ epochId share, s.rows.get (agent, epochId) ≠ some (some share)

/-- **Destroyed shares never sign**: once `destroyShares` has returned, and until a key generation of
the agent is started, the store has no share of it, and no call signs for it. -/
def DestroyedNeverSign (rows : OrdMap (AgentKey × String) (Option Share))
    (actions : List (Action Share)) : Prop :=
  ∀ i j agent, i < j → answerAt rows actions i = .destroyed agent →
    (∀ k, i < k → k < j → ∀ round1 epochId,
      actions[k]? ≠ some (.dkgRound1 round1 agent epochId)) →
    NoShare agent (stateAt rows actions j) ∧
      ∀ epochId signature, answerAt rows actions j ≠ .partialSignature agent epochId signature

/-- No nonces of the agent wait in the cache, and no key generation is under way. -/
structure Idle (agent : AgentKey) (s : System Share) : Prop where
  nonces : ∀ epochId, s.handler.pendingNonces.get (storeKey agent epochId) = none
  dkg : ∀ epochId, s.handler.dkgStates.get (storeKey agent epochId) = none

def Landed (agent : AgentKey) (s : System Share) : Prop :=
  ∀ call w, s.writes call = some w → w.agent = agent → w.landed = true

/-- Rows are overwritten when no write is still to come, a burn is done when the agent is idle, and in
between no key generation of it is finished. -/
def BurnsComplete (s : System Share) : Action Share → Prop
  | .zero call => ∀ burn, s.burns call = some burn → burn.zeroed = false → Landed burn.agent s
  | .finish call => ∀ burn, s.burns call = some burn → burn.zeroed = true → Idle burn.agent s
  | .dkgRound3 _ _ agent _ => ∀ call burn, s.burns call = some burn → burn.agent ≠ agent
  | _ => True

/-! ### An agent without shares in memory -/

def Shareless (agent : AgentKey) (s : System Share) : Prop :=
  ∀ epochId, getShare agent epochId s.handler.shares = none

/-- The rows have no share of the agent, and no write will bring one. -/
structure Quenched (agent : AgentKey) (s : System Share) : Prop where
  rows : ∀ epochId share, s.rows.get (agent, epochId) ≠ some (some share)
  landed : Landed agent s

def EndsDkg (agent : AgentKey) (s : System Share) : Action Share → Prop
  | .dkgRound3 _ _ agent' epochId =>
    agent' = agent ∧ s.handler.dkgStates.get (storeKey agent' epochId) = some .round2Complete
  | _ => False

section Steps

variable {s : System Share} {agent : AgentKey}

theorem getShare_storeShare_other {agent' : AgentKey} {epochId epochId' : String} {share : Share}
    {shares : OrdMap String Share} (hne : agent' ≠ agent) :
    getShare agent epochId (storeShare agent' epochId' share shares) =
      getShare agent epochId shares :=
  getShare_storeShare_of_ne _ _ fun heq => hne heq.1.symm

theorem shareless_startWrite {call : ℕ} {caller : Caller} {agent' : AgentKey} {epochId' : String}
    {called : Except Reason Share × Handler Share}
    (hcalled : ∀ epochId, getShare agent epochId called.2.shares = none) :
    Shareless agent (startWrite call caller agent' epochId' called s).1 := by
  rw [startWrite]
  split
  · exact hcalled
  · exact hcalled

theorem quenched_startWrite (h : Quenched agent s) {call : ℕ} {caller : Caller} {agent' : AgentKey}
    {epochId' : String} {called : Except Reason Share × Handler Share}
    (hcalled : ∀ share, called.1 = .ok share → agent' ≠ agent) :
    Quenched agent (startWrite call caller agent' epochId' called s).1 := by
  rw [startWrite]
  split
  · exact ⟨h.rows, h.landed⟩
  · next share hok =>
    refine ⟨h.rows, fun call' w hw hagent => ?_⟩
    dsimp only at hw
    by_cases hcall : call' = call
    · subst hcall
      rw [Function.update_self] at hw
      rw [← Option.some.inj hw] at hagent
      exact absurd hagent (hcalled share hok)
    · rw [Function.update_of_ne hcall] at hw
      exact h.landed call' w hw hagent

theorem dkgRound3_agent {call : ℕ} {round3 : Option Share} {agent' : AgentKey} {epochId' : String}
    (hends : ¬ EndsDkg agent s (.dkgRound3 call round3 agent' epochId')) {share : Share}
    (hok : (dkgRound3 round3 agent' epochId' s.handler).1 = .ok share) : agent' ≠ agent := by
  rintro rfl
  rcases dkgRound3_cases round3 agent' epochId' s.handler with ⟨_, hc | hc⟩ | ⟨_, hstep, -⟩
  · rw [hc] at hok
    cases hok
  · rw [hc] at hok
    cases hok
  · exact hends ⟨rfl, hstep⟩

theorem refreshRound2_agent (h : Shareless agent s) {applyRefresh : Share → Except String Share}
    {agent' : AgentKey} {fromEpochId toEpochId : String} {share : Share}
    (hok : (refreshRound2 applyRefresh agent' fromEpochId toEpochId s.handler).1 = .ok share) :
    agent' ≠ agent := by
  rintro rfl
  rcases refreshRound2_cases applyRefresh agent' fromEpochId toEpochId s.handler with
    ⟨_, hc⟩ | ⟨_, _, hshare, -⟩
  · rw [hc] at hok
    cases hok
  · rw [h fromEpochId] at hshare
    cases hshare

theorem shareless_step (h : Shareless agent s) (a : Action Share) (hends : ¬ EndsDkg agent s a)
    (hrestart : ∀ decrypts, a ≠ .restart decrypts) : Shareless agent (step s a) := by
  have hsame : ∀ {s' : System Share}, s'.handler.shares = s.handler.shares → Shareless agent s' :=
    fun hshares epochId => by rw [hshares, h epochId]
  cases a with
  | generateCommitment => exact hsame (generateCommitment_shares _ _ _ _ _)
  | signRawMessage signShare => exact hsame (signRawMessage_shares signShare _ _ _ _ _)
  | handleCeremonyRound => exact h
  | markInFlight => exact h
  | clearInFlight => exact h
  | dkgRound1 => exact hsame (dkgRound1_shares _ _ _ _)
  | dkgRound2 => exact hsame (dkgRound2_shares _ _ _ _)
  | dkgRound3 call round3 agent' epochId' =>
    rw [step, act]
    split
    · refine shareless_startWrite fun epochId => ?_
      rcases dkgRound3_cases round3 agent' epochId' s.handler with ⟨_, hc | hc⟩ | ⟨share, _, hc⟩
      · rw [hc, h epochId]
      · rw [hc]
        exact h epochId
      · have hne := dkgRound3_agent hends (congrArg Prod.fst hc)
        rw [hc, getShare_storeShare_other hne, h epochId]
    · exact h
  | refreshRound1 => exact h
  | refreshRound2 call applyRefresh agent' fromEpochId toEpochId =>
    rw [step, act]
    split
    · refine shareless_startWrite fun epochId => ?_
      rcases refreshRound2_cases applyRefresh agent' fromEpochId toEpochId s.handler with
        ⟨_, hc⟩ | ⟨_, _, _, hc⟩
      · rw [hc, h epochId]
      · have hne := refreshRound2_agent h (congrArg Prod.fst hc)
        rw [hc, getShare_storeShare_other hne, h epochId]
    · exact h
  | land call =>
    rw [step, act]
    split
    · split_ifs <;> exact h
    · exact h
  | settle call ok =>
    rw [step, act]
    split
    · next w _ =>
      split_ifs
      · exact h
      · obtain ⟨caller, agent', epochId', share, landed⟩ := w
        cases caller <;> cases ok <;> exact h
    · exact h
  | destroyShares call agent' =>
    rw [step, act]
    split
    · intro epochId
      rw [getShare_dropShares, h epochId, ite_self]
    · exact h
  | zero call =>
    rw [step, act]
    split
    · split_ifs <;> exact h
    · exact h
  | finish call =>
    rw [step, act]
    split
    · split_ifs <;> exact h
    · exact h
  | restart decrypts => exact absurd rfl (hrestart decrypts)

theorem quenched_step (h : Quenched agent s) (hs : Shareless agent s) (a : Action Share)
    (hends : ¬ EndsDkg agent s a) : Quenched agent (step s a) := by
  cases a with
  | dkgRound3 call round3 agent' epochId' =>
    rw [step, act]
    split
    · exact quenched_startWrite h fun share hok => dkgRound3_agent hends hok
    · exact h
  | refreshRound2 call applyRefresh agent' fromEpochId toEpochId =>
    rw [step, act]
    split
    · exact quenched_startWrite h fun share hok => refreshRound2_agent hs hok
    · exact h
  | land call =>
    rw [step, act]
    split
    · next w hw =>
      split_ifs with hlanded
      · exact h
      · have hne : w.agent ≠ agent := fun hagent => hlanded (h.landed call w hw hagent)
        refine ⟨fun epochId share => ?_, fun call' w' hw' hagent => ?_⟩
        · dsimp only
          rw [OrdMap.get_set_of_ne _ _ (fun heq => hne (Prod.mk.inj heq).1.symm)]
          exact h.rows epochId share
        · dsimp only at hw'
          by_cases hcall : call' = call
          · subst hcall
            rw [Function.update_self] at hw'
            rw [← Option.some.inj hw']
          · rw [Function.update_of_ne hcall] at hw'
            exact h.landed call' w' hw' hagent
    · exact h
  | settle call ok =>
    rw [step, act]
    split
    · next w _ =>
      have hupdate : ∀ call' w', Function.update s.writes call none call' = some w' →
          w'.agent = agent → w'.landed = true := by
        intro call' w' hw' hagent
        by_cases hcall : call' = call
        · subst hcall
          rw [Function.update_self] at hw'
          cases hw'
        · rw [Function.update_of_ne hcall] at hw'
          exact h.landed call' w' hw' hagent
      split_ifs
      · exact h
      · obtain ⟨caller, agent', epochId', share, landed⟩ := w
        cases caller <;> cases ok <;> exact ⟨h.rows, hupdate⟩
    · exact h
  | destroyShares call agent' =>
    rw [step, act]
    split
    · exact ⟨h.rows, h.landed⟩
    · exact h
  | zero call =>
    rw [step, act]
    split
    · next burn _ =>
      split_ifs
      · exact h
      · refine ⟨fun epochId share hrow => ?_, h.landed⟩
        dsimp only at hrow
        rw [zeroRows, OrdMap.get_mapWithKey] at hrow
        obtain ⟨old, hold, hnew⟩ := Option.map_eq_some_iff.1 hrow
        split_ifs at hnew
        exact h.rows epochId share (hnew ▸ hold)
    · exact h
  | finish call =>
    rw [step, act]
    split
    · split_ifs
      · exact ⟨h.rows, h.landed⟩
      · exact h
    · exact h
  | restart => exact ⟨h.rows, fun _ _ hw => by cases hw⟩
  | _ => exact ⟨h.rows, h.landed⟩

theorem quenched_zeroRows (hlanded : Landed agent s) (burns : ℕ → Option Burn) :
    Quenched agent { s with rows := zeroRows agent s.rows, burns := burns } := by
  refine ⟨fun epochId share hrow => ?_, hlanded⟩
  dsimp only at hrow
  rw [zeroRows, OrdMap.get_mapWithKey] at hrow
  obtain ⟨old, -, hnew⟩ := Option.map_eq_some_iff.1 hrow
  rw [if_pos rfl] at hnew
  cases hnew

theorem Idle.of_subset {s' : System Share} (h : Idle agent s)
    (hnonces : ∀ epochId p, s'.handler.pendingNonces.get (storeKey agent epochId) = some p →
      ∃ p, s.handler.pendingNonces.get (storeKey agent epochId) = some p)
    (hdkg : ∀ epochId state, s'.handler.dkgStates.get (storeKey agent epochId) = some state →
      ∃ state, s.handler.dkgStates.get (storeKey agent epochId) = some state) : Idle agent s' := by
  refine ⟨fun epochId => Option.eq_none_iff_forall_ne_some.2 fun p hp => ?_,
    fun epochId => Option.eq_none_iff_forall_ne_some.2 fun state hstate => ?_⟩
  · obtain ⟨_, hold⟩ := hnonces epochId p hp
    rw [h.nonces epochId] at hold
    cases hold
  · obtain ⟨_, hold⟩ := hdkg epochId state hstate
    rw [h.dkg epochId] at hold
    cases hold

theorem Idle.endDkg (h : Idle agent s) (agent' : AgentKey) (epochId' : String)
    {s' : System Share} (hnonces : s'.handler.pendingNonces = s.handler.pendingNonces)
    (hdkg : s'.handler.dkgStates = s.handler.dkgStates.erase (storeKey agent' epochId')) :
    Idle agent s' := by
  refine h.of_subset (fun _ p hp => ⟨p, hnonces ▸ hp⟩) fun _ state hstate => ⟨state, ?_⟩
  rw [hdkg, OrdMap.get_erase] at hstate
  split_ifs at hstate
  exact hstate

theorem idle_step (h : Idle agent s) (hs : Shareless agent s) (a : Action Share)
    (hdkg : ∀ round1 epochId, a ≠ .dkgRound1 round1 agent epochId) : Idle agent (step s a) := by
  cases a with
  | generateCommitment commits now agent' epochId' =>
    refine h.of_subset (fun epochId p hp => ?_) fun epochId state hstate => ⟨state, ?_⟩
    · rcases get_generateCommitment hp with hold | ⟨hkey, share, hshare⟩
      · exact ⟨p, hold⟩
      · obtain ⟨rfl, rfl⟩ := storeKey_inj.1 hkey
        rw [hs epochId] at hshare
        cases hshare
    · rwa [step, act, generateCommitment_dkgStates] at hstate
  | signRawMessage signShare now agent' epochId' peerIdString =>
    refine h.of_subset (fun epochId p hp => ⟨p, ?_⟩) fun epochId state hstate => ⟨state, ?_⟩
    · exact get_signRawMessage signShare hp
    · rwa [step, act, signRawMessage_dkgStates] at hstate
  | dkgRound1 round1 agent' epochId' =>
    have hne : agent' ≠ agent := fun heq => hdkg round1 epochId' (heq ▸ rfl)
    refine h.of_subset (fun epochId p hp => ⟨p, ?_⟩) fun epochId state hstate => ⟨state, ?_⟩
    · exact dkgRound1_pendingNonces round1 agent' epochId' s.handler ▸ hp
    · change (dkgRound1 round1 agent' epochId' s.handler).2.dkgStates.get _ = _ at hstate
      rcases dkgRound1_cases round1 agent' epochId' s.handler with hc | hc
      · rwa [hc] at hstate
      · rw [hc] at hstate
        dsimp only at hstate
        rwa [OrdMap.get_set_of_ne _ _ (fun heq => hne (storeKey_inj.1 heq).1.symm)] at hstate
  | dkgRound2 round2 agent' epochId' =>
    refine h.of_subset (fun epochId p hp => ⟨p, ?_⟩) fun epochId state hstate => ?_
    · exact dkgRound2_pendingNonces round2 agent' epochId' s.handler ▸ hp
    · change (dkgRound2 round2 agent' epochId' s.handler).2.dkgStates.get _ = _ at hstate
      rcases dkgRound2_cases round2 agent' epochId' s.handler with hc | ⟨hstep, hc⟩
      · exact ⟨state, hc ▸ hstate⟩
      · rw [hc] at hstate
        dsimp only at hstate
        rw [OrdMap.get_set] at hstate
        split_ifs at hstate with hkey
        · exact ⟨_, hkey ▸ hstep⟩
        · exact ⟨state, hstate⟩
  | dkgRound3 call round3 agent' epochId' =>
    rw [step, act]
    split
    · rw [startWrite]
      rcases dkgRound3_cases round3 agent' epochId' s.handler with ⟨_, hc | hc⟩ | ⟨_, _, hc⟩
      · rw [hc]
        exact ⟨h.nonces, h.dkg⟩
      · rw [hc]
        exact h.endDkg agent' epochId' rfl rfl
      · rw [hc]
        exact ⟨h.nonces, h.dkg⟩
    · exact h
  | refreshRound2 call applyRefresh agent' fromEpochId toEpochId =>
    rw [step, act]
    split
    · rw [startWrite]
      rcases refreshRound2_cases applyRefresh agent' fromEpochId toEpochId s.handler with
        ⟨_, hc⟩ | ⟨_, _, _, hc⟩ <;> rw [hc] <;> exact ⟨h.nonces, h.dkg⟩
    · exact h
  | land call =>
    rw [step, act]
    split
    · split_ifs <;> exact ⟨h.nonces, h.dkg⟩
    · exact h
  | settle call ok =>
    rw [step, act]
    split
    · next w _ =>
      split_ifs
      · exact h
      · obtain ⟨caller, agent', epochId', share, landed⟩ := w
        cases caller with
        | dkgRound3 => cases ok <;> exact h.endDkg agent' epochId' rfl rfl
        | refreshRound2 => cases ok <;> exact ⟨h.nonces, h.dkg⟩
    · exact h
  | destroyShares call agent' =>
    rw [step, act]
    split <;> exact ⟨h.nonces, h.dkg⟩
  | zero call =>
    rw [step, act]
    split
    · split_ifs <;> exact ⟨h.nonces, h.dkg⟩
    · exact h
  | finish call =>
    rw [step, act]
    split
    · split_ifs <;> exact ⟨h.nonces, h.dkg⟩
    · exact h
  | restart => exact ⟨fun _ => rfl, fun _ => rfl⟩
  | _ => exact ⟨h.nonces, h.dkg⟩

/-! ### Burns -/

def BurnSound (s : System Share) : Prop :=
  ∀ call burn, s.burns call = some burn →
    Shareless burn.agent s ∧ (burn.zeroed = true → Quenched burn.agent s)

theorem not_endsDkg {a : Action Share} (hcomplete : BurnsComplete s a) {call : ℕ} {burn : Burn}
    (hburn : s.burns call = some burn) : ¬ EndsDkg burn.agent s a := by
  cases a with
  | dkgRound3 => exact fun hends => hcomplete call burn hburn hends.1.symm
  | _ => exact id

theorem burnSound_step (h : BurnSound s) (a : Action Share) (hcomplete : BurnsComplete s a) :
    BurnSound (step s a) := by
  intro call burn hburn
  have hrestart : ∀ decrypts, a ≠ .restart decrypts := by
    rintro decrypts rfl
    cases hburn
  -- a burn that was there stays sound
  have hkept : ∀ burn, s.burns call = some burn → Shareless burn.agent (step s a) ∧
      (burn.zeroed = true → Quenched burn.agent (step s a)) := by
    intro burn hburn
    obtain ⟨hshareless, hquenched⟩ := h call burn hburn
    have hends := not_endsDkg hcomplete hburn
    exact ⟨shareless_step hshareless a hends hrestart, fun hzeroed =>
      quenched_step (hquenched hzeroed) hshareless a hends⟩
  rcases burns_cases hburn with hold | ⟨agent, -, rfl, hshares⟩ | ⟨agent, rfl, hold, rfl, hstep⟩
  · exact hkept burn hold
  · refine ⟨fun epochId => ?_, fun hzeroed => by cases hzeroed⟩
    rw [hshares, getShare_dropShares, if_pos rfl]
  · refine ⟨(hkept _ hold).1, fun _ => ?_⟩
    rw [hstep]
    exact quenched_zeroRows (hcomplete _ hold rfl) _

/-- The agent has no share, and none is on its way. -/
structure Dead (agent : AgentKey) (s : System Share) : Prop where
  shareless : Shareless agent s
  quenched : Quenched agent s
  idle : Idle agent s

theorem dead_step (h : Dead agent s) (a : Action Share)
    (hdkg : ∀ round1 epochId, a ≠ .dkgRound1 round1 agent epochId) : Dead agent (step s a) := by
  have hends : ¬ EndsDkg agent s a := by
    cases a with
    | dkgRound3 call round3 agent' epochId =>
      rintro ⟨rfl, hstep⟩
      rw [h.idle.dkg epochId] at hstep
      cases hstep
    | _ => exact id
  refine ⟨?_, quenched_step h.quenched h.shareless a hends, idle_step h.idle h.shareless a hdkg⟩
  by_cases hrestart : ∃ decrypts, a = .restart decrypts
  · obtain ⟨decrypts, rfl⟩ := hrestart
    intro epochId
    rw [Option.eq_none_iff_forall_ne_some]
    exact fun share hshare => h.quenched.rows epochId share (getShare_restarted.1 hshare).1
  · exact shareless_step h.shareless a hends fun decrypts he => hrestart ⟨decrypts, he⟩

theorem dead_of_destroyed (h : BurnSound s) {a : Action Share} (hcomplete : BurnsComplete s a)
    (hanswer : (act s a).2 = .destroyed agent) : Dead agent (step s a) := by
  obtain ⟨call, rfl, hburn, hstep⟩ := destroyed_cases hanswer
  obtain ⟨hshareless, hquenched⟩ := h call _ hburn
  have hidle := hcomplete _ hburn rfl
  rw [hstep]
  exact ⟨hshareless, ⟨(hquenched rfl).rows, (hquenched rfl).landed⟩, ⟨hidle.nonces, hidle.dkg⟩⟩

theorem Dead.not_signed (h : Dead agent s) (a : Action Share) (epochId : String)
    (signature : Bytes) : (act s a).2 ≠ .partialSignature agent epochId signature := by
  intro hanswer
  rcases signed_cases hanswer with ⟨_, _, _, -, -, pending, hpending, -⟩ | ⟨_, _, _, -, -, share, hshare⟩
  · rw [h.idle.nonces epochId] at hpending
    cases hpending
  · rw [h.shareless epochId] at hshare
    cases hshare

end Steps

/-- **In every run whose burns are complete, destroyed shares never sign.** -/
theorem destroyed_never_sign (rows : OrdMap (AgentKey × String) (Option Share))
    (actions : List (Action Share))
    (hcomplete : Guarded step BurnsComplete (System.start rows) actions) :
    DestroyedNeverSign rows actions := by
  intro i j agent hij hdestroyed hdkg
  obtain ⟨a, ha, hanswer⟩ := answerAt_cases hdestroyed (by simp)
  have hsound : BurnSound (stateAt rows actions i) :=
    hcomplete.invariant (P := BurnSound) (fun _ a h ha => burnSound_step h a ha)
      (fun _ _ hburn => by cases hburn) i
  have hdead : Dead agent (stateAt rows actions (i + 1)) := by
    rw [stateAt_succ ha]
    exact dead_of_destroyed hsound (hcomplete.at ha) hanswer
  have hlater : ∀ k, i + 1 ≤ k → k ≤ j → Dead agent (stateAt rows actions k) := by
    intro k hk
    induction k, hk using Nat.le_induction with
    | base => exact fun _ => hdead
    | succ k hik ih =>
      intro hkj
      have hk := ih (Nat.le_of_succ_le hkj)
      cases hnext : actions[k]? with
      | none => rwa [stateAt_of_end hnext]
      | some a' =>
        rw [stateAt_succ hnext]
        refine dead_step hk a' fun round1 epochId heq => ?_
        exact hdkg k hik hkj round1 epochId (heq ▸ hnext)
  have hlater := hlater j hij le_rfl
  refine ⟨⟨hlater.shareless, hlater.quenched.rows⟩, fun epochId signature hsigned => ?_⟩
  obtain ⟨a', -, hanswer'⟩ := answerAt_cases hsigned (by simp)
  exact hlater.not_signed a' epochId signature hanswer'

/-! ### Burns with nonces, or a refresh, on the way -/

namespace Sample

section Runs

variable (agent : AgentKey) (epochId toEpochId : String)

/-- The share is destroyed, and asked to sign. -/
def burnt : List (Action ℕ) :=
  [.destroyShares 0 agent, .zero 0, .finish 0,
    .handleCeremonyRound (fun _ => some 0) (fun _ _ => some [1]) agent epochId "12D3KooWA"]

/-- The share is destroyed between the commitment and the signature. -/
def burntBetween : List (Action ℕ) :=
  [.generateCommitment (fun _ => true) 1000 agent epochId, .destroyShares 0 agent, .zero 0, .finish 0,
    .signRawMessage (fun _ _ => some [1]) 2000 agent epochId "12D3KooWA"]

/-- The share is destroyed while the row of a refreshed one is written. -/
def burntWaiting : List (Action ℕ) :=
  [refresh agent epochId toEpochId, .destroyShares 0 agent, .zero 0, .land 0, .finish 0]

theorem complete_burnt :
    Guarded step BurnsComplete (System.start (rows agent epochId)) (burnt agent epochId) :=
  ⟨trivial, fun _ _ _ _ _ hw => (by cases hw), fun _ _ _ => ⟨fun _ => rfl, fun _ => rfl⟩, trivial,
    trivial⟩

theorem answers_burntBetween :
    answerAt (rows agent epochId) (burntBetween agent epochId) 3 = .destroyed agent ∧
      answerAt (rows agent epochId) (burntBetween agent epochId) 4 =
        .partialSignature agent epochId [1] := by
  simp [answerAt, stateAt, burntBetween, step, act, System.start, generateCommitment, shareToCommit,
    not_expired_start, signRawMessage, takeNonce, conflicts, sweepNonces, signPending, answerSigned,
    pendingNonceTtlMs, Except.bind]

theorem answers_burntWaiting :
    answerAt (rows agent epochId) (burntWaiting agent epochId toEpochId) 4 = .destroyed agent ∧
      (stateAt (rows agent epochId) (burntWaiting agent epochId toEpochId) 5).rows.get
        (agent, toEpochId) = some (some 8) := by
  simp [answerAt, stateAt, burntWaiting, refresh, step, act, System.start, startWrite,
    refreshRound2]

end Runs

end Sample

open Sample in
theorem destroyed_never_sign_burnt :
    DestroyedNeverSign (rows agent firstEpoch) (burnt agent firstEpoch) :=
  destroyed_never_sign (rows agent firstEpoch) (burnt agent firstEpoch)
    (complete_burnt agent firstEpoch)

open Sample in
/-- Nonces that were drawn before the burn are used after it, and a row that is written late is there
after it. -/
theorem burn_is_survived :
    ¬ DestroyedNeverSign (rows agent firstEpoch) (burntBetween agent firstEpoch) ∧
      ¬ DestroyedNeverSign (rows agent firstEpoch) (burntWaiting agent firstEpoch secondEpoch) := by
  -- No call lies between the burn and what follows it at once.
  constructor
  · intro hlaw
    obtain ⟨hdestroyed, hsigned⟩ := answers_burntBetween agent firstEpoch
    exact (hlaw 3 4 agent (by decide) hdestroyed fun k h3 hk => by omega).2 firstEpoch [1] hsigned
  · intro hlaw
    obtain ⟨hdestroyed, hrow⟩ := answers_burntWaiting agent firstEpoch secondEpoch
    exact (hlaw 4 5 agent (by decide) hdestroyed fun k h4 hk => by omega).1.rows secondEpoch 8 hrow

end Cello.Directory.Frost
