import Cello.Directory.Frost.Machine

/-!
# Old epochs

After a refresh the shares of the epochs before it are to sign no more.  `isExpiredEpoch` compares an
epoch with the counter of the agent or, after a restart, with the epochs of the shares that were
loaded; the row of the refreshed share is durable, so a restart that can read it does not take the
refresh back (`Reached`).

But only `generateCommitment` asks.  `handleCeremonyRound` signs with any share it finds, and
`signRawMessage` with a pair of nonces that was drawn before the refresh; a refresh or a key
generation of a lower epoch, or of one without a number, sets the counter back; and so does a restart
that skips the row of the refreshed share.  `EpochsKept` is the condition that none of this happens.
-/

namespace Cello.Directory.Frost

open Lib

variable {Share : Type}

/-! ### The law -/

/-- **An old epoch stops signing**: after a refresh to `N`, no call signs for an epoch below. -/
def OldEpochsStopped (rows : OrdMap (AgentKey × String) (Option Share))
    (actions : List (Action Share)) : Prop :=
  ∀ i j agent toEpochId epochId signature N n, i < j →
    answerAt rows actions i = .refreshed agent toEpochId → parseEpochN toEpochId = some N →
      answerAt rows actions j = .partialSignature agent epochId signature →
        parseEpochN epochId = some n → ¬ n < N

/-- The action belongs to the destruction of shares. -/
def Action.IsBurn : Action Share → Prop
  | .destroyShares .. => True
  | .zero .. => True
  | .finish .. => True
  | _ => False

def Write.nextEpoch (w : Write Share) (h : Handler Share) : EpochNumber :=
  match w.caller with
  | .dkgRound3 => (parseEpochN w.epochId).getD 1
  | .refreshRound2 => ((parseEpochN w.epochId).orElse fun _ => h.currentEpoch.get w.agent).getD 1

/-- Of each agent a row of its highest epoch decrypts. -/
def HighestDecrypts (decrypts : AgentKey × String → Bool)
    (rows : OrdMap (AgentKey × String) (Option Share)) : Prop :=
  ∀ agent epochId share N, rows.get (agent, epochId) = some (some share) →
    parseEpochN epochId = some N →
      ∃ epochId' share' N', rows.get (agent, epochId') = some (some share') ∧
        decrypts (agent, epochId') = true ∧ parseEpochN epochId' = some N' ∧ N ≤ N'

/-- No call comes to what it signs with for an epoch that has expired, no call that succeeds sets the
epoch back, and no restart does. -/
def EpochsKept (s : System Share) : Action Share → Prop
  | .handleCeremonyRound _ _ agent epochId peerIdString =>
    FindsShare agent epochId peerIdString s.handler → isExpiredEpoch agent epochId s.handler = false
  | .signRawMessage _ now agent epochId peerIdString =>
    FindsNonce now agent epochId peerIdString s.handler →
      isExpiredEpoch agent epochId s.handler = false
  | .restart decrypts => HighestDecrypts decrypts s.rows
  | .settle call true => ∀ w, s.writes call = some w → w.landed = true →
      ∀ m, currentN w.agent s.handler = some m → m ≤ w.nextEpoch s.handler
  | _ => True

/-! ### The current epoch -/

/-- The agent has come to the epoch: a row says so, and requests are compared with no less. -/
structure Reached (agent : AgentKey) (N : EpochNumber) (s : System Share) : Prop where
  row : ∃ epochId share, s.rows.get (agent, epochId) = some (some share) ∧
    parseEpochN epochId = some N
  current : ∃ m, currentN agent s.handler = some m ∧ N ≤ m

def WritesLanded (s : System Share) : Prop :=
  ∀ call w, s.writes call = some w → w.landed = true →
    ∃ share, s.rows.get (w.agent, w.epochId) = some (some share)

section Current

variable {agent : AgentKey} {N : EpochNumber} {h h' : Handler Share}

theorem currentN_eq_counter {m : EpochNumber} (hcounter : h.currentEpoch.get agent = some m) :
    currentN agent h = some m := by
  rw [currentN, hcounter]
  rfl

theorem currentN_mono (hcounter : h'.currentEpoch.get agent = h.currentEpoch.get agent)
    (hshares : ∀ n, Holds agent h.shares.keys n → Holds agent h'.shares.keys n)
    (hN : ∃ m, currentN agent h = some m ∧ N ≤ m) : ∃ m, currentN agent h' = some m ∧ N ≤ m := by
  rw [currentN] at hN
  rw [currentN, hcounter]
  revert hN
  cases h.currentEpoch.get agent with
  | some m => exact id
  | none =>
    simp only [Option.orElse_none, exists_getMaxEpoch fun {_ _} => le_trans]
    rintro ⟨m, hm, hle⟩
    exact ⟨m, hshares m hm, hle⟩

theorem currentN_restarted {rows : OrdMap (AgentKey × String) (Option Share)} {epochId : String}
    {share : Share} {decrypts : AgentKey × String → Bool} (hdecrypts : HighestDecrypts decrypts rows)
    (hrow : rows.get (agent, epochId) = some (some share)) (hN : parseEpochN epochId = some N) :
    ∃ m, currentN agent (startHandler (decryptedRows decrypts rows)) = some m ∧ N ≤ m := by
  obtain ⟨epochId', share', N', hrow', hread, hN', hle⟩ := hdecrypts agent epochId share N hrow hN
  have hholds := holds_of_getShare (getShare_restarted.2 ⟨hrow', hread⟩) (keyEpoch_storeKey hN')
  exact (exists_getMaxEpoch fun {_ _} => le_trans).2 ⟨N', hholds, hle⟩

end Current

section Steps

variable {s s' : System Share} {agent : AgentKey} {N : EpochNumber}

theorem Reached.of_grows (h : Reached agent N s)
    (hrows : ∀ key share, s.rows.get key = some (some share) →
      ∃ share', s'.rows.get key = some (some share'))
    (hcurrent : ∃ m, currentN agent s'.handler = some m ∧ N ≤ m) : Reached agent N s' := by
  obtain ⟨⟨epochId, share, hrow, hN⟩, -⟩ := h
  obtain ⟨share', hrow'⟩ := hrows _ share hrow
  exact ⟨⟨epochId, share', hrow', hN⟩, hcurrent⟩

theorem Reached.of_same (h : Reached agent N s)
    (hcounter : s'.handler.currentEpoch = s.handler.currentEpoch)
    (hshares : s'.handler.shares = s.handler.shares) (hrows : s'.rows = s.rows) :
    Reached agent N s' :=
  ⟨hrows ▸ h.row, currentN_mono (by rw [hcounter]) (fun n hn => by rwa [hshares]) h.current⟩

theorem reached_startWrite (h : Reached agent N s) {call : ℕ} {caller : Caller} {agent' : AgentKey}
    {epochId : String} {called : Except Reason Share × Handler Share}
    (hcounter : called.2.currentEpoch = s.handler.currentEpoch)
    (hshares : ∀ n, Holds agent s.handler.shares.keys n → Holds agent called.2.shares.keys n) :
    Reached agent N (startWrite call caller agent' epochId called s).1 := by
  have hcurrent := currentN_mono (by rw [hcounter]) hshares h.current
  rw [startWrite]
  split
  · exact ⟨h.row, hcurrent⟩
  · exact ⟨h.row, hcurrent⟩

theorem reached_settleWrite (h : Reached agent N s) {call : ℕ} {w : Write Share} {ok : Bool}
    (hkept : ok = true → ∀ m, currentN w.agent s.handler = some m → m ≤ w.nextEpoch s.handler) :
    Reached agent N (settleWrite call w ok s).1 := by
  have hset : ∀ {handler : Handler Share}, ok = true →
      handler.currentEpoch = s.handler.currentEpoch.set w.agent (w.nextEpoch s.handler) →
      handler.shares = s.handler.shares → ∃ m, currentN agent handler = some m ∧ N ≤ m := by
    intro handler hok hcounter hshares
    by_cases hagent : agent = w.agent
    · subst hagent
      obtain ⟨m, hm, hle⟩ := h.current
      refine ⟨_, currentN_eq_counter ?_, hle.trans (hkept hok m hm)⟩
      rw [hcounter, OrdMap.get_set, if_pos rfl]
    · refine currentN_mono ?_ (fun n hn => by rwa [hshares]) h.current
      rw [hcounter, OrdMap.get_set_of_ne _ _ hagent]
  obtain ⟨caller, agent', epochId, share, landed⟩ := w
  cases caller <;> cases ok
  · exact ⟨h.row, h.current⟩
  · exact ⟨h.row, hset rfl rfl rfl⟩
  · exact ⟨h.row, h.current⟩
  · exact ⟨h.row, hset rfl rfl rfl⟩

/-- **No step takes an agent back.** -/
theorem reached_step (h : Reached agent N s) (a : Action Share) (hburn : ¬ a.IsBurn)
    (hkept : EpochsKept s a) : Reached agent N (step s a) := by
  cases a with
  | generateCommitment =>
    exact h.of_same (generateCommitment_currentEpoch _ _ _ _ _) (generateCommitment_shares _ _ _ _ _)
      rfl
  | signRawMessage signShare =>
    exact h.of_same (signRawMessage_currentEpoch signShare _ _ _ _ _)
      (signRawMessage_shares signShare _ _ _ _ _) rfl
  | handleCeremonyRound => exact h
  | markInFlight => exact h.of_same rfl rfl rfl
  | clearInFlight => exact h.of_same rfl rfl rfl
  | dkgRound1 => exact h.of_same (dkgRound1_currentEpoch _ _ _ _) (dkgRound1_shares _ _ _ _) rfl
  | dkgRound2 => exact h.of_same (dkgRound2_currentEpoch _ _ _ _) (dkgRound2_shares _ _ _ _) rfl
  | dkgRound3 call round3 agent' epochId =>
    rw [step, act]
    split
    · refine reached_startWrite h ?_ fun n hn => ?_ <;>
        rcases dkgRound3_cases round3 agent' epochId s.handler with ⟨_, hc | hc⟩ | ⟨_, _, hc⟩ <;>
        rw [hc]
      · rfl
      · exact hn
      · exact hn
      · exact holds_storeShare.2 (Or.inr hn)
    · exact h
  | refreshRound1 => exact h
  | refreshRound2 call applyRefresh agent' fromEpochId toEpochId =>
    rw [step, act]
    split
    · refine reached_startWrite h ?_ fun n hn => ?_ <;>
        rcases refreshRound2_cases applyRefresh agent' fromEpochId toEpochId s.handler with
          ⟨_, hc⟩ | ⟨_, _, _, hc⟩ <;> rw [hc]
      · exact hn
      · exact holds_storeShare.2 (Or.inr hn)
    · exact h
  | land call =>
    rw [step, act]
    split
    · split_ifs
      · exact h
      · refine h.of_grows (fun key share hrow => ?_) h.current
        dsimp only
        rw [OrdMap.get_set]
        split_ifs
        · exact ⟨_, rfl⟩
        · exact ⟨share, hrow⟩
    · exact h
  | settle call ok =>
    rw [step, act]
    split
    · next w hw =>
      split_ifs with hpending
      · exact h
      · refine reached_settleWrite h fun hok m hm => ?_
        subst hok
        exact hkept w hw (by simpa using hpending) m hm
    · exact h
  | destroyShares => exact absurd trivial hburn
  | zero => exact absurd trivial hburn
  | finish => exact absurd trivial hburn
  | restart =>
    obtain ⟨epochId, share, hrow, hN⟩ := h.row
    exact ⟨h.row, currentN_restarted hkept hrow hN⟩

/-! ### Confirmed writes are in their rows -/

theorem WritesLanded.of_eq (h : WritesLanded s) (hwrites : s'.writes = s.writes)
    (hrows : s'.rows = s.rows) : WritesLanded s' := by
  rw [WritesLanded, hwrites, hrows]
  exact h

theorem writesLanded_update (h : WritesLanded s) {call : ℕ} {new : Option (Write Share)}
    (hwrites : s'.writes = Function.update s.writes call new)
    (hrows : ∀ key share, s.rows.get key = some (some share) →
      ∃ share', s'.rows.get key = some (some share'))
    (hnew : ∀ w, new = some w → w.landed = true →
      ∃ share, s'.rows.get (w.agent, w.epochId) = some (some share)) : WritesLanded s' := by
  intro call' w hw hlanded
  rw [hwrites] at hw
  by_cases hcall : call' = call
  · subst hcall
    rw [Function.update_self] at hw
    exact hnew w hw hlanded
  · rw [Function.update_of_ne hcall] at hw
    obtain ⟨share, hrow⟩ := h call' w hw hlanded
    exact hrows _ share hrow

theorem writesLanded_startWrite (h : WritesLanded s) (call : ℕ) (caller : Caller)
    (agent' : AgentKey) (epochId : String) (called : Except Reason Share × Handler Share) :
    WritesLanded (startWrite call caller agent' epochId called s).1 := by
  rw [startWrite]
  split
  · exact h
  · refine writesLanded_update h rfl (fun _ share hrow => ⟨share, hrow⟩) fun w hw hlanded => ?_
    rw [← Option.some.inj hw] at hlanded
    cases hlanded

theorem writesLanded_settleWrite (h : WritesLanded s) (call : ℕ) (w : Write Share) (ok : Bool) :
    WritesLanded (settleWrite call w ok s).1 := by
  obtain ⟨caller, agent', epochId, share, landed⟩ := w
  cases caller <;> cases ok <;>
    exact writesLanded_update h rfl (fun _ share hrow => ⟨share, hrow⟩) fun w hw => by cases hw

theorem writesLanded_step (h : WritesLanded s) (a : Action Share) (hburn : ¬ a.IsBurn) :
    WritesLanded (step s a) := by
  cases a with
  | dkgRound3 call round3 agent' epochId =>
    rw [step, act]
    split
    · exact writesLanded_startWrite h _ _ _ _ _
    · exact h
  | refreshRound2 call applyRefresh agent' fromEpochId toEpochId =>
    rw [step, act]
    split
    · exact writesLanded_startWrite h _ _ _ _ _
    · exact h
  | land call =>
    rw [step, act]
    split
    · next w _ =>
      split_ifs
      · exact h
      · refine writesLanded_update h rfl (fun key share hrow => ?_) fun w' hw' _ => ?_
        · dsimp only
          rw [OrdMap.get_set]
          split_ifs
          · exact ⟨_, rfl⟩
          · exact ⟨share, hrow⟩
        · rw [← Option.some.inj hw']
          exact ⟨w.share, by dsimp only; rw [OrdMap.get_set, if_pos rfl]⟩
    · exact h
  | settle call ok =>
    rw [step, act]
    split
    · split_ifs
      · exact h
      · exact writesLanded_settleWrite h _ _ _
    · exact h
  | destroyShares => exact absurd trivial hburn
  | zero => exact absurd trivial hburn
  | finish => exact absurd trivial hburn
  | restart => exact fun _ _ hw => by cases hw
  | _ => exact h.of_eq rfl rfl

theorem reached_of_refreshed {toEpochId : String} (h : WritesLanded s) {a : Action Share}
    (hanswer : (act s a).2 = .refreshed agent toEpochId) (hN : parseEpochN toEpochId = some N) :
    Reached agent N (step s a) := by
  obtain ⟨call, written, -, hw, hstep⟩ := refreshed_cases hanswer
  obtain ⟨share, hrow⟩ := h call _ hw rfl
  rw [hstep]
  refine ⟨⟨toEpochId, share, hrow, hN⟩, N, currentN_eq_counter ?_, le_rfl⟩
  change (s.handler.currentEpoch.set agent _).get agent = some N
  rw [OrdMap.get_set, if_pos rfl, hN]
  rfl

theorem not_expired_of_signed {epochId : String} {signature : Bytes} {a : Action Share}
    (hkept : EpochsKept s a) (hanswer : (act s a).2 = .partialSignature agent epochId signature) :
    isExpiredEpoch agent epochId s.handler = false := by
  rcases signed_cases hanswer with ⟨_, _, _, rfl, hfinds⟩ | ⟨_, _, _, rfl, hfinds⟩
  · exact hkept hfinds
  · exact hkept hfinds

end Steps

/-- **In every run without a burn that keeps its epochs, an old epoch stops signing.** -/
theorem old_epochs_stopped (rows : OrdMap (AgentKey × String) (Option Share))
    (actions : List (Action Share)) (hburn : ∀ a ∈ actions, ¬ a.IsBurn)
    (hkept : Guarded step EpochsKept (System.start rows) actions) : OldEpochsStopped rows actions := by
  have hguarded : Guarded step (fun s a => ¬ a.IsBurn ∧ EpochsKept s a) (System.start rows) actions :=
    .of_forall fun m a hm => ⟨hburn a (List.mem_of_getElem? hm), hkept.at hm⟩
  intro i j agent toEpochId epochId signature N n hij hrefreshed hN hsigned hn hlt
  obtain ⟨a, ha, hanswer⟩ := answerAt_cases hrefreshed (by simp)
  obtain ⟨a', ha', hanswer'⟩ := answerAt_cases hsigned (by simp)
  have hlanded : WritesLanded (stateAt rows actions i) :=
    hguarded.invariant (P := WritesLanded) (fun _ a h ha => writesLanded_step h a ha.1)
      (fun _ _ hw => by cases hw) i
  have hreached : Reached agent N (stateAt rows actions (i + 1)) := by
    rw [stateAt_succ ha]
    exact reached_of_refreshed hlanded hanswer hN
  obtain ⟨-, m, hm, hle⟩ := hguarded.invariant_from (P := Reached agent N)
    (fun _ a h ha => reached_step h a ha.1 ha.2) hij hreached
  have hexpired : isExpiredEpoch agent epochId (stateAt rows actions j).handler = true :=
    isExpiredEpoch_iff.2 ⟨n, hn, m, hm, hlt.trans_le hle⟩
  have hvalid : isExpiredEpoch agent epochId (stateAt rows actions j).handler = false :=
    not_expired_of_signed (hkept.at ha') hanswer'
  rw [hvalid] at hexpired
  cases hexpired

/-! ### A refresh, and a signature for the epoch before it -/

namespace Sample

section Runs

variable {agent : AgentKey} {epochId toEpochId : String} {n N : EpochNumber}

/-- The share is refreshed, and the one before it signs. -/
def signs (agent : AgentKey) (epochId toEpochId : String) : List (Action ℕ) :=
  [refresh agent epochId toEpochId, .land 0, .settle 0 true,
    .handleCeremonyRound (fun _ => some 0) (fun _ _ => some [1]) agent epochId "12D3KooWA"]

theorem answers_signs (agent : AgentKey) (hne : epochId ≠ toEpochId) :
    answerAt (rows agent epochId) (signs agent epochId toEpochId) 2 =
        .refreshed agent toEpochId ∧
      answerAt (rows agent epochId) (signs agent epochId toEpochId) 3 =
        .partialSignature agent epochId [1] := by
  simp [answerAt, stateAt, signs, refresh, step, act, System.start, startWrite, refreshRound2,
    settleWrite, refreshStored, handleCeremonyRound, conflicts, hne, answerSigned,
    getShare_storeShare_of_ne]

theorem getMaxEpoch_refreshed (hn : parseEpochN epochId = some n)
    (hN : parseEpochN toEpochId = some N) (hlt : n < N) :
    getMaxEpoch agent (storeShare agent toEpochId 8 (startHandler (rows agent epochId)).shares) =
      some N := by
  have hne : epochId ≠ toEpochId := by
    rintro rfl
    exact hlt.ne (Option.some.inj (hn.symm.trans hN))
  have hkeys : (storeShare agent toEpochId 8 (startHandler (rows agent epochId)).shares).keys =
      [storeKey agent epochId, storeKey agent toEpochId] := by
    rw [start_shares]
    simp [storeShare, OrdMap.keys, OrdMap.set, OrdMap.setList, OrdMap.empty, storeKey_inj, hne]
  have hkey : ∀ epochId, isKeyOf agent (storeKey agent epochId) = true := fun _ =>
    isKeyOf_storeKey.2 rfl
  rw [getMaxEpoch, hkeys, List.foldl_cons, List.foldl_cons, List.foldl_nil,
    maxEpochStep_some (hkey epochId) (keyEpoch_storeKey hn),
    maxEpochStep_some (hkey toEpochId) (keyEpoch_storeKey hN), Option.elim_none,
    Option.elim_some, if_pos hlt]

/-- The share is refreshed, the process starts again without the row of the old one, and is asked for
both epochs. -/
def signsRestarted (agent : AgentKey) (epochId toEpochId : String) : List (Action ℕ) :=
  [refresh agent epochId toEpochId, .land 0, .settle 0 true,
    .restart fun key => decide (key.2 = toEpochId),
    .handleCeremonyRound (fun _ => some 0) (fun _ _ => some [1]) agent epochId "12D3KooWA",
    .handleCeremonyRound (fun _ => some 0) (fun _ _ => some [1]) agent toEpochId "12D3KooWA"]

section

variable (hne : epochId ≠ toEpochId)

include hne

theorem rows_refreshed {agent' : AgentKey} {epochId' : String} {share : ℕ}
    (hrow : ((rows agent epochId).set (agent, toEpochId) (some 8)).get (agent', epochId') =
      some (some share)) : agent' = agent ∧ (epochId' = epochId ∨ epochId' = toEpochId) := by
  rw [rows, OrdMap.get_set, OrdMap.get_set] at hrow
  split_ifs at hrow with hto hfrom
  · obtain ⟨rfl, rfl⟩ := Prod.mk.inj hto
    exact ⟨rfl, Or.inr rfl⟩
  · obtain ⟨rfl, rfl⟩ := Prod.mk.inj hfrom
    exact ⟨rfl, Or.inl rfl⟩
  · cases hrow

theorem shares_restarted : (startHandler (decryptedRows (fun key => decide (key.2 = toEpochId))
    ((rows agent epochId).set (agent, toEpochId) (some 8)))).shares =
      storeShare agent toEpochId 8 OrdMap.empty := by
  simp [startHandler, decryptedRows, OrdMap.mapWithKey, rows, OrdMap.set, OrdMap.setList, OrdMap.empty,
    hne]

end

theorem kept_signsRestarted (hn : parseEpochN epochId = some n) (hN : parseEpochN toEpochId = some N)
    (hlt : n < N) : Guarded step EpochsKept (System.start (rows agent epochId))
      (signsRestarted agent epochId toEpochId) := by
  have hne : epochId ≠ toEpochId := by
    rintro rfl
    exact hlt.ne (Option.some.inj (hn.symm.trans hN))
  have hwrite : (step (step (.start (rows agent epochId)) (refresh agent epochId toEpochId))
      (.land 0)).writes 0 = some ⟨.refreshRound2, agent, toEpochId, 8, true⟩ := by
    simp [refresh, step, act, System.start, startWrite, refreshRound2]
  have hcurrent : currentN agent (step (step (.start (rows agent epochId))
      (refresh agent epochId toEpochId)) (.land 0)).handler = some N := by
    simp [refresh, step, act, System.start, startWrite, refreshRound2, currentN,
      getMaxEpoch_refreshed hn hN hlt]
  have hrows : (step (step (step (.start (rows agent epochId)) (refresh agent epochId toEpochId))
      (.land 0)) (.settle 0 true)).rows = (rows agent epochId).set (agent, toEpochId) (some 8) := by
    simp [refresh, step, act, System.start, startWrite, refreshRound2, settleWrite, System.setHandler]
  -- the refreshed row is read, and is the highest
  have hhighest : HighestDecrypts (fun key => decide (key.2 = toEpochId))
      ((rows agent epochId).set (agent, toEpochId) (some 8)) := by
    intro agent' epochId' share N' hrow hN'
    obtain ⟨rfl, hepoch⟩ := rows_refreshed hne hrow
    refine ⟨toEpochId, 8, N, by rw [OrdMap.get_set_self], by simp, hN, ?_⟩
    rcases hepoch with rfl | rfl
    · rw [← Option.some.inj (hn.symm.trans hN')]
      exact hlt.le
    · rw [← Option.some.inj (hN.symm.trans hN')]
  refine ⟨trivial, trivial, fun w hw _ m hm => ?_, ?_, fun hfinds => ?_, fun _ => ?_, trivial⟩
  · obtain rfl := Option.some.inj (hwrite.symm.trans hw)
    rw [← Option.some.inj (hcurrent.symm.trans hm), Write.nextEpoch]
    simp only [hN]
    exact le_rfl
  · rw [← hrows] at hhighest
    exact hhighest
  · obtain ⟨-, share, hshare⟩ := hfinds
    exact absurd (getShare_restarted.1 hshare).2 (by simp [hne])
  · change isExpiredEpoch agent toEpochId (startHandler (decryptedRows _ (step _ _).rows)) = false
    rw [hrows, Bool.eq_false_iff, Ne, isExpiredEpoch_iff_holds rfl, shares_restarted hne]
    rintro ⟨k, hk, m, hm, hkm⟩
    rw [holds_storeShare, keyEpoch_storeKey hN] at hm
    obtain rfl := Option.some.inj (hN.symm.trans hk)
    rcases hm with ⟨-, hm⟩ | hm
    · exact hkm.ne (Option.some.inj hm)
    · simp [Holds, OrdMap.keys, OrdMap.empty] at hm

end Runs

end Sample

open Sample in
theorem old_epochs_stopped_refresh :
    OldEpochsStopped (rows agent firstEpoch) (signsRestarted agent firstEpoch secondEpoch) :=
  old_epochs_stopped (rows agent firstEpoch) (signsRestarted agent firstEpoch secondEpoch)
    (by simp [signsRestarted, refresh, Action.IsBurn])
    (kept_signsRestarted parse_firstEpoch parse_secondEpoch (by decide))

open Sample in
/-- The share of the first epoch is still in the store, and `handleCeremonyRound` does not ask. -/
theorem old_epoch_signs :
    ¬ OldEpochsStopped (rows agent firstEpoch)
      (signs agent firstEpoch secondEpoch) := by
  intro hstopped
  obtain ⟨hrefreshed, hsigned⟩ := answers_signs agent firstEpoch_ne
  exact hstopped 2 3 agent secondEpoch firstEpoch [1] 2 1 (by decide) hrefreshed parse_secondEpoch
    hsigned parse_firstEpoch (by decide)

end Cello.Directory.Frost
