import Cello.Directory.Frost.Frames

/-!
# Who changes the threshold state of an agent

An agent's threshold state on a node is its shares, in memory and in the database, its current epoch, and
the signer and the group key that are registered for it.  A frame that does not name the agent leaves all
of it alone (`handle_keeps`), and so do the first two rounds of a key generation, whatever they
name.  The third round and the second round of a refresh write it, and neither asks who sent them: it is
not the signature of the agent's own key that decides, but whether a key generation has come that far, and
whether a share is held.

`threshold_state_kept` is about the runs in which these writes do not come about.
-/

namespace Cello.Directory.Frost.Stream

open Lib

variable {Share : Type}

/-- What a node holds for an agent. -/
structure ThresholdState (Share : Type) where
  shares : String → Option Share
  rows : String → Option (Option Share)
  currentEpoch : Option EpochNumber
  thresholdSigner : Option Bytes
  primaryPubkey : Option Bytes

def Node.thresholdState (n : Node Share) (agent : AgentKey) : ThresholdState Share where
  shares epochId := n.memory.shares.get (storeKey agent epochId)
  rows epochId := n.rows.get (agent.text, epochId)
  currentEpoch := n.memory.currentEpoch.get (.string agent.text)
  thresholdSigner := n.thresholdSigners.get (.string agent.text)
  primaryPubkey := n.primaryPubkeys.get (.string agent.text)

/-- No frame that names the agent waits for the database. -/
def Node.Idle (agent : AgentKey) (n : Node Share) : Prop :=
  ∀ call w, n.waiting call = some w → names agent w.work.agentPubkey = false

/-- `n'` holds for the agent what `n` holds, and still no frame that names it waits. -/
structure Keeps (agent : AgentKey) (n n' : Node Share) : Prop where
  state : n'.thresholdState agent = n.thresholdState agent
  idle : n.Idle agent → n'.Idle agent

section Keeps

variable {agent : AgentKey} {n n' n'' : Node Share}

theorem Keeps.refl (n : Node Share) : Keeps agent n n := ⟨rfl, id⟩

theorem Keeps.trans (h : Keeps agent n n') (h' : Keeps agent n' n'') : Keeps agent n n'' :=
  ⟨h'.state.trans h.state, h'.idle ∘ h.idle⟩

theorem Keeps.of_get {m : Memory Share}
    (hshares : ∀ epochId, m.shares.get (storeKey agent epochId) =
      n.memory.shares.get (storeKey agent epochId))
    (hepoch : m.currentEpoch.get (.string agent.text) = n.memory.currentEpoch.get (.string agent.text)) :
    Keeps agent n (n.setMemory m) := by
  refine ⟨?_, id⟩
  simp only [Node.thresholdState, Node.setMemory, hepoch]
  congr 1
  funext epochId
  exact hshares epochId

theorem Keeps.setMemory {m : Memory Share} (hshares : m.shares = n.memory.shares)
    (hepoch : m.currentEpoch = n.memory.currentEpoch) : Keeps agent n (n.setMemory m) :=
  Keeps.of_get (fun _ => by rw [hshares]) (by rw [hepoch])

theorem Keeps.wait {call : ℕ} {work : Work Share} (h : names agent work.agentPubkey = false) :
    Keeps agent n (n.wait call work) := by
  refine ⟨rfl, fun hidle call' w hw => ?_⟩
  dsimp only [Node.wait] at hw
  by_cases hcall : call' = call
  · subst hcall
    rw [Function.update_self] at hw
    cases hw
    exact h
  · rw [Function.update_of_ne hcall] at hw
    exact hidle call' w hw

theorem Keeps.register {agentPubkey : Value} {primaryPubkey : Bytes}
    (h : names agent agentPubkey = false) : Keeps agent n (n.register agentPubkey primaryPubkey) := by
  refine ⟨?_, id⟩
  simp only [Node.thresholdState, Node.register, OrdMap.get_set_of_ne _ _ (string_ne h)]

theorem get_storeShare_of_not_names {agentPubkey : Value} (h : names agent agentPubkey = false)
    (shares : OrdMap String Share) (share : Share) (epochId epochId' : String) :
    (storeShare agentPubkey epochId' share shares).get (storeKey agent epochId) =
      shares.get (storeKey agent epochId) :=
  OrdMap.get_set_of_ne _ _ (storeKey_ne h epochId epochId')

theorem Keeps.dropShares {agentPubkey : Value} (h : names agent agentPubkey = false) :
    Keeps agent n
      (n.setMemory { n.memory with shares := dropShares agentPubkey n.memory.shares }) := by
  refine Keeps.of_get (fun epochId => ?_) rfl
  have hkey : isKeyOf agentPubkey (storeKey agent epochId) = false := by
    rw [Bool.eq_false_iff]
    intro hprefix
    obtain ⟨rest, hrest⟩ := List.isPrefixOf_iff_prefix.1 hprefix
    refine storeKey_ne h epochId (String.ofList rest) ?_
    rw [← String.toList_inj, toList_storeKey agentPubkey, String.toList_ofList, hrest]
  ext share
  rw [Frost.dropShares, OrdMap.get_filter, hkey]
  exact and_iff_left rfl

end Keeps

/-! ### What a frame does -/

section Frames

variable {agent : AgentKey} {cfg : Config} {n : Node Share} {call : ℕ} {out : Outcome Share}
  {agentPubkey epochId : Value}

theorem isAgentPaused_keeps {suspension : Suspension}
    (h : names agent agentPubkey = false ∨ suspension ≠ .burned) :
    Keeps agent n (isAgentPaused n call agentPubkey suspension).1 := by
  cases suspension with
  | unknown => exact Keeps.refl n
  | clear => exact Keeps.refl n
  | paused => exact Keeps.refl n
  | burned =>
    have hnames := h.resolve_right fun hne => hne rfl
    exact (Keeps.dropShares hnames).trans (Keeps.wait hnames)

theorem isAgentPaused_of_clear {suspension : Suspension}
    (h : (isAgentPaused n call agentPubkey suspension).2 = false) :
    suspension = .clear ∧ (isAgentPaused n call agentPubkey suspension).1 = n := by
  cases suspension with
  | clear => exact ⟨rfl, rfl⟩
  | unknown => cases h
  | paused => cases h
  | burned => cases h

theorem bindNonce_eq {nonce agentPubkey : String} {n' : Node Share}
    (h : bindNonce n nonce agentPubkey = some n') :
    ∃ boundNonces, n' = { n with boundNonces := boundNonces } := by
  unfold bindNonce at h
  split at h
  · exact ⟨_, (Option.some.inj h).symm⟩
  · split at h
    · exact ⟨n.boundNonces, (Option.some.inj h).symm⟩
    · cases h

theorem passCapability_eq {agentPubkey : String} {preAuthToken : Option String} {redeemed : Redeemed} {n' : Node Share}
    (h : passCapability cfg n agentPubkey preAuthToken redeemed = .ok n') :
    ∃ boundNonces, n' = { n with boundNonces := boundNonces } := by
  unfold passCapability at h
  dsimp only at h
  split at h
  · cases h
  · cases hblob : capabilityBlob cfg (preAuthToken.getD "") redeemed with
    | error reason =>
      rw [hblob] at h
      cases h
    | ok capBlob =>
      rw [hblob] at h
      dsimp only [bind, Except.bind] at h
      split at h
      · cases h
      · split at h
        · cases h
        · cases h
        · split at h
          · cases h
          · rename_i hbind
            cases h
            exact bindNonce_eq hbind

theorem passPreAuth_eq {agentPubkey : String} {preAuthToken : Option String} {n' : Node Share}
    (h : passPreAuth cfg n agentPubkey preAuthToken out = .ok n') :
    ∃ boundNonces, n' = { n with boundNonces := boundNonces } := by
  unfold passPreAuth at h
  split at h
  · exact passCapability_eq h
  · split at h
    · cases h
    · split at h
      · exact ⟨n.boundNonces, (Except.ok.inj h).symm⟩
      · cases h
  · exact ⟨n.boundNonces, (Except.ok.inj h).symm⟩

def Stores (m : Memory Share) (key : String) (may : Share → Prop)
    (called : Except Reason Share × Memory Share) : Prop :=
  (∃ reason m', called = (.error reason, m') ∧ m'.shares = m.shares ∧
      m'.currentEpoch = m.currentEpoch) ∨
    ∃ share, may share ∧ called = (.ok share, { m with shares := m.shares.set key share })

theorem dkgRound3_stores (round3 : Option Share) (agentPubkey : Value) (epochId : String)
    (m : Memory Share) :
    Stores m (storeKey agentPubkey epochId)
      (fun share => m.dkgStates.get (storeKey agentPubkey epochId) = some .round2Complete ∧
        round3 = some share)
      (dkgRound3 round3 agentPubkey epochId m) := by
  unfold dkgRound3
  split_ifs with hround
  · cases round3 with
    | none => exact Or.inl ⟨_, _, rfl, rfl, rfl⟩
    | some share => exact Or.inr ⟨share, ⟨hround, rfl⟩, rfl⟩
  · exact Or.inl ⟨_, _, rfl, rfl, rfl⟩

theorem refreshRound2_stores (applyRefresh : Share → Except String Share) (agentPubkey : Value)
    (fromEpochId toEpochId : String) (m : Memory Share) :
    Stores m (storeKey agentPubkey toEpochId)
      (fun share => ∃ source, m.shares.get (storeKey agentPubkey fromEpochId) = some source ∧
        applyRefresh source = .ok share)
      (refreshRound2 applyRefresh agentPubkey fromEpochId toEpochId m) := by
  unfold refreshRound2 getShare
  cases hsource : m.shares.get (storeKey agentPubkey fromEpochId) with
  | none => exact Or.inl ⟨_, _, rfl, rfl, rfl⟩
  | some source =>
    dsimp only
    cases hshare : applyRefresh source with
    | error message => exact Or.inl ⟨_, _, rfl, rfl, rfl⟩
    | ok share => exact Or.inr ⟨share, ⟨source, rfl, hshare⟩, rfl⟩

theorem startStore_keeps {epochId : String} {may : Share → Prop} {called : Except Reason Share × Memory Share}
    {work : Share → Work Share} (hcalled : Stores n.memory (storeKey agentPubkey epochId) may called)
    (hwork : ∀ share, (work share).agentPubkey = agentPubkey)
    (h : names agent agentPubkey = false ∨ ∀ share, ¬may share) :
    Keeps agent n (startStore n call called work).1 := by
  obtain ⟨reason, m', rfl, hshares, hepoch⟩ | ⟨share, hmay, rfl⟩ := hcalled
  · exact Keeps.setMemory hshares hepoch
  · have hnames := h.resolve_right fun hnot => hnot share hmay
    have hwait : names agent (work share).agentPubkey = false := by
      rw [hwork]
      exact hnames
    have hmemory : Keeps agent n (n.setMemory { n.memory with
        shares := n.memory.shares.set (storeKey agentPubkey epochId) share }) :=
      Keeps.of_get (fun _ => get_storeShare_of_not_names hnames _ _ _ _) rfl
    exact hmemory.trans (Keeps.wait hwait)

/-- The frame does not reach a write of the threshold state it names. -/
def FrameSpares (cfg : Config) (n : Node Share) (out : Outcome Share) : Frame Share → Prop
  | .bootstrap .. => cfg.testMode = false
  | .commitRequest agentPubkey epochId authSig =>
    verifyFrostAuth cfg.crypto agentPubkey epochId commitTail authSig = none →
      out.suspension ≠ .burned
  | .signRequest agentPubkey epochId framedMsg _ authSig =>
    verifyFrostAuth cfg.crypto agentPubkey epochId (signTail framedMsg) authSig = none →
      out.suspension ≠ .burned
  | .dkgRound1Request .. => True
  | .dkgRound2Request .. => True
  | .dkgRound3Request agentPubkey epochId =>
    n.memory.dkgStates.get (storeKey (Value.string agentPubkey) epochId) = some .round2Complete →
      out.round3 = none
  | .refreshRound1Request .. => out.suspension ≠ .burned
  | .refreshRound2Request agentPubkey fromEpochId _ =>
    out.suspension ≠ .burned ∧
      (out.suspension = .clear →
        ∀ share, n.memory.shares.get (storeKey agentPubkey fromEpochId.text) = some share →
          ∃ message, out.applyRefresh share = .error message)

theorem bootstrap_keeps {share : Share} {primaryPubkey : Bytes}
    (h : names agent agentPubkey = true → cfg.testMode = false) :
    Keeps agent n (handle cfg n call out (.bootstrap agentPubkey epochId share primaryPubkey)).1 := by
  rw [handle]
  split_ifs with htest
  · have hnames : names agent agentPubkey = false := by
      rw [Bool.eq_false_iff]
      intro hnames
      rw [h hnames] at htest
      cases htest
    have hmemory : Keeps agent n
        (n.setMemory (injectShareForTest agentPubkey epochId.text share n.memory)) :=
      Keeps.of_get (fun _ => get_storeShare_of_not_names hnames _ _ _ _)
        (OrdMap.get_set_of_ne _ _ (string_ne hnames))
    have hwait : names agent (Work.storeShare agentPubkey epochId share).agentPubkey = false := hnames
    exact (hmemory.trans (Keeps.wait hwait)).trans (Keeps.register hnames)
  · exact Keeps.refl n

theorem commitRequest_keeps {authSig : JsAny} (h : names agent agentPubkey = true →
      verifyFrostAuth cfg.crypto agentPubkey epochId commitTail authSig = none →
        out.suspension ≠ .burned) :
    Keeps agent n (handle cfg n call out (.commitRequest agentPubkey epochId authSig)).1 := by
  rw [handle]
  cases hauth : verifyFrostAuth cfg.crypto agentPubkey epochId commitTail authSig with
  | some reason => exact Keeps.refl n
  | none =>
    dsimp only
    have hchecked : Keeps agent n (isAgentPaused n call agentPubkey out.suspension).1 :=
      isAgentPaused_keeps ((Bool.eq_false_or_eq_true _).symm.imp id fun hnames => h hnames hauth)
    split_ifs
    · exact hchecked
    · exact hchecked.trans (Keeps.setMemory (generateCommitment_shares _ _ _ _ _)
        (generateCommitment_currentEpoch _ _ _ _ _))

theorem signRequest_keeps {framedMsg : Bytes} {peerIdString : String} {authSig : JsAny}
    (h : names agent agentPubkey = true →
      verifyFrostAuth cfg.crypto agentPubkey epochId (signTail framedMsg) authSig = none →
        out.suspension ≠ .burned) :
    Keeps agent n
      (handle cfg n call out (.signRequest agentPubkey epochId framedMsg peerIdString authSig)).1 := by
  rw [handle]
  cases hauth : verifyFrostAuth cfg.crypto agentPubkey epochId (signTail framedMsg) authSig with
  | some reason => exact Keeps.refl n
  | none =>
    dsimp only
    have hchecked : Keeps agent n (isAgentPaused n call agentPubkey out.suspension).1 :=
      isAgentPaused_keeps ((Bool.eq_false_or_eq_true _).symm.imp id fun hnames => h hnames hauth)
    split_ifs
    · exact hchecked
    · cases out.cosign with
      | some reason => exact hchecked
      | none =>
        exact hchecked.trans (Keeps.setMemory (signRawMessage_shares _ _ _ _ _ _)
          (signRawMessage_currentEpoch _ _ _ _ _ _))

theorem dkgRound1Request_keeps {agentPubkey epochId : String} {preAuthToken : Option String} :
    Keeps agent n (handle cfg n call out (.dkgRound1Request agentPubkey epochId preAuthToken)).1 := by
  rw [handle]
  split_ifs
  · exact Keeps.refl n
  · cases hadmit : passPreAuth cfg n agentPubkey preAuthToken out with
    | error reason => exact Keeps.refl n
    | ok n' =>
      obtain ⟨boundNonces, rfl⟩ := passPreAuth_eq hadmit
      have hbound : Keeps agent n { n with boundNonces := boundNonces } := ⟨rfl, id⟩
      exact hbound.trans (Keeps.setMemory (dkgRound1_shares _ _ _ _) (dkgRound1_currentEpoch _ _ _ _))

theorem dkgRound2Request_keeps {agentPubkey epochId : String} :
    Keeps agent n (handle cfg n call out (.dkgRound2Request agentPubkey epochId)).1 := by
  rw [handle]
  split_ifs
  · exact Keeps.refl n
  · exact Keeps.setMemory (dkgRound2_shares _ _ _ _) (dkgRound2_currentEpoch _ _ _ _)

theorem dkgRound3Request_keeps {agentPubkey epochId : String}
    (h : names agent (.string agentPubkey) = true →
      n.memory.dkgStates.get (storeKey (Value.string agentPubkey) epochId) = some .round2Complete →
        out.round3 = none) :
    Keeps agent n (handle cfg n call out (.dkgRound3Request agentPubkey epochId)).1 := by
  rw [handle]
  split_ifs
  · exact Keeps.refl n
  · refine startStore_keeps (dkgRound3_stores _ (.string agentPubkey) epochId n.memory) (fun _ => rfl) ?_
    refine (Bool.eq_false_or_eq_true _).symm.imp id fun hnames share hmay => ?_
    rw [h hnames hmay.1] at hmay
    cases hmay.2

theorem refreshRound1Request_keeps {fromEpochId : Value}
    (h : names agent agentPubkey = true → out.suspension ≠ .burned) :
    Keeps agent n (handle cfg n call out (.refreshRound1Request agentPubkey fromEpochId)).1 := by
  have hchecked : Keeps agent n (isAgentPaused n call agentPubkey out.suspension).1 :=
    isAgentPaused_keeps ((Bool.eq_false_or_eq_true _).symm.imp id h)
  rw [handle]
  split_ifs <;> exact hchecked

theorem refreshRound2Request_keeps {fromEpochId toEpochId : Value}
    (h : names agent agentPubkey = true → FrameSpares cfg n out
      (.refreshRound2Request agentPubkey fromEpochId toEpochId)) :
    Keeps agent n
      (handle cfg n call out (.refreshRound2Request agentPubkey fromEpochId toEpochId)).1 := by
  have hchecked : Keeps agent n (isAgentPaused n call agentPubkey out.suspension).1 :=
    isAgentPaused_keeps ((Bool.eq_false_or_eq_true _).symm.imp id fun hnames => (h hnames).1)
  rw [handle]
  split_ifs with hpaused
  · exact hchecked
  · obtain ⟨hclear, hsame⟩ := isAgentPaused_of_clear (Bool.eq_false_iff.2 hpaused)
    rw [hsame]
    refine startStore_keeps (refreshRound2_stores _ agentPubkey fromEpochId.text toEpochId.text n.memory)
      (fun _ => rfl) ?_
    refine (Bool.eq_false_or_eq_true _).symm.imp id fun hnames share hmay => ?_
    obtain ⟨source, hsource, happly⟩ := hmay
    obtain ⟨message, herror⟩ := (h hnames).2 hclear source hsource
    rw [happly] at herror
    cases herror

theorem handle_keeps {f : Frame Share}
    (h : names agent f.agentPubkey = true → FrameSpares cfg n out f) :
    Keeps agent n (handle cfg n call out f).1 := by
  cases f with
  | bootstrap agentPubkey epochId share primaryPubkey => exact bootstrap_keeps h
  | commitRequest agentPubkey epochId authSig => exact commitRequest_keeps h
  | signRequest agentPubkey epochId framedMsg peerIdString authSig => exact signRequest_keeps h
  | dkgRound1Request agentPubkey epochId preAuthToken => exact dkgRound1Request_keeps
  | dkgRound2Request agentPubkey epochId => exact dkgRound2Request_keeps
  | dkgRound3Request agentPubkey epochId => exact dkgRound3Request_keeps h
  | refreshRound1Request agentPubkey fromEpochId => exact refreshRound1Request_keeps h
  | refreshRound2Request agentPubkey fromEpochId toEpochId => exact refreshRound2Request_keeps h

end Frames

/-! ### What an event does -/

section Events

variable {agent : AgentKey} {cfg : Config} {n : Node Share}

theorem get_landWork_insert {agentPubkey epochId : Value} {share : Share}
    {rows rows' : OrdMap (String × String) (Option Share)} (h : names agent agentPubkey = false)
    (hland : landWork.insert rows agentPubkey epochId share = some rows') (epochId' : String) :
    rows'.get (agent.text, epochId') = rows.get (agent.text, epochId') := by
  unfold landWork.insert at hland
  split at hland
  · rename_i agentId epochId hagent _
    obtain rfl := Option.some.inj hland
    refine OrdMap.get_set_of_ne _ _ fun heq => column_ne h ?_
    rw [hagent, ← show agent.text = agentId from congrArg Prod.fst heq]
  · cases hland

theorem get_landWork {work : Work Share} {rows rows' : OrdMap (String × String) (Option Share)}
    (h : names agent work.agentPubkey = false) (hland : landWork rows work = some rows')
    (epochId : String) : rows'.get (agent.text, epochId) = rows.get (agent.text, epochId) := by
  cases work with
  | storeShare agentPubkey epochId' share => exact get_landWork_insert h hland epochId
  | dkgRound3 agentPubkey epochId' share shareCommitment =>
    rw [landWork] at hland
    exact get_landWork_insert h hland epochId
  | refreshRound2 agentPubkey toEpochId share => exact get_landWork_insert h hland epochId
  | destroyShares agentPubkey =>
    have hother : agentPubkey.column ≠ some agent.text := column_ne h
    obtain rfl := Option.some.inj hland
    rw [OrdMap.get_mapWithKey]
    simp only [if_neg hother]
    exact Option.map_id'

theorem land_keeps {call : ℕ} (hidle : n.Idle agent) : Keeps agent n (step cfg n (.land call)) := by
  rw [step]
  cases hw : n.waiting call with
  | none => exact Keeps.refl n
  | some w =>
    dsimp only
    have hnames := hidle call w hw
    split_ifs
    · exact Keeps.refl n
    · cases hland : landWork n.rows w.work with
      | none => exact Keeps.refl n
      | some rows =>
        refine ⟨?_, fun _ call' w' hw' => ?_⟩
        · simp only [Node.thresholdState, get_landWork hnames hland]
        · dsimp only at hw'
          by_cases hcall : call' = call
          · subst hcall
            rw [Function.update_self] at hw'
            cases hw'
            exact hnames
          · rw [Function.update_of_ne hcall] at hw'
            exact hidle call' w' hw'

theorem settleWork_keeps {ok : Bool} {work : Work Share} (h : names agent work.agentPubkey = false) :
    Keeps agent n (settleWork n ok work) := by
  have hepoch : ∀ (currentEpoch : OrdMap Value EpochNumber) (epoch : EpochNumber),
      (currentEpoch.set work.agentPubkey epoch).get (.string agent.text) =
        currentEpoch.get (.string agent.text) :=
    fun _ _ => OrdMap.get_set_of_ne _ _ (string_ne h)
  cases work with
  | storeShare agentPubkey epochId share => exact Keeps.refl n
  | dkgRound3 agentPubkey epochId share shareCommitment =>
    cases ok with
    | false => exact Keeps.setMemory rfl rfl
    | true =>
      have hmemory : Keeps agent n
          (n.setMemory (dkgStored (Value.string agentPubkey) epochId n.memory)) :=
        Keeps.of_get (fun _ => rfl) (hepoch _ _)
      have hregister : Keeps agent n
          ((n.setMemory (dkgStored (Value.string agentPubkey) epochId n.memory)).register
            (.string agentPubkey) shareCommitment) := hmemory.trans (Keeps.register h)
      exact ⟨hregister.state, hregister.idle⟩
  | refreshRound2 agentPubkey toEpochId share =>
    cases ok with
    | false => exact Keeps.refl n
    | true => exact Keeps.of_get (fun _ => rfl) (hepoch _ _)
  | destroyShares agentPubkey => exact Keeps.refl n

theorem settle_keeps {call : ℕ} {ok : Bool} (hidle : n.Idle agent) :
    Keeps agent n (step cfg n (.settle call ok)) := by
  rw [step]
  cases hw : n.waiting call with
  | none => exact Keeps.refl n
  | some w =>
    dsimp only
    split_ifs
    · exact Keeps.refl n
    · have hdone : Keeps agent n { n with waiting := Function.update n.waiting call none } := by
        refine ⟨rfl, fun _ call' w' hw' => ?_⟩
        dsimp only at hw'
        by_cases hcall : call' = call
        · subst hcall
          rw [Function.update_self] at hw'
          cases hw'
        · rw [Function.update_of_ne hcall] at hw'
          exact hidle call' w' hw'
      exact hdone.trans (settleWork_keeps (hidle call w hw))

/-- The condition on an event: a frame that names the agent reaches no write. -/
def Spares (cfg : Config) (agent : AgentKey) (n : Node Share) : Event Share → Prop
  | .frame _ f out => names agent f.agentPubkey = true → FrameSpares cfg n out f
  | .land _ => True
  | .settle _ _ => True

theorem step_keeps {event : Event Share} (hidle : n.Idle agent) (h : Spares cfg agent n event) :
    Keeps agent n (step cfg n event) := by
  cases event with
  | frame call f out =>
    rw [step]
    cases n.waiting call with
    | none => exact handle_keeps h
    | some w => exact Keeps.refl n
  | land call => exact land_keeps hidle
  | settle call ok => exact settle_keeps hidle

/-- **The threshold state of an agent is what it was, as long as no frame that names the agent reaches a
write.** -/
theorem threshold_state_kept (cfg : Config) (agent : AgentKey) (n : Node Share)
    (hidle : n.Idle agent) (events : List (Event Share))
    (h : Guarded (step cfg) (Spares cfg agent) n events) (m : ℕ) :
    ((events.take m).foldl (step cfg) n).thresholdState agent = n.thresholdState agent := by
  have hkept : ∀ (n' : Node Share) (event : Event Share), Keeps agent n n' ∧ n'.Idle agent →
      Spares cfg agent n' event →
        Keeps agent n (step cfg n' event) ∧ (step cfg n' event).Idle agent := by
    intro n' event hn' hspares
    have hstep := step_keeps hn'.2 hspares
    exact ⟨hn'.1.trans hstep, hstep.idle hn'.2⟩
  exact (Guarded.invariant hkept ⟨Keeps.refl n, hidle⟩ h m).1.state

end Events

/-! ### A key generation for another's key -/

namespace Sample

/-- A node that has the gate of capabilities; no signature verifies. -/
def config : Config where
  crypto :=
    { sha256 := id
      verify := fun _ _ _ => some false
      decodeCapability := fun blob => some ⟨blob⟩
      verifyCapability := fun _ => .ok () }
  testMode := false
  preAuth := .capability
  pgPool := true

theorem a1_noColon : ':' ∉ "a1".toList := by decide

def registered : AgentKey := ⟨"a1", a1_noColon⟩

/-- The agent has come through its key generation. -/
def node : Node ℕ where
  memory :=
    { shares := OrdMap.empty.set "a1:a1:epoch:1" 7
      currentEpoch := OrdMap.empty.set (.string "a1") 1
      pendingNonces := OrdMap.empty
      inFlight := OrdMap.empty
      dkgStates := OrdMap.empty }
  rows := OrdMap.empty.set ("a1", "a1:epoch:1") (some 7)
  waiting := fun _ => none
  thresholdSigners := OrdMap.empty.set (.string "a1") [1]
  primaryPubkeys := OrdMap.empty.set (.string "a1") [1]
  pendingDkgCommitments := OrdMap.empty
  boundNonces := OrdMap.empty

/-- The library comes to a share and a group key, and the database does not say that the agent is
suspended. -/
def outcome : Outcome ℕ where
  now := 0
  suspension := .clear
  redeemed := .notFound
  token := .error "PRE_AUTH_TOKEN_NOT_FOUND"
  cosign := none
  commit := fun share => some share
  signShare := fun _ _ => none
  round1 := true
  round2 := true
  round3 := some (8, [2])
  contribution := fun _ => true
  applyRefresh := fun share => .ok (share + 1)

/-- Another generates a key under the agent's name, with a capability of its own. -/
def keyGeneration : List (Event ℕ) :=
  [.frame 0 (.dkgRound1Request "a1" "a1:epoch:2" (some "capability")) outcome,
    .frame 0 (.dkgRound2Request "a1" "a1:epoch:2") outcome,
    .frame 0 (.dkgRound3Request "a1" "a1:epoch:2") outcome,
    .land 0,
    .settle 0 true]

/-- Another refreshes the share that is held. -/
def refresh : List (Event ℕ) :=
  [.frame 0 (.refreshRound2Request (.string "a1") (.string "a1:epoch:1") (.string "a1:epoch:2")) outcome,
    .land 0,
    .settle 0 true]

/-- The list of the one key: a template literal makes the key of it, the database `{"a1"}`. -/
def listed : Value := .other 0 "a1" (some "\x7b\"a1\"\x7d") [0]

/-- The share that is held is refreshed under the list, of which the database knows no suspension. -/
def refreshListed : List (Event ℕ) :=
  [.frame 0 (.refreshRound2Request listed (.string "a1:epoch:1") (.string "a1:epoch:1")) outcome]

/-- Another asks for commitments, for the first rounds and for a refresh from an epoch of which nothing
is held. -/
def otherFrames : List (Event ℕ) :=
  [.frame 0 (.commitRequest (.string "a1") (.string "a1:epoch:1") (.bytes [])) outcome,
    .frame 0 (.dkgRound1Request "a1" "a1:epoch:2" (some "capability")) outcome,
    .frame 0 (.dkgRound2Request "a1" "a1:epoch:2") outcome,
    .frame 0 (.refreshRound1Request listed (.string "a1:epoch:1")) outcome,
    .frame 0 (.refreshRound2Request listed (.string "a1:epoch:3") (.string "a1:epoch:4")) outcome]

theorem node_idle : node.Idle registered := fun _ _ h => by cases h

theorem otherFrames_guarded :
    Guarded (step config) (Spares config registered) node otherFrames := by
  refine ⟨fun _ h => ?_, fun _ => trivial, fun _ => trivial, fun _ => ?_, fun _ => ?_, trivial⟩
  · exact absurd h (by decide +kernel)
  · exact fun h => by cases h
  · refine ⟨fun h => (by cases h), fun _ share hshare => ?_⟩
    have hnone : ((otherFrames.take 4).foldl (step config) node).memory.shares.get
        (storeKey listed "a1:epoch:3") = none := by
      decide +kernel
    cases hnone.symm.trans hshare

end Sample

theorem threshold_state_kept_by_other_frames :
    ((Sample.otherFrames.take 5).foldl (step Sample.config) Sample.node).thresholdState Sample.registered =
      Sample.node.thresholdState Sample.registered :=
  threshold_state_kept Sample.config Sample.registered Sample.node Sample.node_idle Sample.otherFrames
    Sample.otherFrames_guarded 5

/-- **A key generation under the agent's name replaces its group key, its signer and its share**, with
the capability of another and no signature of the agent's key; a refresh moves it to another epoch, with
nothing at all, and under a list of the key it does so where the suspension of the agent is not seen. -/
theorem replaced_by_key_generation :
    Sample.node.Idle Sample.registered ∧
      (Sample.node.thresholdState Sample.registered).primaryPubkey = some [1] ∧
      let generated :=
        (Sample.keyGeneration.foldl (step Sample.config) Sample.node).thresholdState Sample.registered
      generated.primaryPubkey = some [2] ∧ generated.thresholdSigner = some [2] ∧
        generated.currentEpoch = some 2 ∧ generated.shares "a1:epoch:2" = some 8 ∧
        ((Sample.refresh.foldl (step Sample.config) Sample.node).thresholdState
          Sample.registered).currentEpoch = some 2 ∧
        ((Sample.refreshListed.foldl (step Sample.config) Sample.node).thresholdState
          Sample.registered).shares "a1:epoch:1" = some 8 := by
  refine ⟨Sample.node_idle, ?_⟩
  decide +kernel

end Cello.Directory.Frost.Stream
