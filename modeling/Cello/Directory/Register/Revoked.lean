import Cello.Directory.Register.Node
import Cello.Lib.GuardedRun

/-!
# A revoked agent at the gate

`isAgentRevoked` asks a set of keys in the memory of the process.  The set is filled from the tables when the process
starts, and a revocation that is filed here adds the key of the cached profile.  What anti-entropy inserts goes past
it: a revocation whose profile is there already, or a profile whose revocation is.

`refusesRevoked_iff` says exactly which runs keep the gate in step with the tables.
-/

namespace Cello.Directory.Register

open Lib

/-- **Every agent whose revocation and profile are stored is refused.** -/
def Node.RefusesRevoked (node : Node) : Prop :=
  ∀ r ∈ node.db.revocations, ∀ p ∈ node.db.profiles, p.agentId = some r.agentId →
    node.isAgentRevoked p.kLocalPubkey = true

def Tables.inserts (db : Tables) : Write → Option ProfileRow
  | .profile p accountId =>
    if db.admits (p.row accountId) && accountId.all db.hasAccount then some (p.row accountId) else none
  | .link _ => none

namespace Node

variable (node : Node)

def arriving : Event → Option ProfileRow
  | .land i => node.mem.writes[i]?.bind node.db.inserts
  | .apply (.profile p) =>
    if p.agentId.isSome && node.db.admits { p with accountId := none } then some { p with accountId := none } else none
  | _ => none

def revokedBy (authedPubkey : String) (r : Revocation) : Option Profile :=
  (node.mem.getProfile authedPubkey).filter fun p =>
    decide (p.agentId = r.agentId) && decide (r.agentId ∉ node.mem.revocationsByAgentId)

def revoking : Event → Option Revocation
  | .apply (.revocation r) => some r
  | .revoke authedPubkey r => (node.revokedBy authedPubkey r).map fun _ => r
  | _ => none

def blocking : Event → Option String
  | .revoke authedPubkey r =>
    ((node.revokedBy authedPubkey r).map Profile.kLocalPubkey).filter fun k => decide (k ≠ "")
  | _ => none

/-- **The writers feed the gate**: a profile that is inserted while its agent is revoked has its key in the set; and
when a revocation is stored, the keys of the agent's profiles are in the set or added to it. -/
def FeedsGate (e : Event) : Prop :=
  (∀ p, node.arriving e = some p → ∀ r ∈ node.db.revocations, p.agentId = some r.agentId →
    node.isAgentRevoked p.kLocalPubkey = true) ∧
  ∀ r, node.revoking e = some r → ∀ p ∈ node.db.profiles, p.agentId = some r.agentId →
    node.isAgentRevoked p.kLocalPubkey = true ∨ node.blocking e = some p.kLocalPubkey

end Node

/-! ### What a step does to the gate -/

/-- Profiles, revocations and the set of keys are the same. -/
structure Node.SameGate (node node' : Node) : Prop where
  profiles : node'.db.profiles = node.db.profiles
  revocations : node'.db.revocations = node.db.revocations
  keys : node'.mem.revokedPubkeys = node.mem.revokedPubkeys

/-- What an event leaves of the profiles, the revoked agents and the set. -/
structure Node.GateStep (node : Node) (e : Event) (node' : Node) : Prop where
  profiles : ∀ p, p ∈ node'.db.profiles ↔ p ∈ node.db.profiles ∨ node.arriving e = some p
  revoked : ∀ id, (∃ r ∈ node'.db.revocations, r.agentId = id) ↔
    (∃ r ∈ node.db.revocations, r.agentId = id) ∨ ∃ r, node.revoking e = some r ∧ r.agentId = id
  keys : ∀ k, k ∈ node'.mem.revokedPubkeys ↔ k ∈ node.mem.revokedPubkeys ∨ node.blocking e = some k

variable {cfg : Config} {node node' : Node}

theorem Node.SameGate.refl (node : Node) : node.SameGate node := ⟨rfl, rfl, rfl⟩

theorem Node.SameGate.trans {node'' : Node} (h : node.SameGate node') (h' : node'.SameGate node'') :
    node.SameGate node'' :=
  ⟨h'.profiles.trans h.profiles, h'.revocations.trans h.revocations, h'.keys.trans h.keys⟩

theorem Node.SameGate.gateStep (h : node.SameGate node') {e : Event} (harriving : node.arriving e = none)
    (hrevoking : node.revoking e = none) (hblocking : node.blocking e = none) : node.GateStep e node' := by
  refine ⟨fun p => ?_, fun id => ?_, fun k => ?_⟩
  · rw [h.profiles, harriving]
    exact ⟨.inl, fun hp => hp.resolve_right fun hnone => by cases hnone⟩
  · rw [h.revocations, hrevoking]
    refine ⟨.inl, fun hr => hr.resolve_right ?_⟩
    rintro ⟨r, hnone, -⟩
    cases hnone
  · rw [h.keys, hblocking]
    exact ⟨.inl, fun hk => hk.resolve_right fun hnone => by cases hnone⟩

theorem sameGate_register (node : Node) (i : ℕ) (frame : RegisterRequest) (dkg : DkgComplete)
    (agentId phone : String) (accountId : Option String) (now : ℤ) :
    node.SameGate (node.register i frame dkg agentId phone accountId now) := ⟨rfl, rfl, rfl⟩

theorem sameGate_registerRequest (frame : RegisterRequest) (topologyOk : Bool) :
    node.SameGate (node.registerRequest cfg frame topologyOk) := by
  unfold Node.registerRequest
  dsimp only
  split
  · exact ⟨rfl, rfl, rfl⟩
  · cases node.mem.getProfile frame.kLocalPubkey with
    | some p => exact ⟨rfl, rfl, rfl⟩
    | none =>
      dsimp only
      split <;> exact ⟨rfl, rfl, rfl⟩

theorem sameGate_resume (i : ℕ) (frame : RegisterRequest) (dkg : DkgComplete) (agentId : String) (now : ℤ) :
    node.SameGate (node.resume cfg i frame dkg agentId now) := by
  unfold Node.resume
  dsimp only
  split
  · exact ⟨rfl, rfl, rfl⟩
  · cases node.mem.pendingPreAuthData frame.kLocalPubkey with
    | some preAuth => exact ⟨rfl, rfl, rfl⟩
    | none =>
      dsimp only
      split <;> exact ⟨rfl, rfl, rfl⟩

theorem sameGate_dkgComplete (authedPubkey : String) (dkg : DkgComplete) (agentId : String) (now : ℤ) :
    node.SameGate (node.dkgComplete cfg authedPubkey dkg agentId now) := by
  unfold Node.dkgComplete
  cases node.mem.pendingDkgComplete authedPubkey with
  | none => exact Node.SameGate.refl node
  | some i =>
    dsimp only
    split
    next frame _ =>
      have htaken : node.SameGate { node with mem := { node.mem with
          pendingDkgComplete := Function.update node.mem.pendingDkgComplete authedPubkey none } } := ⟨rfl, rfl, rfl⟩
      exact htaken.trans (sameGate_resume i frame dkg agentId now)
    · exact ⟨rfl, rfl, rfl⟩

theorem sameGate_linked (i : ℕ) (drawn : Option String) (now : ℤ) : node.SameGate (node.linked i drawn now) := by
  unfold Node.linked
  split
  next frame agentId dkg preAuth _ =>
    cases hresolved : drawn.bind (node.db.resolveOrCreateAccount preAuth.phoneStubHash preAuth.emailStubHash) with
    | none => exact sameGate_register node i frame dkg agentId _ none now
    | some found =>
      obtain ⟨db, accountId⟩ := found
      obtain ⟨id, -, hresolve⟩ := Option.bind_eq_some_iff.1 hresolved
      obtain ⟨-, -, hprofiles, hrevocations, -⟩ := resolveOrCreateAccount_some hresolve
      have hfound : node.SameGate { node with db := db } := ⟨hprofiles, hrevocations, rfl⟩
      exact hfound.trans (sameGate_register _ i frame dkg agentId _ (some accountId) now)
  · exact Node.SameGate.refl node

theorem gateStep_insertProfile {e : Event} {p : ProfileRow}
    (hprofiles : node'.db.profiles = (node.db.insertProfile p).profiles)
    (hrevocations : node'.db.revocations = node.db.revocations)
    (hkeys : node'.mem.revokedPubkeys = node.mem.revokedPubkeys)
    (harriving : ∀ q, node.arriving e = some q ↔ node.db.admits p = true ∧ q = p)
    (hrevoking : node.revoking e = none) (hblocking : node.blocking e = none) : node.GateStep e node' := by
  refine ⟨fun q => ?_, fun id => ?_, fun k => ?_⟩
  · rw [hprofiles, mem_insertProfile, harriving]
  · rw [hrevocations, hrevoking]
    refine ⟨.inl, fun hr => hr.resolve_right ?_⟩
    rintro ⟨r, hnone, -⟩
    cases hnone
  · rw [hkeys, hblocking]
    exact ⟨.inl, fun hk => hk.resolve_right fun hnone => by cases hnone⟩

theorem exists_insertRevocation {db : Tables} {r : Revocation} (id : String) :
    (∃ r' ∈ (db.insertRevocation r).revocations, r'.agentId = id) ↔
      (∃ r' ∈ db.revocations, r'.agentId = id) ∨ r.agentId = id := by
  constructor
  · rintro ⟨r', hr', hid⟩
    rcases mem_insertRevocation.1 hr' with hr' | ⟨-, rfl⟩
    · exact .inl ⟨r', hr', hid⟩
    · exact .inr hid
  · rintro (⟨r', hr', hid⟩ | hid)
    · exact ⟨r', mem_insertRevocation.2 (.inl hr'), hid⟩
    · obtain ⟨r', hr', hsame⟩ : ∃ r' ∈ (db.insertRevocation r).revocations, r'.agentId = r.agentId :=
        revoked_insertRevocation
      exact ⟨r', hr', hsame.trans hid⟩

theorem mem_execute {w : Write} {q : ProfileRow} :
    q ∈ (node.execute w).db.profiles ↔ q ∈ node.db.profiles ∨ node.db.inserts w = some q := by
  cases w with
  | link l =>
    refine (iff_of_eq (congrArg (q ∈ ·) (insertLink_profiles node.db l))).trans ⟨.inl, fun hq => ?_⟩
    exact hq.resolve_right fun hnone => nomatch hnone
  | profile p accountId =>
    cases accountId with
    | none =>
      have hinserts : node.db.inserts (.profile p none) = some q ↔
          node.db.admits (p.row none) = true ∧ q = p.row none := by
        rw [Tables.inserts, Option.all_none, Bool.and_true]
        split
        next h => simp [h, eq_comm]
        next h => simp [h]
      rw [hinserts]
      exact mem_insertProfile
    | some accountId =>
      unfold Node.execute Tables.inserts
      dsimp only
      by_cases hthere : (node.db.profiles.any fun q => decide (q.kLocalPubkey = p.kLocalPubkey)) = true
      · have hrefused : node.db.admits (p.row (some accountId)) = false := by
          rw [Bool.eq_false_iff]
          intro hadmits
          obtain ⟨q, hq, hsame⟩ := List.any_eq_true.1 hthere
          exact ne_of_admits hadmits hq (of_decide_eq_true hsame)
        rw [if_pos hthere, hrefused, Bool.false_and, if_neg Bool.false_ne_true]
        exact ⟨.inl, fun hq => hq.resolve_right fun hnone => nomatch hnone⟩
      · rw [if_neg hthere, Option.all_some]
        by_cases htakes : (node.db.admits (p.row (some accountId)) && node.db.hasAccount accountId) = true
        · rw [if_pos htakes, if_pos htakes]
          refine mem_insertProfile.trans (or_congr_right ?_)
          rw [Option.some.injEq]
          exact (and_iff_right (Bool.and_eq_true_iff.1 htakes).1).trans eq_comm
        · rw [if_neg htakes, if_neg htakes]
          exact ⟨.inl, fun hq => hq.resolve_right fun hnone => nomatch hnone⟩

theorem execute_revocations (node : Node) (w : Write) : (node.execute w).db.revocations = node.db.revocations ∧
    (node.execute w).mem.revokedPubkeys = node.mem.revokedPubkeys := by
  cases w with
  | link l => exact ⟨insertLink_revocations .., rfl⟩
  | profile p accountId =>
    cases accountId with
    | none => exact ⟨insertProfile_revocations .., rfl⟩
    | some accountId =>
      unfold Node.execute
      dsimp only
      split
      · exact ⟨rfl, rfl⟩
      · split
        · exact ⟨insertProfile_revocations .., rfl⟩
        · exact ⟨rfl, rfl⟩

theorem gateStep_land (i : ℕ) : node.GateStep (.land i) (node.land i) := by
  unfold Node.land
  cases hi : node.mem.writes[i]? with
  | none => exact (Node.SameGate.refl node).gateStep (by rw [Node.arriving, hi, Option.bind_none]) rfl rfl
  | some w =>
    have hsame := execute_revocations { node with mem := { node.mem with writes := node.mem.writes.eraseIdx i } } w
    refine ⟨fun q => ?_, fun id => ?_, fun k => ?_⟩
    · rw [Node.arriving, hi, Option.bind_some]
      exact mem_execute
    · rw [hsame.1]
      refine ⟨.inl, fun hr => hr.resolve_right ?_⟩
      rintro ⟨r, hnone, -⟩
      cases hnone
    · rw [hsame.2]
      exact ⟨.inl, fun hk => hk.resolve_right fun hnone => nomatch hnone⟩

theorem gateStep_apply (row : Row) : node.GateStep (.apply row) (node.apply row) := by
  cases row with
  | profile p =>
    dsimp only [Node.apply]
    split
    next hid =>
      refine gateStep_insertProfile rfl (insertProfile_revocations ..) rfl (fun q => ?_) rfl rfl
      rw [Node.arriving, hid, Bool.true_and]
      split
      next h => simp [h, eq_comm]
      next h => simp [h]
    next hid =>
      refine (Node.SameGate.refl node).gateStep ?_ rfl rfl
      rw [Node.arriving, Bool.eq_false_iff.2 hid, Bool.false_and, if_neg Bool.false_ne_true]
  | revocation r =>
    refine ⟨fun p => ?_, fun id => ?_, fun k => ⟨.inl, fun hk => hk.resolve_right fun hnone => nomatch hnone⟩⟩
    · exact (iff_of_eq (congrArg (p ∈ ·) (insertRevocation_profiles node.db r))).trans
        ⟨.inl, fun hp => hp.resolve_right fun hnone => nomatch hnone⟩
    · refine (exists_insertRevocation id).trans (or_congr_right ⟨fun hid => ⟨r, rfl, hid⟩, ?_⟩)
      rintro ⟨r', hr', hid⟩
      obtain rfl := Option.some.inj hr'
      exact hid
  | account a =>
    dsimp only [Node.apply]
    cases hinsert : node.db.insertAccount { a with emailStubHash := none } with
    | none => exact (Node.SameGate.refl node).gateStep rfl rfl rfl
    | some db =>
      have hdb := (insertAccount_some hinsert).1
      have hsame : node.SameGate { node with db := db } := ⟨by rw [hdb], by rw [hdb], rfl⟩
      exact hsame.gateStep rfl rfl rfl
  | link l =>
    have hsame : node.SameGate (node.apply (.link l)) := ⟨insertLink_profiles .., insertLink_revocations .., rfl⟩
    exact hsame.gateStep rfl rfl rfl
  | emailStub s =>
    have hsame : node.SameGate (node.apply (.emailStub s)) :=
      ⟨insertEmailStub_profiles .., insertEmailStub_revocations .., rfl⟩
    exact hsame.gateStep rfl rfl rfl

theorem gateStep_revoke (authedPubkey : String) (r : Revocation) :
    node.GateStep (.revoke authedPubkey r) (node.revoke authedPubkey r) := by
  unfold Node.revoke
  cases hcached : node.mem.getProfile authedPubkey with
  | none =>
    have hrevoked : node.revokedBy authedPubkey r = none := by rw [Node.revokedBy, hcached, Option.filter_none]
    refine (Node.SameGate.refl node).gateStep rfl ?_ ?_
    · rw [Node.revoking, hrevoked, Option.map_none]
    · rw [Node.blocking, hrevoked, Option.map_none, Option.filter_none]
  | some p =>
    dsimp only
    split
    next hrefused =>
      have hrevoked : node.revokedBy authedPubkey r = none := by
        rw [Node.revokedBy, hcached, Option.filter_some, if_neg]
        rw [Bool.and_eq_true_iff, decide_eq_true_iff, decide_eq_true_iff]
        rintro ⟨hid, hfresh⟩
        exact hrefused.elim (fun hne => hne hid) hfresh
      refine (Node.SameGate.refl node).gateStep rfl ?_ ?_
      · rw [Node.revoking, hrevoked, Option.map_none]
      · rw [Node.blocking, hrevoked, Option.map_none, Option.filter_none]
    next haccepted =>
      obtain ⟨hid, hfresh⟩ := not_or.1 haccepted
      have hrevoked : node.revokedBy authedPubkey r = some p := by
        rw [Node.revokedBy, hcached, Option.filter_some, if_pos]
        rw [Bool.and_eq_true_iff, decide_eq_true_iff, decide_eq_true_iff]
        exact ⟨not_not.1 hid, hfresh⟩
      refine ⟨fun q => ?_, fun id => ?_, fun k => ?_⟩
      · exact (iff_of_eq (congrArg (q ∈ ·) (insertRevocation_profiles node.db r))).trans
          ⟨.inl, fun hp => hp.resolve_right fun hnone => nomatch hnone⟩
      · rw [Node.revoking, hrevoked, Option.map_some]
        refine (exists_insertRevocation id).trans (or_congr_right ⟨fun hid => ⟨r, rfl, hid⟩, ?_⟩)
        rintro ⟨r', hr', hid⟩
        obtain rfl := Option.some.inj hr'
        exact hid
      · rw [Node.blocking, hrevoked, Option.map_some, Option.filter_some]
        dsimp only
        by_cases hkey : p.kLocalPubkey = ""
        · have hempty : decide (p.kLocalPubkey ≠ "") = false := decide_eq_false (not_not.2 hkey)
          rw [if_pos hkey, hempty, if_neg Bool.false_ne_true]
          exact ⟨.inl, fun hk => hk.resolve_right fun hnone => nomatch hnone⟩
        · have hnonempty : decide (p.kLocalPubkey ≠ "") = true := decide_eq_true hkey
          rw [if_neg hkey, hnonempty, if_pos rfl, List.mem_cons, Option.some.injEq, or_comm]
          exact or_congr_right eq_comm

/-- **What every event but a restart does to the gate.** -/
theorem gateStep (e : Event) (he : e ≠ .restart) : node.GateStep e (node.step cfg e) := by
  cases e with
  | round1 agentPubkey c =>
    have hsame : node.SameGate (node.round1 agentPubkey c) := by
      unfold Node.round1
      cases hbind : node.db.bindNonce c.nonce agentPubkey with
      | mk db bound =>
        cases bound with
        | false => exact Node.SameGate.refl node
        | true =>
          have hprofiles := hbind ▸ bindNonce_profiles node.db c.nonce agentPubkey
          have hrevocations := hbind ▸ bindNonce_revocations node.db c.nonce agentPubkey
          exact ⟨hprofiles, hrevocations, rfl⟩
    exact hsame.gateStep rfl rfl rfl
  | stash i =>
    have hsame : node.SameGate (node.stash i) := by
      unfold Node.stash
      cases node.mem.bound[i]? <;> exact ⟨rfl, rfl, rfl⟩
    exact hsame.gateStep rfl rfl rfl
  | round3 agentPubkey c =>
    have hsame : node.SameGate (node.round3 agentPubkey c) := ⟨rfl, rfl, rfl⟩
    exact hsame.gateStep rfl rfl rfl
  | registerRequest frame topologyOk =>
    exact (sameGate_registerRequest frame topologyOk).gateStep rfl rfl rfl
  | timeout i =>
    have hsame : node.SameGate (node.timeout i) := by
      unfold Node.timeout
      split <;> exact ⟨rfl, rfl, rfl⟩
    exact hsame.gateStep rfl rfl rfl
  | dkgComplete authedPubkey dkg agentId now =>
    exact (sameGate_dkgComplete authedPubkey dkg agentId now).gateStep rfl rfl rfl
  | linked i drawn now => exact (sameGate_linked i drawn now).gateStep rfl rfl rfl
  | land i => exact gateStep_land i
  | apply row => exact gateStep_apply row
  | readThrough pubkey =>
    have hsame : node.SameGate (node.readThrough cfg pubkey) := by
      unfold Node.readThrough
      split
      · exact Node.SameGate.refl node
      · split <;> exact ⟨rfl, rfl, rfl⟩
    exact hsame.gateStep rfl rfl rfl
  | revoke authedPubkey r => exact gateStep_revoke authedPubkey r
  | suspend s =>
    have hsame : node.SameGate { node with db := node.db.putSuspension s } := ⟨rfl, rfl, rfl⟩
    exact hsame.gateStep rfl rfl rfl
  | restart => exact absurd rfl he

/-! ### The condition is exact -/

theorem revokedPubkeys_step (e : Event) (h : "" ∉ node.mem.revokedPubkeys) :
    "" ∉ (node.step cfg e).mem.revokedPubkeys := by
  by_cases he : e = .restart
  · subst he
    intro hmem
    obtain ⟨p, hp, hkey⟩ := List.mem_map.1 hmem
    have hfilter := (List.mem_filter.1 hp).2
    exact absurd hkey (of_decide_eq_true (Bool.and_eq_true_iff.1 hfilter).1)
  · intro hmem
    rcases ((gateStep e he).keys "").1 hmem with hmem | hblocking
    · exact h hmem
    · cases e with
      | revoke authedPubkey r =>
        have hkey := (Option.filter_eq_some_iff.1 hblocking).2
        exact of_decide_eq_true hkey rfl
      | _ => cases hblocking

theorem arriving_alone {e : Event} {p : ProfileRow} (h : node.arriving e = some p) :
    node.revoking e = none ∧ node.blocking e = none := by
  cases e with
  | land i => exact ⟨rfl, rfl⟩
  | apply row =>
    cases row with
    | profile p => exact ⟨rfl, rfl⟩
    | _ => cases h
  | _ => cases h

theorem refusesRevoked_restart (hempty : "" ∉ node.mem.revokedPubkeys) (h : node.RefusesRevoked) :
    (node.restart cfg).RefusesRevoked := by
  intro r hr p hp hid
  have hkey : p.kLocalPubkey ≠ "" := fun hkey => hempty (hkey ▸ of_decide_eq_true (h r hr p hp hid))
  refine decide_eq_true (List.mem_map.2 ⟨p, List.mem_filter.2 ⟨hp, ?_⟩, rfl⟩)
  rw [decide_eq_true hkey, Bool.true_and]
  exact List.any_eq_true.2 ⟨r, hr, decide_eq_true hid⟩

/-- **The condition is exact for one event.** -/
theorem refusesRevoked_step_iff (e : Event) (hempty : "" ∉ node.mem.revokedPubkeys) (h : node.RefusesRevoked) :
    (node.step cfg e).RefusesRevoked ↔ node.FeedsGate e := by
  by_cases he : e = .restart
  · subst he
    exact ⟨fun _ => ⟨fun _ hp => (nomatch hp), fun _ hr => (nomatch hr)⟩, fun _ => refusesRevoked_restart hempty h⟩
  have hstep : node.GateStep e (node.step cfg e) := gateStep e he
  have hrevoked : ∀ k, (node.step cfg e).isAgentRevoked k = true ↔
      node.isAgentRevoked k = true ∨ node.blocking e = some k := by
    intro k
    rw [Node.isAgentRevoked, Node.isAgentRevoked, decide_eq_true_iff, decide_eq_true_iff]
    exact hstep.keys k
  constructor
  · intro hafter
    refine ⟨fun p hp r hr hid => ?_, fun r hr p hp hid => ?_⟩
    · obtain ⟨r', hr', hsame⟩ := (hstep.revoked r.agentId).2 (.inl ⟨r, hr, rfl⟩)
      have hgate := hafter r' hr' p ((hstep.profiles p).2 (.inr hp)) (hsame ▸ hid)
      refine ((hrevoked _).1 hgate).resolve_right ?_
      rw [(arriving_alone hp).2]
      exact fun hnone => nomatch hnone
    · obtain ⟨r', hr', hsame⟩ := (hstep.revoked r.agentId).2 (.inr ⟨r, hr, rfl⟩)
      exact (hrevoked _).1 (hafter r' hr' p ((hstep.profiles p).2 (.inl hp)) (hsame ▸ hid))
  · rintro ⟨hprofile, hrevocation⟩ r hr p hp hid
    refine (hrevoked _).2 ?_
    rcases (hstep.revoked r.agentId).1 ⟨r, hr, rfl⟩ with ⟨r', hr', hsame⟩ | ⟨r', hr', hsame⟩
    · rcases (hstep.profiles p).1 hp with hp | hp
      · exact .inl (h r' hr' p hp (hsame ▸ hid))
      · exact .inl (hprofile p hp r' hr' (hsame ▸ hid))
    · rcases (hstep.profiles p).1 hp with hp | hp
      · exact hrevocation r' hr' p hp (hsame ▸ hid)
      · rw [(arriving_alone hp).1] at hr'
        cases hr'

/-- **A revoked agent is refused wherever its revocation is stored**, in every state of a run, if and only if every
event of the run feeds the gate: no profile is inserted for a revoked agent whose key is not in the set, and no
revocation is stored beside a profile whose key is not in the set or added to it. -/
theorem refusesRevoked_iff (cfg : Config) (events : List Event) :
    (∀ m, ((events.take m).foldl (Node.step cfg) {}).RefusesRevoked) ↔
      Guarded (Node.step cfg) Node.FeedsGate {} events :=
  Guarded.iff_forall (I := fun node : Node => "" ∉ node.mem.revokedPubkeys)
    (fun _ e hempty => revokedPubkeys_step e hempty) (fun _ e hempty h => refusesRevoked_step_iff e hempty h)
    (by decide) (fun _ hr => absurd hr List.not_mem_nil)

/-! ### A revocation that is replicated behind the gate -/

/-- The profile of an agent and its revocation come in from a peer. -/
def revokedElsewhere : List Event :=
  [.apply (.profile ⟨"K", "P", "ml-dsa", "phone", 0, none, some "a", some "binding"⟩),
    .apply (.revocation ⟨"a", "K:epoch:1", "key_compromise", 1⟩)]

/-- **The agent is revoked and not refused** until the process starts again. -/
theorem refusesRevoked_replicated :
    (revokedElsewhere.foldl (Node.step ⟨true, id⟩) {}).isAgentRevoked "K" = false ∧
      ¬ (revokedElsewhere.foldl (Node.step ⟨true, id⟩) {}).RefusesRevoked ∧
      ((revokedElsewhere ++ [Event.restart]).foldl (Node.step ⟨true, id⟩) {}).isAgentRevoked "K" = true := by
  have hgate : (revokedElsewhere.foldl (Node.step ⟨true, id⟩) {}).isAgentRevoked "K" = false := by decide
  refine ⟨hgate, fun h => ?_, by decide⟩
  have hrefused := h ⟨"a", "K:epoch:1", "key_compromise", 1⟩ (by decide)
    ⟨"K", "P", "ml-dsa", "phone", 0, none, some "a", some "binding"⟩ (by decide) rfl
  exact absurd (hrefused.symm.trans hgate) (by decide)

end Cello.Directory.Register
