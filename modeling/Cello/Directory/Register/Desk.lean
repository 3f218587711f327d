import Cello.Directory.Register.Network

/-!
# The desk of a node

What of a node decides whether a registration gets on: the attempts, with what they wait with under their keys; the
nonces, with the first rounds that were let through; and the answers.  `Desk.Moves` lists what an event can do to
them, and `step_moves` shows that every event of a node makes one of these moves.  What holds of registrations in
every run is derived from the moves.
-/

namespace Cello.Directory.Register

def Answer.isSuccess : Answer → Bool
  | .registerSuccess _ _ => true
  | _ => false

/-- The part of a node that a registration goes over. -/
structure Desk where
  attempts : List Attempt
  /-- The attempt whose promise a key resolves. -/
  resolver : String → Option ℕ
  /-- The operator that a registration of a key will take. -/
  stash : String → Option PreAuth
  bound : List (String × PreAuth)
  nonces : List (String × String)
  answers : List (String × Answer)

def Node.desk (node : Node) : Desk where
  attempts := node.mem.attempts
  resolver := node.mem.pendingDkgComplete
  stash := node.mem.pendingPreAuthData
  bound := node.mem.bound
  nonces := node.db.nonces
  answers := node.answers

namespace Desk

def Fires (d : Desk) (k : String) (e : Event) : Prop :=
  ∃ j frame, e = .timeout j ∧ d.attempts[j]? = some ⟨frame, .waiting⟩ ∧ frame.kLocalPubkey = k

/-- An attempt gets its answer. -/
def finish (d : Desk) (i : ℕ) (frame : RegisterRequest) (answer : Answer) : Desk :=
  { d with
    attempts := d.attempts.set i ⟨frame, .answered answer⟩
    answers := d.answers ++ [(frame.kLocalPubkey, answer)] }

def dropResolver (d : Desk) (k : String) : Desk := { d with resolver := Function.update d.resolver k none }

def dropStash (d : Desk) (k : String) : Desk := { d with stash := Function.update d.stash k none }

/-- **What an event does at the desk.** -/
inductive Moves (d : Desk) : Event → Desk → Prop where
  | idle (e : Event) (hno : ∀ k, ¬ d.Fires k e) : Moves d e d
  | bound (k : String) (c : Capability) (hfree : ∀ b ∈ d.nonces, b.1 ≠ c.nonce) :
      Moves d (.round1 k c) { d with nonces := d.nonces ++ [(c.nonce, k)], bound := d.bound ++ [(k, c.preAuth)] }
  | boundAgain (k : String) (c : Capability) (hbound : (c.nonce, k) ∈ d.nonces) :
      Moves d (.round1 k c) { d with bound := d.bound ++ [(k, c.preAuth)] }
  | stashed (i : ℕ) (k : String) (preAuth : PreAuth) (hi : d.bound[i]? = some (k, preAuth)) :
      Moves d (.stash i) { d with bound := d.bound.eraseIdx i, stash := Function.update d.stash k (some preAuth) }
  | opened (frame : RegisterRequest) (topologyOk : Bool) :
      Moves d (.registerRequest frame topologyOk) { d with
        attempts := d.attempts ++ [⟨frame, .waiting⟩]
        resolver := Function.update d.resolver frame.kLocalPubkey (some d.attempts.length) }
  | refused (frame : RegisterRequest) (topologyOk : Bool) (answer : Answer) (hno : answer.isSuccess = false) :
      Moves d (.registerRequest frame topologyOk) { d.dropStash frame.kLocalPubkey with
        attempts := d.attempts ++ [⟨frame, .answered answer⟩]
        answers := d.answers ++ [(frame.kLocalPubkey, answer)] }
  | expired (i : ℕ) (frame : RegisterRequest) (hi : d.attempts[i]? = some ⟨frame, .waiting⟩) :
      Moves d (.timeout i)
        (((d.dropResolver frame.kLocalPubkey).dropStash frame.kLocalPubkey).finish i frame .dkgFailed)
  | cleared (authedPubkey : String) (dkg : DkgComplete) (agentId : String) (now : ℤ) :
      Moves d (.dkgComplete authedPubkey dkg agentId now) (d.dropResolver authedPubkey)
  | failed (authedPubkey : String) (dkg : DkgComplete) (agentId : String) (now : ℤ) (i : ℕ) (frame : RegisterRequest)
      (answer : Answer) (hresolves : d.resolver authedPubkey = some i)
      (hi : d.attempts[i]? = some ⟨frame, .waiting⟩) (hno : answer.isSuccess = false) :
      Moves d (.dkgComplete authedPubkey dkg agentId now)
        (((d.dropResolver authedPubkey).dropStash frame.kLocalPubkey).finish i frame answer)
  | linking (authedPubkey : String) (dkg : DkgComplete) (agentId : String) (now : ℤ) (i : ℕ)
      (frame : RegisterRequest) (preAuth : PreAuth) (hresolves : d.resolver authedPubkey = some i)
      (hi : d.attempts[i]? = some ⟨frame, .waiting⟩) (hstash : d.stash frame.kLocalPubkey = some preAuth) :
      Moves d (.dkgComplete authedPubkey dkg agentId now)
        { (d.dropResolver authedPubkey).dropStash frame.kLocalPubkey with
          attempts := d.attempts.set i ⟨frame, .linking agentId dkg preAuth⟩ }
  | unlinked (authedPubkey : String) (dkg : DkgComplete) (agentId : String) (now : ℤ) (i : ℕ)
      (frame : RegisterRequest) (hresolves : d.resolver authedPubkey = some i)
      (hi : d.attempts[i]? = some ⟨frame, .waiting⟩) (hstash : d.stash frame.kLocalPubkey = none)
      (hstub : frame.phoneStub ≠ "") :
      Moves d (.dkgComplete authedPubkey dkg agentId now)
        (((d.dropResolver authedPubkey).dropStash frame.kLocalPubkey).finish i frame
          (.registerSuccess agentId dkg.primaryPubkey))
  | registered (i : ℕ) (drawn : Option String) (now : ℤ) (frame : RegisterRequest) (agentId : String)
      (dkg : DkgComplete) (preAuth : PreAuth) (hi : d.attempts[i]? = some ⟨frame, .linking agentId dkg preAuth⟩) :
      Moves d (.linked i drawn now) (d.finish i frame (.registerSuccess agentId dkg.primaryPubkey))
  | restarted : Moves d .restart
      { d with attempts := [], resolver := fun _ => none, stash := fun _ => none, bound := [] }

end Desk

/-! ### Every event makes a move -/

variable {cfg : Config} {node : Node} {d d' : Desk} {e : Event} {i : ℕ} {frame : RegisterRequest} {k : String}

theorem not_fires (h : ∀ j, e ≠ .timeout j) (k : String) : ¬ d.Fires k e := by
  rintro ⟨j, -, he, -⟩
  exact h j he

theorem moves_tables {node' : Node} (hno : ∀ j, e ≠ .timeout j) (hnonces : node'.db.nonces = node.db.nonces)
    (hrest : { node'.desk with nonces := node.db.nonces } = node.desk) : node.desk.Moves e node'.desk := by
  have hdesk : node'.desk = node.desk := by
    rw [← hrest, ← hnonces]
    rfl
  rw [hdesk]
  exact .idle _ (not_fires hno)

theorem moves_round1 (c : Capability) : node.desk.Moves (.round1 k c) (node.round1 k c).desk := by
  unfold Node.round1 Tables.bindNonce
  cases hfind : node.db.nonces.find? fun b => decide (b.1 = c.nonce) with
  | none =>
    have hfree : ∀ b ∈ node.desk.nonces, b.1 ≠ c.nonce := fun b hb =>
      of_decide_eq_false (Bool.eq_false_iff.2 (List.find?_eq_none.1 hfind b hb))
    exact .bound k c hfree
  | some b =>
    dsimp only
    by_cases hsame : b.2 = k
    · rw [decide_eq_true hsame]
      have hfound := List.find?_some hfind
      have hnonce : b.1 = c.nonce := of_decide_eq_true hfound
      have hmem : (c.nonce, k) ∈ node.desk.nonces := by
        rw [← hnonce, ← hsame]
        exact List.mem_of_find?_eq_some hfind
      exact .boundAgain k c hmem
    · rw [decide_eq_false hsame]
      exact .idle _ (not_fires nofun)

theorem moves_refused (frame : RegisterRequest) (topologyOk : Bool) {answer : Answer} (hno : answer.isSuccess = false) :
    node.desk.Moves (.registerRequest frame topologyOk)
      (({ node with mem := { node.mem with attempts := node.mem.attempts ++ [⟨frame, .waiting⟩] } } : Node).refuse
        node.mem.attempts.length frame answer).desk := by
  have hset : (node.mem.attempts ++ [(⟨frame, .waiting⟩ : Attempt)]).set node.mem.attempts.length
      ⟨frame, .answered answer⟩ = node.mem.attempts ++ [⟨frame, .answered answer⟩] := by
    rw [List.set_append_right _ _ le_rfl, Nat.sub_self]
    rfl
  have hdesk : (({ node with mem := { node.mem with attempts := node.mem.attempts ++ [⟨frame, .waiting⟩] } } :
      Node).refuse node.mem.attempts.length frame answer).desk =
        { node.desk.dropStash frame.kLocalPubkey with
          attempts := (node.mem.attempts ++ [(⟨frame, .waiting⟩ : Attempt)]).set node.mem.attempts.length
            ⟨frame, .answered answer⟩
          answers := node.desk.answers ++ [(frame.kLocalPubkey, answer)] } := rfl
  rw [hdesk, hset]
  exact .refused frame topologyOk answer hno

theorem moves_resume {authedPubkey : String} {dkg : DkgComplete} {agentId : String} {now : ℤ}
    (hresolves : node.mem.pendingDkgComplete authedPubkey = some i)
    (hi : node.mem.attempts[i]? = some ⟨frame, .waiting⟩) :
    node.desk.Moves (.dkgComplete authedPubkey dkg agentId now)
      (({ node with mem := { node.mem with
        pendingDkgComplete := Function.update node.mem.pendingDkgComplete authedPubkey none } } : Node).resume
          cfg i frame dkg agentId now).desk := by
  unfold Node.resume
  dsimp only
  split
  · exact .failed authedPubkey dkg agentId now i frame .dkgVerificationFailed hresolves hi rfl
  · split
    next preAuth hstash => exact .linking authedPubkey dkg agentId now i frame preAuth hresolves hi hstash
    next hstash =>
      split
      · exact .failed authedPubkey dkg agentId now i frame .invalidVerification hresolves hi rfl
      next hstub => exact .unlinked authedPubkey dkg agentId now i frame hresolves hi hstash hstub

theorem moves_apply (row : Row) : node.desk.Moves (.apply row) (node.apply row).desk := by
  cases row with
  | profile p =>
    unfold Node.apply
    dsimp only
    split
    · exact moves_tables (by nofun) (insertProfile_nonces ..) rfl
    · exact .idle _ (not_fires nofun)
  | revocation r => exact moves_tables (by nofun) (insertRevocation_nonces ..) rfl
  | account a =>
    refine moves_tables (by nofun) ?_ rfl
    unfold Node.apply
    dsimp only
    cases hinsert : node.db.insertAccount { a with emailStubHash := none } with
    | none => rfl
    | some db =>
      obtain ⟨rfl, -⟩ := insertAccount_some hinsert
      rfl
  | link l => exact moves_tables (by nofun) (insertLink_nonces ..) rfl
  | emailStub s => exact moves_tables (by nofun) (insertEmailStub_nonces ..) rfl

/-- **Every event makes one of the moves.** -/
theorem step_moves (e : Event) : node.desk.Moves e (node.step cfg e).desk := by
  cases e with
  | round1 agentPubkey c => exact moves_round1 c
  | stash i =>
    show node.desk.Moves _ (node.stash i).desk
    unfold Node.stash
    split
    · exact .idle _ (not_fires nofun)
    next key preAuth hi => exact .stashed i key preAuth hi
  | round3 agentPubkey c => exact .idle _ (not_fires nofun)
  | registerRequest frame topologyOk =>
    show node.desk.Moves _ (node.registerRequest cfg frame topologyOk).desk
    unfold Node.registerRequest
    dsimp only
    split
    · exact moves_refused frame topologyOk rfl
    · split
      · exact moves_refused frame topologyOk rfl
      · split
        · exact .opened frame topologyOk
        · exact moves_refused frame topologyOk rfl
  | timeout i =>
    show node.desk.Moves _ (node.timeout i).desk
    unfold Node.timeout
    split
    next frame hi => exact .expired i frame hi
    next hno =>
      refine .idle _ ?_
      rintro k ⟨j, frame, he, hj, -⟩
      obtain rfl := Event.timeout.inj he
      exact hno frame hj
  | dkgComplete authedPubkey dkg agentId now =>
    show node.desk.Moves _ (node.dkgComplete cfg authedPubkey dkg agentId now).desk
    unfold Node.dkgComplete
    split
    · exact .idle _ (not_fires nofun)
    next i hresolves =>
      split
      next frame hi => exact moves_resume hresolves hi
      · exact .cleared authedPubkey dkg agentId now
  | linked i drawn now =>
    show node.desk.Moves _ (node.linked i drawn now).desk
    unfold Node.linked
    split
    next frame agentId dkg preAuth hi =>
      split
      next db accountId hresolved =>
        obtain ⟨drawn', -, hresolved⟩ := Option.bind_eq_some_iff.1 hresolved
        have hdesk : ({ node with db := db } : Node).desk = node.desk := by
          show { node.desk with nonces := db.nonces } = node.desk
          rw [nonces_resolveOrCreateAccount hresolved]
          rfl
        have hmoves : ({ node with db := db } : Node).desk.Moves (.linked i drawn now)
            (({ node with db := db } : Node).register i frame dkg agentId preAuth.phoneStubHash (some accountId)
              now).desk := .registered i drawn now frame agentId dkg preAuth hi
        exact hdesk ▸ hmoves
      · exact .registered i drawn now frame agentId dkg preAuth hi
    · exact .idle _ (not_fires nofun)
  | land i =>
    show node.desk.Moves _ (node.land i).desk
    unfold Node.land
    split
    · exact .idle _ (not_fires nofun)
    next w _ =>
      unfold Node.execute
      split
      · exact moves_tables (by nofun) (insertLink_nonces ..) rfl
      · exact moves_tables (by nofun) (insertProfile_nonces ..) rfl
      · split
        · exact .idle _ (not_fires nofun)
        · split
          · exact moves_tables (by nofun) (insertProfile_nonces ..) rfl
          · exact .idle _ (not_fires nofun)
  | apply row => exact moves_apply row
  | readThrough pubkey =>
    show node.desk.Moves _ (node.readThrough cfg pubkey).desk
    unfold Node.readThrough
    split
    · exact .idle _ (not_fires nofun)
    · split
      · exact .idle _ (not_fires nofun)
      · exact .idle _ (not_fires nofun)
  | revoke authedPubkey r =>
    show node.desk.Moves _ (node.revoke authedPubkey r).desk
    unfold Node.revoke
    split
    · exact .idle _ (not_fires nofun)
    · split
      · exact .idle _ (not_fires nofun)
      · exact moves_tables (by nofun) (insertRevocation_nonces ..) rfl
  | suspend s => exact .idle _ (not_fires nofun)
  | restart =>
    obtain ⟨hstash, -, hresolver, hattempts, hbound, -⟩ := Memory.load_idle cfg node.db
    have hdesk : (node.restart cfg).desk =
        { node.desk with attempts := [], resolver := fun _ => none, stash := fun _ => none, bound := [] } := by
      rw [← hattempts, ← hresolver, ← hstash, ← hbound]
      rfl
    show node.desk.Moves _ (node.restart cfg).desk
    rw [hdesk]
    exact .restarted

end Cello.Directory.Register
