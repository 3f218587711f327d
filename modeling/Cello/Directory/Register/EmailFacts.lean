import Cello.Directory.Register.Network

/-!
# The email of an account

The address of an account is kept twice: in a column of `user_accounts` that does not replicate, and as a row of
`account_email_stubs`, which the sign-in and the facts are read from.  `createAccount` writes both; registration goes
through `resolveOrCreateAccount`, which writes the column.  So no address that a registration brings is ever found.
-/

namespace Cello.Directory.Register

/-- **The address resolves to the account**, and the account reports it as verified. -/
structure Tables.EmailResolves (db : Tables) (accountId emailStubHash : String) : Prop where
  lookup : db.getAccountByEmailStub emailStubHash = some accountId
  facts : ∃ phone email, db.readAccountFacts accountId = some (phone, email) ∧ email.verified = true

variable {db : Tables} {accountId emailStubHash : String}

theorem not_emailResolves (h : ∀ s ∈ db.emailStubs, s.accountId ≠ accountId) :
    ¬ db.EmailResolves accountId emailStubHash := by
  intro hresolves
  obtain ⟨s, hs, hid⟩ := Option.map_eq_some_iff.1 hresolves.lookup
  exact h s (List.mem_of_find?_eq_some hs) hid

/-! ### What registering leaves -/

variable {cfg : Config} {node : Node}

theorem register_emailStubs {i : ℕ} {frame : RegisterRequest} {dkg : DkgComplete} {agentId phoneStubHash : String}
    {accountId : Option String} {now : ℤ} :
    (node.register i frame dkg agentId phoneStubHash accountId now).db.emailStubs = node.db.emailStubs := rfl

/-- **No event at a node writes an address**, unless it brings a row. -/
theorem step_emailStubs {e : Event} (hbrings : e.brings = false) :
    (node.step cfg e).db.emailStubs = node.db.emailStubs := by
  cases e with
  | round1 agentPubkey c =>
    show (node.round1 agentPubkey c).db.emailStubs = _
    unfold Node.round1
    have hstubs := bindNonce_emailStubs node.db c.nonce agentPubkey
    split
    · rfl
    next db hbind =>
      rw [hbind] at hstubs
      exact hstubs
  | stash i =>
    show (node.stash i).db.emailStubs = _
    unfold Node.stash
    split
    · rfl
    · rfl
  | round3 agentPubkey c => rfl
  | registerRequest frame topologyOk =>
    show (node.registerRequest cfg frame topologyOk).db.emailStubs = _
    unfold Node.registerRequest
    dsimp only
    split
    · rfl
    · split
      · rfl
      · split
        · rfl
        · rfl
  | timeout i =>
    show (node.timeout i).db.emailStubs = _
    unfold Node.timeout
    split
    · rfl
    · rfl
  | dkgComplete authedPubkey dkg agentId now =>
    show (node.dkgComplete cfg authedPubkey dkg agentId now).db.emailStubs = _
    unfold Node.dkgComplete
    split
    · rfl
    · split
      · unfold Node.resume
        dsimp only
        split
        · rfl
        · split
          · rfl
          · split
            · rfl
            · rfl
      · rfl
  | linked i drawn now =>
    show (node.linked i drawn now).db.emailStubs = _
    unfold Node.linked
    split
    · split
      next hresolved =>
        obtain ⟨drawn', -, hresolved⟩ := Option.bind_eq_some_iff.1 hresolved
        exact register_emailStubs.trans (resolveOrCreateAccount_some hresolved).2.1
      · rfl
    · rfl
  | land i =>
    show (node.land i).db.emailStubs = _
    unfold Node.land
    split
    · rfl
    · unfold Node.execute
      split
      · exact insertLink_emailStubs ..
      · exact insertProfile_emailStubs ..
      · split
        · rfl
        · split
          · exact insertProfile_emailStubs ..
          · rfl
  | apply row => cases hbrings
  | readThrough pubkey =>
    show (node.readThrough cfg pubkey).db.emailStubs = _
    unfold Node.readThrough
    split
    · rfl
    · split
      · rfl
      · rfl
  | revoke authedPubkey r =>
    show (node.revoke authedPubkey r).db.emailStubs = _
    unfold Node.revoke
    split
    · rfl
    · split
      · rfl
      · exact insertRevocation_emailStubs ..
  | suspend s => rfl
  | restart => rfl

theorem mem_apply_emailStubs {row : Row} {s : EmailStub} (h : s ∈ (node.apply row).db.emailStubs) :
    s ∈ node.db.emailStubs ∨ row = .emailStub s := by
  cases row with
  | profile p =>
    unfold Node.apply at h
    dsimp only at h
    split at h
    · exact .inl (insertProfile_emailStubs node.db _ ▸ h)
    · exact .inl h
  | revocation r => exact .inl (insertRevocation_emailStubs node.db r ▸ h)
  | account a =>
    unfold Node.apply at h
    dsimp only at h
    cases hinsert : node.db.insertAccount { a with emailStubHash := none } with
    | none =>
      rw [hinsert] at h
      exact .inl h
    | some db' =>
      rw [hinsert] at h
      obtain ⟨rfl, -⟩ := insertAccount_some hinsert
      exact .inl h
  | link l => exact .inl (insertLink_emailStubs node.db l ▸ h)
  | emailStub s' => exact (mem_insertEmailStub h).imp_right fun hs => (congrArg Row.emailStub hs).symm

/-- **No address of an account comes from registering.**  Of an account without an address at the start, such as
every one that is created later, no node ever finds one: not the node that registered it, and not a peer after
anti-entropy. -/
theorem emailResolves_never (cfg : String → Config) (start : Network) (events : List NetworkEvent)
    (accountId emailStubHash : String)
    (hstart : ∀ n, ∀ s ∈ (start n).db.emailStubs, s.accountId ≠ accountId) (n : String) :
    ¬ (events.foldl (Network.step cfg) start n).db.EmailResolves accountId emailStubHash := by
  refine not_emailResolves ?_
  induction events generalizing start with
  | nil => exact hstart n
  | cons e rest ih =>
    refine ih (start.step cfg e) fun n => ?_
    refine Network.step_preserves (P := fun node => ∀ s ∈ node.db.emailStubs, s.accountId ≠ accountId) hstart
      (fun n' e' _ hbrings => ?_) (fun source target row _ hhas s hs => ?_) n
    · rw [step_emailStubs hbrings]
      exact hstart n'
    · rcases mem_apply_emailStubs hs with hs | rfl
      · exact hstart target s hs
      · exact hstart source s (of_decide_eq_true hhas)

/-! ### An account with an address -/

def registersWithEmail : List NetworkEvent :=
  [.within "A" (.registerRequest ⟨"K", "", "ml-dsa"⟩ true), .within "A" (.round1 "K" ⟨"nonce", "phone", some "e"⟩),
    .within "A" (.stash 0), .within "A" (.dkgComplete "K" ⟨"P", "binding"⟩ "a" 0),
    .within "A" (.linked 0 (some "account") 0), .sync "A" "B" (.account ⟨"account", "phone", some "e"⟩)]

def emailConfig : String → Config := fun _ => ⟨true, id⟩

/-- **The account has the address, and it is found nowhere.** -/
theorem emailResolves_registered :
    (registersWithEmail.foldl (Network.step emailConfig) (fun _ => {}) "A").db.accounts =
      [⟨"account", "phone", some "e"⟩] ∧
    (registersWithEmail.foldl (Network.step emailConfig) (fun _ => {}) "A").db.getAccountByEmailStub "e" = none ∧
    (registersWithEmail.foldl (Network.step emailConfig) (fun _ => {}) "B").db.readAccountFacts "account" =
      some (⟨true, some "phone"⟩, ⟨false, none⟩) ∧
    ¬ (registersWithEmail.foldl (Network.step emailConfig) (fun _ => {}) "A").db.EmailResolves "account" "e" := by
  refine ⟨by decide, by decide, by decide, fun h => ?_⟩
  have hnone : (registersWithEmail.foldl (Network.step emailConfig) (fun _ => {}) "A").db.getAccountByEmailStub "e" =
      none := by decide
  cases hnone.symm.trans h.lookup

theorem emailResolves_peer :
    ¬ (registersWithEmail.foldl (Network.step emailConfig) (fun _ => {}) "B").db.EmailResolves "account" "e" :=
  emailResolves_never emailConfig (fun _ => {}) registersWithEmail "account" "e"
    (fun _ _ hs => absurd hs List.not_mem_nil) "B"

end Cello.Directory.Register
