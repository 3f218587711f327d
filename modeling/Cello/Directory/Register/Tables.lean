import Cello.Directory.AntiEntropy.Suspension

/-!
# The tables of agents and operators

What registering an agent writes, and what the gates and the sign-in read: `agent_profiles` (V9, V27),
`agent_revocations` (V32), `agent_suspensions`, `user_accounts` (V22), `agent_account_links` (V59),
`account_email_stubs` (V60) and `pre_auth_nonce_bindings` (V40) of one node.  Rows are inserted and never changed;
an insert that meets a unique column leaves the table as it is.

The chain hashes, the times of arrival and the status are left out: no row here has another status than `active`.
-/

namespace Cello.Directory.Register

open Cello.Directory.AntiEntropy (SuspensionRecord)

/-- A row of `agent_profiles`. -/
structure ProfileRow where
  kLocalPubkey : String
  primaryPubkey : String
  mlDsaPubkey : String
  phoneStubHash : String
  registeredAt : ℤ
  accountId : Option String
  agentId : Option String
  keyBinding : Option String
deriving DecidableEq, Repr

/-- A row of `agent_revocations`. -/
structure Revocation where
  agentId : String
  epochId : String
  reason : String
  revokedAt : ℤ
deriving DecidableEq, Repr

/-- A row of `user_accounts`. -/
structure Account where
  accountId : String
  phoneStubHash : String
  emailStubHash : Option String
deriving DecidableEq, Repr

/-- A row of `agent_account_links`. -/
structure AccountLink where
  agentId : String
  accountId : String
deriving DecidableEq, Repr

/-- A row of `account_email_stubs`. -/
structure EmailStub where
  emailStubHash : String
  accountId : String
deriving DecidableEq, Repr

structure Tables where
  profiles : List ProfileRow := []
  revocations : List Revocation := []
  suspensions : List SuspensionRecord := []
  accounts : List Account := []
  links : List AccountLink := []
  emailStubs : List EmailStub := []
  /-- A nonce and the agent it is bound to. -/
  nonces : List (String × String) := []

/-! ### Inserts -/

def ProfileRow.clashes (p q : ProfileRow) : Bool :=
  decide (p.primaryPubkey = q.primaryPubkey) || (p.agentId.isSome && decide (p.agentId = q.agentId))

namespace Tables

variable (db : Tables)

def admits (p : ProfileRow) : Bool :=
  db.profiles.all fun q => decide (q.kLocalPubkey ≠ p.kLocalPubkey) && !p.clashes q

def insertProfile (p : ProfileRow) : Tables :=
  if db.admits p then { db with profiles := db.profiles ++ [p] } else db

def insertRevocation (r : Revocation) : Tables :=
  if db.revocations.any fun q => decide (q.agentId = r.agentId) then db
  else { db with revocations := db.revocations ++ [r] }

/-- `none` where the id or the phone is taken. -/
def insertAccount (a : Account) : Option Tables :=
  if db.accounts.any fun q => decide (q.accountId = a.accountId) || decide (q.phoneStubHash = a.phoneStubHash) then
    none
  else some { db with accounts := db.accounts ++ [a] }

def hasAccount (accountId : String) : Bool := db.accounts.any fun a => decide (a.accountId = accountId)

def insertLink (l : AccountLink) : Tables :=
  if db.hasAccount l.accountId && db.links.all fun q => decide (q.agentId ≠ l.agentId) then
    { db with links := db.links ++ [l] }
  else db

def insertEmailStub (s : EmailStub) : Tables :=
  if db.hasAccount s.accountId && db.emailStubs.all fun q => decide (q.emailStubHash ≠ s.emailStubHash) then
    { db with emailStubs := db.emailStubs ++ [s] }
  else db

def putSuspension (s : SuspensionRecord) : Tables :=
  { db with suspensions := s :: db.suspensions.filter fun q => decide (q.agentId ≠ s.agentId) }

/-- `PgNonceBinder.bind`: the first agent gets the nonce, and may come again. -/
def bindNonce (nonce agentPubkey : String) : Tables × Bool :=
  match db.nonces.find? fun b => decide (b.1 = nonce) with
  | none => ({ db with nonces := db.nonces ++ [(nonce, agentPubkey)] }, true)
  | some b => (db, decide (b.2 = agentPubkey))

/-! ### Reads -/

/-- `isAgentSuspended`: the suspensions joined with the profiles. -/
def isAgentSuspended (kLocalPubkey : String) : Bool :=
  db.suspensions.any fun s => s.paused &&
    db.profiles.any fun p => decide (p.agentId = some s.agentId) && decide (p.kLocalPubkey = kLocalPubkey)

/-- `isAgentBurned`. -/
def isAgentBurned (kLocalPubkey : String) : Bool :=
  db.suspensions.any fun s => s.burned &&
    db.profiles.any fun p => decide (p.agentId = some s.agentId) && decide (p.kLocalPubkey = kLocalPubkey)

/-- `resolveOrCreateAccount`, under the lock of its table: the account of a phone, or a new one with the id drawn;
`none` where the insert is refused. -/
def resolveOrCreateAccount (phoneStubHash : String) (emailStubHash : Option String) (drawn : String) :
    Option (Tables × String) :=
  match db.accounts.find? fun a => decide (a.phoneStubHash = phoneStubHash) with
  | some a => some (db, a.accountId)
  | none => (db.insertAccount ⟨drawn, phoneStubHash, emailStubHash⟩).map fun db => (db, drawn)

/-- `getAccountByEmailStub`. -/
def getAccountByEmailStub (emailStubHash : String) : Option String :=
  (db.emailStubs.find? fun s => decide (s.emailStubHash = emailStubHash)).map EmailStub.accountId

/-- A fact of an account, and whether it is there. -/
structure Fact where
  verified : Bool
  stub : Option String
deriving DecidableEq, Repr

/-- `readAccountFacts`: phone and email, if the account is found. -/
def readAccountFacts (accountId : String) : Option (Fact × Fact) :=
  (db.accounts.find? fun a => decide (a.accountId = accountId)).map fun a =>
    let email := (db.emailStubs.find? fun s => decide (s.accountId = accountId)).map EmailStub.emailStubHash
    (⟨true, some a.phoneStubHash⟩, ⟨email.isSome, email⟩)

end Tables

/-! ### What the inserts leave alone -/

section Frames

variable (db : Tables) (p : ProfileRow) (r : Revocation) (l : AccountLink) (s : EmailStub)

@[simp] theorem insertProfile_revocations : (db.insertProfile p).revocations = db.revocations := by
  unfold Tables.insertProfile
  split <;> rfl

@[simp] theorem insertProfile_accounts : (db.insertProfile p).accounts = db.accounts := by
  unfold Tables.insertProfile
  split <;> rfl

@[simp] theorem insertProfile_links : (db.insertProfile p).links = db.links := by
  unfold Tables.insertProfile
  split <;> rfl

@[simp] theorem insertProfile_emailStubs : (db.insertProfile p).emailStubs = db.emailStubs := by
  unfold Tables.insertProfile
  split <;> rfl

@[simp] theorem insertProfile_nonces : (db.insertProfile p).nonces = db.nonces := by
  unfold Tables.insertProfile
  split <;> rfl

@[simp] theorem insertRevocation_profiles : (db.insertRevocation r).profiles = db.profiles := by
  unfold Tables.insertRevocation
  split <;> rfl

@[simp] theorem insertRevocation_links : (db.insertRevocation r).links = db.links := by
  unfold Tables.insertRevocation
  split <;> rfl

@[simp] theorem insertRevocation_accounts : (db.insertRevocation r).accounts = db.accounts := by
  unfold Tables.insertRevocation
  split <;> rfl

@[simp] theorem insertRevocation_emailStubs : (db.insertRevocation r).emailStubs = db.emailStubs := by
  unfold Tables.insertRevocation
  split <;> rfl

@[simp] theorem insertRevocation_nonces : (db.insertRevocation r).nonces = db.nonces := by
  unfold Tables.insertRevocation
  split <;> rfl

@[simp] theorem insertLink_profiles : (db.insertLink l).profiles = db.profiles := by
  unfold Tables.insertLink
  split <;> rfl

@[simp] theorem insertLink_revocations : (db.insertLink l).revocations = db.revocations := by
  unfold Tables.insertLink
  split <;> rfl

@[simp] theorem insertLink_accounts : (db.insertLink l).accounts = db.accounts := by
  unfold Tables.insertLink
  split <;> rfl

@[simp] theorem insertLink_emailStubs : (db.insertLink l).emailStubs = db.emailStubs := by
  unfold Tables.insertLink
  split <;> rfl

@[simp] theorem insertLink_nonces : (db.insertLink l).nonces = db.nonces := by
  unfold Tables.insertLink
  split <;> rfl

@[simp] theorem insertEmailStub_profiles : (db.insertEmailStub s).profiles = db.profiles := by
  unfold Tables.insertEmailStub
  split <;> rfl

@[simp] theorem insertEmailStub_revocations : (db.insertEmailStub s).revocations = db.revocations := by
  unfold Tables.insertEmailStub
  split <;> rfl

@[simp] theorem insertEmailStub_accounts : (db.insertEmailStub s).accounts = db.accounts := by
  unfold Tables.insertEmailStub
  split <;> rfl

@[simp] theorem insertEmailStub_nonces : (db.insertEmailStub s).nonces = db.nonces := by
  unfold Tables.insertEmailStub
  split <;> rfl

@[simp] theorem bindNonce_profiles (nonce k : String) : (db.bindNonce nonce k).1.profiles = db.profiles := by
  unfold Tables.bindNonce
  split <;> rfl

@[simp] theorem bindNonce_revocations (nonce k : String) : (db.bindNonce nonce k).1.revocations = db.revocations := by
  unfold Tables.bindNonce
  split <;> rfl

@[simp] theorem bindNonce_accounts (nonce k : String) : (db.bindNonce nonce k).1.accounts = db.accounts := by
  unfold Tables.bindNonce
  split <;> rfl

@[simp] theorem bindNonce_links (nonce k : String) : (db.bindNonce nonce k).1.links = db.links := by
  unfold Tables.bindNonce
  split <;> rfl

@[simp] theorem bindNonce_emailStubs (nonce k : String) : (db.bindNonce nonce k).1.emailStubs = db.emailStubs := by
  unfold Tables.bindNonce
  split <;> rfl

end Frames

/-! ### What the inserts leave -/

variable {db : Tables} {p q : ProfileRow} {r : Revocation} {a : Account} {s : EmailStub} {l : AccountLink}

def Tables.Holds (db : Tables) (kLocalPubkey agentId : String) : Prop :=
  ∃ p ∈ db.profiles, p.kLocalPubkey = kLocalPubkey ∧ p.agentId = some agentId

theorem mem_insertProfile : q ∈ (db.insertProfile p).profiles ↔
    q ∈ db.profiles ∨ (db.admits p = true ∧ q = p) := by
  unfold Tables.insertProfile
  split
  next h => simp [h]
  next h => simp [h]

theorem ne_of_admits (h : db.admits p = true) (hq : q ∈ db.profiles) : q.kLocalPubkey ≠ p.kLocalPubkey :=
  of_decide_eq_true ((Bool.and_eq_true_iff.1 (List.all_eq_true.1 h q hq)).1)

theorem nodup_insertProfile (h : (db.profiles.map ProfileRow.kLocalPubkey).Nodup) :
    ((db.insertProfile p).profiles.map ProfileRow.kLocalPubkey).Nodup := by
  unfold Tables.insertProfile
  split
  next hadmits =>
    show ((db.profiles ++ [p]).map ProfileRow.kLocalPubkey).Nodup
    rw [List.map_append, List.nodup_append]
    refine ⟨h, List.nodup_singleton _, fun k hk k' hk' => ?_⟩
    obtain ⟨q, hq, rfl⟩ := List.mem_map.1 hk
    obtain rfl := List.mem_singleton.1 hk'
    exact ne_of_admits hadmits hq
  · exact h

theorem mem_insertRevocation {r' : Revocation} : r' ∈ (db.insertRevocation r).revocations ↔
    r' ∈ db.revocations ∨ ((∀ r₀ ∈ db.revocations, r₀.agentId ≠ r.agentId) ∧ r' = r) := by
  unfold Tables.insertRevocation
  split
  next h =>
    obtain ⟨r₀, hr₀, hsame⟩ := List.any_eq_true.1 h
    refine ⟨.inl, fun hr' => hr'.resolve_right ?_⟩
    rintro ⟨hnone, -⟩
    exact hnone r₀ hr₀ (of_decide_eq_true hsame)
  next h =>
    have hnone : ∀ r₀ ∈ db.revocations, r₀.agentId ≠ r.agentId := fun r₀ hr₀ hsame =>
      h (List.any_eq_true.2 ⟨r₀, hr₀, decide_eq_true hsame⟩)
    show r' ∈ db.revocations ++ [r] ↔ _
    rw [List.mem_append, List.mem_singleton]
    exact ⟨fun hr' => hr'.imp_right fun hr' => ⟨hnone, hr'⟩, fun hr' => hr'.imp_right And.right⟩

theorem revoked_insertRevocation : ∃ r' ∈ (db.insertRevocation r).revocations, r'.agentId = r.agentId := by
  by_cases hthere : ∃ r₀ ∈ db.revocations, r₀.agentId = r.agentId
  · obtain ⟨r₀, hr₀, hsame⟩ := hthere
    exact ⟨r₀, mem_insertRevocation.2 (.inl hr₀), hsame⟩
  · exact ⟨r, mem_insertRevocation.2 (.inr ⟨fun r₀ hr₀ hsame => hthere ⟨r₀, hr₀, hsame⟩, rfl⟩), rfl⟩

theorem mem_insertEmailStub {s' : EmailStub} (h : s' ∈ (db.insertEmailStub s).emailStubs) :
    s' ∈ db.emailStubs ∨ s' = s := by
  unfold Tables.insertEmailStub at h
  split at h
  · rcases List.mem_append.1 h with h | h
    · exact .inl h
    · exact .inr (List.mem_singleton.1 h)
  · exact .inl h

theorem mem_insertLink {l' : AccountLink} (h : l' ∈ (db.insertLink l).links) : l' ∈ db.links ∨ l' = l := by
  unfold Tables.insertLink at h
  split at h
  · rcases List.mem_append.1 h with h | h
    · exact .inl h
    · exact .inr (List.mem_singleton.1 h)
  · exact .inl h

theorem insertAccount_some {db' : Tables} (h : db.insertAccount a = some db') :
    db' = { db with accounts := db.accounts ++ [a] } ∧
      ∀ b ∈ db.accounts, b.accountId ≠ a.accountId ∧ b.phoneStubHash ≠ a.phoneStubHash := by
  unfold Tables.insertAccount at h
  split at h
  · cases h
  next hnone =>
    refine ⟨(Option.some.inj h).symm, fun b hb => ?_⟩
    have hfree := List.any_eq_true.not.1 hnone
    constructor
    · intro hsame
      exact hfree ⟨b, hb, by rw [decide_eq_true hsame, Bool.true_or]⟩
    · intro hsame
      exact hfree ⟨b, hb, by rw [decide_eq_true hsame, Bool.or_true]⟩

theorem hasAccount_congr {db' : Tables} (h : db'.accounts = db.accounts) (accountId : String) :
    db'.hasAccount accountId = db.hasAccount accountId := by
  unfold Tables.hasAccount
  rw [h]

theorem hasAccount_insertAccount {db' : Tables} {accountId : String} (h : db.insertAccount a = some db')
    (ha : db.hasAccount accountId = true) : db'.hasAccount accountId = true := by
  obtain ⟨rfl, -⟩ := insertAccount_some h
  obtain ⟨b, hb, hid⟩ := List.any_eq_true.1 ha
  exact List.any_eq_true.2 ⟨b, List.mem_append_left _ hb, hid⟩

section Resolved

variable {db' : Tables} {phone drawn accountId : String} {email : Option String}
  (h : db.resolveOrCreateAccount phone email drawn = some (db', accountId))

include h

theorem resolveOrCreateAccount_cases :
    (db' = db ∧ ∃ b ∈ db.accounts, b.accountId = accountId ∧ b.phoneStubHash = phone) ∨
      (db' = { db with accounts := db.accounts ++ [⟨drawn, phone, email⟩] } ∧ accountId = drawn) := by
  unfold Tables.resolveOrCreateAccount at h
  split at h
  next b hb =>
    obtain ⟨rfl, rfl⟩ := Prod.mk.inj (Option.some.inj h)
    have hphone := List.find?_some hb
    exact .inl ⟨rfl, b, List.mem_of_find?_eq_some hb, rfl, of_decide_eq_true hphone⟩
  · obtain ⟨db₁, hinsert, hpair⟩ := Option.map_eq_some_iff.1 h
    obtain ⟨rfl, rfl⟩ := Prod.mk.inj hpair
    obtain ⟨rfl, -⟩ := insertAccount_some hinsert
    exact .inr ⟨rfl, rfl⟩

theorem resolveOrCreateAccount_some :
    (∃ b ∈ db'.accounts, b.accountId = accountId ∧ b.phoneStubHash = phone) ∧ db'.emailStubs = db.emailStubs ∧
      db'.profiles = db.profiles ∧ db'.revocations = db.revocations ∧ db'.links = db.links := by
  obtain ⟨rfl, hb⟩ | ⟨rfl, rfl⟩ := resolveOrCreateAccount_cases h
  · exact ⟨hb, rfl, rfl, rfl, rfl⟩
  · exact ⟨⟨_, List.mem_append_right _ List.mem_cons_self, rfl, rfl⟩, rfl, rfl, rfl, rfl⟩

theorem nonces_resolveOrCreateAccount : db'.nonces = db.nonces := by
  obtain ⟨rfl, -⟩ | ⟨rfl, -⟩ := resolveOrCreateAccount_cases h <;> rfl

theorem mem_resolveOrCreateAccount {b : Account} (hb : b ∈ db.accounts) : b ∈ db'.accounts := by
  obtain ⟨rfl, -⟩ | ⟨rfl, -⟩ := resolveOrCreateAccount_cases h
  · exact hb
  · exact List.mem_append_left _ hb

theorem hasAccount_resolveOrCreateAccount {a : String} (ha : db.hasAccount a = true) :
    db'.hasAccount a = true := by
  obtain ⟨b, hb, hid⟩ := List.any_eq_true.1 ha
  exact List.any_eq_true.2 ⟨b, mem_resolveOrCreateAccount h hb, hid⟩

end Resolved

section Joined

variable {kLocalPubkey agentId : String} (h : db.Holds kLocalPubkey agentId) {s : SuspensionRecord}
  (hid : s.agentId = agentId)

include h hid

theorem Tables.Holds.joins : db.profiles.any (fun p => decide (p.agentId = some s.agentId) &&
      decide (p.kLocalPubkey = kLocalPubkey)) = true := by
  obtain ⟨p, hp, hkey, hagent⟩ := h
  exact List.any_eq_true.2 ⟨p, hp, by rw [decide_eq_true (hid ▸ hagent), decide_eq_true hkey]; rfl⟩

theorem isAgentSuspended_of_holds (hs : s ∈ db.suspensions) (hpaused : s.paused = true) :
    db.isAgentSuspended kLocalPubkey = true :=
  List.any_eq_true.2 ⟨s, hs, by rw [hpaused, h.joins hid]; rfl⟩

theorem isAgentBurned_of_holds (hs : s ∈ db.suspensions) (hburned : s.burned = true) :
    db.isAgentBurned kLocalPubkey = true :=
  List.any_eq_true.2 ⟨s, hs, by rw [hburned, h.joins hid]; rfl⟩

end Joined

end Cello.Directory.Register
