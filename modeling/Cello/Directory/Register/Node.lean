import Cello.Directory.Register.Tables

/-!
# Registering at a node

What a node does for an agent that registers: `#processRegisterRequest` with the frames around it (the first round
of the key generation, which brings the capability; the third, which leaves the group key; `dkg_complete`), and the
caches of `PgDirectoryStore` that it asks and fills.  A handler gives up the thread where it awaits: after the nonce
is bound, while it waits for `dkg_complete`, and while the account is resolved.  A profile is written without
waiting for the result.

A capability arrives decoded and verified.  The token that came before it, the signer and the metrics are left out,
and so is `hasPhoneStubHash`, which answers `false` for every hash in this store.
-/

namespace Cello.Directory.Register

open Cello.Directory.AntiEntropy (SuspensionRecord)

/-- How a node is set up: whether a token validator is wired, and SHA-256 in hex. -/
structure Config where
  tokenValidator : Bool
  sha256 : String → String

/-- `AgentProfile`. -/
structure Profile where
  kLocalPubkey : String
  primaryPubkey : String
  mlDsaPubkey : String
  phoneStubHash : String
  registeredAt : ℤ
  agentId : String
  keyBinding : Option String
deriving DecidableEq, Repr

/-- A row as the caches keep it. -/
def Profile.ofRow (cfg : Config) (row : ProfileRow) : Profile :=
  { kLocalPubkey := row.kLocalPubkey
    primaryPubkey := row.primaryPubkey
    mlDsaPubkey := row.mlDsaPubkey
    phoneStubHash := row.phoneStubHash
    registeredAt := row.registeredAt
    agentId := row.agentId.getD (String.ofList ((cfg.sha256 row.kLocalPubkey).toList.take 32))
    keyBinding := row.keyBinding.filter fun b => decide (b ≠ "") }

/-- A profile as `setProfile` writes it. -/
def Profile.row (p : Profile) (accountId : Option String) : ProfileRow :=
  { kLocalPubkey := p.kLocalPubkey
    primaryPubkey := p.primaryPubkey
    mlDsaPubkey := p.mlDsaPubkey
    phoneStubHash := p.phoneStubHash
    registeredAt := p.registeredAt
    accountId := accountId
    agentId := some p.agentId
    keyBinding := p.keyBinding }

/-- A capability that has been verified. -/
structure Capability where
  nonce : String
  phoneStubHash : String
  emailDomain : Option String
deriving DecidableEq, Repr

/-- An entry of `#pendingPreAuthData`. -/
structure PreAuth where
  phoneStubHash : String
  emailStubHash : Option String
deriving DecidableEq, Repr

def Capability.preAuth (c : Capability) : PreAuth := ⟨c.phoneStubHash, c.emailDomain⟩

/-- `register_request`. -/
structure RegisterRequest where
  kLocalPubkey : String
  phoneStub : String
  mlDsaPubkey : String
deriving DecidableEq, Repr

/-- `dkg_complete`. -/
structure DkgComplete where
  primaryPubkey : String
  keyBinding : String
deriving DecidableEq, Repr

inductive Answer where
  | registerSuccess (agentId primaryPubkey : String)
  | alreadyRegistered (agentId primaryPubkey mlDsaPubkey : String)
  | invalidVerification
  | dkgFailed
  | dkgVerificationFailed
deriving DecidableEq, Repr

/-- Where a `register_request` stands: waiting for `dkg_complete` or its timer, for the account, or answered. -/
inductive Progress where
  | waiting
  | linking (agentId : String) (dkg : DkgComplete) (preAuth : PreAuth)
  | answered (answer : Answer)
deriving DecidableEq, Repr

structure Attempt where
  frame : RegisterRequest
  progress : Progress
deriving DecidableEq, Repr

/-- A write that nobody waits for. -/
inductive Write where
  | profile (p : Profile) (accountId : Option String)
  | link (l : AccountLink)
deriving DecidableEq, Repr

/-- What is in the memory of the process. -/
structure Memory where
  profilesByLocalKey : String → Option Profile := fun _ => none
  profilesByPrimaryKey : String → Option Profile := fun _ => none
  revokedPubkeys : List String := []
  revocationsByAgentId : List String := []
  pendingPreAuthData : String → Option PreAuth := fun _ => none
  pendingDkgCommitments : String → Option String := fun _ => none
  /-- The attempt whose promise the key resolves. -/
  pendingDkgComplete : String → Option ℕ := fun _ => none
  attempts : List Attempt := []
  /-- First rounds whose nonce is bound and whose operator is not stashed yet. -/
  bound : List (String × PreAuth) := []
  writes : List Write := []

/-- A node: its tables and its process, with the answers it has given about each key and the writes that a restart
has cut off. -/
structure Node where
  db : Tables := {}
  mem : Memory := {}
  answers : List (String × Answer) := []
  lost : List Write := []

/-- A row that anti-entropy brings. -/
inductive Row where
  | profile (row : ProfileRow)
  | revocation (row : Revocation)
  | account (row : Account)
  | link (row : AccountLink)
  | emailStub (row : EmailStub)

/-! ### The caches -/

namespace Memory

variable (mem : Memory)

/-- `getProfile`. -/
def getProfile (pubkey : String) : Option Profile :=
  (mem.profilesByLocalKey pubkey).or (mem.profilesByPrimaryKey pubkey)

def cache (p : Profile) : Memory :=
  { mem with
    profilesByLocalKey := Function.update mem.profilesByLocalKey p.kLocalPubkey (some p)
    profilesByPrimaryKey := Function.update mem.profilesByPrimaryKey p.primaryPubkey (some p) }

def dropPreAuth (pubkey : String) : Memory :=
  { mem with pendingPreAuthData := Function.update mem.pendingPreAuthData pubkey none }

def dropCommitment (pubkey : String) : Memory :=
  { mem with pendingDkgCommitments := Function.update mem.pendingDkgCommitments pubkey none }

def put (i : ℕ) (frame : RegisterRequest) (progress : Progress) : Memory :=
  { mem with attempts := mem.attempts.set i ⟨frame, progress⟩ }

end Memory

/-- `#loadRevocations`: the keys of the agents whose revocation meets a profile. -/
def Tables.revokedKeys (db : Tables) : List String :=
  (db.profiles.filter fun p =>
    decide (p.kLocalPubkey ≠ "") && db.revocations.any fun r => decide (p.agentId = some r.agentId)).map
      ProfileRow.kLocalPubkey

def Memory.cacheRows (cfg : Config) (mem : Memory) (rows : List ProfileRow) : Memory :=
  rows.foldl (fun mem row => mem.cache (Profile.ofRow cfg row)) mem

/-- `loadProfiles`: the memory of a process that has just started. -/
def Memory.load (cfg : Config) (db : Tables) : Memory :=
  { Memory.cacheRows cfg {} db.profiles with
    revokedPubkeys := db.revokedKeys
    revocationsByAgentId := db.revocations.map Revocation.agentId }

theorem Memory.cacheRows_eq (cfg : Config) (rows : List ProfileRow) (mem : Memory) :
    ∃ byLocalKey byPrimaryKey, Memory.cacheRows cfg mem rows =
      { mem with profilesByLocalKey := byLocalKey, profilesByPrimaryKey := byPrimaryKey } := by
  induction rows generalizing mem with
  | nil => exact ⟨_, _, rfl⟩
  | cons row rest ih =>
    obtain ⟨byLocalKey, byPrimaryKey, hrest⟩ := ih (mem.cache (Profile.ofRow cfg row))
    exact ⟨byLocalKey, byPrimaryKey, hrest⟩

theorem Memory.load_idle (cfg : Config) (db : Tables) :
    (Memory.load cfg db).pendingPreAuthData = (fun _ => none) ∧
      (Memory.load cfg db).pendingDkgCommitments = (fun _ => none) ∧
      (Memory.load cfg db).pendingDkgComplete = (fun _ => none) ∧ (Memory.load cfg db).attempts = [] ∧
      (Memory.load cfg db).bound = [] ∧ (Memory.load cfg db).writes = [] := by
  obtain ⟨byLocalKey, byPrimaryKey, hrows⟩ := Memory.cacheRows_eq cfg db.profiles {}
  unfold Memory.load
  rw [hrows]
  exact ⟨rfl, rfl, rfl, rfl, rfl, rfl⟩

namespace Node

variable (cfg : Config) (node : Node)

/-- `isAgentRevoked`. -/
def isAgentRevoked (kLocalPubkey : String) : Bool := decide (kLocalPubkey ∈ node.mem.revokedPubkeys)

def restart : Node :=
  { node with mem := Memory.load cfg node.db, lost := node.lost ++ node.mem.writes }

/-- `getProfileWithReadThrough`. -/
def readThrough (pubkey : String) : Node :=
  if (node.mem.getProfile pubkey).isSome then node
  else match node.db.profiles.find? fun p => decide (p.kLocalPubkey = pubkey) with
    | none => node
    | some row => { node with mem := node.mem.cache (Profile.ofRow cfg row) }

/-- `setProfile`: the caches at once, the row when it lands. -/
def setProfile (p : Profile) (accountId : Option String) : Node :=
  { node with mem := { node.mem.cache p with writes := node.mem.writes ++ [.profile p accountId] } }

/-! ### The frames of a registration -/

/-- The nonce of a first round is bound, or the round is refused. -/
def round1 (agentPubkey : String) (c : Capability) : Node :=
  match node.db.bindNonce c.nonce agentPubkey with
  | (_, false) => node
  | (db, true) => { node with db := db, mem := { node.mem with bound := node.mem.bound ++ [(agentPubkey, c.preAuth)] } }

/-- The operator of a first round is stashed under the key that the frame names. -/
def stash (i : ℕ) : Node :=
  match node.mem.bound[i]? with
  | none => node
  | some (agentPubkey, preAuth) =>
    { node with mem := { node.mem with
        bound := node.mem.bound.eraseIdx i
        pendingPreAuthData := Function.update node.mem.pendingPreAuthData agentPubkey (some preAuth) } }

/-- A third round that succeeded. -/
def round3 (agentPubkey shareCommitment : String) : Node :=
  { node with mem := { node.mem with
      pendingDkgCommitments :=
        Function.update node.mem.pendingDkgCommitments agentPubkey (some shareCommitment) } }

/-- An attempt gets its answer. -/
def finish (i : ℕ) (frame : RegisterRequest) (answer : Answer) : Node :=
  { node with
    mem := node.mem.put i frame (.answered answer)
    answers := node.answers ++ [(frame.kLocalPubkey, answer)] }

def refuse (i : ℕ) (frame : RegisterRequest) (answer : Answer) : Node :=
  ({ node with mem := node.mem.dropPreAuth frame.kLocalPubkey } : Node).finish i frame answer

/-- `#processRegisterRequest` up to its wait for `dkg_complete`. -/
def registerRequest (frame : RegisterRequest) (topologyOk : Bool) : Node :=
  let i := node.mem.attempts.length
  let opened : Node := { node with mem := { node.mem with attempts := node.mem.attempts ++ [⟨frame, .waiting⟩] } }
  if frame.phoneStub = "" ∧ cfg.tokenValidator = false then opened.refuse i frame .invalidVerification
  else match node.mem.getProfile frame.kLocalPubkey with
    | some p => opened.refuse i frame (.alreadyRegistered p.agentId p.primaryPubkey p.mlDsaPubkey)
    | none =>
      if topologyOk then
        { opened with mem := { opened.mem with
            pendingDkgComplete := Function.update node.mem.pendingDkgComplete frame.kLocalPubkey (some i) } }
      else opened.refuse i frame .dkgFailed

/-- The thirty seconds of an attempt are over. -/
def timeout (i : ℕ) : Node :=
  match node.mem.attempts[i]? with
  | some ⟨frame, .waiting⟩ =>
    ({ node with mem := { node.mem with
        pendingDkgComplete := Function.update node.mem.pendingDkgComplete frame.kLocalPubkey none } } : Node).refuse
      i frame .dkgFailed
  | _ => node

/-- Step 6: the profile is set and the client told. -/
def register (i : ℕ) (frame : RegisterRequest) (dkg : DkgComplete) (agentId phoneStubHash : String)
    (accountId : Option String) (now : ℤ) : Node :=
  (node.setProfile
    { kLocalPubkey := frame.kLocalPubkey
      primaryPubkey := dkg.primaryPubkey
      mlDsaPubkey := frame.mlDsaPubkey
      phoneStubHash := phoneStubHash
      registeredAt := now
      agentId := agentId
      keyBinding := some dkg.keyBinding } accountId).finish i frame (.registerSuccess agentId dkg.primaryPubkey)

/-- `#processRegisterRequest` from `dkg_complete` on, with the agent id that is drawn. -/
def resume (i : ℕ) (frame : RegisterRequest) (dkg : DkgComplete) (agentId : String) (now : ℤ) : Node :=
  let k := frame.kLocalPubkey
  let node' : Node := { node with mem := node.mem.dropCommitment k }
  if (node.mem.pendingDkgCommitments k).any fun c => decide (dkg.primaryPubkey ≠ c) then
    node'.refuse i frame .dkgVerificationFailed
  else match node.mem.pendingPreAuthData k with
    | some preAuth =>
      { node' with mem := (node'.mem.dropPreAuth k).put i frame (.linking agentId dkg preAuth) }
    | none =>
      if frame.phoneStub = "" then node'.refuse i frame .invalidVerification
      else ({ node' with mem := node'.mem.dropPreAuth k } : Node).register i frame dkg agentId
        (cfg.sha256 frame.phoneStub) none now

/-- `dkg_complete` on the stream of a key. -/
def dkgComplete (authedPubkey : String) (dkg : DkgComplete) (agentId : String) (now : ℤ) : Node :=
  match node.mem.pendingDkgComplete authedPubkey with
  | none => node
  | some i =>
    match node.mem.attempts[i]? with
    | some ⟨frame, .waiting⟩ =>
      ({ node with mem := { node.mem with
          pendingDkgComplete := Function.update node.mem.pendingDkgComplete authedPubkey none } } : Node).resume
        cfg i frame dkg agentId now
    | _ => { node with mem := { node.mem with
        pendingDkgComplete := Function.update node.mem.pendingDkgComplete authedPubkey none } }

/-- The account is resolved, with the id that is drawn if it is new; or the database fails, and the attempt goes on
without one. -/
def linked (i : ℕ) (drawn : Option String) (now : ℤ) : Node :=
  match node.mem.attempts[i]? with
  | some ⟨frame, .linking agentId dkg preAuth⟩ =>
    match drawn.bind (node.db.resolveOrCreateAccount preAuth.phoneStubHash preAuth.emailStubHash) with
    | some (db, accountId) =>
      ({ node with db := db } : Node).register i frame dkg agentId preAuth.phoneStubHash (some accountId) now
    | none => node.register i frame dkg agentId preAuth.phoneStubHash none now
  | _ => node

/-! ### What reaches the tables later -/

/-- A write is executed.  After a profile with an account, also after one whose key was there, comes the link. -/
def execute (w : Write) : Node :=
  match w with
  | .link l => { node with db := node.db.insertLink l }
  | .profile p none => { node with db := node.db.insertProfile (p.row none) }
  | .profile p (some accountId) =>
    if node.db.profiles.any fun q => decide (q.kLocalPubkey = p.kLocalPubkey) then
      { node with mem := { node.mem with writes := node.mem.writes ++ [.link ⟨p.agentId, accountId⟩] } }
    else if node.db.admits (p.row (some accountId)) && node.db.hasAccount accountId then
      { node with
        db := node.db.insertProfile (p.row (some accountId))
        mem := { node.mem with writes := node.mem.writes ++ [.link ⟨p.agentId, accountId⟩] } }
    else node

def land (i : ℕ) : Node :=
  match node.mem.writes[i]? with
  | none => node
  | some w => ({ node with mem := { node.mem with writes := node.mem.writes.eraseIdx i } } : Node).execute w

/-- `applyTierA`: a profile comes without its account and not without its agent id, an account without its address. -/
def apply (row : Row) : Node :=
  match row with
  | .profile p =>
    if p.agentId.isSome then { node with db := node.db.insertProfile { p with accountId := none } } else node
  | .revocation r => { node with db := node.db.insertRevocation r }
  | .account a => { node with db := (node.db.insertAccount { a with emailStubHash := none }).getD node.db }
  | .link l => { node with db := node.db.insertLink l }
  | .emailStub s => { node with db := node.db.insertEmailStub s }

/-- `#processRevokeAgent`, for a request that the agent has signed: only its own id, and the indexes after the
row. -/
def revoke (authedPubkey : String) (r : Revocation) : Node :=
  match node.mem.getProfile authedPubkey with
  | none => node
  | some p =>
    if p.agentId ≠ r.agentId ∨ r.agentId ∈ node.mem.revocationsByAgentId then node
    else { node with
      db := node.db.insertRevocation r
      mem := { node.mem with
        revocationsByAgentId := r.agentId :: node.mem.revocationsByAgentId
        revokedPubkeys :=
          if p.kLocalPubkey = "" then node.mem.revokedPubkeys else p.kLocalPubkey :: node.mem.revokedPubkeys } }

end Node

/-! ### Runs -/

/-- What can happen at a node. -/
inductive Event where
  | round1 (agentPubkey : String) (c : Capability)
  | stash (i : ℕ)
  | round3 (agentPubkey shareCommitment : String)
  | registerRequest (frame : RegisterRequest) (topologyOk : Bool)
  | timeout (i : ℕ)
  | dkgComplete (authedPubkey : String) (dkg : DkgComplete) (agentId : String) (now : ℤ)
  | linked (i : ℕ) (drawn : Option String) (now : ℤ)
  | land (i : ℕ)
  | apply (row : Row)
  | readThrough (pubkey : String)
  | revoke (authedPubkey : String) (r : Revocation)
  /-- A pause or a burn of the operator, filed here or replicated. -/
  | suspend (s : SuspensionRecord)
  | restart

def Node.step (cfg : Config) (node : Node) : Event → Node
  | .round1 agentPubkey c => node.round1 agentPubkey c
  | .stash i => node.stash i
  | .round3 agentPubkey shareCommitment => node.round3 agentPubkey shareCommitment
  | .registerRequest frame topologyOk => node.registerRequest cfg frame topologyOk
  | .timeout i => node.timeout i
  | .dkgComplete authedPubkey dkg agentId now => node.dkgComplete cfg authedPubkey dkg agentId now
  | .linked i drawn now => node.linked i drawn now
  | .land i => node.land i
  | .apply row => node.apply row
  | .readThrough pubkey => node.readThrough cfg pubkey
  | .revoke authedPubkey r => node.revoke authedPubkey r
  | .suspend s => { node with db := node.db.putSuspension s }
  | .restart => node.restart cfg

end Cello.Directory.Register
