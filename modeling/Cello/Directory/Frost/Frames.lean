import Cello.Directory.Frost.Handler
import Cello.Lib.GuardedRun
import Cello.Lib.JsObject
import Cello.Lib.StringNumber

/-!
# The frames of the FROST stream

`#handleFrostStream` of `packages/directory/src/directory-node.ts`: eight kinds of frame, from anyone who
can open a stream.  A commitment and a signature are asked for with a signature of the agent's own key
(`verifyFrostAuth`); the first round of a key generation is let through by a capability, a token or
nothing, as the node is set up; the other rounds and the two rounds of a refresh are let through as they
come, but for the check that the agent is not suspended.

Only the frames of a key generation are looked at for the agent and the epoch being texts.  The others
hand the handler whatever they carry: its maps are keyed by what a template literal makes of the two, with
a colon between them, so that frames of different values meet under one key, while the epoch counter is
keyed by the value itself and the database has its own reading of it.

What the crypto library, the database and the clock do while a frame is handled is given to the frame.  A
frame that waits for a durable write has its place in `waiting` until the database has answered.
-/

namespace Cello.Directory.Frost.Stream

open Lib

/-! ### Values -/

/-- What a frame carries where a text is expected. -/
inductive Value where
  | string (s : String)
  /-- A list or a byte string, told apart by `ref`: what a template literal makes of it, what a column of
  type text takes it for (`none` is NULL) and what `Buffer.from` makes of it. -/
  | other (ref : ℕ) (text : String) (column : Option String) (bytes : Bytes)
deriving DecidableEq

def Value.text : Value → String
  | string s => s
  | other _ text _ _ => text

def Value.column : Value → Option String
  | string s => some s
  | other _ _ column _ => column

instance : Named Value := ⟨Value.text⟩

abbrev Memory (Share : Type) := Maps Value Share

def namesByText (agent : AgentKey) (agentPubkey : Value) : Bool :=
  (keyPrefix agent).isPrefixOf (keyPrefix agentPubkey)

def names (agent : AgentKey) (agentPubkey : Value) : Bool :=
  namesByText agent agentPubkey || decide (agentPubkey.column = some agent.text)

theorem isKeyOf_storeKey_value (agent : AgentKey) (agentPubkey : Value) (epochId : String) :
    isKeyOf agent (storeKey agentPubkey epochId) = namesByText agent agentPubkey := by
  rw [Bool.eq_iff_iff, isKeyOf, namesByText, List.isPrefixOf_iff_prefix, List.isPrefixOf_iff_prefix,
    toList_storeKey]
  constructor
  · intro h
    by_cases hlen : (keyPrefix agent).length ≤ (keyPrefix agentPubkey).length
    · exact List.prefix_of_prefix_length_le h (List.prefix_append _ _) hlen
    · -- the text and its colon would be a part of the key, which has no colon
      have hkey : keyPrefix agentPubkey <+: agent.text.toList := by
        have hshort : (keyPrefix agentPubkey).length ≤ agent.text.toList.length := by
          rw [keyPrefix, List.length_append, List.length_singleton] at hlen
          exact Nat.le_of_lt_succ (not_le.1 hlen)
        exact List.prefix_of_prefix_length_le (List.prefix_append _ _)
          ((List.prefix_append agent.text.toList [':']).trans h) hshort
      exact absurd (hkey.subset (by simp [keyPrefix])) agent.noColon
  · exact fun h => h.trans (List.prefix_append _ _)

section Names

variable {agent : AgentKey} {agentPubkey : Value} (h : names agent agentPubkey = false)

include h

theorem storeKey_ne (epochId epochId' : String) :
    storeKey agent epochId ≠ storeKey agentPubkey epochId' := by
  intro heq
  have htext : namesByText agent agentPubkey = true := by
    rw [← isKeyOf_storeKey_value agent agentPubkey epochId', ← heq, isKeyOf_storeKey]
  rw [names, htext] at h
  cases h

theorem column_ne : agentPubkey.column ≠ some agent.text := by
  intro hcolumn
  rw [names, hcolumn, decide_eq_true rfl, Bool.or_true] at h
  cases h

theorem string_ne : Value.string agent.text ≠ agentPubkey := by
  rintro rfl
  exact column_ne h rfl

end Names

/-- `injectShareForTest`. -/
def injectShareForTest {Share : Type} (agentPubkey : Value) (epochId : String) (share : Share)
    (m : Memory Share) : Memory Share :=
  { m with
    shares := storeShare agentPubkey epochId share m.shares
    currentEpoch := m.currentEpoch.set agentPubkey ((parseEpochN epochId).getD 1) }

/-! ### Proof of the agent's own key -/

inductive CapabilityFault where
  | expired
  | other
deriving DecidableEq, Repr

/-- What is read of a capability. -/
structure Capability where
  nonce : String
deriving DecidableEq, Repr

/-- The crypto library; `verifyCapability` has the issuer's key, and the clock. -/
structure Crypto where
  sha256 : Bytes → Bytes
  /-- `none` where the function throws. -/
  verify : Bytes → Bytes → Bytes → Option Bool
  decodeCapability : String → Option Capability
  verifyCapability : Capability → Except CapabilityFault Unit

/-- `Buffer.from(s, "hex")`: what stands before the first pair that is no hex. -/
def hexPrefix : List Char → Bytes
  | a :: b :: rest =>
    if Bytes.isHexDigit a && Bytes.isHexDigit b then
      Bytes.ofHex (String.ofList [a, b]) ++ hexPrefix rest
    else []
  | _ => []

def utf8 (s : String) : Bytes := s.toUTF8.toList

/-- `Buffer.from(value, "hex")`; the encoding is for strings. -/
def Value.fromHex : Value → Bytes
  | string s => hexPrefix s.toList
  | other _ _ _ bytes => bytes

/-- `Buffer.from(value, "utf8")`. -/
def Value.fromUtf8 : Value → Bytes
  | string s => utf8 s
  | other _ _ _ bytes => bytes

def frostAuthDomain : String := "CELLO-FROST-AUTH-v1"

/-- `FROST_AUTH_COMMIT_TAIL`. -/
def commitTail : Bytes := [0]

/-- `FROST_AUTH_SIGN_PREFIX` and the message. -/
def signTail (framedMsg : Bytes) : Bytes := 1 :: framedMsg

/-- `verifyFrostAuth`: the reason of a refusal. -/
def verifyFrostAuth (crypto : Crypto) (agentPubkeyHex epochId : Value) (tail : Bytes)
    (authSig : JsAny) : Option String :=
  match authSig with
  | .undefined => some "AUTH_REQUIRED"
  | .null => some "AUTH_REQUIRED"
  | .bytes sig =>
    let pubkey := agentPubkeyHex.fromHex
    if pubkey.length ≠ 32 then some "AUTH_INVALID"
    else if crypto.verify pubkey
        (crypto.sha256 (utf8 frostAuthDomain ++ pubkey ++ epochId.fromUtf8 ++ tail)) sig = some true then
      none
    else some "AUTH_INVALID"
  | _ => some "AUTH_INVALID"

/-! ### Frames -/

/-- A frame; what only the library looks at is left to what the library does. -/
inductive Frame (Share : Type) where
  | bootstrap (agentPubkey epochId : Value) (share : Share) (primaryPubkey : Bytes)
  | commitRequest (agentPubkey epochId : Value) (authSig : JsAny)
  | signRequest (agentPubkey epochId : Value) (framedMsg : Bytes) (peerIdString : String)
      (authSig : JsAny)
  | dkgRound1Request (agentPubkey epochId : String) (preAuthToken : Option String)
  | dkgRound2Request (agentPubkey epochId : String)
  | dkgRound3Request (agentPubkey epochId : String)
  | refreshRound1Request (agentPubkey fromEpochId : Value)
  | refreshRound2Request (agentPubkey fromEpochId toEpochId : Value)

def Frame.agentPubkey {Share : Type} : Frame Share → Value
  | .bootstrap agentPubkey .. => agentPubkey
  | .commitRequest agentPubkey .. => agentPubkey
  | .signRequest agentPubkey .. => agentPubkey
  | .dkgRound1Request agentPubkey .. => .string agentPubkey
  | .dkgRound2Request agentPubkey .. => .string agentPubkey
  | .dkgRound3Request agentPubkey .. => .string agentPubkey
  | .refreshRound1Request agentPubkey .. => agentPubkey
  | .refreshRound2Request agentPubkey .. => agentPubkey

/-- What `isAgentSuspended` and `isAgentBurned` read, in the rows of what the database takes the value for. -/
inductive Suspension where
  /-- The database has not answered. -/
  | unknown
  | clear
  | paused
  | burned
deriving DecidableEq, Repr

inductive Redeemed where
  | ok (capability : String)
  | expired
  | notFound
deriving DecidableEq, Repr

/-- What the library, the database and the clock do while a frame is handled. -/
structure Outcome (Share : Type) where
  now : ℤ
  suspension : Suspension
  /-- The last answer of `redeemClaimCode`. -/
  redeemed : Redeemed
  /-- `validateToken`. -/
  token : Except String Unit
  /-- The reason that `verifySealCosignEvidence` refuses a seal message with. -/
  cosign : Option String
  commit : Share → Option ℕ
  signShare : Share → ℕ → Option Bytes
  round1 : Bool
  round2 : Bool
  /-- The share and the group key. -/
  round3 : Option (Share × Bytes)
  contribution : Share → Bool
  applyRefresh : Share → Except String Share

/-! ### The node -/

/-- How the first round of a key generation is let through. -/
inductive PreAuth where
  | capability
  | token
  | unchecked
deriving DecidableEq, Repr

structure Config where
  crypto : Crypto
  /-- `NODE_ENV` is `test`. -/
  testMode : Bool
  preAuth : PreAuth
  /-- There is a `#pgPool`. -/
  pgPool : Bool

/-- What goes on behind a frame after its handler has begun to wait for the database. -/
inductive Work (Share : Type) where
  /-- The row of a share that `storeShare` writes. -/
  | storeShare (agentPubkey epochId : Value) (share : Share)
  | dkgRound3 (agentPubkey epochId : String) (share : Share) (shareCommitment : Bytes)
  | refreshRound2 (agentPubkey toEpochId : Value) (share : Share)
  | destroyShares (agentPubkey : Value)

def Work.agentPubkey {Share : Type} : Work Share → Value
  | .storeShare agentPubkey .. => agentPubkey
  | .dkgRound3 agentPubkey .. => .string agentPubkey
  | .refreshRound2 agentPubkey .. => agentPubkey
  | .destroyShares agentPubkey => agentPubkey

structure Waiting (Share : Type) where
  work : Work Share
  /-- The database has done it. -/
  landed : Bool

/-- The node, as far as the frames read and write it.  A signer is known by the key it signs for. -/
structure Node (Share : Type) where
  memory : Memory Share
  rows : OrdMap (String × String) (Option Share)
  waiting : ℕ → Option (Waiting Share)
  thresholdSigners : OrdMap Value Bytes
  primaryPubkeys : OrdMap Value Bytes
  pendingDkgCommitments : OrdMap String Bytes
  boundNonces : OrdMap String String

inductive Response where
  /-- The stream is closed without an answer. -/
  | closed
  | ok
  | refused (reason : String)
  | preauthError (reason : String)
  | waiting
deriving DecidableEq, Repr

section Handle

variable {Share : Type} (cfg : Config) (n : Node Share)

def Node.setMemory (m : Memory Share) : Node Share := { n with memory := m }

def Node.wait (call : ℕ) (work : Work Share) : Node Share :=
  { n with waiting := Function.update n.waiting call (some ⟨work, false⟩) }

/-- `registerThresholdSigner` and `registerPrimaryPubkey`. -/
def Node.register (agentPubkey : Value) (primaryPubkey : Bytes) : Node Share :=
  { n with
    thresholdSigners := n.thresholdSigners.set agentPubkey primaryPubkey
    primaryPubkeys := n.primaryPubkeys.set agentPubkey primaryPubkey }

/-- `#isAgentPaused`: an agent that is burned has its shares destroyed on the way. -/
def isAgentPaused (call : ℕ) (agentPubkey : Value) (suspension : Suspension) : Node Share × Bool :=
  match suspension with
  | .unknown => (n, true)
  | .clear => (n, false)
  | .paused => (n, true)
  | .burned =>
    let m := { n.memory with shares := dropShares agentPubkey n.memory.shares }
    ((n.setMemory m).wait call (.destroyShares agentPubkey), true)

/-- `nonceBinder.bind`. -/
def bindNonce (nonce agentPubkey : String) : Option (Node Share) :=
  match n.boundNonces.get nonce with
  | none => some { n with boundNonces := n.boundNonces.set nonce agentPubkey }
  | some bound => if bound = agentPubkey then some n else none

/-- A capability, or a claim code for one. -/
def capabilityBlob (blob : String) (redeemed : Redeemed) : Except String String :=
  let capBlob := String.ofList (Number.trim blob.toList)
  if "CELLO-".toList.isPrefixOf capBlob.toList && cfg.pgPool then
    match redeemed with
    | .ok capability => .ok capability
    | .expired => .error "CLAIM_CODE_EXPIRED"
    | .notFound => .error "CLAIM_CODE_INVALID"
  else .ok capBlob

/-- The capability gate. -/
def passCapability (agentPubkey : String) (preAuthToken : Option String) (redeemed : Redeemed) :
    Except String (Node Share) := do
  let blob := preAuthToken.getD ""
  if blob = "" then throw "PRE_AUTH_TOKEN_MISSING"
  let capBlob ← capabilityBlob cfg blob redeemed
  match cfg.crypto.decodeCapability capBlob with
  | none => throw "PRE_AUTH_TOKEN_MISSING"
  | some cap =>
    match cfg.crypto.verifyCapability cap with
    | .error .expired => throw "PRE_AUTH_TOKEN_EXPIRED"
    | .error .other => throw "PRE_AUTH_CAPABILITY_INVALID"
    | .ok () =>
      match bindNonce n cap.nonce agentPubkey with
      | none => throw "PRE_AUTH_TOKEN_CONSUMED"
      | some n => return n

/-- The code for what `validateToken` says. -/
def tokenCode (reason : String) : String :=
  let mentions := fun word : String => decide (word.toList <:+: reason.toList)
  if mentions "CONSUMED" then "PRE_AUTH_TOKEN_CONSUMED"
  else if mentions "EXPIRED" then "PRE_AUTH_TOKEN_EXPIRED"
  else "PRE_AUTH_TOKEN_MISSING"

/-- The gate before the first round of a key generation. -/
def passPreAuth (agentPubkey : String) (preAuthToken : Option String) (out : Outcome Share) :
    Except String (Node Share) :=
  match cfg.preAuth with
  | .capability => passCapability cfg n agentPubkey preAuthToken out.redeemed
  | .token =>
    if preAuthToken.getD "" = "" then .error "PRE_AUTH_TOKEN_MISSING"
    else
      match out.token with
      | .ok () => .ok n
      | .error reason => .error (tokenCode reason)
  | .unchecked => .ok n

/-- The reasons as they are sent. -/
def Reason.text : Reason → String
  | .agentNotBootstrapped => "AGENT_NOT_BOOTSTRAPPED"
  | .epochExpired => "EPOCH_EXPIRED"
  | .nonceAlreadyPending => "NONCE_ALREADY_PENDING"
  | .ceremonyConflict => "CEREMONY_CONFLICT"
  | .alreadyInProgress => "already_in_progress"
  | .notInRound1 => "round1_not_complete"
  | .notInRound2 => "round2_not_complete"
  | .shareVerificationFailed => "share_verification_failed"
  | .sourceEpochNotHeld => "source_epoch_not_held"
  | .vssCheckFailed => "vss_check_failed"
  | .incompleteRoster => "incomplete_roster"
  | .internalError => "internal_error"

/-- The answer to what a call returns; `none` where it throws. -/
def respond {α : Type} : Option (Except Reason α) → Response
  | some (.ok _) => .ok
  | some (.error reason) => .refused (Reason.text reason)
  | none => .closed

/-- A share is handed to `storeShareDurable`, or the call has failed. -/
def startStore (call : ℕ) (called : Except Reason Share × Memory Share) (work : Share → Work Share) :
    Node Share × Response :=
  match called.1 with
  | .error reason => (n.setMemory called.2, .refused (Reason.text reason))
  | .ok share => ((n.setMemory called.2).wait call (work share), .waiting)

/-- `#handleFrostStream`, until its handler waits for a write. -/
def handle (call : ℕ) (out : Outcome Share) : Frame Share → Node Share × Response
  | .bootstrap agentPubkey epochId share primaryPubkey =>
    if cfg.testMode then
      (((n.setMemory (injectShareForTest agentPubkey epochId.text share n.memory)).wait call
        (.storeShare agentPubkey epochId share)).register agentPubkey primaryPubkey, .ok)
    else (n, .closed)
  | .commitRequest agentPubkey epochId authSig =>
    match verifyFrostAuth cfg.crypto agentPubkey epochId commitTail authSig with
    | some reason => (n, .refused reason)
    | none =>
      let checked := isAgentPaused n call agentPubkey out.suspension
      if checked.2 then (checked.1, .refused "AGENT_SUSPENDED")
      else
        let called := generateCommitment out.commit out.now agentPubkey epochId.text checked.1.memory
        (checked.1.setMemory called.2, respond (some called.1))
  | .signRequest agentPubkey epochId framedMsg peerIdString authSig =>
    match verifyFrostAuth cfg.crypto agentPubkey epochId (signTail framedMsg) authSig with
    | some reason => (n, .refused reason)
    | none =>
      let checked := isAgentPaused n call agentPubkey out.suspension
      if checked.2 then (checked.1, .refused "AGENT_SUSPENDED")
      else
        match out.cosign with
        | some reason => (checked.1, .refused reason)
        | none =>
          let called := signRawMessage out.signShare out.now agentPubkey epochId.text peerIdString
            checked.1.memory
          (checked.1.setMemory called.2, respond (some called.1))
  | .dkgRound1Request agentPubkey epochId preAuthToken =>
    if agentPubkey = "" ∨ epochId = "" then (n, .closed)
    else
      match passPreAuth cfg n agentPubkey preAuthToken out with
      | .error reason => (n, .preauthError reason)
      | .ok n =>
        let called := dkgRound1 out.round1 (Value.string agentPubkey) epochId n.memory
        (n.setMemory called.2, respond called.1)
  | .dkgRound2Request agentPubkey epochId =>
    if agentPubkey = "" ∨ epochId = "" then (n, .closed)
    else
      let called := dkgRound2 out.round2 (Value.string agentPubkey) epochId n.memory
      (n.setMemory called.2, respond called.1)
  | .dkgRound3Request agentPubkey epochId =>
    if agentPubkey = "" ∨ epochId = "" then (n, .closed)
    else
      let called := dkgRound3 (out.round3.map Prod.fst) (Value.string agentPubkey) epochId n.memory
      startStore n call called fun share =>
        .dkgRound3 agentPubkey epochId share ((out.round3.map Prod.snd).getD [])
  | .refreshRound1Request agentPubkey fromEpochId =>
    let checked := isAgentPaused n call agentPubkey out.suspension
    if checked.2 then (checked.1, .refused "agent_suspended")
    else
      (checked.1,
        respond (some (refreshRound1 out.contribution agentPubkey fromEpochId.text checked.1.memory)))
  | .refreshRound2Request agentPubkey fromEpochId toEpochId =>
    let checked := isAgentPaused n call agentPubkey out.suspension
    if checked.2 then (checked.1, .refused "agent_suspended")
    else
      startStore checked.1 call
        (refreshRound2 out.applyRefresh agentPubkey fromEpochId.text toEpochId.text
          checked.1.memory) fun share =>
          .refreshRound2 agentPubkey toEpochId share

/-- What the database does for a call that waits; `none` where it refuses, since no column is NULL. -/
def landWork (rows : OrdMap (String × String) (Option Share)) : Work Share →
    Option (OrdMap (String × String) (Option Share))
  | .storeShare agentPubkey epochId share => insert agentPubkey epochId share
  | .dkgRound3 agentPubkey epochId share _ => insert (.string agentPubkey) (.string epochId) share
  | .refreshRound2 agentPubkey toEpochId share => insert agentPubkey toEpochId share
  | .destroyShares agentPubkey =>
    some (rows.mapWithKey fun key share => if agentPubkey.column = some key.1 then none else share)
where
  insert (agentPubkey epochId : Value) (share : Share) :
      Option (OrdMap (String × String) (Option Share)) :=
    match agentPubkey.column, epochId.column with
    | some agentId, some epochId => some (rows.set (agentId, epochId) (some share))
    | _, _ => none

/-- What a call does when the database has answered. -/
def settleWork (ok : Bool) : Work Share → Node Share
  | .storeShare .. => n
  | .dkgRound3 agentPubkey epochId _ shareCommitment =>
    if ok then
      { (n.setMemory (dkgStored (Value.string agentPubkey) epochId n.memory)).register
          (.string agentPubkey) shareCommitment with
        pendingDkgCommitments := n.pendingDkgCommitments.set agentPubkey shareCommitment }
    else n.setMemory (endDkg (Value.string agentPubkey) epochId n.memory)
  | .refreshRound2 agentPubkey toEpochId _ =>
    if ok then n.setMemory (refreshStored agentPubkey toEpochId.text n.memory) else n
  | .destroyShares _ => n

end Handle

/-! ### Runs -/

inductive Event (Share : Type) where
  | frame (call : ℕ) (f : Frame Share) (out : Outcome Share)
  /-- The database has done what a call waits for. -/
  | land (call : ℕ)
  /-- The database has answered a call. -/
  | settle (call : ℕ) (ok : Bool)

/-- One event; the frames of different streams are told apart by their calls. -/
def step {Share : Type} (cfg : Config) (n : Node Share) : Event Share → Node Share
  | .frame call f out =>
    match n.waiting call with
    | none => (handle cfg n call out f).1
    | some _ => n
  | .land call =>
    match n.waiting call with
    | none => n
    | some w =>
      if w.landed then n
      else
        match landWork n.rows w.work with
        | none => n
        | some rows =>
          { n with
            rows := rows
            waiting := Function.update n.waiting call (some { w with landed := true }) }
  | .settle call ok =>
    match n.waiting call with
    | none => n
    | some w =>
      -- a write is only confirmed when it is there
      if ok && !w.landed then n
      else settleWork { n with waiting := Function.update n.waiting call none } ok w.work

end Cello.Directory.Frost.Stream
