import Cello.Directory.AntiEntropy.PgStore
import Cello.Directory.Signals.Records

/-!
# The write path of the trust signals

`submitSignal` and `revokeSignal` of `packages/directory/src/signal-write.ts`.  Whether a request is
accepted does not depend on the tables of the signals (`SignalRequest.handle_eq`), so what a history comes to
is what its accepted requests store.

The codec and the signature scheme are packages of their own; they are given by what they answer.
-/

namespace Cello.Directory.Signals

open Lib
open AntiEntropy (hexPrefix)

/-! ### Requests -/

/-- The envelope of a signal, as far as the directory reads it; `other` stands for what it only hashes. -/
structure TrustSignalEnvelope where
  subjectKind : SubjectKind
  issuerKind : IssuerKind
  issuerPubkey : String
  type : String
  supersedesHash : Option Bytes
  other : List String
deriving DecidableEq

/-- The packages under the write path. -/
structure SignalExternals where
  /-- `verify(pubkey, message, signature)`; it can throw. -/
  verify : Bytes → Bytes → Bytes → Except String Bool
  sha256 : Bytes → Bytes
  decodeCbor : Bytes → Except String JsAny
  encodeCbor : JsAny → Bytes
  decodeTrustSignalEnvelope : Bytes → Except String TrustSignalEnvelope
  hashTrustSignalEnvelope : TrustSignalEnvelope → Except String Bytes

inductive SubmitRejection where
  | malformedRequest
  | unknownIssuer
  | issuerRevoked
  | issuerWrongRole
  | signatureInvalid
  | revokerAuthorizationInvalid
  | staleRequest
  | envelopeUndecodable
  | envelopeInvalid
  | envelopeHashMismatch
deriving DecidableEq, Repr

/-- A refusal with its cause, or an error that is none of ours. -/
inductive WriteError where
  | rejected (reason : SubmitRejection)
  | thrown (message : String)
deriving DecidableEq, Repr

/-- A signed request as a node meets it: its clock, and `role` and `status` of `authorized_issuers`. -/
structure SignedRequest where
  issuers : String → Option (String × String)
  nowSec : ℤ
  bodyCbor : Bytes
  signerPubkeyHex : String
  signatureHex : String

def signalRequestDomain : String := "CELLO-TSIG-REQ-v1"

def signalRevokeAuthDomain : String := "CELLO-SIGREVOKE-v1"

def envelopeDomain : String := "CELLO-TSIG-v1"

def clockSkewSeconds : ℤ := 600

/-- `Buffer.from(text, "utf8")` of ASCII text. -/
def asciiBytes (s : String) : Bytes := s.toList.map fun c => UInt8.ofNat c.toNat

/-- `/^[0-9a-f]{64}$/`. -/
def isLowerHex64 (s : String) : Bool := decide (s.length = 64) && s.toList.all Text.isHexDigit

/-- `Buffer.from(h, "hex")`. -/
def hexToBytes (h : String) : Bytes := hexPrefix h.toList

section

variable (env : SignalExternals)

def buildSignalRequestTbs (bodyCbor : Bytes) : Bytes :=
  asciiBytes signalRequestDomain ++ env.sha256 bodyCbor

def buildSignalRevokeAuthorizationTbs (signalHash : String) (issuedAt : ℤ) : Bytes :=
  env.encodeCbor (.arr [.str signalRevokeAuthDomain, .str signalHash, .num (.fin issuedAt)])

/-! ### The checks -/

def authorizeIssuer (req : SignedRequest) (required : String) : Except WriteError Unit :=
  match req.issuers req.signerPubkeyHex with
  | none => .error (.rejected .unknownIssuer)
  | some (role, status) =>
    if status ≠ "active" then .error (.rejected .issuerRevoked)
    else if role ≠ required then .error (.rejected .issuerWrongRole)
    else .ok ()

def verifySignedRequest (req : SignedRequest) (requiredRole : String) : Except WriteError Unit := do
  if isLowerHex64 req.signerPubkeyHex = false then throw (.rejected .malformedRequest)
  authorizeIssuer req requiredRole
  match env.verify (hexToBytes req.signerPubkeyHex) (buildSignalRequestTbs env req.bodyCbor)
      (hexToBytes req.signatureHex) with
  | .ok true => pure ()
  | _ => throw (.rejected .signatureInvalid)

/-- `issued_at`, where it is an integer. -/
def integerField (body : JsAny) (field : String) : Except WriteError ℤ :=
  match body.prop field with
  | .num (.fin q) => if q.den = 1 then .ok q.num else .error (.rejected .malformedRequest)
  | _ => .error (.rejected .malformedRequest)

/-- `signal_hash`. -/
def signalHashField (body : JsAny) : Except WriteError String :=
  match body.prop "signal_hash" with
  | .str s => if isLowerHex64 s then .ok s else .error (.rejected .malformedRequest)
  | _ => .error (.rejected .malformedRequest)

/-- The body is a map of the version and the operation. -/
def decodeBody (bodyCbor : Bytes) (op : String) : Except WriteError JsAny :=
  match env.decodeCbor bodyCbor with
  | .error _ => .error (.rejected .malformedRequest)
  | .ok body =>
    match body.prop "v", body.prop "op" with
    | .num (.fin v), .str o =>
      if v = 1 ∧ o = op then .ok body else .error (.rejected .malformedRequest)
    | _, _ => .error (.rejected .malformedRequest)

structure SignalSubmitRequest where
  envelope : Bytes
  signalHash : String
  scannerVersion : String
  issuedAt : ℤ

def parseRequest (bodyCbor : Bytes) : Except WriteError SignalSubmitRequest := do
  let body ← decodeBody env bodyCbor "submit"
  match body.prop "envelope" with
  | .bytes envelope =>
    let signalHash ← signalHashField body
    match body.prop "scanner_version" with
    | .str scannerVersion =>
      if scannerVersion = "" then throw (.rejected .malformedRequest)
      let issuedAt ← integerField body "issued_at"
      return { envelope, signalHash, scannerVersion, issuedAt }
    | _ => throw (.rejected .malformedRequest)
  | _ => throw (.rejected .malformedRequest)

/-- `issued_at` within the skew window. -/
def checkClock (req : SignedRequest) (issuedAt : ℤ) : Except WriteError Unit :=
  if clockSkewSeconds < |req.nowSec - issuedAt| then .error (.rejected .staleRequest) else .ok ()

def isStructural (bytes : Bytes) : Bool :=
  match env.decodeCbor bytes with
  | .ok (.arr (.str domain :: rest)) => decide (rest.length = 11) && decide (domain = envelopeDomain)
  | _ => false

def decodeEnvelope (bytes : Bytes) : Except WriteError TrustSignalEnvelope :=
  match env.decodeTrustSignalEnvelope bytes with
  | .ok envelope => .ok envelope
  | .error _ =>
    if isStructural env bytes then .error (.rejected .envelopeInvalid)
    else .error (.rejected .envelopeUndecodable)

def derivedHash (envelope : TrustSignalEnvelope) : Except WriteError String :=
  match env.hashTrustSignalEnvelope envelope with
  | .ok hash => .ok hash.toHex
  | .error _ => .error (.rejected .envelopeInvalid)

/-- A submission that is accepted. -/
structure AcceptedSubmit where
  signalHash : String
  envelope : TrustSignalEnvelope
  scannerVersion : String
deriving DecidableEq

def verifySubmit (req : SignedRequest) : Except WriteError AcceptedSubmit := do
  verifySignedRequest env req "submitter"
  let submitted ← parseRequest env req.bodyCbor
  checkClock req submitted.issuedAt
  let envelope ← decodeEnvelope env submitted.envelope
  let derived ← derivedHash env envelope
  if envelope.issuerKind = .agent ∧ isLowerHex64 envelope.issuerPubkey = false then
    .error (.rejected .envelopeInvalid)
  else if derived ≠ submitted.signalHash then .error (.rejected .envelopeHashMismatch)
  else .ok { signalHash := derived, envelope, scannerVersion := submitted.scannerVersion }

/-- A revocation that is accepted, with the revoker of an inner authorization. -/
structure AcceptedRevoke where
  signalHash : String
  revoker : Option (String × Bytes)
deriving DecidableEq

/-- The inner authorization of a revocation. -/
def verifyRevoker (body : JsAny) (signalHash : String) (issuedAt : ℤ) :
    Except WriteError (Option (String × Bytes)) :=
  match body.prop "revoker_pubkey", body.prop "revoker_signature" with
  | .undefined, .undefined => .ok none
  | .str revokerPubkey, .bytes revokerSignature =>
    if isLowerHex64 revokerPubkey = false then .error (.rejected .malformedRequest)
    else if revokerSignature.length ≠ 64 then .error (.rejected .malformedRequest)
    else
      match env.verify (hexToBytes revokerPubkey) (buildSignalRevokeAuthorizationTbs env signalHash issuedAt)
          revokerSignature with
      | .ok true => .ok (some (revokerPubkey, revokerSignature))
      | .ok false => .error (.rejected .revokerAuthorizationInvalid)
      | .error message => .error (.thrown message)
  | _, _ => .error (.rejected .malformedRequest)

def verifyRevoke (req : SignedRequest) : Except WriteError AcceptedRevoke := do
  verifySignedRequest env req "submitter"
  let body ← decodeBody env req.bodyCbor "revoke"
  let signalHash ← signalHashField body
  let issuedAt ← integerField body "issued_at"
  checkClock req issuedAt
  let revoker ← verifyRevoker env body signalHash issuedAt
  return { signalHash, revoker }

end

/-! ### What is stored -/

namespace AcceptedSubmit

variable (a : AcceptedSubmit)

/-- `supersedes_hash` in hex. -/
def supersedes : Option String := a.envelope.supersedesHash.map Bytes.toHex

/-- The row of a submission. -/
def record (acceptingNode : String) : SignalRecord where
  signalHash := a.signalHash
  acceptingNode := .node acceptingNode
  subjectKind := a.envelope.subjectKind
  issuerKind := a.envelope.issuerKind
  issuerPubkey := a.envelope.issuerPubkey
  type := a.envelope.type
  supersedesHash := a.supersedes
  scannerVersion := a.scannerVersion

/-- The insert, and the update of the predecessor's row where the insert is new. -/
def store (acceptingNode : String) (t : SignalTables) : SignalTables × Bool :=
  match t.insertRecord (a.record acceptingNode) with
  | (t', true) =>
    match a.supersedes with
    | none => (t', true)
    | some oldHash => (t'.markSuperseded oldHash (.node acceptingNode), true)
  | (t', false) => (t', false)

end AcceptedSubmit

namespace AcceptedRevoke

variable (a : AcceptedRevoke)

/-- The tombstone of a revocation. -/
def tombstone (acceptingNode : String) : SignalRecord where
  signalHash := a.signalHash
  acceptingNode := .revoke acceptingNode
  subjectKind := .agent
  issuerKind := .portal
  issuerPubkey := "(tombstone)"
  type := "(tombstone)"
  supersedesHash := none
  status := .revoked
  scannerVersion := "(tombstone)"
  isTombstone := true
  revokerPubkey := a.revoker.map Prod.fst
  revokerSignature := a.revoker.map Prod.snd

/-- The tombstone, and the fact that replicates where the revoker is known. -/
def store (acceptingNode : String) (t : SignalTables) : SignalTables × Bool :=
  match t.insertRecord (a.tombstone acceptingNode) with
  | (t', inserted) =>
    match a.revoker with
    | none => (t', inserted)
    | some (revokerPubkey, revokerSignature) =>
      (t'.insertRevocation ⟨a.signalHash, revokerPubkey, revokerSignature⟩, inserted)

end AcceptedRevoke

/-! ### The two operations -/

structure SubmitResult where
  signalHash : String
  inserted : Bool
deriving DecidableEq, Repr

structure RevokeResult where
  signalHash : String
  revokedRows : ℕ
deriving DecidableEq, Repr

variable {env : SignalExternals} {acceptingNode : String} {t t' : SignalTables} {req : SignedRequest}

def submitSignal (env : SignalExternals) (acceptingNode : String) (t : SignalTables) (req : SignedRequest) :
    Except WriteError (SignalTables × SubmitResult) := do
  let a ← verifySubmit env req
  let stored := a.store acceptingNode t
  return (stored.1, ⟨a.signalHash, stored.2⟩)

def revokeSignal (env : SignalExternals) (acceptingNode : String) (t : SignalTables) (req : SignedRequest) :
    Except WriteError (SignalTables × RevokeResult) := do
  let a ← verifyRevoke env req
  let stored := a.store acceptingNode t
  return (stored.1, ⟨a.signalHash, if stored.2 then 1 else 0⟩)

/-! ### What acceptance says -/

theorem signalHashField_ok {body : JsAny} {s : String} (h : signalHashField body = .ok s) :
    isLowerHex64 s = true := by
  unfold signalHashField at h
  split at h
  · split at h
    next hhex =>
      obtain rfl := Except.ok.inj h
      exact hhex
    · cases h
  · cases h

theorem parseRequest_ok {body : Bytes} {r : SignalSubmitRequest} (h : parseRequest env body = .ok r) :
    isLowerHex64 r.signalHash = true := by
  obtain ⟨v, -, h⟩ := AntiEntropy.bind_ok h
  split at h
  · obtain ⟨s, hs, h⟩ := AntiEntropy.bind_ok h
    split at h
    · split at h
      · cases h
      · obtain ⟨i, -, h⟩ := AntiEntropy.bind_ok h
        obtain rfl := Except.ok.inj h
        exact signalHashField_ok hs
    · cases h
  · cases h

theorem derivedHash_ok {envelope : TrustSignalEnvelope} {s : String}
    (h : derivedHash env envelope = .ok s) :
    ∃ hash, env.hashTrustSignalEnvelope envelope = .ok hash ∧ hash.toHex = s := by
  unfold derivedHash at h
  split at h
  next hash heq => exact ⟨hash, heq, Except.ok.inj h⟩
  · cases h

/-- **What an accepted submission is**: its hash is that of its envelope, and the key of an agent is whole. -/
structure AcceptedSubmit.WellFormed (env : SignalExternals) (a : AcceptedSubmit) : Prop where
  derived : ∃ hash, env.hashTrustSignalEnvelope a.envelope = .ok hash ∧ hash.toHex = a.signalHash
  hex : isLowerHex64 a.signalHash = true
  agent : a.envelope.issuerKind = .agent → isLowerHex64 a.envelope.issuerPubkey = true

theorem verifySubmit_ok {a : AcceptedSubmit} (h : verifySubmit env req = .ok a) : a.WellFormed env := by
  obtain ⟨-, -, h⟩ := AntiEntropy.bind_ok h
  obtain ⟨submitted, hparse, h⟩ := AntiEntropy.bind_ok h
  obtain ⟨-, -, h⟩ := AntiEntropy.bind_ok h
  obtain ⟨envelope, -, h⟩ := AntiEntropy.bind_ok h
  obtain ⟨derived, hderived, h⟩ := AntiEntropy.bind_ok h
  split at h
  · cases h
  next hagent =>
    split at h
    · cases h
    next hsame =>
      obtain rfl := Except.ok.inj h
      refine ⟨derivedHash_ok hderived, ?_, fun hkind => ?_⟩
      · rw [not_ne_iff.1 hsame]
        exact parseRequest_ok hparse
      · exact Bool.eq_true_of_not_eq_false fun hshort => hagent ⟨hkind, hshort⟩

/-- **What an accepted revocation is**: a revoker that it names has signed for the hash. -/
structure AcceptedRevoke.WellFormed (env : SignalExternals) (a : AcceptedRevoke) : Prop where
  hex : isLowerHex64 a.signalHash = true
  revoker : ∀ p signature, a.revoker = some (p, signature) → isLowerHex64 p = true ∧
    ∃ issuedAt, env.verify (hexToBytes p) (buildSignalRevokeAuthorizationTbs env a.signalHash issuedAt)
      signature = .ok true

theorem verifyRevoker_ok {body : JsAny} {s : String} {i : ℤ} {revoker : Option (String × Bytes)}
    (h : verifyRevoker env body s i = .ok revoker) {p : String} {signature : Bytes}
    (hrevoker : revoker = some (p, signature)) : isLowerHex64 p = true ∧
      env.verify (hexToBytes p) (buildSignalRevokeAuthorizationTbs env s i) signature = .ok true := by
  subst hrevoker
  unfold verifyRevoker at h
  split at h
  · cases h
  · split at h
    · cases h
    next hhex =>
      split at h
      · cases h
      · split at h
        next hverify =>
          obtain ⟨rfl, rfl⟩ := Prod.mk.inj (Option.some.inj (Except.ok.inj h))
          exact ⟨Bool.eq_true_of_not_eq_false hhex, hverify⟩
        · cases h
        · cases h
  · cases h

theorem verifyRevoke_ok {a : AcceptedRevoke} (h : verifyRevoke env req = .ok a) : a.WellFormed env := by
  obtain ⟨-, -, h⟩ := AntiEntropy.bind_ok h
  obtain ⟨body, -, h⟩ := AntiEntropy.bind_ok h
  obtain ⟨s, hs, h⟩ := AntiEntropy.bind_ok h
  obtain ⟨i, -, h⟩ := AntiEntropy.bind_ok h
  obtain ⟨-, -, h⟩ := AntiEntropy.bind_ok h
  obtain ⟨revoker, hrevoker, h⟩ := AntiEntropy.bind_ok h
  obtain rfl := Except.ok.inj h
  refine ⟨signalHashField_ok hs, fun p signature heq => ?_⟩
  obtain ⟨hhex, hverify⟩ := verifyRevoker_ok hrevoker heq
  exact ⟨hhex, i, hverify⟩

/-! ### Whether, and what -/

theorem submitSignal_eq (t : SignalTables) : submitSignal env acceptingNode t req =
    (verifySubmit env req).map fun a =>
      ((a.store acceptingNode t).1, ⟨a.signalHash, (a.store acceptingNode t).2⟩) := by
  unfold submitSignal
  cases verifySubmit env req <;> rfl

theorem revokeSignal_eq (t : SignalTables) : revokeSignal env acceptingNode t req =
    (verifyRevoke env req).map fun a =>
      ((a.store acceptingNode t).1, ⟨a.signalHash, if (a.store acceptingNode t).2 then 1 else 0⟩) := by
  unfold revokeSignal
  cases verifyRevoke env req <;> rfl

inductive SignalRequest where
  | submit (req : SignedRequest)
  | revoke (req : SignedRequest)

/-- A request that is accepted. -/
inductive Accepted where
  | submit (a : AcceptedSubmit)
  | revoke (a : AcceptedRevoke)
deriving DecidableEq

def SignalRequest.accepted (env : SignalExternals) : SignalRequest → Option Accepted
  | .submit req => (verifySubmit env req).toOption.map .submit
  | .revoke req => (verifyRevoke env req).toOption.map .revoke

/-- The tables after a request; one that is refused changes nothing. -/
def SignalRequest.handle (env : SignalExternals) (acceptingNode : String) (t : SignalTables) :
    SignalRequest → SignalTables
  | .submit req =>
    match submitSignal env acceptingNode t req with
    | .ok (t', _) => t'
    | .error _ => t
  | .revoke req =>
    match revokeSignal env acceptingNode t req with
    | .ok (t', _) => t'
    | .error _ => t

def Accepted.store (acceptingNode : String) (t : SignalTables) : Accepted → SignalTables
  | .submit a => (a.store acceptingNode t).1
  | .revoke a => (a.store acceptingNode t).1

theorem SignalRequest.handle_eq (r : SignalRequest) (t : SignalTables) : r.handle env acceptingNode t =
    ((r.accepted env).map (Accepted.store acceptingNode t)).getD t := by
  cases r with
  | submit req =>
    rw [handle, accepted, submitSignal_eq]
    cases verifySubmit env req <;> rfl
  | revoke req =>
    rw [handle, accepted, revokeSignal_eq]
    cases verifyRevoke env req <;> rfl

/-- What an accepted request says for itself. -/
def Accepted.WellFormed (env : SignalExternals) : Accepted → Prop
  | .submit a => a.WellFormed env
  | .revoke a => a.WellFormed env

theorem SignalRequest.wellFormed {r : SignalRequest} {a : Accepted} (h : r.accepted env = some a) :
    a.WellFormed env := by
  cases r with
  | submit req =>
    rw [accepted] at h
    cases hverify : verifySubmit env req with
    | error e =>
      rw [hverify] at h
      cases h
    | ok s =>
      rw [hverify] at h
      obtain rfl := Option.some.inj h
      exact verifySubmit_ok hverify
  | revoke req =>
    rw [accepted] at h
    cases hverify : verifyRevoke env req with
    | error e =>
      rw [hverify] at h
      cases h
    | ok s =>
      rw [hverify] at h
      obtain rfl := Option.some.inj h
      exact verifyRevoke_ok hverify

end Cello.Directory.Signals
