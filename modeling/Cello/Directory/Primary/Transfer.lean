import Cello.Lib.JsValue
import Mathlib.Data.List.Basic

/-!
# `primary_transfer_request`

Which daemon holds an agent is a row of `primary_holder`.  A daemon that wants to hold it presents what the old one
released.  A node reads the row, binds the nonce, looks the group key up, verifies the release, and then puts the
row; before each of these a request waits, and any other may run.
-/

namespace Cello.Directory.Primary

open Lib

/-! ### The frame -/

/-- `PrimaryTransferRequest`. -/
structure PrimaryTransferRequest where
  kLocalPubkey : String
  newDaemonId : String
  oldDaemonId : String
  releaseSignature : String
  nonce : String
  timestamp : JsNumber
deriving DecidableEq

/-- What a release signs. -/
structure Release where
  kLocalPubkey : String
  newDaemonId : String
  oldDaemonId : String
  nonce : String
  timestamp : JsNumber
deriving DecidableEq

def PrimaryTransferRequest.release (frame : PrimaryTransferRequest) : Release :=
  ⟨frame.kLocalPubkey, frame.newDaemonId, frame.oldDaemonId, frame.nonce, frame.timestamp⟩

inductive Reason where
  | notRegistered
  | staleRequest
  | internalError
  | nonceReused
  | releaseNotVerified
deriving DecidableEq, Repr

def Reason.text : Reason → String
  | notRegistered => "not_registered"
  | staleRequest => "stale_request"
  | internalError => "internal_error"
  | nonceReused => "nonce_reused"
  | releaseNotVerified => "release_not_verified"

inductive Reply where
  /-- `primary_transfer_ack`. -/
  | ack (nodeId : String)
  /-- `primary_transfer_error`. -/
  | error (reason : Reason)
deriving DecidableEq, Repr

/-- What the handler uses of other packages. -/
structure TransferExternals where
  /-- `verifySignature` of the threshold signer over `buildPrimaryTransferTbs`, for releases: signature, what it
  signs, group key. -/
  verifySignature : Bytes → Release → Bytes → Bool

structure Config extends TransferExternals where
  nodeId : String
  /-- Whether the node has a database. -/
  pgPool : Bool

/-! ### The node -/

/-- What a request waits for. -/
inductive Stage where
  | getPrimaryHolder
  /-- `INSERT … ON CONFLICT (nonce) DO NOTHING`. -/
  | bindNonce
  /-- The `SELECT` after a conflict. -/
  | boundNonce
  | resolvePrimaryPubkey
  | upsertPrimaryHolder
deriving DecidableEq, Repr

/-- A request that waits.  `seen` counts the changes of the table before it had read its row. -/
structure Waiting where
  frame : PrimaryTransferRequest
  stage : Stage
  seen : ℕ
deriving DecidableEq

/-- An accepted transfer, and the holder of the row it went over. -/
structure Change where
  release : Release
  before : Option String
deriving DecidableEq

structure Node where
  primaryHolder : String → Option String
  /-- `primary_transfer_nonce_bindings`. -/
  nonceBindings : String → Option String
  waiting : List Waiting := []
  sent : List (PrimaryTransferRequest × Reply) := []
  /-- The changes of `primaryHolder` so far. -/
  changes : List Change := []

def PRIMARY_TRANSFER_FRESHNESS_MS : ℚ := 5 * 60 * 1000

/-- `!Number.isFinite(timestamp) || Math.abs(Date.now() - timestamp) > PRIMARY_TRANSFER_FRESHNESS_MS`. -/
def isStale (now : ℤ) : JsNumber → Bool
  | .fin t => decide (PRIMARY_TRANSFER_FRESHNESS_MS < |(now : ℚ) - t|)
  | _ => true

/-- `Buffer.from(frame.release_signature, "hex")`: the bytes in front of what is not a digit. -/
def sigBytes (frame : PrimaryTransferRequest) : Bytes :=
  Bytes.ofHexDigits ((frame.releaseSignature.toList.takeWhile Bytes.isHexDigit).map Char.toLower)

def releaseVerified (cfg : Config) (frame : PrimaryTransferRequest) (primaryPubkey : Bytes) : Bool :=
  decide ((sigBytes frame).length = 64) && cfg.verifySignature (sigBytes frame) frame.release primaryPubkey

namespace Node

def send (node : Node) (frame : PrimaryTransferRequest) (reply : Reply) : Node :=
  { node with sent := node.sent ++ [(frame, reply)] }

/-- `#processPrimaryTransferRequest`, up to where it waits for its row. -/
def processPrimaryTransferRequest (cfg : Config) (node : Node) (authedPubkey : String)
    (frame : PrimaryTransferRequest) (now : ℤ) : Node :=
  if authedPubkey ≠ frame.kLocalPubkey then node.send frame (.error .notRegistered)
  else if isStale now frame.timestamp then node.send frame (.error .staleRequest)
  else if cfg.pgPool then { node with waiting := node.waiting ++ [⟨frame, .getPrimaryHolder, 0⟩] }
  else node.send frame (.error .internalError)

def await (node : Node) (i : ℕ) (call : Waiting) : Node := { node with waiting := node.waiting.set i call }

/-- A request ends. -/
def finish (node : Node) (i : ℕ) (frame : PrimaryTransferRequest) (reply : Reply) : Node :=
  { node with waiting := node.waiting.eraseIdx i }.send frame reply

/-- `upsertPrimaryHolder`. -/
def upsertPrimaryHolder (node : Node) (release : Release) : Node :=
  { node with
    primaryHolder := Function.update node.primaryHolder release.kLocalPubkey (some release.newDaemonId)
    changes := node.changes ++ [⟨release, node.primaryHolder release.kLocalPubkey⟩] }

/-- A request goes on: the database has answered, or the group key has been looked up. -/
def resume (cfg : Config) (node : Node) (i : ℕ) (call : Waiting) (primaryPubkey : Option Bytes) : Node :=
  let frame := call.frame
  match call.stage with
  | .getPrimaryHolder =>
    if node.primaryHolder frame.kLocalPubkey = some frame.oldDaemonId then
      node.await i ⟨frame, .bindNonce, node.changes.length⟩
    else node.finish i frame (.error .notRegistered)
  | .bindNonce =>
    match node.nonceBindings frame.nonce with
    | none =>
      { node with nonceBindings := Function.update node.nonceBindings frame.nonce (some frame.newDaemonId) }.await i
        { call with stage := .resolvePrimaryPubkey }
    | some _ => node.await i { call with stage := .boundNonce }
  | .boundNonce =>
    if node.nonceBindings frame.nonce = some frame.newDaemonId then
      node.await i { call with stage := .resolvePrimaryPubkey }
    else node.finish i frame (.error .nonceReused)
  | .resolvePrimaryPubkey =>
    match primaryPubkey with
    | none => node.finish i frame (.error .notRegistered)
    | some key =>
      if releaseVerified cfg frame key then node.await i { call with stage := .upsertPrimaryHolder }
      else node.finish i frame (.error .releaseNotVerified)
  | .upsertPrimaryHolder => (node.upsertPrimaryHolder frame.release).finish i frame (.ack cfg.nodeId)

def fail (node : Node) (i : ℕ) (call : Waiting) : Node :=
  match call.stage with
  | .upsertPrimaryHolder => node.finish i call.frame (.error .internalError)
  | _ => { node with waiting := node.waiting.eraseIdx i }

end Node

inductive Event where
  | request (authedPubkey : String) (frame : PrimaryTransferRequest) (now : ℤ)
  /-- What the `i`-th request waits for is there. -/
  | answered (i : ℕ) (primaryPubkey : Option Bytes)
  | failed (i : ℕ)
  | restart

def Node.step (cfg : Config) (node : Node) : Event → Node
  | .request authedPubkey frame now => node.processPrimaryTransferRequest cfg authedPubkey frame now
  | .answered i primaryPubkey =>
    match node.waiting[i]? with
    | none => node
    | some call => node.resume cfg i call primaryPubkey
  | .failed i =>
    match node.waiting[i]? with
    | none => node
    | some call => node.fail i call
  | .restart => { node with waiting := [] }

end Cello.Directory.Primary
