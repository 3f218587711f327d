import Cello.Directory.AntiEntropy.Engine
import Cello.Directory.AntiEntropy.Handshake
import Cello.Lib.IsoDate

/-!
# One end of an anti-entropy channel

The handshakes of `runAeDialer` and `serveAeResponder` and the serve loop, of
`packages/directory/src/ae-channel.ts`.  Each end takes one frame after the other from its wire, whatever
the frame is, and is in one place of its program when it takes it; `receive` is what it does with it.  The
rounds of a dialer, behind its handshake, are in the files of the engine.
-/

namespace Cello.Directory.AntiEntropy

open Lib

/-- `AeNodeIdentity`. -/
structure NodeIdentity where
  nodeId : String
  peerId : String
deriving DecidableEq, Repr

/-- A frame that an end sends. -/
inductive Sent (α β : Type) where
  | hello (nodeId peerId nonce : String)
  | authB (nodeId peerId nonce timestamp : String) (sig : Bytes)
  | authA (sig : Bytes)
  | state (tierA tierB : OrdMap String String)
  | buckets (digests : List String)
  | bucketHashes (hashes : List String)
  | versions (versions : OrdMap String String)
  | recordsA (records : List (TierARecord α))
  | recordsB (records : List (TierBRecord β))

/-- The frame answers a request of a round. -/
def Sent.isAnswer {α β : Type} : Sent α β → Bool
  | .hello .. => false
  | .authB .. => false
  | .authA _ => false
  | _ => true

/-- How an end has come to its end. -/
inductive Ended where
  | done
  | refused (reason : String) (detail : Option String)
  | thrown (e : AeError)
deriving DecidableEq, Repr

/-- Where an end is in its program. -/
inductive Phase where
  | awaitAuthB (nonceA : String)
  | rounds
  | awaitHello
  | awaitAuthA (params : AePeerAuthParams)
  | serving (stage : String)
  | ended (how : Ended)
deriving DecidableEq, Repr

/-- One end of a connection. -/
structure Session (α β : Type) where
  slot : Slot
  identity : NodeIdentity
  manifest : ConsortiumManifest
  /-- The peer id of the live connection. -/
  actualRemotePeerId : String
  timeoutMs : ℕ
  /-- The node that is dialed. -/
  remoteNodeId : String
  phase : Phase
  /-- What was signed, once the handshake is over. -/
  accepted : Option AePeerAuthParams
  sent : List (Sent α β)

/-- What the clock, the random numbers, the key, the wire and the store do when a frame is taken. -/
structure Surroundings (σ : Type) where
  nowMs : ℤ
  /-- `randomBytes(32).toString("hex")`. -/
  nonce : String
  /-- `identity.sign`, or what it throws. -/
  signed : Except String Bytes
  /-- What `wire.send` throws. -/
  sendError : Option String
  store : σ

section

variable {σ α β μ : Type}

/-- What an end has come to, and the text that it has signed on the way. -/
structure Reaction (α β μ : Type) where
  session : Session α β
  signed : Option μ

namespace Session

def ended (s : Session α β) (how : Ended) : Session α β := { s with phase := .ended how }

/-- `wire.send(frame)`, and on. -/
def send (s : Session α β) (env : Surroundings σ) (frame : Sent α β) (fail : AeError → Ended)
    (next : Session α β → Session α β) : Session α β :=
  match env.sendError with
  | some message => s.ended (fail (.store message))
  | none => next { s with sent := s.sent ++ [frame] }

def accept (s : Session α β) (params : AePeerAuthParams) (phase : Phase) : Session α β :=
  { s with phase, accepted := some params }

end Session

variable (auth : PeerAuth μ)

def buildTbs (values : String) (params : AePeerAuthParams) : Except AeError μ :=
  match auth.buildAePeerAuthTbs params with
  | .ok tbs => .ok tbs
  | .error message =>
    .error (.wire ("peer-supplied " ++ values ++ " values rejected by the TBS builder: " ++ message))

/-! ### The dialer -/

/-- The `catch` of `runAeDialer`. -/
def dialerCatch : AeError → Ended
  | .wire message => .refused "protocol_error" (some message)
  | e => .thrown e

/-- `runAeDialer` up to its first wait. -/
def openDialer (identity : NodeIdentity) (manifest : ConsortiumManifest)
    (remoteNodeId actualRemotePeerId : String) (timeoutMs : ℕ) (env : Surroundings σ) : Session α β :=
  let s : Session α β :=
    { slot := .A, identity, manifest, actualRemotePeerId, timeoutMs, remoteNodeId
      phase := .awaitAuthB env.nonce, accepted := none, sent := [] }
  if remoteNodeId = identity.nodeId then
    s.ended (.refused "self_dial" (some ("refusing to dial self (nodeId " ++ identity.nodeId ++
      ") — check the manifest for a duplicate entry or an endpoint that resolves back to this node")))
  else s.send env (.hello identity.nodeId identity.peerId env.nonce) dialerCatch id

/-- The values of `ae_auth_b`, and its signature. -/
def readAuthB (s : Session α β) (nonceA : String) (incoming : Incoming) :
    Except Ended (AePeerAuthParams × Bytes) := do
  let wire {γ : Type} (r : Except AeError γ) : Except Ended γ := r.mapError dialerCatch
  let authB ← wire (nextFrame "ae_auth_b" s.timeoutMs incoming)
  let claimedNodeId ← wire (str authB "node_id")
  if claimedNodeId ≠ s.remoteNodeId then
    throw (.refused "node_id_mismatch"
      (some ("dialed " ++ s.remoteNodeId ++ ", answered by " ++ claimedNodeId)))
  let peerIdB ← wire (str authB "peer_id")
  let nonceBHex ← wire (str authB "nonce")
  let timestamp ← wire (str authB "timestamp")
  let sig ← wire (bytesField authB "sig")
  return ({ nodeIdA := s.identity.nodeId, nodeIdB := claimedNodeId, peerIdA := s.identity.peerId
            peerIdB, nonceAHex := nonceA, nonceBHex, timestamp }, sig)

/-- The check of `ae_auth_b`: what the two ends agree on, and its text. -/
def checkAuthB (s : Session α β) (nonceA : String) (nowMs : ℤ) (incoming : Incoming) :
    Except Ended (AePeerAuthParams × μ) := do
  let (params, signature) ← readAuthB s nonceA incoming
  match verifyPeerAuthFrame auth
      { manifest := s.manifest, peerNodeId := params.nodeIdB, params, signature
        actualPeerId := s.actualRemotePeerId, localSlot := .A, localMintedNonce := nonceA
        peerNonce := params.nonceBHex, nowMs } with
  | .error reason => throw (.refused reason.text none)
  | .ok () =>
    let tbs ← (buildTbs auth "handshake" params).mapError dialerCatch
    return (params, tbs)

def receiveAuthB (s : Session α β) (nonceA : String) (env : Surroundings σ) (incoming : Incoming) :
    Reaction α β μ :=
  match checkAuthB auth s nonceA env.nowMs incoming with
  | .error how => ⟨s.ended how, none⟩
  | .ok (params, tbs) =>
    match env.signed with
    | .error message => ⟨s.ended (.thrown (.store message)), none⟩
    | .ok sig => ⟨s.send env (.authA sig) dialerCatch fun s => s.accept params .rounds, some tbs⟩

/-! ### The responder -/

/-- The `catch` of `serveAeResponder`. -/
def responderCatch (stage : String) : AeError → Ended
  | .wire message => .thrown (.wire (message ++ " (stage: " ++ stage ++ ")"))
  | e => .thrown (.store (e.message ++ " (stage: " ++ stage ++ ")"))

/-- `serveAeResponder` up to its first wait. -/
def openResponder (identity : NodeIdentity) (manifest : ConsortiumManifest)
    (actualRemotePeerId : String) (timeoutMs : ℕ) : Session α β :=
  { slot := .B, identity, manifest, actualRemotePeerId, timeoutMs, remoteNodeId := ""
    phase := .awaitHello, accepted := none, sent := [] }

/-- The values of `ae_hello`, and the text that this end signs. -/
def readHello (s : Session α β) (nonceB : String) (nowMs : ℤ) (incoming : Incoming) :
    Except AeError (AePeerAuthParams × μ) := do
  let hello ← nextFrame "ae_hello" s.timeoutMs incoming
  let nodeIdA ← str hello "node_id"
  let nonceAHex ← str hello "nonce"
  let params : AePeerAuthParams :=
    { nodeIdA, nodeIdB := s.identity.nodeId, peerIdA := s.actualRemotePeerId
      peerIdB := s.identity.peerId, nonceAHex, nonceBHex := nonceB
      timestamp := String.ofList (IsoDate.isoText nowMs) }
  let tbs ← buildTbs auth "hello" params
  return (params, tbs)

def receiveHello (s : Session α β) (env : Surroundings σ) (incoming : Incoming) : Reaction α β μ :=
  match readHello auth s env.nonce env.nowMs incoming with
  | .error e => ⟨s.ended (responderCatch "handshake" e), none⟩
  | .ok (params, tbs) =>
    match env.signed with
    | .error message => ⟨s.ended (responderCatch "handshake" (.store message)), none⟩
    | .ok sig =>
      ⟨s.send env (.authB s.identity.nodeId s.identity.peerId env.nonce params.timestamp sig)
        (responderCatch "handshake") fun s => { s with phase := .awaitAuthA params }, some tbs⟩

/-- The check of `ae_auth_a`. -/
def checkAuthA (s : Session α β) (params : AePeerAuthParams) (nowMs : ℤ) (incoming : Incoming) :
    Except AeError Unit := do
  let authA ← nextFrame "ae_auth_a" s.timeoutMs incoming
  let signature ← bytesField authA "sig"
  match verifyPeerAuthFrame auth
      { manifest := s.manifest, peerNodeId := params.nodeIdA, params, signature
        actualPeerId := s.actualRemotePeerId, localSlot := .B, localMintedNonce := params.nonceBHex
        peerNonce := params.nonceAHex, nowMs } with
  | .error reason => throw (.wire ("handshake failed: " ++ reason.text))
  | .ok () => return ()

def receiveAuthA (s : Session α β) (params : AePeerAuthParams) (env : Surroundings σ)
    (incoming : Incoming) : Session α β :=
  match checkAuthA auth s params env.nowMs incoming with
  | .error e => s.ended (responderCatch "handshake" e)
  | .ok () => s.accept params (.serving "awaiting_first_request")

/-! ### The serve loop -/

variable (sha : Sha256) (L : AeStoreView σ α β)

def wireDigests (digest : String → Except AeError String) (tables : List String) :
    OrdMap String String :=
  tables.foldl (fun state t => match digest t with
    | .ok d => state.set t d
    | .error _ => state) OrdMap.empty

/-- `buildWireState`. -/
def buildWireState (store : σ) : OrdMap String String × OrdMap String String :=
  (wireDigests (L.tierATableDigest store) (L.tierATables store),
    wireDigests (L.tierBTableDigest store) (L.tierBTables store))

/-- The buckets that a request names, if it names them as numbers. -/
def wantedBuckets (frame : JsAny) : Except AeError (List ℚ) :=
  let refused : Except AeError (List ℚ) :=
    .error (.wire "ae_bucket_hashes_req buckets is not a number array")
  match frame.prop "buckets" with
  | .arr items =>
    if items.all fun b => decide (b.typeOf = "number") then
      (bounded items "ae_bucket_hashes_req buckets").map fun items => items.filterMap fun
        | .num (.fin q) => some q
        | _ => none
    else refused
  | _ => refused

def pullItems (request field : String) (frame : JsAny) : Except AeError (List JsAny) :=
  match itemsOr frame field with
  | .arr items => bounded items (request ++ " " ++ field)
  | _ => .error (.wire (request ++ " `" ++ field ++ "` is not an array"))

/-- The answer to a request; `none` for `ae_done`.  What the store makes of items that are no strings is
left to `texts`. -/
def answer (texts : List JsAny → List String) (store : σ) (frame : JsAny) :
    Except AeError (Option (Sent α β)) :=
  match frameType frame with
  | some "ae_state_req" =>
    let state := buildWireState L store
    .ok (some (.state state.1 state.2))
  | some "ae_buckets_req" => do
    let table ← str frame "table"
    let digests ← bucketDigests sha (← L.tierARecordHashes store table)
    return some (.buckets digests)
  | some "ae_bucket_hashes_req" => do
    let table ← str frame "table"
    let want ← wantedBuckets frame
    let all ← L.tierARecordHashes store table
    return some (.bucketHashes (all.filter fun h => decide ((bucketIndex h : ℚ) ∈ want)))
  | some "ae_versions_req" => do
    let table ← str frame "table"
    let versions ← L.tierBVersions store table
    return some (.versions versions)
  | some "ae_pull_a" => do
    let hashes ← pullItems "ae_pull_a" "hashes" frame
    let table ← str frame "table"
    let records ← L.serveTierA store table (texts hashes)
    return some (.recordsA records)
  | some "ae_pull_b" => do
    let keys ← pullItems "ae_pull_b" "keys" frame
    let table ← str frame "table"
    let records ← L.serveTierB store table (texts keys)
    return some (.recordsB records)
  | some "ae_done" => .ok none
  | _ => .error (.wire ("unexpected frame " ++ (frame.prop "type").toText ++ " in serve loop"))

def idleDeadlineMs : ℕ := 300000

/-- `nextRawFrame`, and the frame in it; `none` where the wire has been closed. -/
def nextRequest (stage : String) : Incoming → Except AeError (Option JsAny)
  | .silent =>
    .error (.wire ("responder idle for " ++ toString idleDeadlineMs ++ "ms at " ++ stage ++
      " — peer is gone, releasing the stream"))
  | .broken message => .error (.wire ("AE frame read failed: " ++ message))
  | .closed => .ok none
  | .malformed _ => .error (.wire "malformed CBOR frame in serve loop")
  | .frame v => if isMap v then .ok (some v) else .error (.wire "non-map CBOR frame in serve loop")

/-- One turn of the serve loop. -/
def receiveRequest (texts : List JsAny → List String) (s : Session α β) (stage : String)
    (env : Surroundings σ) (incoming : Incoming) : Session α β :=
  match nextRequest stage incoming with
  | .error e => s.ended (responderCatch stage e)
  | .ok none => s.ended .done
  | .ok (some frame) =>
    let handling := "handling_" ++ (frame.prop "type").toText
    match answer sha L texts env.store frame with
    | .error e => s.ended (responderCatch handling e)
    | .ok none => s.ended .done
    | .ok (some response) =>
      let stage := if frameType frame = some "ae_state_req" then "sending_ae_state" else handling
      s.send env response (responderCatch stage) fun s => { s with phase := .serving stage }

/-! ### Taking a frame -/

/-- What an end does with what comes from its wire. -/
def receive (texts : List JsAny → List String) (s : Session α β) (env : Surroundings σ)
    (incoming : Incoming) : Reaction α β μ :=
  match s.phase with
  | .awaitAuthB nonceA => receiveAuthB auth s nonceA env incoming
  | .awaitHello => receiveHello auth s env incoming
  | .awaitAuthA params => ⟨receiveAuthA auth s params env incoming, none⟩
  | .serving stage => ⟨receiveRequest sha L texts s stage env incoming, none⟩
  | .rounds => ⟨s, none⟩
  | .ended _ => ⟨s, none⟩

end

end Cello.Directory.AntiEntropy
