import Cello.Directory.AntiEntropy.Bodies
import Cello.Lib.StringNumber

/-!
# The liveness tables

`packages/directory/src/presence-merge.ts`, `directory-node-heartbeat-merge.ts`, and the entries
`PRESENCE` and `DIRECTORY_NODE_HEARTBEATS` of `pg-ae-store.ts`.  In both tables the later time wins the
whole record, and records of one time are told apart by their texts.

A row of `directory_nodes` has columns that this tier does not own: an apply never makes a row, and
writes the heartbeat alone (`directoryNodes_update`).
-/

namespace Cello.Directory.AntiEntropy

open Lib

/-! ### Times -/

/-- A `TIMESTAMPTZ`. -/
inductive Timestamp where
  /-- Microseconds since the epoch. -/
  | micros (t : ℤ)
  | infinity
  | negInfinity
deriving DecidableEq, Repr

/-- `(EXTRACT(EPOCH FROM t)*1000)::bigint`, rounded away from zero at a half. -/
def epochMillis : Timestamp → Except AeError ℤ
  | .micros t => .ok (if t < 0 then -((500 - t) / 1000) else (t + 500) / 1000)
  | _ => .error (.store "cannot convert infinity to bigint")

def norm (s : String) : JsNumber :=
  match Number.ofString s with
  | .fin q => .fin q
  | _ => .negInf

def freshest {β : Type} (time canonical : β → String) (a b : β) : β :=
  if norm (time a) ≠ norm (time b) then if (norm (time a)).gt (norm (time b)) then a else b
  else if Text.unitLe (canonical b) (canonical a) then a else b

theorem freshest_eq_or {β : Type} (time canonical : β → String) (a b : β) :
    freshest time canonical a b = a ∨ freshest time canonical a b = b := by
  unfold freshest
  split_ifs
  · exact Or.inl rfl
  · exact Or.inr rfl
  · exact Or.inl rfl
  · exact Or.inr rfl

/-- A column that is a text; `note` says what else is asked of it. -/
def readString (body : JsAny) (column note : String) : Except BodyFault String :=
  match body.prop column with
  | .str s => .ok s
  | v => .error (.refused (column ++ " must be a string" ++ note ++ ", got " ++ v.typeOf))

def epochNote : String := " (epoch millis)"

/-! ### `agent_presence` -/

structure PresenceRow where
  online : Bool
  owningNodeId : String
  lastSeenAt : Timestamp
  updatedAt : Timestamp
deriving DecidableEq, Repr

/-- A row as `PRESENCE.select` yields it. -/
structure SelectedPresence where
  kLocalPubkey : String
  online : Bool
  owningNodeId : String
  lastSeenAt : ℤ
  updatedAt : ℤ
deriving DecidableEq, Repr

structure PresenceRecord where
  kLocalPubkey : String
  online : Bool
  owningNodeId : String
  lastSeenAt : String
  updatedAt : String
deriving DecidableEq, Repr

def PresenceRow.select (kLocalPubkey : String) (row : PresenceRow) : Except AeError SelectedPresence := do
  let lastSeenAt ← epochMillis row.lastSeenAt
  let updatedAt ← epochMillis row.updatedAt
  .ok { kLocalPubkey, online := row.online, owningNodeId := row.owningNodeId, lastSeenAt, updatedAt }

/-- The columns off the driver, which has a `BIGINT` as text. -/
def SelectedPresence.columns (s : SelectedPresence) : MutableRow
  | "k_local_pubkey" => some (.canonical (.str s.kLocalPubkey))
  | "online" => some (.canonical (.bool s.online))
  | "owning_node_id" => some (.canonical (.str s.owningNodeId))
  | "last_seen_at" => some (.canonical (.str (toString s.lastSeenAt)))
  | "updated_at" => some (.canonical (.str (toString s.updatedAt)))
  | _ => none

def SelectedPresence.toBody (s : SelectedPresence) : PresenceRecord where
  kLocalPubkey := s.kLocalPubkey
  online := s.online
  owningNodeId := s.owningNodeId
  lastSeenAt := toString s.lastSeenAt
  updatedAt := toString s.updatedAt

namespace PresenceRecord

/-- The text that decides between two records of one time. -/
def canonical (r : PresenceRecord) : String :=
  Json.stringify (.arr [.str r.kLocalPubkey, .bool r.online, .str r.owningNodeId, .str r.lastSeenAt,
    .str r.updatedAt])

def toVersionRow (r : PresenceRecord) : MutableRow
  | "k_local_pubkey" => some (.canonical (.str r.kLocalPubkey))
  | "online" => some (.canonical (.bool r.online))
  | "owning_node_id" => some (.canonical (.str r.owningNodeId))
  | "last_seen_at" => some (.canonical (.str r.lastSeenAt))
  | "updated_at" => some (.canonical (.str r.updatedAt))
  | _ => none

def wire (r : PresenceRecord) : JsAny :=
  .obj [("k_local_pubkey", .str r.kLocalPubkey), ("online", .bool r.online),
    ("owning_node_id", .str r.owningNodeId), ("last_seen_at", .str r.lastSeenAt),
    ("updated_at", .str r.updatedAt)]

/-- `PRESENCE.validateBody`. -/
def validateBody (body : JsAny) : Except BodyFault PresenceRecord :=
  match body.prop "k_local_pubkey" with
  | .str kLocalPubkey => do
    let online ← SuspensionBody.readFlag body "online"
    let owningNodeId ← readString body "owning_node_id" ""
    let lastSeenAt ← readString body "last_seen_at" epochNote
    let updatedAt ← readString body "updated_at" epochNote
    .ok { kLocalPubkey, online, owningNodeId, lastSeenAt, updatedAt }
  | _ => .error (.refused "k_local_pubkey must be a string")

/-- The columns that are written; `toTimestamp s` is the database's `to_timestamp(s/1000.0)`. -/
def toRow (toTimestamp : String → Except AeError Timestamp) (r : PresenceRecord) :
    Except AeError PresenceRow := do
  let lastSeenAt ← toTimestamp r.lastSeenAt
  let updatedAt ← toTimestamp r.updatedAt
  .ok { online := r.online, owningNodeId := r.owningNodeId, lastSeenAt, updatedAt }

end PresenceRecord

/-- `mergePresence`. -/
def mergePresence : PresenceRecord → PresenceRecord → PresenceRecord :=
  freshest PresenceRecord.updatedAt PresenceRecord.canonical

def presenceVersionSpec : TierBVersionSpec where
  table := "agent_presence"
  key := ["k_local_pubkey"]
  versionColumns := ["k_local_pubkey", "online", "owning_node_id", "last_seen_at", "updated_at"]

/-- `PRESENCE`. -/
def agentPresence (toTimestamp : String → Except AeError Timestamp) :
    TierBPg PresenceRow SelectedPresence PresenceRecord where
  spec := presenceVersionSpec
  keyColumn := "k_local_pubkey"
  select := PresenceRow.select
  columns := SelectedPresence.columns
  rowToBody := SelectedPresence.toBody
  merge := mergePresence
  toVersionRow := PresenceRecord.toVersionRow
  wire := PresenceRecord.wire
  validateBody := PresenceRecord.validateBody
  insert := PresenceRecord.toRow toTimestamp
  update := fun _ body => body.toRow toTimestamp
  witnessDisagrees := none

/-! ### `directory_nodes` -/

/-- A row of `directory_nodes`; its identity is the key it is stored under and its region. -/
structure DirectoryNodeRow where
  region : String
  endpoint : Option String
  status : String
  lastHeartbeatAt : Option Timestamp
deriving DecidableEq, Repr

/-- A row as `DIRECTORY_NODE_HEARTBEATS.select` yields it. -/
structure SelectedNode where
  nodeId : String
  status : String
  lastHeartbeatAt : ℤ
deriving DecidableEq, Repr

structure DirectoryNodeHeartbeatRecord where
  nodeId : String
  status : String
  lastHeartbeatAt : String
deriving DecidableEq, Repr

def DirectoryNodeRow.select (nodeId : String) (row : DirectoryNodeRow) : Except AeError SelectedNode :=
  (epochMillis (row.lastHeartbeatAt.getD (.micros 0))).map fun lastHeartbeatAt =>
    { nodeId, status := row.status, lastHeartbeatAt }

def SelectedNode.columns (s : SelectedNode) : MutableRow
  | "node_id" => some (.canonical (.str s.nodeId))
  | "status" => some (.canonical (.str s.status))
  | "last_heartbeat_at" => some (.canonical (.str (toString s.lastHeartbeatAt)))
  | _ => none

def SelectedNode.toBody (s : SelectedNode) : DirectoryNodeHeartbeatRecord where
  nodeId := s.nodeId
  status := s.status
  lastHeartbeatAt := toString s.lastHeartbeatAt

namespace DirectoryNodeHeartbeatRecord

/-- The text that decides between two records of one time. -/
def canonical (r : DirectoryNodeHeartbeatRecord) : String :=
  Json.stringify (.arr [.str r.nodeId, .str r.lastHeartbeatAt])

def toVersionRow (r : DirectoryNodeHeartbeatRecord) : MutableRow
  | "node_id" => some (.canonical (.str r.nodeId))
  | "status" => some (.canonical (.str r.status))
  | "last_heartbeat_at" => some (.canonical (.str r.lastHeartbeatAt))
  | _ => none

def wire (r : DirectoryNodeHeartbeatRecord) : JsAny :=
  .obj [("node_id", .str r.nodeId), ("status", .str r.status),
    ("last_heartbeat_at", .str r.lastHeartbeatAt)]

/-- `DIRECTORY_NODE_HEARTBEATS.validateBody`. -/
def validateBody (body : JsAny) : Except BodyFault DirectoryNodeHeartbeatRecord :=
  match body.prop "node_id" with
  | .str nodeId => do
    let status ← readString body "status" ""
    let lastHeartbeatAt ← readString body "last_heartbeat_at" epochNote
    .ok { nodeId, status, lastHeartbeatAt }
  | _ => .error (.refused "node_id must be a string")

end DirectoryNodeHeartbeatRecord

/-- `mergeDirectoryNodeHeartbeat`: the status is the receiver's own. -/
def mergeDirectoryNodeHeartbeat (a b : DirectoryNodeHeartbeatRecord) : DirectoryNodeHeartbeatRecord :=
  { freshest DirectoryNodeHeartbeatRecord.lastHeartbeatAt DirectoryNodeHeartbeatRecord.canonical a b with
    status := a.status }

/-- `directoryNodeHeartbeatStillDivergent`. -/
def directoryNodeHeartbeatStillDivergent (own incoming : DirectoryNodeHeartbeatRecord) : Bool :=
  decide (own.status ≠ incoming.status)

def directoryNodeHeartbeatVersionSpec : TierBVersionSpec where
  table := "directory_nodes"
  key := ["node_id"]
  versionColumns := ["node_id", "status", "last_heartbeat_at"]

/-- `TierBUnknownKeyError` for a node whose row is not there. -/
def unknownNode (h : DirectoryNodeHeartbeatRecord) : AeError :=
  .unknownKey ("pg-ae-store: heartbeat for unknown node '" ++ h.nodeId ++ "' — its directory_nodes " ++
    "identity row has not replicated yet (Tier-A carries node_id+region; this Tier-B entry carries " ++
    "only last_heartbeat_at and must not invent one). This record is skipped; the rest of the batch " ++
    "still applies, and it resolves once Tier-A delivers the row.")

/-- `DIRECTORY_NODE_HEARTBEATS`. -/
def directoryNodes (toTimestamp : String → Except AeError Timestamp) :
    TierBPg DirectoryNodeRow SelectedNode DirectoryNodeHeartbeatRecord where
  spec := directoryNodeHeartbeatVersionSpec
  keyColumn := "node_id"
  select := DirectoryNodeRow.select
  columns := SelectedNode.columns
  rowToBody := SelectedNode.toBody
  merge := mergeDirectoryNodeHeartbeat
  toVersionRow := DirectoryNodeHeartbeatRecord.toVersionRow
  wire := DirectoryNodeHeartbeatRecord.wire
  validateBody := DirectoryNodeHeartbeatRecord.validateBody
  insert := fun h => .error (unknownNode h)
  update := fun row h => (toTimestamp h.lastHeartbeatAt).map fun t =>
    { row with lastHeartbeatAt := some t }
  witnessDisagrees := some directoryNodeHeartbeatStillDivergent

section

variable {toTimestamp : String → Except AeError Timestamp}

theorem directoryNodes_update {row row' : DirectoryNodeRow} {h : DirectoryNodeHeartbeatRecord}
    (hupdate : (directoryNodes toTimestamp).update row h = .ok row') :
    row'.region = row.region ∧ row'.endpoint = row.endpoint ∧ row'.status = row.status := by
  obtain ⟨t, -, rfl⟩ := exists_of_map_ok hupdate
  exact ⟨rfl, rfl, rfl⟩

theorem PresenceRecord.validateBody_wire (r : PresenceRecord) : validateBody r.wire = .ok r := rfl

theorem DirectoryNodeHeartbeatRecord.validateBody_wire (r : DirectoryNodeHeartbeatRecord) :
    validateBody r.wire = .ok r := rfl

end

end Cello.Directory.AntiEntropy
