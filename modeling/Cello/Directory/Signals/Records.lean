import Cello.Lib.JsValue

/-!
# The notary ledger

The tables `signal_records` and `signal_revocations` of a directory node, and the view
`signal_records_effective` of `V62__signal_revocations.sql`, from which every status is read.

The id of a node does not begin with `revoke:`, so the name of a tombstone's row is none of a node.
-/

namespace Cello.Directory.Signals

open Lib

/-! ### The tables -/

inductive SubjectKind where
  | account
  | agent
deriving DecidableEq, Repr

inductive IssuerKind where
  | portal
  | directory
  | agent
deriving DecidableEq, Repr

inductive RecordStatus where
  | active
  | revoked
  | superseded
deriving DecidableEq, Repr

/-- `accepting_node`: the id of a node, or `revoke:` and the id for the row of a revocation. -/
inductive AcceptingNode where
  | node (id : String)
  | revoke (id : String)
deriving DecidableEq, Repr

structure SignalRecord where
  signalHash : String
  acceptingNode : AcceptingNode
  subjectKind : SubjectKind
  issuerKind : IssuerKind
  issuerPubkey : String
  type : String
  supersedesHash : Option String
  status : RecordStatus := .active
  scannerVersion : String
  isTombstone : Bool := false
  revokerPubkey : Option String := none
  revokerSignature : Option Bytes := none
deriving DecidableEq

structure SignalRevocation where
  signalHash : String
  revokerPubkey : String
  revokerSignature : Bytes
deriving DecidableEq

structure SignalTables where
  records : List SignalRecord := []
  revocations : List SignalRevocation := []
deriving DecidableEq

namespace SignalTables

variable (t : SignalTables)

def hasRecord (hash : String) (node : AcceptingNode) : Bool :=
  t.records.any fun r => decide (r.signalHash = hash ∧ r.acceptingNode = node)

/-- `INSERT … ON CONFLICT (signal_hash, accepting_node) DO NOTHING`, with `rowCount > 0`. -/
def insertRecord (r : SignalRecord) : SignalTables × Bool :=
  if t.hasRecord r.signalHash r.acceptingNode then (t, false)
  else ({ t with records := t.records ++ [r] }, true)

def hasRevocation (hash revoker : String) : Bool :=
  t.revocations.any fun v => decide (v.signalHash = hash ∧ v.revokerPubkey = revoker)

/-- `INSERT … ON CONFLICT (signal_hash, revoker_pubkey) DO NOTHING`. -/
def insertRevocation (v : SignalRevocation) : SignalTables :=
  if t.hasRevocation v.signalHash v.revokerPubkey then t
  else { t with revocations := t.revocations ++ [v] }

/-- `UPDATE signal_records SET status = 'superseded'` of an active row of a hash from a node. -/
def markSuperseded (hash : String) (node : AcceptingNode) : SignalTables :=
  { t with records := t.records.map fun r =>
      if r.signalHash = hash ∧ r.acceptingNode = node ∧ r.status = .active then
        { r with status := .superseded }
      else r }

/-! ### The view -/

/-- `tomb`: who has revoked what. -/
def tomb : List (String × Option String) :=
  (t.revocations.map fun v => (v.signalHash, some v.revokerPubkey)) ++
    (t.records.filter fun r => r.isTombstone).map fun r => (r.signalHash, r.revokerPubkey)

def realRows (hash : String) : List SignalRecord :=
  t.records.filter fun r => decide (r.signalHash = hash) && !r.isTombstone

/-- `MIN(issuer_kind)`: the texts in order are `agent`, `directory`, `portal`. -/
def minIssuerKind (rows : List SignalRecord) : Option IssuerKind :=
  if rows.any fun r => decide (r.issuerKind = .agent) then some .agent
  else if rows.any fun r => decide (r.issuerKind = .directory) then some .directory
  else if rows.any fun r => decide (r.issuerKind = .portal) then some .portal
  else none

/-- `revoked_state`. -/
def isRevoked (hash : String) : Bool :=
  let real := t.realRows hash
  let tombs := t.tomb.filter fun e => decide (e.1 = hash)
  if real.isEmpty && !tombs.isEmpty then true
  else if real.any fun r => decide (r.status = .revoked) then true
  else if !tombs.isEmpty && (decide (minIssuerKind real = some .portal) ||
      decide (minIssuerKind real = some .directory)) then true
  else tombs.any fun e => e.2.any fun revoker => real.any fun r => decide (r.issuerPubkey = revoker)

end SignalTables

inductive EffectiveStatus where
  | revoked
  | superseded
  | active
deriving DecidableEq, Repr

/-- `effective_status` of a hash that has a row. -/
def SignalTables.effectiveStatus (t : SignalTables) (hash : String) : Option EffectiveStatus :=
  if t.records.any fun r => decide (r.signalHash = hash) then
    some <|
      if t.isRevoked hash then .revoked
      else if t.records.any fun s =>
          decide (s.supersedesHash = some hash) && !t.isRevoked s.signalHash then .superseded
      else if t.records.any fun r =>
          decide (r.signalHash = hash) && decide (r.status = .superseded) then .superseded
      else .active
  else none

end Cello.Directory.Signals
