import Cello.Directory.Signals.Supersession

/-!
# The ledgers of many nodes

Nodes accept requests of their own and exchange rows in anti-entropy rounds, table by table:
`signal_records` without its tombstones and without the status, and `signal_revocations`
(`SIGNAL_RECORDS_SPEC` and `SIGNAL_REVOCATIONS_SPEC` of `ae-table-encoders.ts`, with the `wireFilter` of
`pg-ae-store.ts`).
-/

namespace Cello.Directory.Signals

open Lib AntiEntropy

/-! ### Rows on the wire -/

def SubjectKind.text : SubjectKind → String
  | .account => "account"
  | .agent => "agent"

def IssuerKind.text : IssuerKind → String
  | .portal => "portal"
  | .directory => "directory"
  | .agent => "agent"

def AcceptingNode.text : AcceptingNode → String
  | .node id => id
  | .revoke id => "revoke:" ++ id

def nullable : Option String → CanonicalValue
  | none => .null
  | some s => .str s

def signalRecordsSpec : TierATableSpec where
  table := "signal_records"
  naturalKey := ["signal_hash", "accepting_node"]
  immutableColumns := ["signal_hash", "accepting_node", "subject_kind", "issuer_kind", "issuer_pubkey",
    "type", "supersedes_hash", "scanner_version"]

def signalRevocationsSpec : TierATableSpec where
  table := "signal_revocations"
  naturalKey := ["signal_hash", "revoker_pubkey"]
  immutableColumns := ["signal_hash", "revoker_pubkey", "revoker_signature"]

namespace SignalRecord

def column (r : SignalRecord) (c : String) : CanonicalValue :=
  if c = "signal_hash" then .str r.signalHash
  else if c = "accepting_node" then .str r.acceptingNode.text
  else if c = "subject_kind" then .str r.subjectKind.text
  else if c = "issuer_kind" then .str r.issuerKind.text
  else if c = "issuer_pubkey" then .str r.issuerPubkey
  else if c = "type" then .str r.type
  else if c = "supersedes_hash" then nullable r.supersedesHash
  else if c = "scanner_version" then .str r.scannerVersion
  else .null

/-- The row that a peer makes of what it is served: the other columns have their defaults. -/
def arrived (r : SignalRecord) : SignalRecord where
  signalHash := r.signalHash
  acceptingNode := r.acceptingNode
  subjectKind := r.subjectKind
  issuerKind := r.issuerKind
  issuerPubkey := r.issuerPubkey
  type := r.type
  supersedesHash := r.supersedesHash
  scannerVersion := r.scannerVersion

end SignalRecord

/-- `revoker_signature` goes in hex. -/
def SignalRevocation.column (v : SignalRevocation) (c : String) : CanonicalValue :=
  if c = "signal_hash" then .str v.signalHash
  else if c = "revoker_pubkey" then .str v.revokerPubkey
  else if c = "revoker_signature" then .str v.revokerSignature.toHex
  else .null

section

variable (nfc : Nfc) (sha : Sha256)

def SignalRecord.wireText (r : SignalRecord) : String :=
  recordText nfc signalRecordsSpec.table (signalRecordsSpec.immutableColumns.map fun c => (c, r.column c))

def SignalRevocation.wireText (v : SignalRevocation) : String :=
  recordText nfc signalRevocationsSpec.table
    (signalRevocationsSpec.immutableColumns.map fun c => (c, v.column c))

namespace SignalTables

/-- `WHERE NOT is_tombstone`. -/
def wireRecords (t : SignalTables) : List SignalRecord := t.records.filter fun r => !r.isTombstone

def recordHashes (t : SignalTables) : List String := t.wireRecords.map fun r => sha.hex (r.wireText nfc)

def revocationHashes (t : SignalTables) : List String :=
  t.revocations.map fun v => sha.hex (v.wireText nfc)

def missingRecords (mine theirs : SignalTables) (served : String → Bool) : List SignalRecord :=
  theirs.wireRecords.filter fun r =>
    served (sha.hex (r.wireText nfc)) && !decide (sha.hex (r.wireText nfc) ∈ mine.recordHashes nfc sha)

def missingRevocations (mine theirs : SignalTables) (served : String → Bool) : List SignalRevocation :=
  theirs.revocations.filter fun v =>
    served (sha.hex (v.wireText nfc)) && !decide (sha.hex (v.wireText nfc) ∈ mine.revocationHashes nfc sha)

def applyRecords (t : SignalTables) (rows : List SignalRecord) : SignalTables :=
  rows.foldl (fun t r => (t.insertRecord r.arrived).1) t

def applyRevocations (t : SignalTables) (rows : List SignalRevocation) : SignalTables :=
  rows.foldl insertRevocation t

end SignalTables

/-! ### The federation -/

abbrev Nodes := String → SignalTables

inductive SignalTable where
  | records
  | revocations
deriving DecidableEq

/-- A request at a node, or a round of a node with a peer over one table; of the rows that the node lacks
those arrive that are `served`. -/
inductive FederationEvent where
  | request (node : String) (r : SignalRequest)
  | round (node peer : String) (table : SignalTable) (served : String → Bool)

def pull (mine theirs : SignalTables) (table : SignalTable) (served : String → Bool) : SignalTables :=
  match table with
  | .records => mine.applyRecords (mine.missingRecords nfc sha theirs served)
  | .revocations => mine.applyRevocations (mine.missingRevocations nfc sha theirs served)

def FederationEvent.step (env : SignalExternals) (nodes : Nodes) : FederationEvent → Nodes
  | .request node r => Function.update nodes node (r.handle env node (nodes node))
  | .round node peer table served =>
    Function.update nodes node (pull nfc sha (nodes node) (nodes peer) table served)

def federationAfter (env : SignalExternals) (events : List FederationEvent) : Nodes :=
  events.foldl (FederationEvent.step nfc sha env) fun _ => {}

end

def FederationEvent.accepted (env : SignalExternals) : FederationEvent → Option (String × Accepted)
  | .request node r => (r.accepted env).map fun a => (node, a)
  | .round _ _ _ _ => none

/-- The accepted requests of a history. -/
def federationHistory (env : SignalExternals) (events : List FederationEvent) : List (String × Accepted) :=
  events.filterMap (FederationEvent.accepted env)

/-- The accepted requests of one node. -/
def own (H : List (String × Accepted)) (node : String) : List Accepted :=
  H.filterMap fun e => if e.1 = node then some e.2 else none

/-! ### Rows that arrive -/

variable {t mine theirs : SignalTables}

namespace SignalTables

theorem applyRecords_cons (r : SignalRecord) (rows : List SignalRecord) :
    t.applyRecords (r :: rows) = (t.insertRecord r.arrived).1.applyRecords rows := rfl

/-- **What an apply does**: rows come in, each under a name that was not there. -/
structure Applied (t : SignalTables) (rows : List SignalRecord) (t' : SignalTables) : Prop where
  revocations : t'.revocations = t.revocations
  kept : ∀ r ∈ t.records, r ∈ t'.records
  origin : ∀ r ∈ t'.records, r ∈ t.records ∨ ∃ s ∈ rows, r = s.arrived
  has : ∀ x n, t'.hasRecord x n = true ↔
    t.hasRecord x n = true ∨ ∃ s ∈ rows, s.signalHash = x ∧ s.acceptingNode = n

theorem applied (rows : List SignalRecord) : ∀ t : SignalTables, Applied t rows (t.applyRecords rows) := by
  induction rows with
  | nil =>
    intro t
    refine ⟨rfl, fun r hr => hr, fun r hr => .inl hr, fun x n => ⟨.inl, ?_⟩⟩
    rintro (h | ⟨s, hs, -⟩)
    · exact h
    · cases hs
  | cons first rows ih =>
    intro t
    rw [applyRecords_cons]
    have h := ih (t.insertRecord first.arrived).1
    have hfirst : ∀ x n, (t.insertRecord first.arrived).1.hasRecord x n = true ↔
        t.hasRecord x n = true ∨ (x = first.signalHash ∧ n = first.acceptingNode) :=
      fun x n => hasRecord_insertRecord first.arrived x n
    have hrecords : (t.insertRecord first.arrived).1.revocations = t.revocations ∧
        (∀ r ∈ t.records, r ∈ (t.insertRecord first.arrived).1.records) ∧
        ∀ r ∈ (t.insertRecord first.arrived).1.records, r ∈ t.records ∨ r = first.arrived := by
      unfold insertRecord
      split
      · exact ⟨rfl, fun r hr => hr, fun r hr => .inl hr⟩
      · refine ⟨rfl, fun r hr => List.mem_append_left _ hr, fun r hr => ?_⟩
        exact (List.mem_append.1 hr).imp_right List.mem_singleton.1
    refine ⟨h.revocations.trans hrecords.1, fun r hr => h.kept r (hrecords.2.1 r hr), fun r hr => ?_,
      fun x n => ?_⟩
    · rcases h.origin r hr with hr' | ⟨s, hs, rfl⟩
      · rcases hrecords.2.2 r hr' with hr'' | rfl
        · exact .inl hr''
        · exact .inr ⟨first, List.mem_cons_self, rfl⟩
      · exact .inr ⟨s, List.mem_cons_of_mem _ hs, rfl⟩
    · rw [h.has, hfirst, or_assoc]
      refine or_congr Iff.rfl ?_
      constructor
      · rintro (⟨rfl, rfl⟩ | ⟨s, hs, hsx⟩)
        · exact ⟨first, List.mem_cons_self, rfl, rfl⟩
        · exact ⟨s, List.mem_cons_of_mem _ hs, hsx⟩
      · rintro ⟨s, hs, rfl, rfl⟩
        rcases List.mem_cons.1 hs with rfl | hs
        · exact .inl ⟨rfl, rfl⟩
        · exact .inr ⟨s, hs, rfl, rfl⟩

theorem mem_applyRevocations (rows : List SignalRevocation) : ∀ t : SignalTables,
    (t.applyRevocations rows).records = t.records ∧
    (∀ v ∈ (t.applyRevocations rows).revocations, v ∈ t.revocations ∨ v ∈ rows) ∧
    ∀ x p, (t.applyRevocations rows).hasRevocation x p = true ↔
      t.hasRevocation x p = true ∨ ∃ v ∈ rows, v.signalHash = x ∧ v.revokerPubkey = p := by
  induction rows with
  | nil =>
    intro t
    refine ⟨rfl, fun v hv => .inl hv, fun x p => ⟨.inl, ?_⟩⟩
    rintro (h | ⟨v, hv, -⟩)
    · exact h
    · cases hv
  | cons first rows ih =>
    intro t
    obtain ⟨hrecords, hmem, hhas⟩ := ih (t.insertRevocation first)
    have hfirst : (t.insertRevocation first).records = t.records ∧
        (∀ v ∈ (t.insertRevocation first).revocations, v ∈ t.revocations ∨ v = first) ∧
        ∀ x p, (t.insertRevocation first).hasRevocation x p = true ↔
          t.hasRevocation x p = true ∨ (first.signalHash = x ∧ first.revokerPubkey = p) := by
      unfold insertRevocation
      split
      next hin =>
        refine ⟨rfl, fun v hv => .inl hv, fun x p => ⟨.inl, ?_⟩⟩
        rintro (h | ⟨rfl, rfl⟩)
        · exact h
        · exact hin
      · refine ⟨rfl, fun v hv => (List.mem_append.1 hv).imp_right List.mem_singleton.1, fun x p => ?_⟩
        show (t.revocations ++ [first]).any _ = true ↔ _
        rw [List.any_append, Bool.or_eq_true, List.any_cons, List.any_nil, Bool.or_false,
          decide_eq_true_eq]
        exact Iff.rfl
    refine ⟨hrecords.trans hfirst.1, fun v hv => ?_, fun x p => ?_⟩
    · rcases hmem v hv with hv' | hv'
      · rcases hfirst.2.1 v hv' with hv'' | rfl
        · exact .inl hv''
        · exact .inr List.mem_cons_self
      · exact .inr (List.mem_cons_of_mem _ hv')
    · rw [show t.applyRevocations (first :: rows) = (t.insertRevocation first).applyRevocations rows from
        rfl, hhas, hfirst.2.2, or_assoc]
      simp only [List.exists_mem_cons_iff]

end SignalTables

end Cello.Directory.Signals
