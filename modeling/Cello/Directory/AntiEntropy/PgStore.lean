import Cello.Directory.AntiEntropy.Isolation
import Cello.Directory.AntiEntropy.Liveness
import Cello.Directory.AntiEntropy.Store
import Cello.Directory.HashChain

/-!
# The store of a directory node

`PgAeStore` of `packages/directory/src/pg-ae-store.ts` over the tables a node holds, for bodies of any
type.  The database is given by what its statements come to: a read or a write may fail, an insert makes
a row of the column values or refuses them, and the natural key decides whether there is anything to
insert.  What else writes to the tables meanwhile is not part of it.

A row that an append-only apply adds is made of a body whose recomputed hash is the hash of its record
(`applyOneTierA_some`); what every such row keeps, an apply keeps (`applyTierA_keeps`).
-/

namespace Cello.Directory.AntiEntropy

open Lib
open HashChain (ownKeys)

/-! ### The record hash of a body -/

/-- `sorted[k] = value[k]` over the sorted keys, in the order an object then has them. -/
def sortedMembers (members : List (String × JsAny)) : List (String × JsAny) :=
  (ownKeys (Text.sortBy id ((members.map Prod.fst).filter fun k => k ≠ "__proto__"))).filterMap fun k =>
    (members.lookup k).map fun v => (k, v)

section

variable (nfc : Nfc) (sha : Sha256)

mutual

/-- `sortedReplacer`, through a whole value.  A byte array has its keys in order already. -/
def sortedReplacer : JsAny → JsAny
  | .str s => .str (nfc.normalize s)
  | .arr items => .arr (replacedItems items)
  | .obj members => .obj (sortedMembers (replacedMembers members))
  | v => v

def replacedItems : List JsAny → List JsAny
  | [] => []
  | v :: rest => sortedReplacer v :: replacedItems rest

def replacedMembers : List (String × JsAny) → List (String × JsAny)
  | [] => []
  | (k, v) :: rest => (k, sortedReplacer v) :: replacedMembers rest

end

/-- `body[column]`, which throws where there is no body. -/
def property (body : JsAny) (column : String) : Except AeError JsAny :=
  match body with
  | .undefined => .error (.store ("Cannot read properties of undefined (reading '" ++ column ++ "')"))
  | .null => .error (.store ("Cannot read properties of null (reading '" ++ column ++ "')"))
  | v => .ok (v.prop column)

/-- `v ?? null`. -/
def orNull : JsAny → JsAny
  | .undefined => .null
  | v => v

/-- `encodeTierARecord(spec, body).hash`. -/
def bodyHash (spec : TierATableSpec) (body : JsAny) : Except AeError String := do
  let fields ← spec.immutableColumns.mapM fun c => (property body c).map fun v => (c, orNull v)
  let canonical := JsAny.obj [("d", .str recordHashDomain), ("t", .str spec.table), ("f", .obj fields)]
  match (sortedReplacer nfc canonical).toJson with
  | some text => .ok (sha.hex (String.ofList text.render))
  | none => .error (.store "Do not know how to serialize a BigInt")

end

/-! ### The registry -/

/-- An append-only table. -/
structure TierAPg where
  spec : TierATableSpec
  bytea : List String
  chained : Bool
  requiredColumns : List String
  /-- Whether a row is put on the wire. -/
  wireFilter : TableRow → Bool

/-- `TIER_B`. -/
def tierBNames : List String := ["agent_suspensions", "agent_presence", "directory_nodes"]

/-- `TIER_A`, in order.  Of the mutable tables only `directory_nodes` has an append-only half. -/
structure TierARegistry where
  entries : List TierAPg
  nodup : (entries.map fun t => t.spec.table).Nodup
  separate : ∀ t ∈ entries, t.spec.table ≠ "agent_suspensions" ∧ t.spec.table ≠ "agent_presence"

namespace TierARegistry

def names (reg : TierARegistry) : List String := reg.entries.map fun t => t.spec.table

/-- `tierA(table)`. -/
def find (reg : TierARegistry) (table : String) : Except AeError TierAPg :=
  match reg.entries.find? fun t => t.spec.table = table with
  | some t => .ok t
  | none => .error (unknownTable "A" table)

theorem table_of_find {reg : TierARegistry} {table : String} {t : TierAPg} (h : reg.find table = .ok t) :
    t ∈ reg.entries ∧ t.spec.table = table := by
  unfold find at h
  cases hfind : reg.entries.find? fun t => t.spec.table = table with
  | none => rw [hfind] at h; cases h
  | some found =>
    rw [hfind] at h
    cases h
    exact ⟨List.mem_of_find?_eq_some hfind, by simpa using List.find?_some hfind⟩

end TierARegistry

/-! ### The tables -/

/-- The tables of a node.  A node's identity stands among the append-only rows, the rest of its row in
`directoryNodes`. -/
structure LocalTables where
  tierA : String → List TableRow
  suspensions : OrdMap String SuspensionRow
  presence : OrdMap String PresenceRow
  directoryNodes : OrdMap String DirectoryNodeRow

def identityRow (row : TableRow) : Option (String × DirectoryNodeRow) :=
  match column row "node_id", column row "region" with
  | .str nodeId, .str region =>
    some (nodeId, { region, endpoint := none, status := "active", lastHeartbeatAt := none })
  | _, _ => none

namespace LocalTables

def withNode (nodes : OrdMap String DirectoryNodeRow) (row : TableRow) : OrdMap String DirectoryNodeRow :=
  match identityRow row with
  | some (nodeId, node) => if nodes.has nodeId then nodes else nodes.set nodeId node
  | none => nodes

def add (s : LocalTables) (table : String) (row : TableRow) : LocalTables :=
  { s with
    tierA := Function.update s.tierA table (s.tierA table ++ [row])
    directoryNodes :=
      if table = "directory_nodes" then withNode s.directoryNodes row else s.directoryNodes }

end LocalTables

/-- What the statements of a round come to in the database; a message is why one fails. -/
structure Database where
  /-- The read of an append-only table, when a round begins. -/
  selectFault : String → Option String
  /-- The read of a mutable table, when a round begins. -/
  versionsFault : String → Option String
  /-- The read of one row under its lock. -/
  lockFault : String → String → Option String
  /-- The write of one row and its commit. -/
  writeFault : String → String → Option String
  /-- The row that an insert makes of its column values. -/
  row : TierAPg → (String → List TableRow) → List (String × JsAny) → Except String TableRow
  /-- A constraint other than the natural key, or a failure of the insert. -/
  refuses : TierAPg → (String → List TableRow) → TableRow → Option String
  /-- `to_timestamp(s/1000.0)`. -/
  toTimestamp : String → Except String Timestamp

/-- `insertWithChain`, as far as it shows: the row that it inserts, or why it throws. -/
abbrev ChainWriter := String → (String → List TableRow) → List (String × JsAny) → Except String TableRow

/-! ### Append-only applies -/

section

variable (t : TierAPg)

def missingRequired (missing : List String) : AeError :=
  .store ("pg-ae-store: " ++ t.spec.table ++ " record is missing required column(s) " ++
    String.intercalate ", " missing ++ " — refusing to apply. Tier-A apply is insert-if-absent, so a " ++
    "row accepted with these null could never be repaired by a later round.")

def noChainWriter : AeError :=
  .store ("pg-ae-store: " ++ t.spec.table ++ " is hash-chained and no ChainWriter was injected — " ++
    "refusing to apply it unchained")

def notHex (c : String) : AeError :=
  .store ("pg-ae-store: " ++ t.spec.table ++ "." ++ c ++ " is not valid hex — refusing to apply a " ++
    "record that would be silently truncated")

def missingColumns (body : JsAny) : Except AeError (List String) := do
  let values ← t.requiredColumns.mapM fun c => (property body c).map fun v => (c, orNull v)
  .ok ((values.filter fun e => match e.2 with
    | .null => true
    | _ => false).map Prod.fst)

/-- `body[c] ?? null` of every column. -/
def columnValues (body : JsAny) : List (String × JsAny) :=
  t.spec.immutableColumns.map fun c => (c, orNull (body.prop c))

/-- `Buffer.from(v, "hex")`: it stops at the first pair that is not one of digits. -/
def hexPrefix : List Char → Bytes
  | a :: b :: rest =>
    if Bytes.isHexDigit a && Bytes.isHexDigit b then
      Bytes.ofHex (String.ofList [a, b]) ++ hexPrefix rest
    else []
  | _ => []

/-- The record that is handed to the chain writer: byte columns are decoded. -/
def chainRecord (body : JsAny) : Except AeError (List (String × JsAny)) :=
  (columnValues t body).mapM fun e =>
    match e.2 with
    | .str v =>
      if e.1 ∈ t.bytea then
        if (hexPrefix v.toList).toHex = v.toLower then .ok (e.1, .bytes (hexPrefix v.toList))
        else .error (notHex t e.1)
      else .ok e
    | _ => .ok e

/-- `INSERT … ON CONFLICT (…) DO NOTHING`. -/
def insertIfAbsent (db : Database) (tables : String → List TableRow) (values : List (String × JsAny)) :
    Except String (Option TableRow) := do
  let row ← db.row t tables values
  if naturalKeyOf t.spec row ∈ (tables t.spec.table).map (naturalKeyOf t.spec) then .ok none
  else
    match db.refuses t tables row with
    | some message => .error message
    | none => .ok (some row)

variable (nfc : Nfc) (sha : Sha256) (db : Database) (chainWriter : Option ChainWriter)

/-- The insert of `applyTierA`: the row that comes of it, if any.  What the database throws over it is
logged. -/
def insertRecord (tables : String → List TableRow) (body : JsAny) : Except AeError (Option TableRow) :=
  if t.chained then
    match chainWriter with
    | none => .error (noChainWriter t)
    | some insertWithChain =>
      (chainRecord t body).map fun record => (insertWithChain t.spec.table tables record).toOption
  else .ok ((insertIfAbsent t db tables (columnValues t body)).toOption.getD none)

/-- One record of `applyTierA`. -/
def applyOneTierA (tables : String → List TableRow) (rec : TierARecord JsAny) :
    Except AeError (Option TableRow) := do
  let missing ← missingColumns t rec.body
  if missing ≠ [] then .error (missingRequired t missing)
  else
    let recomputed ← bodyHash nfc sha t.spec rec.body
    if recomputed ≠ rec.hash then .error (hashMismatch t.spec rec.hash recomputed)
    else insertRecord t db chainWriter tables rec.body

/-- The loop of `applyTierA`. -/
def applyTierARecords : LocalTables → ℕ → List (TierARecord JsAny) → LocalTables × Except AeError ℕ
  | s, inserted, [] => (s, .ok inserted)
  | s, inserted, rec :: rest =>
    match applyOneTierA t nfc sha db chainWriter s.tierA rec with
    | .error e => (s, .error e)
    | .ok none => applyTierARecords s inserted rest
    | .ok (some row) => applyTierARecords (s.add t.spec.table row) (inserted + 1) rest

end

/-! ### Mutable tables over a database that fails -/

/-- The statements of a table, some of which the database fails. -/
def TierBPg.over {ρ σ β : Type} (t : TierBPg ρ σ β) (db : Database) (keyOf : β → String) : TierBPg ρ σ β :=
  { t with
    select := fun key row =>
      match db.lockFault t.spec.table key with
      | some message => .error (.store message)
      | none => t.select key row
    insert := fun body =>
      match db.writeFault t.spec.table (keyOf body) with
      | some message => .error (.store message)
      | none => t.insert body
    update := fun row body =>
      match db.writeFault t.spec.table (keyOf body) with
      | some message => .error (.store message)
      | none => t.update row body }

/-- The loop of `tierBVersions` over the rows of a table. -/
def TierBPg.versions {ρ σ β : Type} (nfc : Nfc) (sha : Sha256) (t : TierBPg ρ σ β)
    (rows : OrdMap String ρ) : Except AeError (OrdMap String String) :=
  (rows.entries.mapM fun e =>
    (t.select e.1 e.2).map fun s => encodeTierBVersion nfc sha t.spec (t.columns s)).map OrdMap.ofList

def TierBPg.serve {ρ σ β : Type} (t : TierBPg ρ σ β) (rows : OrdMap String ρ) (keys : List String) :
    Except AeError (List (TierBRecord JsAny)) :=
  (rows.entries.filter fun e => e.1 ∈ keys).mapM fun e =>
    (t.served e.1 e.2).map fun body => ⟨e.1, t.wire body⟩

/-- `PgAeStore`. -/
structure PgAeStore where
  nfc : Nfc
  sha : HexSha256
  registry : TierARegistry
  db : Database
  chainWriter : Option ChainWriter

namespace PgAeStore

variable (pg : PgAeStore)

def toTimestamp (s : String) : Except AeError Timestamp := (pg.db.toTimestamp s).mapError .store

/-- `SUSPENSIONS`, `PRESENCE` and `DIRECTORY_NODE_HEARTBEATS` over the database. -/
def suspensionTable : TierBPg SuspensionRow SelectedSuspension SuspensionBody :=
  (agentSuspensions pg.nfc pg.sha.toSha256).over pg.db SuspensionBody.agentId

def presenceTable : TierBPg PresenceRow SelectedPresence PresenceRecord :=
  (agentPresence pg.toTimestamp).over pg.db PresenceRecord.kLocalPubkey

def nodeTable : TierBPg DirectoryNodeRow SelectedNode DirectoryNodeHeartbeatRecord :=
  (directoryNodes pg.toTimestamp).over pg.db DirectoryNodeHeartbeatRecord.nodeId

def hashesOf (table : String) (rows : Except String (List TableRow)) : Except AeError (List String) := do
  let t ← pg.registry.find table
  let rows ← rows.mapError AeError.store
  .ok ((rows.filter t.wireFilter).map (tierAHash pg.nfc pg.sha.toSha256 t.spec))

def selectTierA (s : LocalTables) (table : String) : Except String (List TableRow) :=
  match pg.db.selectFault table with
  | some message => .error message
  | none => .ok (s.tierA table)

def tierARecordHashes (s : LocalTables) (table : String) : Except AeError (List String) :=
  pg.hashesOf table (pg.selectTierA s table)

def tierBVersions (s : LocalTables) (table : String) : Except AeError (OrdMap String String) :=
  match pg.db.versionsFault table with
  | some message => .error (.store message)
  | none =>
    if table = "agent_suspensions" then
      (agentSuspensions pg.nfc pg.sha.toSha256).versions pg.nfc pg.sha.toSha256 s.suspensions
    else if table = "agent_presence" then
      (agentPresence pg.toTimestamp).versions pg.nfc pg.sha.toSha256 s.presence
    else if table = "directory_nodes" then
      (directoryNodes pg.toTimestamp).versions pg.nfc pg.sha.toSha256 s.directoryNodes
    else .error (unknownTable "B" table)

/-- A row as the value that is sent. -/
def wireBody (spec : TierATableSpec) (row : TableRow) : JsAny :=
  .obj ((spec.naturalKey ++ spec.immutableColumns).eraseDups.map fun c =>
    (c, match column row c with
      | .str v => .str v
      | .bool b => .bool b
      | .null => .null))

def serveTierA (s : LocalTables) (table : String) (hashes : List String) :
    Except AeError (List (TierARecord JsAny)) := do
  let t ← pg.registry.find table
  let rows ← (pg.selectTierA s table).mapError AeError.store
  .ok (((rows.filter t.wireFilter).map fun row =>
      ⟨tierAHash pg.nfc pg.sha.toSha256 t.spec row, wireBody t.spec row⟩).filter
    fun rec => rec.hash ∈ hashes)

def serveTierB (s : LocalTables) (table : String) (keys : List String) :
    Except AeError (List (TierBRecord JsAny)) :=
  if table = "agent_suspensions" then
    (agentSuspensions pg.nfc pg.sha.toSha256).serve s.suspensions keys
  else if table = "agent_presence" then (agentPresence pg.toTimestamp).serve s.presence keys
  else if table = "directory_nodes" then (directoryNodes pg.toTimestamp).serve s.directoryNodes keys
  else .error (unknownTable "B" table)

def applyTierA (s : LocalTables) (table : String) (records : List (TierARecord JsAny)) :
    LocalTables × Except AeError ℕ :=
  if records.length = 0 then (s, .ok 0)
  else
    match pg.registry.find table with
    | .error e => (s, .error e)
    | .ok t => applyTierARecords t pg.nfc pg.sha.toSha256 pg.db pg.chainWriter s 0 records

def applyTierB (s : LocalTables) (table : String) (records : List (TierBRecord JsAny)) :
    LocalTables × Except AeError TierBApplyResult :=
  if records.length = 0 then (s, .ok { applied := 0, divergent := 0, divergentKeys := [] })
  else if table = "agent_suspensions" then
    let out := pg.suspensionTable.applyTierB pg.nfc pg.sha.toSha256 s.suspensions records
    ({ s with suspensions := out.1 }, out.2)
  else if table = "agent_presence" then
    let out := pg.presenceTable.applyTierB pg.nfc pg.sha.toSha256 s.presence records
    ({ s with presence := out.1 }, out.2)
  else if table = "directory_nodes" then
    let out := pg.nodeTable.applyTierB pg.nfc pg.sha.toSha256 s.directoryNodes records
    ({ s with directoryNodes := out.1 }, out.2)
  else (s, .error (unknownTable "B" table))

/-- The store as the round sees it. -/
def view : AeStoreView LocalTables JsAny JsAny where
  tierATables := fun _ => pg.registry.names
  tierBTables := fun _ => tierBNames
  tierATableDigest := fun s table => (pg.tierARecordHashes s table).bind (computeTableDigest pg.sha.toSha256)
  tierARecordHashes := pg.tierARecordHashes
  tierBTableDigest := fun s table => (pg.tierBVersions s table).map (tierBTableDigest pg.sha.toSha256)
  tierBVersions := pg.tierBVersions
  serveTierA := pg.serveTierA
  serveTierB := pg.serveTierB
  applyTierA := pg.applyTierA
  applyTierB := pg.applyTierB

/-! ### What an append-only apply can do -/

def Stored (t : TierAPg) (body : JsAny) (row : TableRow) : Prop :=
  ∃ tables,
    (t.chained = false ∧ insertIfAbsent t pg.db tables (columnValues t body) = .ok (some row)) ∨
    (t.chained = true ∧ ∃ insertWithChain record, pg.chainWriter = some insertWithChain ∧
      chainRecord t body = .ok record ∧ insertWithChain t.spec.table tables record = .ok row)

variable {pg}

theorem toOption_eq_some {ε γ : Type} {x : Except ε γ} {a : γ} (h : x.toOption = some a) : x = .ok a := by
  cases x with
  | error e => cases h
  | ok b =>
    cases h
    rfl

theorem insertRecord_some {t : TierAPg} {tables : String → List TableRow} {body : JsAny} {row : TableRow}
    (h : insertRecord t pg.db pg.chainWriter tables body = .ok (some row)) : pg.Stored t body row := by
  unfold insertRecord at h
  split_ifs at h with hchained
  · cases hwriter : pg.chainWriter with
    | none => rw [hwriter] at h; cases h
    | some insertWithChain =>
      rw [hwriter] at h
      obtain ⟨record, hrecord, h⟩ := exists_of_map_ok h
      exact ⟨tables, Or.inr ⟨hchained, insertWithChain, record, hwriter, hrecord, toOption_eq_some h⟩⟩
  · refine ⟨tables, Or.inl ⟨by simpa using hchained, ?_⟩⟩
    have hrow := Except.ok.inj h
    cases hinsert : insertIfAbsent t pg.db tables (columnValues t body) with
    | error message => rw [hinsert] at hrow; cases hrow
    | ok inserted =>
      rw [hinsert] at hrow
      exact congrArg Except.ok hrow

theorem applyOneTierA_some {t : TierAPg} {tables : String → List TableRow} {rec : TierARecord JsAny}
    {row : TableRow}
    (h : applyOneTierA t pg.nfc pg.sha.toSha256 pg.db pg.chainWriter tables rec = .ok (some row)) :
    bodyHash pg.nfc pg.sha.toSha256 t.spec rec.body = .ok rec.hash ∧ pg.Stored t rec.body row := by
  unfold applyOneTierA at h
  obtain ⟨missing, -, h⟩ := bind_ok h
  split_ifs at h with hmissing
  obtain ⟨recomputed, hhash, h⟩ := bind_ok h
  split_ifs at h with hmatch
  rw [not_not.1 hmatch] at hhash
  exact ⟨hhash, insertRecord_some h⟩

theorem applyTierARecords_keeps {I : LocalTables → Prop} {t : TierAPg} :
    ∀ {records : List (TierARecord JsAny)} {s : LocalTables} {n : ℕ}, I s →
      (∀ rec ∈ records, ∀ s row, I s → bodyHash pg.nfc pg.sha.toSha256 t.spec rec.body = .ok rec.hash →
        pg.Stored t rec.body row → I (s.add t.spec.table row)) →
      I (applyTierARecords t pg.nfc pg.sha.toSha256 pg.db pg.chainWriter s n records).1 := by
  intro records
  induction records with
  | nil => intro s n hs _; exact hs
  | cons rec rest ih =>
    intro s n hs hadd
    have hrest := fun r hr => hadd r (List.mem_cons_of_mem _ hr)
    rw [applyTierARecords]
    split
    · exact hs
    · exact ih hs hrest
    · rename_i row hrow
      obtain ⟨hhash, hstored⟩ := applyOneTierA_some hrow
      exact ih (hadd rec List.mem_cons_self s row hs hhash hstored) hrest

theorem applyTierA_keeps {I : LocalTables → Prop} {s : LocalTables} {table : String}
    {records : List (TierARecord JsAny)} (hs : I s)
    (hadd : ∀ t, pg.registry.find table = .ok t → ∀ rec ∈ records, ∀ s row, I s →
      bodyHash pg.nfc pg.sha.toSha256 t.spec rec.body = .ok rec.hash → pg.Stored t rec.body row →
      I (s.add t.spec.table row)) :
    I (pg.applyTierA s table records).1 := by
  unfold applyTierA
  split_ifs
  · exact hs
  · cases hfind : pg.registry.find table with
    | error e => exact hs
    | ok t => exact applyTierARecords_keeps hs (hadd t hfind)

/-! ### What a mutable apply can do -/

end PgAeStore

namespace TierBPg

variable {ρ σ β : Type} {t : TierBPg ρ σ β} {db : Database} {keyOf : β → String}

theorem over_select {key : String} {row : ρ} {selected : σ}
    (h : (t.over db keyOf).select key row = .ok selected) : t.select key row = .ok selected := by
  change (match db.lockFault t.spec.table key with
    | some message => Except.error (AeError.store message)
    | none => t.select key row) = .ok selected at h
  cases hfault : db.lockFault t.spec.table key with
  | some message => rw [hfault] at h; cases h
  | none =>
    rw [hfault] at h
    exact h

theorem over_insert {body : β} {row : ρ} (h : (t.over db keyOf).insert body = .ok row) :
    t.insert body = .ok row := by
  change (match db.writeFault t.spec.table (keyOf body) with
    | some message => Except.error (AeError.store message)
    | none => t.insert body) = .ok row at h
  cases hfault : db.writeFault t.spec.table (keyOf body) with
  | some message => rw [hfault] at h; cases h
  | none =>
    rw [hfault] at h
    exact h

theorem over_update {row row' : ρ} {body : β} (h : (t.over db keyOf).update row body = .ok row') :
    t.update row body = .ok row' := by
  change (match db.writeFault t.spec.table (keyOf body) with
    | some message => Except.error (AeError.store message)
    | none => t.update row body) = .ok row' at h
  cases hfault : db.writeFault t.spec.table (keyOf body) with
  | some message => rw [hfault] at h; cases h
  | none =>
    rw [hfault] at h
    exact h

theorem over_cases {nfc : Nfc} {sha : Sha256} {key : String} {existing : Option ρ} {incoming : β}
    {one : Applied ρ} (h : (t.over db keyOf).mergeRow nfc sha key existing incoming = .ok one) :
    (existing = none ∧ t.insert incoming = .ok one.row) ∨
    (∃ row, existing = some row ∧ one.row = row) ∨
    (∃ row selected, existing = some row ∧ t.select key row = .ok selected ∧
      t.update row (t.merge (t.rowToBody selected) incoming) = .ok one.row) := by
  obtain ⟨hnone, -, hinsert⟩ | ⟨row, hrow, -, hone⟩ | ⟨row, selected, hrow, hselect, -, hupdate⟩ :=
    mergeRow_cases h
  · exact Or.inl ⟨hnone, over_insert hinsert⟩
  · exact Or.inr (Or.inl ⟨row, hrow, hone⟩)
  · exact Or.inr (Or.inr ⟨row, selected, hrow, over_select hselect, over_update hupdate⟩)

end TierBPg

end Cello.Directory.AntiEntropy
