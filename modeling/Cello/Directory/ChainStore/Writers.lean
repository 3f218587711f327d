import Cello.Directory.AntiEntropy.RecordHash
import Cello.Directory.ChainStore.Columns
import Cello.Directory.Seal.Certificate
import Cello.Lib.LockedLog

/-!
# The writers of the chained tables

`insertWithChain` hashes the record that a call site hands it and inserts the values beside it; the
row that comes back later has every column of the table.  The tables stand here as the migrations
leave them, each with the type and the default of its columns, and the call sites as they build the
record: the rows of a seal, the accounts, the connections, the sessions, the relays, and what a peer
sends of the tables that are replicated.
-/

namespace Cello.Directory.ChainStore

open Lib HashChain
open AntiEntropy (CanonicalValue TableRow column)

/-! ### The tables -/

/-- `HASH_CHAINED_TABLES`. -/
inductive HashChainedTable where
  | connectionRequests
  | conversationSeals
  | conversationAttestations
  | conversationParticipation
  | notificationEvents
  | sealNotarizations
  | connections
  | sessions
  | relayRegistrations
  | userAccounts
deriving DecidableEq, Repr

namespace HashChainedTable

def name : HashChainedTable → String
  | connectionRequests => "connection_requests"
  | conversationSeals => "conversation_seals"
  | conversationAttestations => "conversation_attestations"
  | conversationParticipation => "conversation_participation"
  | notificationEvents => "notification_events"
  | sealNotarizations => "seal_notarizations"
  | connections => "connections"
  | sessions => "sessions"
  | relayRegistrations => "relay_registrations"
  | userAccounts => "user_accounts"

end HashChainedTable

/-- What a column holds when a writer omits it. -/
inductive Default where
  | null
  | value (v : ColumnValue)
  | generated
deriving DecidableEq

structure Column where
  name : String
  type : PgType
  notNull : Bool
  default : Default
deriving DecidableEq

/-- A `BIGSERIAL`. -/
def serial : Column := ⟨"id", .bigint, true, .generated⟩

def given (name : String) (type : PgType) : Column := ⟨name, type, true, .null⟩

def optional (name : String) (type : PgType) : Column := ⟨name, type, false, .null⟩

/-- A time stamp with the default `now()`. -/
def stamped (name : String) : Column := ⟨name, .timestamptz, true, .generated⟩

/-- The columns of a table. -/
def schema : HashChainedTable → List Column
  | .connectionRequests =>
    [serial, given "request_id" .text, given "requester_pseudonym" .text,
      given "target_pseudonym" .text, given "outcome" .text, optional "rejection_reason" .text,
      optional "via_alias_id" .uuid, optional "escalation_expires_at" .timestamptz,
      optional "conversation_id" .uuid, stamped "requested_at", given "chain_hash" .text]
  | .conversationSeals =>
    [serial, given "conversation_id" .uuid, given "merkle_root" .text, given "close_type" .text,
      optional "close_reason_code" .text, given "participant_count" .integer,
      given "seal_date" .date, given "chain_hash" .text]
  | .conversationAttestations =>
    [serial, given "conversation_id" .uuid, given "participant_pseudonym" .text,
      given "attestation" .text, given "seal_signature" .text, stamped "attested_at",
      given "chain_hash" .text]
  | .conversationParticipation =>
    [serial, given "conversation_id" .uuid, given "party_pseudonym" .text, given "chain_hash" .text]
  | .notificationEvents =>
    [serial, given "notification_id" .uuid, optional "sender_pseudonym" .text,
      given "recipient_pseudonym" .text, given "notification_type" .text, given "payload_hash" .text,
      stamped "sent_at", given "chain_hash" .text]
  | .sealNotarizations =>
    [serial, stamped "created_at", given "session_id" .bytea, given "sealed_root" .bytea,
      given "participant_a_pubkey" .bytea, given "participant_b_pubkey" .bytea,
      given "close_timestamp" .bigint, given "frost_signature" .bytea, given "chain_hash" .text,
      ⟨"seal_type", .text, true, .value (.text "bilateral")⟩,
      optional "supersedes_notarization_id" .bigint]
  | .connections =>
    [serial, stamped "created_at", given "connection_id" .text, given "participant_a" .text,
      given "participant_b" .text, given "established_at" .bigint,
      ⟨"status", .text, true, .value (.text "active")⟩, given "chain_hash" .text]
  | .sessions =>
    [serial, given "session_id" .uuid, given "owning_node_id" .text, stamped "created_at",
      ⟨"chain_hash", .text, true, .value (.text "")⟩,
      ⟨"initiator_pubkey_hex", .text, true, .value (.text "")⟩,
      ⟨"target_pubkey_hex", .text, true, .value (.text "")⟩,
      ⟨"high_stakes", .boolean, true, .value (.bool false)⟩]
  | .relayRegistrations =>
    [serial, given "relay_id" .text, given "public_key_hex" .text, given "region" .text,
      stamped "registered_at", optional "deregistered_at" .timestamptz,
      ⟨"chain_hash", .text, true, .value (.text "")⟩]
  | .userAccounts =>
    [serial, given "account_id" .uuid, given "phone_stub_hash" .text,
      optional "email_stub_hash" .text, stamped "created_at", given "chain_hash" .text]

/-- `BIGINT_COLUMNS[tableName]`. -/
def bigintColumns : HashChainedTable → List String
  | .sealNotarizations => ["id", "close_timestamp", "supersedes_notarization_id"]
  | .connections => ["id", "established_at"]
  | _ => ["id"]

theorem nodup_schema (table : HashChainedTable) : ((schema table).map Column.name).Nodup := by
  cases table <;> decide

theorem proto_notMem_schema (table : HashChainedTable) :
    "__proto__" ∉ (schema table).map Column.name := by
  cases table <;> decide

theorem type_of_bigintColumns (table : HashChainedTable) :
    ∀ c ∈ schema table, c.name ∈ bigintColumns table → c.type = .bigint := by
  cases table <;> decide

/-! ### A row, there and back -/

/-- `deserializeRow`. -/
def deserializeRow (table : HashChainedTable) (row : Row) : Row where
  columns :=
    { entries := row.columns.entries.map fun e =>
        (e.1, deserializeValue (decide (e.1 ∈ bigintColumns table)) e.2)
      nodup := by
        rw [List.map_map]
        exact row.columns.nodup }
  own := by
    rw [OrdMap.keys, List.map_map]
    exact row.own

/-- What a column of the new row holds; `none` where the insertion fails. -/
def cell (pg : Postgres) (generated : String → ColumnValue) (pairs : List (String × ColumnValue))
    (c : Column) : Option ColumnValue :=
  let v :=
    match OrdMap.getList c.name pairs, c.default with
    | some v, _ => pg.store c.type v
    | none, .null => some .null
    | none, .value v => some v
    | none, .generated => some (generated c.name)
  v.filter fun v => !(c.notNull && decide (v = .null))

/-- `INSERT INTO table (columns) VALUES (values)`: the row as the driver gives it back. -/
def insertInto (pg : Postgres) (generated : String → ColumnValue) (table : HashChainedTable)
    (pairs : List (String × ColumnValue)) : Option Row :=
  if (pairs.all fun p => decide (p.1 ∈ (schema table).map Column.name)) &&
      (schema table).all fun c => (cell pg generated pairs c).isSome then
    some
      { columns :=
          { entries := (schema table).map fun c =>
              (c.name, (cell pg generated pairs c).getD .null)
            nodup := by
              rw [List.map_map]
              exact nodup_schema table }
        own := by
          rw [OrdMap.keys, List.map_map]
          exact proto_notMem_schema table }
  else none

/-! ### `insertWithChain` -/

structure InsertArgs where
  table : HashChainedTable
  record : Row
  columns : List String
  values : List ColumnValue
  chainHashIndex : ℕ

/-- `values[i] = v`, for an index within the array or at its end. -/
def assign (values : List ColumnValue) (i : ℕ) (v : ColumnValue) : List ColumnValue :=
  values.take i ++ v :: values.drop (i + 1)

/-- `insertWithChain`, under the lock of its table: the row that is inserted behind those that the
transaction sees; `none` where it throws.  `refused` is what the other constraints of the table say. -/
def insertWithChain (pg : Postgres) (sha : Sha256) (generated : String → ColumnValue)
    (refused : Bool) (args : InsertArgs) (rows : List Row) : Option Row :=
  if args.columns.all fun col =>
      decide (col = "chain_hash") || decide (col ∈ args.record.columns.keys) then
    (serializeRecord args.table.name args.record).bind fun serialized =>
      let chainHash := computeChainHash sha serialized (tailHash (sha.hex genesisText) rows)
      let insertValues := assign args.values args.chainHashIndex (.text chainHash)
      if refused || !decide (args.columns.length = insertValues.length) then none
      else insertInto pg generated args.table (args.columns.zip insertValues)
  else none

/-! ### The call sites -/

/-- An object literal. -/
def object (fields : List (String × ColumnValue)) : Row where
  columns := OrdMap.ofList (fields.filter fun e => !decide (e.1 = "__proto__"))
  own := by
    rw [OrdMap.mem_keys_iff]
    intro h
    have hmem := (OrdMap.has_ofList _ _).1 h
    simp at hmem

/-- The arguments for a record: its columns and values in its order, and a placeholder for
`chain_hash` behind them. -/
def InsertArgs.ofRecord (table : HashChainedTable) (record : Row) : InsertArgs where
  table := table
  record := record
  columns := record.columns.keys ++ ["chain_hash"]
  values := record.columns.entries.map Prod.snd ++ [.text ""]
  chainHashIndex := record.columns.entries.length

/-- What `recordNotarization` stores of a notarization. -/
structure SealNotarization where
  sessionId : Bytes
  sealedRoot : Bytes
  participantAPubkey : Bytes
  participantBPubkey : Bytes
  closeTimestamp : Float64
  frostSignature : Bytes
  sealType : Option Seal.SealType
  supersedesNotarizationId : Option Float64

def sealTypeText : Seal.SealType → String
  | .unilateral => "unilateral"
  | .bilateral => "bilateral"

def recordNotarization (n : SealNotarization) : List InsertArgs :=
  [.ofRecord .sealNotarizations (object
    [("session_id", .buffer n.sessionId),
      ("sealed_root", .buffer n.sealedRoot),
      ("participant_a_pubkey", .buffer n.participantAPubkey),
      ("participant_b_pubkey", .buffer n.participantBPubkey),
      ("close_timestamp", .number n.closeTimestamp),
      ("frost_signature", .buffer n.frostSignature),
      ("seal_type", .text (sealTypeText (n.sealType.getD .bilateral))),
      ("supersedes_notarization_id", (n.supersedesNotarizationId.map ColumnValue.number).getD .null)])]

inductive ConversationCloseType where
  | mutualSeal
  | sealUnilateral
  | expire
  | abort
  | reopen
deriving DecidableEq, Repr

def ConversationCloseType.text : ConversationCloseType → String
  | mutualSeal => "MUTUAL_SEAL"
  | sealUnilateral => "SEAL_UNILATERAL"
  | expire => "EXPIRE"
  | abort => "ABORT"
  | reopen => "REOPEN"

inductive ConversationAttestation where
  | clean
  | flagged
  | pending
  | delivered
  | absent
deriving DecidableEq, Repr

def ConversationAttestation.text : ConversationAttestation → String
  | clean => "CLEAN"
  | flagged => "FLAGGED"
  | pending => "PENDING"
  | delivered => "DELIVERED"
  | absent => "ABSENT"

structure SealParty where
  pseudonym : String
  attestation : ConversationAttestation
  sealSignatureHex : String

structure ConversationSealRecord where
  conversationId : String
  merkleRootHex : String
  closeType : ConversationCloseType
  closeTimestampMs : Float64
  parties : List SealParty

/-- `new Date(ms).toISOString().slice(0, 10)`; `none` where it throws. -/
def sealDate (ms : Float64) : Option String :=
  match ms.1 with
  | .fin q =>
    if |q| ≤ 8640000000000000 then
      some (String.ofList ((IsoDate.isoText (q.num.tdiv q.den)).take 10))
    else none
  | _ => none

def recordConversationSeal (s : ConversationSealRecord) : List InsertArgs :=
  match sealDate s.closeTimestampMs with
  | none => []
  | some date =>
    .ofRecord .conversationSeals (object
      [("conversation_id", .text s.conversationId),
        ("merkle_root", .text s.merkleRootHex),
        ("close_type", .text s.closeType.text),
        ("participant_count", .number (.ofInteger s.parties.length)),
        ("seal_date", .text date)]) ::
    (s.parties.map fun p => .ofRecord .conversationParticipation (object
      [("conversation_id", .text s.conversationId),
        ("party_pseudonym", .text p.pseudonym)])) ++
    s.parties.map fun p => .ofRecord .conversationAttestations (object
      [("conversation_id", .text s.conversationId),
        ("participant_pseudonym", .text p.pseudonym),
        ("attestation", .text p.attestation.text),
        ("seal_signature", .text p.sealSignatureHex)])

structure CreateAccountParams where
  accountId : String
  phoneStubHash : String
  emailStubHash : Option String

def createAccount (p : CreateAccountParams) : List InsertArgs :=
  [.ofRecord .userAccounts (object
    ([("account_id", .text p.accountId), ("phone_stub_hash", .text p.phoneStubHash)] ++
      p.emailStubHash.toList.map fun e => ("email_stub_hash", .text e)))]

/-- `randomUUID()`. -/
def randomUUID (bits : BitVec 128) : String := dashed (hexDigits 32 bits.toNat)

/-- `resolveOrCreateAccount`, where there is no account yet. -/
def resolveOrCreateAccount (phoneStubHash : String) (emailStubHash : Option String)
    (bits : BitVec 128) : List InsertArgs :=
  createAccount ⟨randomUUID bits, phoneStubHash, emailStubHash⟩

/-- `recordAcceptedConnectionRequest`: the one call site without a placeholder. -/
def recordAcceptedConnectionRequest (requestId requesterPseudonym targetPseudonym : String) :
    List InsertArgs :=
  [{ table := .connectionRequests
     record := object
       [("request_id", .text requestId), ("requester_pseudonym", .text requesterPseudonym),
         ("target_pseudonym", .text targetPseudonym), ("outcome", .text "ACCEPTED")]
     columns := ["request_id", "requester_pseudonym", "target_pseudonym", "outcome", "chain_hash"]
     values := [.text requestId, .text requesterPseudonym, .text targetPseudonym, .text "ACCEPTED"]
     chainHashIndex := 4 }]

def createConnection (connectionId participantA participantB : String) (establishedAt : Float64) :
    List InsertArgs :=
  [.ofRecord .connections (object
    [("connection_id", .text connectionId),
      ("participant_a", .text participantA),
      ("participant_b", .text participantB),
      ("established_at", .number establishedAt),
      ("status", .text "active")])]

def writeSession (sessionIdInput owningNodeId : String) : List InsertArgs :=
  [.ofRecord .sessions (object
    [("session_id", .text (canonicalUuid sessionIdInput)), ("owning_node_id", .text owningNodeId)])]

def writeSessionWithParticipants (sessionIdInput owningNodeId initiatorPubkeyHex
    targetPubkeyHex : String) (highStakes : Bool) : List InsertArgs :=
  [.ofRecord .sessions (object
    [("session_id", .text (canonicalUuid sessionIdInput)),
      ("owning_node_id", .text owningNodeId),
      ("initiator_pubkey_hex", .text initiatorPubkeyHex),
      ("target_pubkey_hex", .text targetPubkeyHex),
      ("high_stakes", .bool highStakes)])]

def registerRelay (relayId publicKeyHex region : String) : List InsertArgs :=
  [.ofRecord .relayRegistrations (object
    [("relay_id", .text relayId), ("public_key_hex", .text publicKeyHex), ("region", .text region)])]

/-- The chained tables of `TIER_A`: the columns that a peer sends, and which of them are `bytea`. -/
def tierA : HashChainedTable → Option (List String × List String)
  | .userAccounts => some (["account_id", "phone_stub_hash"], [])
  | .relayRegistrations => some (["relay_id", "public_key_hex", "region", "registered_at"], [])
  | .conversationSeals =>
    some (["conversation_id", "merkle_root", "close_type", "close_reason_code", "participant_count",
      "seal_date"], [])
  | .conversationParticipation => some (["conversation_id", "party_pseudonym"], [])
  | .conversationAttestations =>
    some (["conversation_id", "participant_pseudonym", "attestation", "seal_signature"], [])
  | .sealNotarizations =>
    some (["session_id", "seal_type", "sealed_root", "participant_a_pubkey", "participant_b_pubkey",
      "close_timestamp", "frost_signature"],
      ["session_id", "sealed_root", "participant_a_pubkey", "participant_b_pubkey",
        "frost_signature"])
  | _ => none

def hexPairs : List Char → List Char
  | a :: b :: rest =>
    if Bytes.isHexDigit a && Bytes.isHexDigit b then a :: b :: hexPairs rest else []
  | _ => []

/-- `Buffer.from(s, "hex")`. -/
def bufferFromHex (s : String) : Bytes := Bytes.ofHexDigits ((hexPairs s.toList).map Char.toLower)

/-- A value of a peer's body as it is stored; `none` where it is refused as no hex. -/
def wireValue (bytea : Bool) : CanonicalValue → Option ColumnValue
  | .null => some .null
  | .bool b => some (.bool b)
  | .str s =>
    if bytea then
      if (bufferFromHex s).toHex = s.toLower then some (.buffer (bufferFromHex s)) else none
    else some (.text s)

/-- The chained branch of `applyTierA`, for a record that passed the checks before it. -/
def applyTierA (table : HashChainedTable) (body : TableRow) : List InsertArgs :=
  match tierA table with
  | none => []
  | some (cols, bytea) =>
    let record := cols.map fun c => (c, wireValue (decide (c ∈ bytea)) (column body c))
    if record.all fun e => e.2.isSome then
      [.ofRecord table (object (record.map fun e => (e.1, e.2.getD .null)))]
    else []

/-- A call that writes chained rows, with its arguments. -/
inductive Call where
  | recordNotarization (notarization : SealNotarization)
  | recordConversationSeal (sealRecord : ConversationSealRecord)
  | createAccount (params : CreateAccountParams)
  | resolveOrCreateAccount (phoneStubHash : String) (emailStubHash : Option String)
      (bits : BitVec 128)
  | recordAcceptedConnectionRequest (requestId requesterPseudonym targetPseudonym : String)
  | createConnection (connectionId participantA participantB : String) (establishedAt : Float64)
  | writeSession (sessionId owningNodeId : String)
  | writeSessionWithParticipants (sessionId owningNodeId initiatorPubkeyHex targetPubkeyHex : String)
      (highStakes : Bool)
  | registerRelay (relayId publicKeyHex region : String)
  | applyTierA (table : HashChainedTable) (body : TableRow)

/-- What a call hands to `insertWithChain`, in its order. -/
def Call.inserts : Call → List InsertArgs
  | recordNotarization n => ChainStore.recordNotarization n
  | recordConversationSeal s => ChainStore.recordConversationSeal s
  | createAccount p => ChainStore.createAccount p
  | resolveOrCreateAccount phone email bits => ChainStore.resolveOrCreateAccount phone email bits
  | recordAcceptedConnectionRequest r p t => ChainStore.recordAcceptedConnectionRequest r p t
  | createConnection c a b at' => ChainStore.createConnection c a b at'
  | writeSession s n => ChainStore.writeSession s n
  | writeSessionWithParticipants s n i t h => ChainStore.writeSessionWithParticipants s n i t h
  | registerRelay r k g => ChainStore.registerRelay r k g
  | applyTierA table body => ChainStore.applyTierA table body

end Cello.Directory.ChainStore
