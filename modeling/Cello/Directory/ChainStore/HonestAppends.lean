import Cello.Directory.ChainStore.Writers

/-!
# Appends keep a chain

Transactions of all writers interleave; each holds the lock of a table from its first insertion there
to its end, and some roll back.  What `verifyChain` reads back of a committed table is then a chain,
as long as the values of every insertion are settled for their columns (`committed_chain_accepted`).

Two writers leave a UUID as they get it, where those of `sessions` bring it into its canonical form,
and a peer's body is stored as it came: an upper-case account id is hashed as it is and read back in
lower case, and the chain of the accounts is broken from that row on.
-/

namespace Cello.Directory.ChainStore

open Lib HashChain
open AntiEntropy (CanonicalValue TableRow column)

/-! ### What an insertion keeps -/

def columnType (table : HashChainedTable) (k : String) : Option PgType :=
  ((schema table).find? fun c => decide (c.name = k)).map Column.type

theorem columnType_eq (table : HashChainedTable) :
    ∀ c ∈ schema table, columnType table c.name = some c.type := by
  cases table <;> decide

theorem columnType_chainHash (table : HashChainedTable) :
    columnType table "chain_hash" = some .text := by
  cases table <;> decide

theorem chainHash_mem_schema (table : HashChainedTable) :
    "chain_hash" ∈ (schema table).map Column.name := by
  cases table <;> decide

theorem chainHash_notMem_bigintColumns (table : HashChainedTable) :
    "chain_hash" ∉ bigintColumns table := by
  cases table <;> decide

/-- Arguments that insert what they hash: the pairs are those of the record and the hash, every
chained column is among them, and its value is settled. -/
structure InsertArgs.Good (pg : Postgres) (args : InsertArgs) : Prop where
  pairs : ∀ hash, args.columns.zip (assign args.values args.chainHashIndex hash) =
    args.record.columns.entries ++ [("chain_hash", hash)]
  own : "chain_hash" ∉ args.record.columns.keys
  covers : ∀ c ∈ schema args.table, isExcluded args.table.name c.name = false →
    c.name ∈ args.record.columns.keys
  settled : ∀ k v t, args.record.columns.get k = some v → columnType args.table k = some t →
    isExcluded args.table.name k = false → Settled pg t v

theorem get_deserializeRow (table : HashChainedTable) (row : Row) (k : String) :
    (deserializeRow table row).columns.get k =
      (row.columns.get k).map (deserializeValue (decide (k ∈ bigintColumns table))) := by
  have hlist : ∀ l : List (String × ColumnValue), OrdMap.getList k (l.map fun e =>
      (e.1, deserializeValue (decide (e.1 ∈ bigintColumns table)) e.2)) =
      (OrdMap.getList k l).map (deserializeValue (decide (k ∈ bigintColumns table))) := by
    intro l
    induction l with
    | nil => rfl
    | cons e l ih =>
      rw [List.map_cons, OrdMap.getList, OrdMap.getList]
      by_cases hk : e.1 = k
      · rw [if_pos hk, if_pos hk, hk, Option.map_some]
      · rw [if_neg hk, if_neg hk, ih]
  exact hlist row.columns.entries

theorem get_deserializeRow_chainHash (table : HashChainedTable) (row : Row) :
    (deserializeRow table row).columns.get "chain_hash" = row.columns.get "chain_hash" := by
  rw [get_deserializeRow, decide_eq_false (chainHash_notMem_bigintColumns table)]
  have hid : deserializeValue false = id := by
    funext v
    cases v <;> rfl
  rw [hid, Option.map_id, id]

theorem tailHash_map_deserializeRow (previous : String) (table : HashChainedTable) (rows : List Row) :
    tailHash previous (rows.map (deserializeRow table)) = tailHash previous rows := by
  have hlast : ((rows.map (deserializeRow table)).getLast?.bind fun row =>
      row.columns.get "chain_hash") = rows.getLast?.bind fun row => row.columns.get "chain_hash" := by
    rw [List.getLast?_map]
    cases rows.getLast? with
    | none => rfl
    | some row => exact get_deserializeRow_chainHash table row
  rw [tailHash, hlast, tailHash]

theorem getList_append (k : String) (l m : List (String × ColumnValue)) :
    OrdMap.getList k (l ++ m) = (OrdMap.getList k l).or (OrdMap.getList k m) := by
  induction l with
  | nil => rfl
  | cons e l ih =>
    rw [List.cons_append, OrdMap.getList, OrdMap.getList]
    by_cases hk : e.1 = k
    · rw [if_pos hk, if_pos hk, Option.some_or]
    · rw [if_neg hk, if_neg hk, ih]

theorem insertInto_some {pg : Postgres} {generated : String → ColumnValue} {table : HashChainedTable}
    {pairs : List (String × ColumnValue)} {row : Row}
    (h : insertInto pg generated table pairs = some row) :
    (∀ p ∈ pairs, p.1 ∈ (schema table).map Column.name) ∧
      row.columns.keys = (schema table).map Column.name ∧
      ∀ c ∈ schema table, ∃ v, cell pg generated pairs c = some v ∧
        row.columns.get c.name = some v := by
  unfold insertInto at h
  obtain ⟨hguard, hrow⟩ := Option.ite_none_right_eq_some.1 h
  obtain rfl := Option.some.inj hrow
  simp only [Bool.and_eq_true, List.all_eq_true, decide_eq_true_eq] at hguard
  refine ⟨hguard.1, ?_, fun c hc => ?_⟩
  · rw [OrdMap.keys, List.map_map]
    rfl
  · obtain ⟨v, hv⟩ := Option.isSome_iff_exists.1 (hguard.2 c hc)
    refine ⟨v, hv, (OrdMap.get_eq_some_iff _ _ _).2 (List.mem_map.2 ⟨c, hc, ?_⟩)⟩
    rw [hv, Option.getD_some]

theorem cell_of_given {pg : Postgres} {generated : String → ColumnValue}
    {pairs : List (String × ColumnValue)} {c : Column} {v w : ColumnValue}
    (hv : OrdMap.getList c.name pairs = some v) (h : cell pg generated pairs c = some w) :
    pg.store c.type v = some w := by
  unfold cell at h
  rw [hv] at h
  exact (Option.filter_eq_some_iff.1 h).1

section Insert

variable {pg : Postgres} {sha : Sha256} {generated : String → ColumnValue} {refused : Bool}
  {args : InsertArgs} {rows : List Row} {row : Row}

theorem insertWithChain_some (h : insertWithChain pg sha generated refused args rows = some row)
    (hgood : args.Good pg) :
    ∃ s, serializeRecord args.table.name args.record = some s ∧
      insertInto pg generated args.table (args.record.columns.entries ++ [("chain_hash",
        .text (computeChainHash sha s (tailHash (sha.hex genesisText) rows)))]) = some row := by
  unfold insertWithChain at h
  obtain ⟨-, h⟩ := Option.ite_none_right_eq_some.1 h
  obtain ⟨s, hs, h⟩ := Option.bind_eq_some_iff.1 h
  obtain ⟨-, h⟩ := Option.ite_none_left_eq_some.1 h
  rw [hgood.pairs] at h
  exact ⟨s, hs, h⟩

theorem map_normalizeValue_deserializeRow (hgood : args.Good pg) {hash : ColumnValue}
    (h : insertInto pg generated args.table
      (args.record.columns.entries ++ [("chain_hash", hash)]) = some row) {k : String}
    (hk : isExcluded args.table.name k = false) :
    ((deserializeRow args.table row).columns.get k).map normalizeValue =
      (args.record.columns.get k).map normalizeValue := by
  obtain ⟨hknown, hkeys, hcells⟩ := insertInto_some h
  rw [get_deserializeRow]
  by_cases hmem : k ∈ (schema args.table).map Column.name
  · obtain ⟨c, hc, rfl⟩ := List.mem_map.1 hmem
    obtain ⟨v, hv⟩ := Option.isSome_iff_exists.1 (OrdMap.mem_keys_iff.1 (hgood.covers c hc hk))
    obtain ⟨w, hw, hget⟩ := hcells c hc
    have hgiven : OrdMap.getList c.name (args.record.columns.entries ++ [("chain_hash", hash)]) =
        some v := by
      rw [getList_append, show OrdMap.getList c.name args.record.columns.entries = some v from hv,
        Option.some_or]
    have hstore := cell_of_given hgiven hw
    have hsettled := hgood.settled c.name v c.type hv (columnType_eq _ c hc) hk
    rw [hget, hv, Option.map_some, Option.map_some, Option.map_some]
    refine congrArg some (normalizeValue_store hsettled (fun hd => ?_) hstore)
    exact type_of_bigintColumns args.table c hc (of_decide_eq_true hd)
  · -- no column of the table, hence none of the record's keys either
    have hrow : row.columns.get k = none := by
      rw [← Option.not_isSome_iff_eq_none, ← OrdMap.mem_keys_iff, hkeys]
      exact hmem
    have hrecord : args.record.columns.get k = none := by
      rw [← Option.not_isSome_iff_eq_none, ← OrdMap.mem_keys_iff]
      intro hin
      obtain ⟨e, he, rfl⟩ := List.mem_map.1 hin
      exact hmem (hknown e (List.mem_append_left _ he))
    rw [hrow, hrecord]
    rfl

theorem get_chainHash_deserializeRow (hgood : args.Good pg) {hash : String}
    (h : insertInto pg generated args.table
      (args.record.columns.entries ++ [("chain_hash", .text hash)]) = some row) :
    (deserializeRow args.table row).columns.get "chain_hash" = some (.text hash) := by
  obtain ⟨-, -, hcells⟩ := insertInto_some h
  obtain ⟨c, hc, hname⟩ := List.mem_map.1 (chainHash_mem_schema args.table)
  obtain ⟨w, hw, hget⟩ := hcells c hc
  have hgiven : OrdMap.getList c.name (args.record.columns.entries ++ [("chain_hash", .text hash)]) =
      some (.text hash) := by
    have habsent : OrdMap.getList c.name args.record.columns.entries = none := by
      change args.record.columns.get c.name = none
      rw [← Option.not_isSome_iff_eq_none, ← OrdMap.mem_keys_iff, hname]
      exact hgood.own
    rw [getList_append, habsent, Option.none_or, hname]
    rfl
  have htype : c.type = .text := by
    have hcolumn := columnType_eq _ c hc
    rw [hname, columnType_chainHash] at hcolumn
    exact (Option.some.inj hcolumn).symm
  have hstore := cell_of_given hgiven hw
  rw [htype] at hstore
  obtain ⟨-, hw⟩ := Option.ite_none_left_eq_some.1
    (show (if '\x00' ∈ hash.toList then none else some (ColumnValue.text hash)) = some w from hstore)
  rw [get_deserializeRow_chainHash, ← hname, hget, Option.some.inj hw]

theorem linked_insertWithChain (hgood : args.Good pg)
    (hlinked : Linked sha args.table.name (sha.hex genesisText) (rows.map (deserializeRow args.table)))
    (h : insertWithChain pg sha generated refused args rows = some row) :
    Linked sha args.table.name (sha.hex genesisText)
      ((rows ++ [row]).map (deserializeRow args.table)) := by
  obtain ⟨s, hs, hinsert⟩ := insertWithChain_some h hgood
  have htext : serializeRecord args.table.name (deserializeRow args.table row) = some s := by
    rw [← hs]
    exact serializeRecord_congr fun k hk => map_normalizeValue_deserializeRow hgood hinsert hk
  rw [List.map_append, List.map_singleton]
  refine hlinked.concat htext ?_
  rw [get_chainHash_deserializeRow hgood hinsert, tailHash_map_deserializeRow]

end Insert

/-! ### What the call sites keep -/

/-- Every chained column of a table is among these. -/
def covers (table : HashChainedTable) (keys : List String) : Bool :=
  (schema table).all fun c => isExcluded table.name c.name || decide (c.name ∈ keys)

def SettledIn (pg : Postgres) (table : HashChainedTable) (e : String × ColumnValue) : Prop :=
  ∀ t, columnType table e.1 = some t → isExcluded table.name e.1 = false → Settled pg t e.2

section Fields

variable {pg : Postgres} {table : HashChainedTable} {k : String} {v : ColumnValue}
  {fields : List (String × ColumnValue)}

theorem SettledIn.of_type {t : PgType} (htype : columnType table k = some t)
    (h : Settled pg t v) : SettledIn pg table (k, v) := by
  intro u hu _
  obtain rfl := Option.some.inj (htype.symm.trans hu)
  exact h

theorem SettledIn.text {s : String} (htype : columnType table k = some .text) :
    SettledIn pg table (k, .text s) :=
  .of_type htype trivial

theorem SettledIn.of_excluded (h : isExcluded table.name k = true) : SettledIn pg table (k, v) := by
  intro u _ hk
  exact absurd hk (by simp [h])

theorem mem_of_get_object (h : (object fields).columns.get k = some v) : (k, v) ∈ fields := by
  have hfold : ∀ (l : List (String × ColumnValue)) (m : OrdMap String ColumnValue),
      (l.foldl (fun m e => m.set e.1 e.2) m).get k = some v → (k, v) ∈ l ∨ m.get k = some v := by
    intro l
    induction l with
    | nil => exact fun m hm => Or.inr hm
    | cons e l ih =>
      intro m hm
      rcases ih _ hm with hin | hset
      · exact Or.inl (List.mem_cons_of_mem e hin)
      · rw [OrdMap.get_set] at hset
        by_cases hk : k = e.1
        · rw [if_pos hk, Option.some.injEq] at hset
          exact Or.inl (by rw [hk, ← hset]; exact List.mem_cons_self)
        · rw [if_neg hk] at hset
          exact Or.inr hset
  rcases hfold _ _ h with hin | hin
  · exact (List.mem_filter.1 hin).1
  · cases hin

theorem mem_keys_object :
    k ∈ (object fields).columns.keys ↔ k ∈ fields.map Prod.fst ∧ k ≠ "__proto__" := by
  rw [OrdMap.mem_keys_iff]
  refine (OrdMap.has_ofList _ _).trans ?_
  simp only [List.mem_map, List.mem_filter, Bool.not_eq_true', decide_eq_false_iff_not]
  constructor
  · rintro ⟨e, ⟨he, hne⟩, rfl⟩
    exact ⟨⟨e, he, rfl⟩, hne⟩
  · rintro ⟨⟨e, he, rfl⟩, hne⟩
    exact ⟨e, ⟨he, hne⟩, rfl⟩

theorem covers_object (keys : List String) (hkeys : fields.map Prod.fst = keys)
    (hcovers : covers table keys = true) :
    ∀ c ∈ schema table, isExcluded table.name c.name = false →
      c.name ∈ (object fields).columns.keys := by
  intro c hc hk
  have hmem := List.all_eq_true.1 hcovers c hc
  rw [hk, Bool.false_or, decide_eq_true_eq] at hmem
  refine mem_keys_object.2 ⟨hkeys ▸ hmem, fun hproto => proto_notMem_schema table ?_⟩
  rw [← hproto]
  exact List.mem_map_of_mem hc

theorem settled_object (h : fields.Forall (SettledIn pg table)) (k : String) (v : ColumnValue)
    (t : PgType) (hget : (object fields).columns.get k = some v)
    (htype : columnType table k = some t) (hk : isExcluded table.name k = false) : Settled pg t v :=
  List.forall_iff_forall_mem.1 h (k, v) (mem_of_get_object hget) t htype hk

theorem good_ofRecord (keys : List String) (hkeys : fields.map Prod.fst = keys)
    (hown : "chain_hash" ∉ keys) (hcovers : covers table keys = true)
    (hsettled : fields.Forall (SettledIn pg table)) :
    (InsertArgs.ofRecord table (object fields)).Good pg where
  pairs hash := by
    have hassign : assign ((object fields).columns.entries.map Prod.snd ++ [.text ""])
        (object fields).columns.entries.length hash =
        (object fields).columns.entries.map Prod.snd ++ [hash] := by
      rw [assign, List.take_left' (List.length_map _), List.drop_of_length_le (by simp)]
    change List.zip (((object fields).columns.entries.map Prod.fst) ++ ["chain_hash"])
      (assign ((object fields).columns.entries.map Prod.snd ++ [.text ""])
        (object fields).columns.entries.length hash) = _
    rw [hassign, List.zip_append (by simp), ← List.unzip_fst, ← List.unzip_snd, List.zip_unzip]
    rfl
  own hin := hown (hkeys ▸ (mem_keys_object.1 hin).1)
  covers := covers_object keys hkeys hcovers
  settled := settled_object hsettled

end Fields

theorem settled_canonicalUuid (pg : Postgres) (s : String) :
    Settled pg .uuid (.text (canonicalUuid s)) := by
  intro u hu
  rw [← canonicalUuid_of_uuidIn hu, canonicalUuid_canonicalUuid]

theorem settled_randomUUID (pg : Postgres) (bits : BitVec 128) :
    Settled pg .uuid (.text (randomUUID bits)) := by
  have hbare : isBareUuid (hexDigits 32 bits.toNat) = true := by
    rw [isBareUuid, length_hexDigits, Bool.and_eq_true, List.all_eq_true]
    exact ⟨rfl, fun c hc => isHexDigit_of_mem_hexDigits hc⟩
  intro u hu
  rw [← canonicalUuid_of_uuidIn hu, randomUUID, canonicalUuid_dashed hbare]

/-- The arguments under which a call keeps the chains of its tables: a UUID that it does not bring into
canonical form is in it, and what a peer sends is settled for its column. -/
def Call.Settled (pg : Postgres) : Call → Prop
  | recordConversationSeal s => ChainStore.Settled pg .uuid (.text s.conversationId)
  | createAccount p => ChainStore.Settled pg .uuid (.text p.accountId)
  | applyTierA table body => ∀ cols bytea, tierA table = some (cols, bytea) → ∀ c ∈ cols,
      ∀ v, wireValue (decide (c ∈ bytea)) (column body c) = some v → SettledIn pg table (c, v)
  | _ => True

section Calls

variable {pg : Postgres}

theorem good_recordNotarization (n : SealNotarization) :
    ∀ args ∈ recordNotarization n, args.Good pg := by
  intro args hargs
  obtain rfl := List.mem_singleton.1 hargs
  refine good_ofRecord ["session_id", "sealed_root", "participant_a_pubkey",
    "participant_b_pubkey", "close_timestamp", "frost_signature", "seal_type",
    "supersedes_notarization_id"] rfl (by decide) (by decide) ?_
  exact ⟨.of_type (t := .bytea) (by decide) trivial, .of_type (t := .bytea) (by decide) trivial,
    .of_type (t := .bytea) (by decide) trivial, .of_type (t := .bytea) (by decide) trivial,
    .of_type (t := .bigint) (by decide) trivial, .of_type (t := .bytea) (by decide) trivial,
    .of_excluded (by decide), .of_excluded (by decide)⟩

theorem good_account {p : CreateAccountParams} (hp : Settled pg .uuid (.text p.accountId)) :
    ∀ args ∈ createAccount p, args.Good pg := by
  intro args hargs
  obtain rfl := List.mem_singleton.1 hargs
  have hfields : SettledIn pg .userAccounts ("account_id", .text p.accountId) ∧
      SettledIn pg .userAccounts ("phone_stub_hash", .text p.phoneStubHash) :=
    ⟨.of_type (t := .uuid) (by decide) hp, .text (by decide)⟩
  cases hemail : p.emailStubHash with
  | none =>
    refine good_ofRecord ["account_id", "phone_stub_hash"] rfl (by decide) (by decide) ?_
    exact hfields
  | some e =>
    refine good_ofRecord ["account_id", "phone_stub_hash", "email_stub_hash"]
      rfl (by decide) (by decide) ?_
    exact ⟨hfields.1, hfields.2, .of_excluded (by decide)⟩

theorem good_recordConversationSeal {s : ConversationSealRecord}
    (hs : Settled pg .uuid (.text s.conversationId)) :
    ∀ args ∈ recordConversationSeal s, args.Good pg := by
  unfold recordConversationSeal
  split
  · exact fun args hargs => absurd hargs List.not_mem_nil
  · intro args hargs
    rcases List.mem_append.1 hargs with hargs | hargs
    · rcases List.mem_cons.1 hargs with rfl | hargs
      · refine good_ofRecord ["conversation_id", "merkle_root", "close_type", "participant_count",
          "seal_date"] rfl (by decide) (by decide) ?_
        exact ⟨.of_type (t := .uuid) (by decide) hs, .text (by decide),
          .text (by decide), .of_type (t := .integer) (by decide) trivial,
          .of_excluded (by decide)⟩
      · obtain ⟨p, -, rfl⟩ := List.mem_map.1 hargs
        refine good_ofRecord ["conversation_id", "party_pseudonym"] rfl (by decide) (by decide) ?_
        exact ⟨.of_type (t := .uuid) (by decide) hs, .text (by decide)⟩
    · obtain ⟨p, -, rfl⟩ := List.mem_map.1 hargs
      refine good_ofRecord ["conversation_id", "participant_pseudonym", "attestation",
        "seal_signature"] rfl (by decide) (by decide) ?_
      exact ⟨.of_type (t := .uuid) (by decide) hs, .text (by decide),
        .text (by decide), .text (by decide)⟩

theorem good_recordAcceptedConnectionRequest (requestId requesterPseudonym targetPseudonym : String) :
    ∀ args ∈ recordAcceptedConnectionRequest requestId requesterPseudonym targetPseudonym,
      args.Good pg := by
  intro args hargs
  obtain rfl := List.mem_singleton.1 hargs
  have hfields : [("request_id", ColumnValue.text requestId),
      ("requester_pseudonym", .text requesterPseudonym), ("target_pseudonym", .text targetPseudonym),
      ("outcome", .text "ACCEPTED")].Forall (SettledIn pg .connectionRequests) := by
    exact ⟨.text (by decide), .text (by decide),
      .text (by decide), .text (by decide)⟩
  have hcovers : covers .connectionRequests
      ["request_id", "requester_pseudonym", "target_pseudonym", "outcome"] = true := by decide
  exact
    { pairs := fun hash => rfl
      own := fun hin => absurd (mem_keys_object.1 hin).1 (by simp)
      covers := covers_object _ rfl hcovers
      settled := settled_object hfields }

theorem good_createConnection (connectionId participantA participantB : String)
    (establishedAt : Float64) :
    ∀ args ∈ createConnection connectionId participantA participantB establishedAt,
      args.Good pg := by
  intro args hargs
  obtain rfl := List.mem_singleton.1 hargs
  refine good_ofRecord ["connection_id", "participant_a", "participant_b", "established_at", "status"]
    rfl (by decide) (by decide) ?_
  exact ⟨.text (by decide), .text (by decide),
    .text (by decide), .of_type (t := .bigint) (by decide) trivial,
    .text (by decide)⟩

theorem good_writeSession (sessionId owningNodeId : String) :
    ∀ args ∈ writeSession sessionId owningNodeId, args.Good pg := by
  intro args hargs
  obtain rfl := List.mem_singleton.1 hargs
  refine good_ofRecord ["session_id", "owning_node_id"] rfl (by decide) (by decide) ?_
  exact ⟨.of_type (t := .uuid) (by decide) (settled_canonicalUuid pg sessionId),
    .text (by decide)⟩

theorem good_writeSessionWithParticipants (sessionId owningNodeId initiatorPubkeyHex
    targetPubkeyHex : String) (highStakes : Bool) :
    ∀ args ∈ writeSessionWithParticipants sessionId owningNodeId initiatorPubkeyHex targetPubkeyHex
      highStakes, args.Good pg := by
  intro args hargs
  obtain rfl := List.mem_singleton.1 hargs
  refine good_ofRecord ["session_id", "owning_node_id", "initiator_pubkey_hex", "target_pubkey_hex",
    "high_stakes"] rfl (by decide) (by decide) ?_
  exact ⟨.of_type (t := .uuid) (by decide) (settled_canonicalUuid pg sessionId),
    .text (by decide), .of_excluded (by decide), .of_excluded (by decide),
    .of_excluded (by decide)⟩

theorem good_registerRelay (relayId publicKeyHex region : String) :
    ∀ args ∈ registerRelay relayId publicKeyHex region, args.Good pg := by
  intro args hargs
  obtain rfl := List.mem_singleton.1 hargs
  refine good_ofRecord ["relay_id", "public_key_hex", "region"] rfl (by decide) (by decide) ?_
  exact ⟨.text (by decide), .text (by decide),
    .text (by decide)⟩

theorem tierA_covers (table : HashChainedTable) : ∀ spec ∈ tierA table,
    "chain_hash" ∉ spec.1 ∧ covers table spec.1 = true := by
  cases table <;> decide

theorem good_applyTierA {table : HashChainedTable} {body : TableRow}
    (h : (Call.applyTierA table body).Settled pg) :
    ∀ args ∈ applyTierA table body, args.Good pg := by
  unfold applyTierA
  split
  · exact fun args hargs => absurd hargs List.not_mem_nil
  · next cols bytea hspec =>
    obtain ⟨hown, hcovers⟩ := tierA_covers table (cols, bytea) hspec
    dsimp only
    split_ifs with hall
    · intro args hargs
      obtain rfl := List.mem_singleton.1 hargs
      refine good_ofRecord cols (by simp [Function.comp_def]) hown hcovers (List.forall_iff_forall_mem.2 fun e he => ?_)
      obtain ⟨e', he', rfl⟩ := List.mem_map.1 he
      obtain ⟨c, hc, rfl⟩ := List.mem_map.1 he'
      obtain ⟨v, hv⟩ := Option.isSome_iff_exists.1 (List.all_eq_true.1 hall _ he')
      dsimp only at hv ⊢
      rw [hv, Option.getD_some]
      exact h cols bytea hspec c hc v hv
    · exact fun args hargs => absurd hargs List.not_mem_nil

theorem Call.good_of_settled {call : Call} (h : call.Settled pg) :
    ∀ args ∈ call.inserts, args.Good pg := by
  cases call with
  | recordNotarization n => exact good_recordNotarization n
  | recordConversationSeal s => exact good_recordConversationSeal h
  | createAccount p => exact good_account h
  | resolveOrCreateAccount phone email bits => exact good_account (settled_randomUUID pg bits)
  | recordAcceptedConnectionRequest r p t => exact good_recordAcceptedConnectionRequest r p t
  | createConnection c a b at' => exact good_createConnection c a b at'
  | writeSession s n => exact good_writeSession s n
  | writeSessionWithParticipants s n i t hs => exact good_writeSessionWithParticipants s n i t hs
  | registerRelay r k g => exact good_registerRelay r k g
  | applyTierA table body => exact good_applyTierA h

end Calls

/-! ### Whole runs -/

/-- One insertion of a call: what the database fills in, and whether another constraint of the table
refuses it. -/
structure Insertion where
  call : Call
  args : InsertArgs
  mem : args ∈ call.inserts
  generated : String → ColumnValue
  refused : Bool

/-- The chained tables; a row stands as the driver gives it back. -/
abbrev Database := LockedLog HashChainedTable ℕ Row

section Run

variable (pg : Postgres) (sha : Sha256)

def Insertion.entry (w : Insertion) (rows : List Row) : Option Row :=
  insertWithChain pg sha w.generated w.refused w.args rows

/-- What is in the tables after these actions of any number of transactions. -/
def runFrom (db : Database) (actions : List (LockedLog.Action HashChainedTable ℕ Insertion)) :
    Database :=
  db.run (fun w => w.args.table) (Insertion.entry pg sha) actions

/-- `PgDirectoryStore.verifyChain`. -/
def verifyTable (db : Database) (table : HashChainedTable) : Option ChainVerificationResult :=
  verifyChain sha table.name ((db.committed table).map (deserializeRow table))

variable {pg sha}

/-- **Honest appends never break a chain**: in every interleaving of transactions whose calls have
settled arguments, the rows that are committed verify. -/
theorem committed_chain_accepted {actions : List (LockedLog.Action HashChainedTable ℕ Insertion)}
    (h : ∀ a ∈ actions, a.Permitted fun w => w.call.Settled pg) (table : HashChainedTable) :
    ∃ r, verifyTable sha (runFrom pg sha LockedLog.empty actions) table = some r ∧
      r.valid = true := by
  refine accepted_iff.2 ?_
  refine LockedLog.committed_invariant
    (P := fun table rows =>
      Linked sha table.name (sha.hex genesisText) (rows.map (deserializeRow table)))
    (fun _ => trivial) ?_ h table
  intro w hw rows row hlinked hrow
  exact linked_insertWithChain (w.call.good_of_settled hw w.args w.mem) hlinked hrow

end Run

/-! ### An account id in upper case -/

namespace AccountSample

def pg : Postgres where
  integerIn s := if isIntegerText s then some (integerOf s) else none
  integerIn_digits _ h := if_pos h
  integerIn_number n h := if_neg (by rw [h]; exact Bool.false_ne_true)
  integerIn_bool := by decide
  otherIn _ _ := none

def phoneStubHash : String := "5f1c"

/-- The text that is hashed for an account. -/
def accountText (accountId : String) : String :=
  chainText
    ("\x7b\"account_id\":\"".toList ++ (accountId.toList ++ ("\",\"phone_stub_hash\":\"".toList ++
      (phoneStubHash.toList ++ "\"\x7d".toList))))
    (hexText HashChain.Sample.genesisDigest)

def sha : Sha256 := HexSha256.toSha256 <|
  .ofTable [(genesisText, HashChain.Sample.genesisDigest),
      (accountText "A0EEBC99-9C0B-4EF8-BB6D-6BB9BD380A11",
        0xded8eb85b2d6d6670f6c08f74f583c3a2bf33be5d9d02954bf0a4c6b247273ef#256),
      (accountText "a0eebc99-9c0b-4ef8-bb6d-6bb9bd380a11",
        0xbf9102709b955d4064026ff856ceab9de8d15794714dbdd14f9d0a3fcd2e602a#256)]
    0xe3b0c44298fc1c149afbf4c8996fb92427ae41e4649b934ca495991b7852b855#256

/-- An account is created at noon on the first of January 2026. -/
def insertion (accountId : String) (id : String) : Insertion where
  call := .createAccount ⟨accountId, phoneStubHash, none⟩
  args := .ofRecord .userAccounts (object
    [("account_id", .text accountId), ("phone_stub_hash", .text phoneStubHash)])
  mem := List.mem_singleton.2 rfl
  generated k := if k = "id" then .text id else .date (some ⟨1767268800000, by decide⟩)
  refused := false

theorem settled_lowerCase (id : String) :
    (insertion "a0eebc99-9c0b-4ef8-bb6d-6bb9bd380a11" id).call.Settled pg := by
  have hin : uuidIn "a0eebc99-9c0b-4ef8-bb6d-6bb9bd380a11" =
      some "a0eebc99-9c0b-4ef8-bb6d-6bb9bd380a11" := by decide
  intro u hu
  exact Option.some.inj (hu.symm.trans hin)

/-- One transaction writes and rolls back, another waits for it, writes and commits. -/
def lowerCase : List (LockedLog.Action HashChainedTable ℕ Insertion) :=
  [.write 1 (insertion "a0eebc99-9c0b-4ef8-bb6d-6bb9bd380a11" "1"),
    .write 2 (insertion "a0eebc99-9c0b-4ef8-bb6d-6bb9bd380a11" "2"), .rollback 1,
    .write 2 (insertion "a0eebc99-9c0b-4ef8-bb6d-6bb9bd380a11" "2"), .commit 2]

def upperCase : List (LockedLog.Action HashChainedTable ℕ Insertion) :=
  [.write 1 (insertion "A0EEBC99-9C0B-4EF8-BB6D-6BB9BD380A11" "1"), .commit 1]

end AccountSample

open AccountSample in
theorem committed_chain_accepted_lowerCase :
    ((runFrom pg sha LockedLog.empty lowerCase).committed .userAccounts).length = 1 ∧
      ∃ r, verifyTable sha (runFrom pg sha LockedLog.empty lowerCase) .userAccounts = some r ∧
        r.valid = true := by
  refine ⟨by decide +kernel, committed_chain_accepted ?_ .userAccounts⟩
  simp only [lowerCase, List.forall_mem_cons, List.not_mem_nil, false_imp_iff, implies_true, and_true]
  exact ⟨settled_lowerCase "1", settled_lowerCase "2", trivial, settled_lowerCase "2", trivial⟩

open AccountSample in
/-- The account is hashed with its id in upper case and read back with it in lower case. -/
theorem committed_chain_broken_upperCase :
    (verifyTable sha (runFrom pg sha LockedLog.empty upperCase) .userAccounts).map
      (fun r => (r.valid, r.rowCount, r.breakAtSequence)) = some (false, 1, some 1) := by
  decide +kernel

end Cello.Directory.ChainStore
