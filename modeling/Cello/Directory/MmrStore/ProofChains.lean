import Cello.Directory.MmrStore.Tables

/-!
# The chains of the leaves and the nodes

`appendSeal` chains the record as it has it in memory; `verifyLeavesChain` and `verifyNodesChain`
chain what `SELECT *` gives back.  The two agree on every column but one: a session id is hashed as
it is passed, and the `uuid` column gives it back in its canonical form.  So the nodes always verify,
and the leaves do while every session id is passed in that form (`proof_chains_accepted`).

The directory passes the hex of its 16-byte session id, without dashes, and its first leaf already
breaks the chain (`leaves_chain_broken_undashed`).
-/

namespace Cello.Directory.MmrStore

open Lib Json HashChain FlatJson ChainStore Mmr

/-! ### What `SELECT *` gives back -/

/-- How the driver gives back the columns that no chain has: time stamps as `Date` or as text. -/
structure Driver where
  timestamp : Instant → ColumnValue
  createdAt : ℕ → ColumnValue

/-- A row of `SELECT * FROM conversation_proof_leaves`. -/
def Driver.leafRow (d : Driver) (row : ProofLeafRow) : Row where
  columns :=
    ⟨[("id", .text (integerText row.id)),
      ("created_at", d.createdAt row.id),
      ("leaf_index", .text (integerText row.leafIndex)),
      ("mmr_position", .text (integerText row.mmrPosition)),
      ("seal_merkle_root", .text row.sealMerkleRoot),
      ("leaf_hash", .text row.leafHash),
      ("session_id", .text row.sessionId),
      ("checkpoint_id", .null),
      ("recorded_at", d.timestamp row.recordedAt),
      ("chain_hash", .text row.chainHash)], by simp⟩
  own := by simp [OrdMap.keys]

/-- A row of `SELECT * FROM conversation_proof_mmr_nodes`. -/
def Driver.nodeRow (d : Driver) (row : ProofNodeRow) : Row where
  columns :=
    ⟨[("id", .text (integerText row.id)),
      ("created_at", d.createdAt row.id),
      ("mmr_position", .text (integerText row.mmrPosition)),
      ("hash", .text row.hash),
      ("height", .number (.ofInteger row.height)),
      ("chain_hash", .text row.chainHash)], by simp⟩
  own := by simp [OrdMap.keys]

/-- `verifyLeavesChain`. -/
def verifyLeavesChain (sha : Sha256) (d : Driver) (t : Tables) : Option ChainVerificationResult :=
  verifyChain sha "conversation_proof_leaves" (t.leaves.map d.leafRow)

/-- `verifyNodesChain`. -/
def verifyNodesChain (sha : Sha256) (d : Driver) (t : Tables) : Option ChainVerificationResult :=
  verifyChain sha "conversation_proof_mmr_nodes" (t.nodes.map d.nodeRow)

/-- A verification that reports a valid chain. -/
def Verifies (result : Option ChainVerificationResult) : Prop := ∃ r, result = some r ∧ r.valid = true

/-! ### The run -/

/-- What happens to the log: a call that commits, if it can, or a transaction that rolls back and
leaves gaps in the ids. -/
inductive LogEvent where
  | appendSeal (call : AppendSeal)
  | rollback (leaves nodes staged : ℕ)
deriving DecidableEq

def logStep (sha : Sha256) (t : Tables) : LogEvent → Tables
  | .appendSeal call => ((appendSeal sha call t).map Prod.snd).getD t
  | .rollback leaves nodes staged =>
    { t with
      leafSequence := t.leafSequence + leaves
      nodeSequence := t.nodeSequence + nodes
      stagingSequence := t.stagingSequence + staged }

def logRun (sha : Sha256) (events : List LogEvent) : Tables :=
  events.foldl (logStep sha) Tables.empty

/-- A session id that the column gives back as it is passed, or does not take. -/
def PassedCanonical (call : AppendSeal) : Prop :=
  ∀ u, uuidIn call.sessionId = some u → u = call.sessionId

/-! ### One text for what is written and what is read -/

theorem getList_filter {ν : Type*} {p : String → Bool} {k : String} (hk : p k = true)
    (l : List (String × ν)) : OrdMap.getList k (l.filter fun e => p e.1) = OrdMap.getList k l := by
  induction l with
  | nil => rfl
  | cons e l ih =>
    rw [List.filter_cons]
    by_cases he : p e.1 = true
    · rw [if_pos he, OrdMap.getList, OrdMap.getList, ih]
    · have hne : e.1 ≠ k := by
        rintro rfl
        exact he hk
      rw [if_neg he, OrdMap.getList, if_neg hne, ih]

theorem getList_map {ν μ : Type*} (f : ν → μ) (k : String) (l : List (String × ν)) :
    OrdMap.getList k (l.map fun e => (e.1, f e.2)) = (OrdMap.getList k l).map f := by
  induction l with
  | nil => rfl
  | cons e l ih =>
    rw [List.map_cons, OrdMap.getList, OrdMap.getList]
    split_ifs
    · rfl
    · exact ih

def normalizedColumns (tableName : String) (row : Row) : List (String × Option Leaf) :=
  (row.columns.entries.filter fun e => !isExcluded tableName e.1).map fun e =>
    (e.1, normalizeValue e.2)

theorem serializeRecord_eq_of_columns {tableName : String} {row row' : Row}
    (h : normalizedColumns tableName row = normalizedColumns tableName row') :
    serializeRecord tableName row = serializeRecord tableName row' := by
  refine serializeRecord_congr fun k hk => ?_
  have hget : ∀ r : Row, OrdMap.getList k (normalizedColumns tableName r) =
      (r.columns.get k).map normalizeValue := by
    intro r
    rw [normalizedColumns, getList_map,
      getList_filter (p := fun name => !isExcluded tableName name) (by rw [hk]; rfl)]
    rfl
  rw [← hget, ← hget, h]

theorem normalizeValue_integer (m : ℤ) :
    normalizeValue (.text (integerText m)) = normalizeValue (.number (.ofInteger m)) :=
  normalizeValue_integerText false m

theorem serializeRecord_leafRow (d : Driver) (row : ProofLeafRow) :
    serializeRecord "conversation_proof_leaves" (d.leafRow row) =
      serializeRecord "conversation_proof_leaves" (leafRecord row.toMmrLeaf row.sessionId) := by
  refine serializeRecord_eq_of_columns ?_
  change [("leaf_index", normalizeValue (.text (integerText row.leafIndex))),
    ("mmr_position", normalizeValue (.text (integerText row.mmrPosition))), _, _, _] = _
  rw [normalizeValue_integer, normalizeValue_integer]
  rfl

theorem serializeRecord_nodeRow (d : Driver) (row : ProofNodeRow) :
    serializeRecord "conversation_proof_mmr_nodes" (d.nodeRow row) =
      serializeRecord "conversation_proof_mmr_nodes" (nodeRecord row.toMmrNode) := by
  refine serializeRecord_eq_of_columns ?_
  change [("mmr_position", normalizeValue (.text (integerText row.mmrPosition))), _, _] = _
  rw [normalizeValue_integer]
  rfl

theorem tailHash_eq {α : Type*} {sha : Sha256} {select : α → Row} (hash : α → String)
    (h : ∀ x, (select x).columns.get "chain_hash" = some (.text (hash x))) (rows : List α) :
    tailHash (sha.hex genesisText) (rows.map select) =
      previousChainHash sha (rows.map hash) := by
  rw [tailHash, previousChainHash, List.getLast?_map, List.getLast?_map]
  cases rows.getLast? with
  | none => rfl
  | some x => simp [h x]

/-! ### The chains of a run -/

section Chains

variable {sha : Sha256} (d : Driver)

def NodesLinked (sha : Sha256) (d : Driver) (t : Tables) : Prop :=
  Linked sha "conversation_proof_mmr_nodes" (sha.hex genesisText) (t.nodes.map d.nodeRow)

def LeavesLinked (sha : Sha256) (d : Driver) (t : Tables) : Prop :=
  Linked sha "conversation_proof_leaves" (sha.hex genesisText) (t.leaves.map d.leafRow)

variable {d} {t t' : Tables}

theorem leaves_verify_iff : Verifies (verifyLeavesChain sha d t) ↔ LeavesLinked sha d t := accepted_iff

theorem NodesLinked.insertNode {node : MmrNode} (h : NodesLinked sha d t)
    (hinsert : insertNode sha t node = some t') : NodesLinked sha d t' := by
  obtain ⟨row, serialized, hrow, -, hs, hhash, rfl⟩ := insertNode_some hinsert
  rw [← hrow] at hs
  rw [NodesLinked, List.map_append]
  refine Linked.concat h ((serializeRecord_nodeRow d row).trans hs) ?_
  rw [tailHash_eq ProofNodeRow.chainHash fun _ => rfl, ← hhash]
  rfl

theorem NodesLinked.insertNodes {nodes : List MmrNode} (h : NodesLinked sha d t)
    (hinsert : nodes.foldlM (MmrStore.insertNode sha) t = some t') : NodesLinked sha d t' := by
  induction nodes generalizing t with
  | nil =>
    obtain rfl := Option.some.inj hinsert
    exact h
  | cons node nodes ih =>
    obtain ⟨next, hnext, hrest⟩ := Option.bind_eq_some_iff.1 hinsert
    exact ih (h.insertNode hnext) hrest

theorem NodesLinked.appendSeal {call : AppendSeal} {r : AppendSealResult} (h : NodesLinked sha d t)
    (happend : appendSeal sha call t = some (r, t')) : NodesLinked sha d t' := by
  obtain ⟨leaf, rows, serialized, between, -, -, -, -, -, hinsert, -, rfl⟩ := appendSeal_some happend
  have hlocked : NodesLinked sha d
      { t with leaves := t.leaves ++ [leaf], leafSequence := t.leafSequence + 1 } := h
  have hbetween : NodesLinked sha d between := hlocked.insertNodes hinsert
  exact hbetween

theorem LeavesLinked.appendSeal {call : AppendSeal} {r : AppendSealResult}
    (h : LeavesLinked sha d t) (hcall : PassedCanonical call)
    (happend : appendSeal sha call t = some (r, t')) : LeavesLinked sha d t' := by
  obtain ⟨leaf, rows, serialized, between, -, -, hsession, hs, hhash, -, hbetween, rfl⟩ :=
    appendSeal_some happend
  have hleaves : (insertStaging between fun id =>
      { id := id
        sessionId := leaf.sessionId
        sealMerkleRoot := call.sealMerkleRoot
        recordedAt := call.now
        checkpointId := none
        correlationId := some call.correlationId }).leaves = t.leaves ++ [leaf] := by
    rw [hbetween]
    rfl
  rw [← hcall _ hsession] at hs
  rw [LeavesLinked, hleaves, List.map_append]
  refine Linked.concat h ((serializeRecord_leafRow d leaf).trans hs) ?_
  rw [tailHash_eq ProofLeafRow.chainHash fun _ => rfl, ← hhash]
  rfl

theorem logRun_induction (P : Tables → Prop) (good : AppendSeal → Prop) (hempty : P Tables.empty)
    (hrollback : ∀ {t} l n s, P t → P (logStep sha t (.rollback l n s)))
    (happend : ∀ {t t' call r}, good call → P t → appendSeal sha call t = some (r, t') → P t')
    {events : List LogEvent} (hgood : ∀ call, LogEvent.appendSeal call ∈ events → good call) :
    P (logRun sha events) := by
  induction events using List.reverseRecOn with
  | nil => exact hempty
  | append_singleton events e ih =>
    have hprior := ih fun call hcall => hgood call (List.mem_append_left _ hcall)
    rw [logRun, List.foldl_append]
    change P (logStep sha (logRun sha events) e)
    cases e with
    | rollback l n s => exact hrollback l n s hprior
    | appendSeal call =>
      cases hresult : appendSeal sha call (logRun sha events) with
      | none =>
        rw [logStep, hresult]
        exact hprior
      | some result =>
        rw [logStep, hresult]
        exact happend (hgood call (by simp)) hprior hresult

theorem nodes_chain_accepted (events : List LogEvent) :
    Verifies (verifyNodesChain sha d (logRun sha events)) := by
  refine accepted_iff.2 (logRun_induction (NodesLinked sha d) (fun _ => True) trivial
    (fun _ _ _ h => h) (fun _ h happend => h.appendSeal happend) fun _ _ => trivial)

end Chains

/-- **Both chains verify**, whatever is appended, while every session id is passed as its column gives
it back. -/
theorem proof_chains_accepted (sha : Sha256) (d : Driver) (events : List LogEvent)
    (hcanonical : ∀ call, LogEvent.appendSeal call ∈ events → PassedCanonical call) :
    Verifies (verifyLeavesChain sha d (logRun sha events)) ∧
      Verifies (verifyNodesChain sha d (logRun sha events)) := by
  refine ⟨leaves_verify_iff.2 ?_, nodes_chain_accepted events⟩
  exact logRun_induction (LeavesLinked sha d) PassedCanonical trivial (fun _ _ _ h => h)
    (fun hcall h happend => h.appendSeal hcall happend) hcanonical

namespace SessionSample

def sealMerkleRoot : String := "9f86d081884c7d659a2feaa0c55ad015a3bf4f1b2b0b822cd15d6c15b0f00a08"

theorem now_inRange : IsoDate.InRange 1779116475378 := by
  unfold IsoDate.InRange
  decide

def call (sessionId : String) : AppendSeal where
  sessionId := sessionId
  sealMerkleRoot := sealMerkleRoot
  correlationId := "c-1"
  now := ⟨1779116475378, now_inRange⟩

def leafDigest : BitVec 256 :=
  0x0d2fa7ba29234cf0b7046d75e1bf1746bed8f8efd79e9c25e1345d33abe6563b#256

/-- The text that is chained for the first leaf of a session. -/
def leafText (sessionId : String) : String :=
  chainText
    ("\x7b\"leaf_hash\":\"".toList ++ ((hexText leafDigest).toList ++
      ("\",\"leaf_index\":0,\"mmr_position\":0,\"seal_merkle_root\":\"".toList ++
        (sealMerkleRoot.toList ++ ("\",\"session_id\":\"".toList ++
          (sessionId.toList ++ "\"\x7d".toList))))))
    (hexText HashChain.Sample.genesisDigest)

def sha : Sha256 := HexSha256.toSha256 <|
  .ofTable [(genesisText, HashChain.Sample.genesisDigest),
      ("0:" ++ sealMerkleRoot ++ ":2026-05-18T15:01:15.378Z", leafDigest),
      (leafText "5f0c9a526b1e4d369a6f2f1f3f5f9a01",
        0x3a62664080304428410fc7c08fe22babd305e8de6d97f3406b29e21bf813e981#256),
      (leafText "5f0c9a52-6b1e-4d36-9a6f-2f1f3f5f9a01",
        0xb0a7739b10a867bf96ee3bf13257a43c79aa9e49cfb122f4210238f6c0eb283d#256)]
    0xe3b0c44298fc1c149afbf4c8996fb92427ae41e4649b934ca495991b7852b855#256

/-- A driver that parses time stamps, on rows that are all written at the time of the seal. -/
def driver : Driver where
  timestamp t := .date (some t)
  createdAt _ := .date (some (call "").now)

def twoSeals : List LogEvent :=
  [.appendSeal (call "5f0c9a52-6b1e-4d36-9a6f-2f1f3f5f9a01"),
    .appendSeal (call "5f0c9a52-6b1e-4d36-9a6f-2f1f3f5f9a02")]

theorem passedCanonical_of {sessionId : String} (hin : uuidIn sessionId = some sessionId) :
    PassedCanonical (call sessionId) :=
  fun _ hu => Option.some.inj (hu.symm.trans hin)

/-! ### The first leaf and its text -/

/-- The leaf that the seal is appended as. -/
def firstLeaf : MmrLeaf where
  leafIndex := 0
  mmrPosition := 0
  leafHash := hexText leafDigest
  sealMerkleRoot := sealMerkleRoot
  recordedAt := "2026-05-18T15:01:15.378Z"

theorem hex_genesis : sha.hex genesisText = hexText HashChain.Sample.genesisDigest := by decide

theorem hex_leaf : sha.hex ("0:" ++ sealMerkleRoot ++ ":2026-05-18T15:01:15.378Z") = hexText leafDigest := by
  decide +kernel

theorem newLeaf_call (sessionId : String) :
    (appendLeafToMmr sha Tables.empty.leaves.length (call sessionId).sealMerkleRoot
      (toIsoString (call sessionId).now) (fetchCurrentPeaks sha Tables.empty.leaves)).newLeaf = firstLeaf := by
  have hnow : toIsoString (call "").now = "2026-05-18T15:01:15.378Z" := by decide
  have hhash : computeLeafHash sha 0 sealMerkleRoot "2026-05-18T15:01:15.378Z" = hexText leafDigest := hex_leaf
  change (appendLeafToMmr sha 0 sealMerkleRoot (toIsoString (call "").now) []).newLeaf = firstLeaf
  rw [hnow, appendLeafToMmr, hhash]
  rfl

theorem chainedKeys_first (sessionId : String) :
    chainedKeys "conversation_proof_leaves" (leafRecord firstLeaf sessionId) =
      ["leaf_hash", "leaf_index", "mmr_position", "seal_merkle_root", "session_id"] := by
  have hkeys : (leafRecord firstLeaf sessionId).columns.keys =
    ["leaf_index", "mmr_position", "seal_merkle_root", "leaf_hash", "session_id", "recorded_at"] := rfl
  rw [chainedKeys, hkeys]
  decide

theorem normalizeValue_leafHash :
    normalizeValue (.text (hexText leafDigest)) = some (.str (hexDigits 64 leafDigest.toNat)) := by
  have htext : (hexText leafDigest).toList = hexDigits 64 leafDigest.toNat := String.toList_ofList
  simp only [normalizeValue, isIntegerText, htext]
  decide

theorem normalizeValue_root : normalizeValue (.text sealMerkleRoot) = some (.str sealMerkleRoot.toList) := by
  decide

/-- The members that are chained for the first leaf of a session. -/
def firstMembers (sessionId : String) : List (String × Leaf) :=
  [("leaf_hash", .str (hexDigits 64 leafDigest.toNat)), ("leaf_index", numberLeaf (.ofInteger 0)),
    ("mmr_position", numberLeaf (.ofInteger 0)), ("seal_merkle_root", .str sealMerkleRoot.toList),
    ("session_id", .str sessionId.toList)]

theorem serializeRecord_first {sessionId : String}
    (h : normalizeValue (.text sessionId) = some (.str sessionId.toList)) :
    serializeRecord "conversation_proof_leaves" (leafRecord firstLeaf sessionId) =
      some (renderObject (firstMembers sessionId)) := by
  have hhash : (leafRecord firstLeaf sessionId).columns.get "leaf_hash" = some (.text (hexText leafDigest)) := rfl
  have hindex : (leafRecord firstLeaf sessionId).columns.get "leaf_index" = some (.number (.ofInteger 0)) := rfl
  have hposition : (leafRecord firstLeaf sessionId).columns.get "mmr_position" = some (.number (.ofInteger 0)) :=
    rfl
  have hroot : (leafRecord firstLeaf sessionId).columns.get "seal_merkle_root" = some (.text sealMerkleRoot) := rfl
  have hsession : (leafRecord firstLeaf sessionId).columns.get "session_id" = some (.text sessionId) := rfl
  rw [serializeRecord, chainedKeys_first]
  simp only [chainedMembers, hhash, hindex, hposition, hroot, hsession, Option.bind_some, normalizeValue_leafHash,
    normalizeValue_root, h, Option.map_some]
  rfl

theorem chainText_first (sessionId : String) (h : sessionId.toList.flatMap escapeChar = sessionId.toList) :
    chainText (renderObject (firstMembers sessionId)) (hexText HashChain.Sample.genesisDigest) =
      leafText sessionId := by
  have hhash : (hexDigits 64 leafDigest.toNat).flatMap escapeChar = hexDigits 64 leafDigest.toNat := by
    decide
  have hroot : sealMerkleRoot.toList.flatMap escapeChar = sealMerkleRoot.toList := by decide
  have hopening : "\x7b\"leaf_hash\":\"".toList = '\x7b' :: (quoted "leaf_hash" ++ [':', quote]) := by
    decide
  have hnumbers : "\",\"leaf_index\":0,\"mmr_position\":0,\"seal_merkle_root\":\"".toList =
      quote :: ',' :: (quoted "leaf_index" ++ ':' :: (renderLeaf (numberLeaf (.ofInteger 0)) ++
        ',' :: (quoted "mmr_position" ++ ':' :: (renderLeaf (numberLeaf (.ofInteger 0)) ++
          ',' :: (quoted "seal_merkle_root" ++ [':', quote]))))) := by decide +kernel
  have hsession : "\",\"session_id\":\"".toList = quote :: ',' :: (quoted "session_id" ++ [':', quote]) := by
    decide
  have hclosing : "\"\x7d".toList = [quote, '\x7d'] := by decide
  have htext : (hexText leafDigest).toList = hexDigits 64 leafDigest.toNat := String.toList_ofList
  rw [leafText, hopening, hnumbers, hsession, hclosing, htext]
  have hstr : ∀ s, renderLeaf (.str s) = quotedText s := fun _ => rfl
  simp only [FlatJson.renderObject, firstMembers, FlatJson.renderMembers, hstr, quotedText_plain hhash,
    quotedText_plain hroot, quotedText_plain h, List.append_assoc, List.cons_append, List.nil_append]

theorem leafText_inj {u v : String} (h : leafText u = leafText v) : u = v := by
  have hlists := String.ofList_injective h
  have hcut := List.append_cancel_left (List.append_cancel_left (List.append_cancel_left
    (List.append_cancel_left (List.append_cancel_left (List.append_cancel_right hlists)))))
  exact String.toList_injective (List.append_cancel_right hcut)

theorem hex_leafText_inj
    (h : sha.hex (leafText "5f0c9a52-6b1e-4d36-9a6f-2f1f3f5f9a01") =
      sha.hex (leafText "5f0c9a526b1e4d369a6f2f1f3f5f9a01")) :
    leafText "5f0c9a52-6b1e-4d36-9a6f-2f1f3f5f9a01" = leafText "5f0c9a526b1e4d369a6f2f1f3f5f9a01" :=
  HexSha256.ofTable_injOn (by decide) (by simp) (by simp) h

end SessionSample

open SessionSample in
/-- Two sessions are sealed; the second leaf makes the first node. -/
theorem proof_chains_accepted_dashed :
    ((logRun sha twoSeals).leaves.length = 2 ∧ (logRun sha twoSeals).nodes.length = 1) ∧
      Verifies (verifyLeavesChain sha driver (logRun sha twoSeals)) ∧
      Verifies (verifyNodesChain sha driver (logRun sha twoSeals)) := by
  refine ⟨by decide +kernel, proof_chains_accepted sha driver _ fun c hc => ?_⟩
  rcases List.mem_cons.1 hc with h | h
  · obtain rfl := LogEvent.appendSeal.inj h
    exact passedCanonical_of (by decide)
  · obtain rfl := LogEvent.appendSeal.inj (List.mem_singleton.1 h)
    exact passedCanonical_of (by decide)

open SessionSample in
/-- The leaf of an undashed session id is hashed without dashes and read back with them. -/
theorem leaves_chain_broken_undashed :
    uuidIn "5f0c9a526b1e4d369a6f2f1f3f5f9a01" = some "5f0c9a52-6b1e-4d36-9a6f-2f1f3f5f9a01" ∧
      (logRun sha [.appendSeal (call "5f0c9a526b1e4d369a6f2f1f3f5f9a01")]).leaves.length = 1 ∧
      ¬ Verifies (verifyLeavesChain sha driver
        (logRun sha [.appendSeal (call "5f0c9a526b1e4d369a6f2f1f3f5f9a01")])) := by
  have hone : (logRun sha [.appendSeal (call "5f0c9a526b1e4d369a6f2f1f3f5f9a01")]).leaves.length = 1 := by
    decide +kernel
  have hin : uuidIn "5f0c9a526b1e4d369a6f2f1f3f5f9a01" = some "5f0c9a52-6b1e-4d36-9a6f-2f1f3f5f9a01" := by decide
  refine ⟨hin, hone, fun hverifies => ?_⟩
  cases happend : appendSeal sha (call "5f0c9a526b1e4d369a6f2f1f3f5f9a01") Tables.empty with
  | none =>
    rw [logRun, List.foldl_cons, List.foldl_nil, logStep, happend] at hone
    cases hone
  | some result =>
    obtain ⟨r, t'⟩ := result
    obtain ⟨leaf, rows, serialized, between, hleaf, -, hsession, hs, hhash, -, hbetween, rfl⟩ :=
      appendSeal_some happend
    rw [leaves_verify_iff, LeavesLinked, logRun, List.foldl_cons, List.foldl_nil, logStep, happend, Option.map_some,
      Option.getD_some, hbetween] at hverifies
    obtain ⟨text, htext, hchain, -⟩ := hverifies
    -- the leaf is hashed with the id as it was passed, and read back with the id of its column
    rw [serializeRecord_leafRow, hleaf, ← Option.some.inj (hin.symm.trans hsession)] at htext
    have hdashed := serializeRecord_first
      (show normalizeValue (.text "5f0c9a52-6b1e-4d36-9a6f-2f1f3f5f9a01") = _ by decide)
    have hundashed := serializeRecord_first
      (show normalizeValue (.text "5f0c9a526b1e4d369a6f2f1f3f5f9a01") = _ by decide)
    have hpassed : ∀ u, (call u).sessionId = u := fun _ => rfl
    rw [newLeaf_call] at htext
    rw [hleaf, newLeaf_call, hpassed] at hs
    obtain rfl := Option.some.inj (hdashed.symm.trans htext)
    obtain rfl := Option.some.inj (hundashed.symm.trans hs)
    have hsame : sha.hex (leafText "5f0c9a52-6b1e-4d36-9a6f-2f1f3f5f9a01") =
        sha.hex (leafText "5f0c9a526b1e4d369a6f2f1f3f5f9a01") := by
      have hwritten : leaf.chainHash =
          computeChainHash sha (renderObject (firstMembers "5f0c9a52-6b1e-4d36-9a6f-2f1f3f5f9a01"))
            (sha.hex genesisText) := ColumnValue.text.inj (Option.some.inj hchain)
      have hplain := chainText_first "5f0c9a52-6b1e-4d36-9a6f-2f1f3f5f9a01" (by decide)
      have hplain' := chainText_first "5f0c9a526b1e4d369a6f2f1f3f5f9a01" (by decide)
      have hfirst : previousChainHash sha (Tables.empty.leaves.map ProofLeafRow.chainHash) =
          sha.hex genesisText := rfl
      rw [hwritten, hfirst, computeChainHash, computeChainHash, hex_genesis, hplain, hplain'] at hhash
      exact hhash
    exact absurd (leafText_inj (hex_leafText_inj hsame)) (by decide)

end Cello.Directory.MmrStore
