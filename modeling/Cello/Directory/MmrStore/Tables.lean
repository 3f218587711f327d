import Cello.Directory.ChainStore.Writers
import Cello.Directory.Mmr.Soundness

/-!
# The tables of the mountain range and its checkpoints

`packages/directory/src/mmr-store.ts` keeps the range in five tables: the leaves and the internal
nodes, each under a hash chain, the staging rows of the seals that wait for a checkpoint, the
checkpoints, and the rows that link a leaf to its checkpoint.  A transaction takes the tables to the
tables it leaves behind, or fails and leaves them as they were.

A list holds a table's rows in the order of their insertion, which is the order of their ids: every
writer of leaves and nodes holds the lock `mmr_append`.
-/

namespace Cello.Directory.MmrStore

open Lib HashChain FlatJson ChainStore Mmr

/-! ### Rows -/

/-- A time, as a `TIMESTAMPTZ` column holds it. -/
def Instant := {t : ℤ // IsoDate.InRange t}

deriving instance DecidableEq for Instant

/-- `toIsoString`. -/
def toIsoString (t : Instant) : String := String.ofList (IsoDate.isoText t.1)

/-- A text as a `TEXT` column takes it. -/
def textIn (s : String) : Option String := if '\x00' ∈ s.toList then none else some s

/-- A row of `conversation_proof_leaves`. -/
structure ProofLeafRow where
  id : ℕ
  leafIndex : ℕ
  mmrPosition : ℤ
  sealMerkleRoot : String
  leafHash : String
  sessionId : String
  recordedAt : Instant
  chainHash : String
deriving DecidableEq

/-- A row of `conversation_proof_mmr_nodes`. -/
structure ProofNodeRow where
  id : ℕ
  mmrPosition : ℤ
  hash : String
  height : ℕ
  chainHash : String
deriving DecidableEq

/-- A row of `conversation_seal_staging`. -/
structure StagingRow where
  id : ℕ
  sessionId : String
  sealMerkleRoot : String
  recordedAt : Instant
  checkpointId : Option String
  correlationId : Option String
deriving DecidableEq

/-- What a writer of `directory_checkpoints` chains and inserts, with the checkpoint's id as it is
given: `confirmCheckpoint` leaves the columns of the cross-signed checkpoint at their defaults. -/
inductive CheckpointRecord where
  | confirmed (checkpointId : String) (mmrLeafCount : ℕ) (peakHash : String) (stagedSealCount : ℕ)
  | crossSigned (checkpointId : String) (mmrLeafCount : ℕ) (mmrPeaks : List String)
      (identityMerkleRoot checkpointHash coordinatorNodeId : String)
deriving DecidableEq

namespace CheckpointRecord

def mmrLeafCount : CheckpointRecord → ℕ
  | confirmed _ n _ _ => n
  | crossSigned _ n _ _ _ _ => n

def peakHash : CheckpointRecord → String
  | confirmed _ _ hash _ => hash
  | crossSigned _ _ _ _ hash _ => hash

def mmrPeaks : CheckpointRecord → List String
  | confirmed .. => []
  | crossSigned _ _ peaks _ _ _ => peaks

def identityMerkleRoot : CheckpointRecord → String
  | confirmed .. => ""
  | crossSigned _ _ _ root _ _ => root

end CheckpointRecord

/-- A row of `directory_checkpoints`. -/
structure CheckpointRow where
  id : ℕ
  checkpointId : String
  record : CheckpointRecord
  chainHash : String
deriving DecidableEq

/-- A row of `conversation_proof_leaf_checkpoints`. -/
structure LeafCheckpointRow where
  leafId : ℕ
  checkpointId : String
deriving DecidableEq

/-- The tables, and the sequences that the ids of their rows come from. -/
structure Tables where
  leaves : List ProofLeafRow
  nodes : List ProofNodeRow
  staging : List StagingRow
  checkpoints : List CheckpointRow
  leafCheckpoints : List LeafCheckpointRow
  leafSequence : ℕ
  nodeSequence : ℕ
  stagingSequence : ℕ
  checkpointSequence : ℕ
deriving DecidableEq

/-- The tables of a new database. -/
def Tables.empty : Tables where
  leaves := []
  nodes := []
  staging := []
  checkpoints := []
  leafCheckpoints := []
  leafSequence := 0
  nodeSequence := 0
  stagingSequence := 0
  checkpointSequence := 0

/-! ### The records that are chained -/

def leafRecord (leaf : MmrLeaf) (sessionId : String) : Row := object
  [("leaf_index", .number (.ofInteger leaf.leafIndex)),
    ("mmr_position", .number (.ofInteger leaf.mmrPosition)),
    ("seal_merkle_root", .text leaf.sealMerkleRoot),
    ("leaf_hash", .text leaf.leafHash),
    ("session_id", .text sessionId),
    ("recorded_at", .text leaf.recordedAt)]

def nodeRecord (node : MmrNode) : Row := object
  [("mmr_position", .number (.ofInteger node.mmrPosition)),
    ("hash", .text node.hash),
    ("height", .number (.ofInteger node.height))]

def arrayText (items : List String) : List Char :=
  '[' :: (([',']).intercalate (items.map Json.quoted) ++ [']'])

def objectText (members : List (String × List Char)) : List Char :=
  '\x7b' :: (([',']).intercalate (members.map fun m => Json.quoted m.1 ++ ':' :: m.2) ++ ['\x7d'])

/-- `serializeRecord`, of a record whose member at `arrayKey` is an array of texts. -/
def serializeWithArray (tableName : String) (record : Row) (arrayKey : String)
    (items : List String) : Option (List Char) :=
  ((chainedKeys tableName record).mapM fun k =>
    if k = arrayKey then some (k, arrayText items)
    else ((record.columns.get k).bind normalizeValue).map fun leaf => (k, renderLeaf leaf)).map
      objectText

/-- `serializeRecord(record, "directory_checkpoints")`. -/
def CheckpointRecord.serialize : CheckpointRecord → Option (List Char)
  | .confirmed checkpointId mmrLeafCount peakHash stagedSealCount =>
    serializeRecord "directory_checkpoints" (object
      [("checkpoint_id", .text checkpointId),
        ("mmr_leaf_count", .number (.ofInteger mmrLeafCount)),
        ("peak_hash", .text peakHash),
        ("staged_seal_count", .number (.ofInteger stagedSealCount))])
  | .crossSigned checkpointId mmrLeafCount mmrPeaks identityMerkleRoot checkpointHash
      coordinatorNodeId =>
    serializeWithArray "directory_checkpoints" (object
      [("checkpoint_id", .text checkpointId),
        ("mmr_leaf_count", .number (.ofInteger mmrLeafCount)),
        ("peak_hash", .text checkpointHash),
        ("staged_seal_count", .number (.ofInteger 0)),
        ("mmr_peaks", .null),
        ("identity_merkle_root", .text identityMerkleRoot),
        ("checkpoint_hash", .text checkpointHash),
        ("coordinator_node_id", .text coordinatorNodeId)]) "mmr_peaks" mmrPeaks

/-! ### `appendSeal` -/

/-- The last of the chain's hashes, `CHAIN_GENESIS` where there is no row. -/
def previousChainHash (sha : Sha256) (hashes : List String) : String :=
  hashes.getLast?.getD (sha.hex genesisText)

/-- `#fetchCurrentPeaks`. -/
def fetchCurrentPeaks (sha : Sha256) (leaves : List ProofLeafRow) : List MmrPeak :=
  leaves.foldl (fun peaks leaf => (appendLeafToMmr sha leaf.leafIndex leaf.sealMerkleRoot
    (toIsoString leaf.recordedAt) peaks).newPeaks) []

/-- One round of the loop over the new nodes; `mmr_position` is unique. -/
def insertNode (sha : Sha256) (t : Tables) (node : MmrNode) : Option Tables :=
  (serializeRecord "conversation_proof_mmr_nodes" (nodeRecord node)).bind fun serialized =>
    let chainHash := computeChainHash sha serialized
      (previousChainHash sha (t.nodes.map ProofNodeRow.chainHash))
    if node.mmrPosition ∈ t.nodes.map ProofNodeRow.mmrPosition then none
    else
      some { t with
        nodes := t.nodes ++
          [{ id := t.nodeSequence + 1
             mmrPosition := node.mmrPosition
             hash := node.hash
             height := node.height
             chainHash := chainHash }]
        nodeSequence := t.nodeSequence + 1 }

/-- `INSERT INTO conversation_seal_staging … ON CONFLICT (session_id) DO NOTHING`. -/
def insertStaging (t : Tables) (row : ℕ → StagingRow) : Tables :=
  { t with
    staging :=
      if (row (t.stagingSequence + 1)).sessionId ∈ t.staging.map StagingRow.sessionId then t.staging
      else t.staging ++ [row (t.stagingSequence + 1)]
    stagingSequence := t.stagingSequence + 1 }

/-- The arguments of `appendSeal`, and the time it reads. -/
structure AppendSeal where
  sessionId : String
  sealMerkleRoot : String
  correlationId : String
  now : Instant
deriving DecidableEq

/-- What `appendSeal` returns. -/
structure AppendSealResult where
  leafIndex : ℕ
  leafHash : String
deriving DecidableEq

/-- The transaction of `appendSeal`, under the lock `mmr_append`; `none` where it rolls back. -/
def appendSeal (sha : Sha256) (call : AppendSeal) (t : Tables) :
    Option (AppendSealResult × Tables) :=
  let leafIndex := t.leaves.length
  let currentPeaks := fetchCurrentPeaks sha t.leaves
  let result :=
    appendLeafToMmr sha leafIndex call.sealMerkleRoot (toIsoString call.now) currentPeaks
  (serializeRecord "conversation_proof_leaves" (leafRecord result.newLeaf call.sessionId)).bind
    fun serialized =>
  (textIn call.sealMerkleRoot).bind fun sealMerkleRoot =>
  (uuidIn call.sessionId).bind fun sessionId =>
  (textIn call.correlationId).bind fun correlationId =>
    let leaf : ProofLeafRow :=
      { id := t.leafSequence + 1
        leafIndex := result.newLeaf.leafIndex
        mmrPosition := result.newLeaf.mmrPosition
        sealMerkleRoot := sealMerkleRoot
        leafHash := result.newLeaf.leafHash
        sessionId := sessionId
        recordedAt := call.now
        chainHash := computeChainHash sha serialized
          (previousChainHash sha (t.leaves.map ProofLeafRow.chainHash)) }
    if leaf.leafIndex ∈ t.leaves.map ProofLeafRow.leafIndex then none
    else
      (result.newNodes.foldlM (insertNode sha)
        { t with leaves := t.leaves ++ [leaf], leafSequence := t.leafSequence + 1 }).map fun t =>
        ({ leafIndex := leafIndex, leafHash := result.newLeaf.leafHash },
          insertStaging t fun id =>
            { id := id
              sessionId := sessionId
              sealMerkleRoot := sealMerkleRoot
              recordedAt := call.now
              checkpointId := none
              correlationId := some correlationId })

/-! ### `initiateCheckpoint` and `confirmCheckpoint` -/

/-- The transaction of `initiateCheckpoint`, for the id it drew. -/
def initiateCheckpoint (checkpointId : String) (t : Tables) : Tables :=
  { t with
    staging := t.staging.map fun row =>
      if row.checkpointId = none then { row with checkpointId := some checkpointId } else row }

/-- `SELECT peak_hash FROM directory_checkpoints WHERE checkpoint_id = $1`. -/
def existingPeakHash (checkpointId : String) (t : Tables) : Option String :=
  (t.checkpoints.find? fun row => decide (row.checkpointId = checkpointId)).map fun row =>
    row.record.peakHash

/-- The staging rows with this `checkpoint_id`. -/
def stagedFor (checkpointId : String) (t : Tables) : List StagingRow :=
  t.staging.filter fun row => decide (row.checkpointId = some checkpointId)

/-- `INSERT INTO directory_checkpoints … ON CONFLICT (checkpoint_id) DO NOTHING`. -/
def insertCheckpoint (checkpointId : String) (record : CheckpointRecord) (chainHash : String)
    (t : Tables) : Tables :=
  { t with
    checkpoints :=
      if checkpointId ∈ t.checkpoints.map CheckpointRow.checkpointId then t.checkpoints
      else t.checkpoints ++ [⟨t.checkpointSequence + 1, checkpointId, record, chainHash⟩]
    checkpointSequence := t.checkpointSequence + 1 }

/-- `INSERT INTO conversation_proof_leaf_checkpoints … ON CONFLICT (leaf_id) DO NOTHING`, for the
leaves of these sessions. -/
def linkLeaves (checkpointId : String) (sessionIds : List String) (t : Tables) : Tables :=
  { t with
    leafCheckpoints := t.leafCheckpoints ++
      ((t.leaves.filter fun leaf => decide (leaf.sessionId ∈ sessionIds)).filter fun leaf =>
        decide (leaf.id ∉ t.leafCheckpoints.map LeafCheckpointRow.leafId)).map fun leaf =>
          ⟨leaf.id, checkpointId⟩ }

/-- `DELETE FROM conversation_seal_staging WHERE checkpoint_id = $1`. -/
def deleteStaged (checkpointId : String) (t : Tables) : Tables :=
  { t with staging := t.staging.filter fun row => !decide (row.checkpointId = some checkpointId) }

/-- The transaction of `confirmCheckpoint`, under the lock `mmr_append`: the peak hash it returns;
`none` where it rolls back. -/
def confirmCheckpoint (sha : Sha256) (given : String) (t : Tables) : Option (String × Tables) :=
  (uuidIn given).bind fun checkpointId =>
    let staged := stagedFor checkpointId t
    let peakHash := computePeakHash sha (fetchCurrentPeaks sha t.leaves)
    let record := CheckpointRecord.confirmed given t.leaves.length peakHash staged.length
    record.serialize.map fun serialized =>
      let chainHash := computeChainHash sha serialized
        (previousChainHash sha (t.checkpoints.map CheckpointRow.chainHash))
      (peakHash, deleteStaged checkpointId
        (linkLeaves checkpointId (staged.map StagingRow.sessionId)
          (insertCheckpoint checkpointId record chainHash t)))

/-- `detectIncompleteCheckpoints`: the ids of staging rows without a checkpoint row. -/
def detectIncompleteCheckpoints (t : Tables) : List String :=
  ((t.staging.filterMap StagingRow.checkpointId).filter fun checkpointId =>
    decide (checkpointId ∉ t.checkpoints.map CheckpointRow.checkpointId)).dedup

/-! ### `getSealStagingStatus` -/

/-- The checkpoints that a session's leaves are linked to. -/
def confirmedCheckpoints (sessionId : String) (t : Tables) :
    List (ProofLeafRow × CheckpointRow) :=
  (t.leaves.filter fun leaf => decide (leaf.sessionId = sessionId)).flatMap fun leaf =>
    (t.leafCheckpoints.filter fun link => decide (link.leafId = leaf.id)).flatMap fun link =>
      (t.checkpoints.filter fun row => decide (row.checkpointId = link.checkpointId)).map fun row =>
        (leaf, row)

inductive SealStagingStatus where
  | pending (stagedAt : Instant)
  | confirmed (leafIndex : ℕ) (checkpointPeakHash checkpointId : String)
  | notStaged
deriving DecidableEq

/-- `getSealStagingStatus`, without the sibling hashes of the proof; `none` where the id is no UUID. -/
def getSealStagingStatus (given : String) (t : Tables) : Option SealStagingStatus :=
  (uuidIn given).map fun sessionId =>
    match confirmedCheckpoints sessionId t with
    | (leaf, row) :: _ => .confirmed leaf.leafIndex row.record.peakHash row.checkpointId
    | [] =>
      match t.staging.find? fun row => decide (row.sessionId = sessionId) with
      | some row => .pending row.recordedAt
      | none => .notStaged

/-! ### What a transaction leaves behind -/

/-- The leaf that a row holds. -/
def ProofLeafRow.toMmrLeaf (row : ProofLeafRow) : MmrLeaf where
  leafIndex := row.leafIndex
  mmrPosition := row.mmrPosition
  leafHash := row.leafHash
  sealMerkleRoot := row.sealMerkleRoot
  recordedAt := toIsoString row.recordedAt

def ProofNodeRow.toMmrNode (row : ProofNodeRow) : MmrNode where
  mmrPosition := row.mmrPosition
  hash := row.hash
  height := row.height

section Spec

variable {sha : Sha256} {call : AppendSeal} {t t' : Tables} {r : AppendSealResult}

theorem insertNode_some {node : MmrNode} (h : insertNode sha t node = some t') :
    ∃ row serialized, row.toMmrNode = node ∧ row.id = t.nodeSequence + 1 ∧
      serializeRecord "conversation_proof_mmr_nodes" (nodeRecord node) = some serialized ∧
      row.chainHash = computeChainHash sha serialized
        (previousChainHash sha (t.nodes.map ProofNodeRow.chainHash)) ∧
      t' = { t with nodes := t.nodes ++ [row], nodeSequence := t.nodeSequence + 1 } := by
  obtain ⟨serialized, hs, h⟩ := Option.bind_eq_some_iff.1 h
  obtain ⟨-, h⟩ := Option.ite_none_left_eq_some.1 h
  obtain rfl := Option.some.inj h
  exact ⟨_, serialized, rfl, rfl, hs, rfl, rfl⟩

theorem insertNodes_some {nodes : List MmrNode} (h : nodes.foldlM (insertNode sha) t = some t') :
    ∃ rows, rows.map ProofNodeRow.toMmrNode = nodes ∧
      t' = { t with nodes := t.nodes ++ rows, nodeSequence := t.nodeSequence + nodes.length } := by
  induction nodes generalizing t with
  | nil =>
    obtain rfl := Option.some.inj h
    exact ⟨[], rfl, by simp⟩
  | cons node nodes ih =>
    obtain ⟨next, hnext, h⟩ := Option.bind_eq_some_iff.1 h
    obtain ⟨row, -, hrow, -, -, -, rfl⟩ := insertNode_some hnext
    obtain ⟨rows, hrows, rfl⟩ := ih h
    refine ⟨row :: rows, by rw [List.map_cons, hrow, hrows], ?_⟩
    simp only [List.append_assoc, List.singleton_append, List.length_cons]
    congr 1
    omega

/-- **What `appendSeal` does** when it commits: a leaf with the number of leaves as its index, under
the hash of its record as it was given, the nodes it completes, and a staging row for its session. -/
theorem appendSeal_some (h : appendSeal sha call t = some (r, t')) :
    ∃ leaf rows serialized between,
      leaf.toMmrLeaf = (appendLeafToMmr sha t.leaves.length call.sealMerkleRoot
        (toIsoString call.now) (fetchCurrentPeaks sha t.leaves)).newLeaf ∧
      leaf.id = t.leafSequence + 1 ∧
      uuidIn call.sessionId = some leaf.sessionId ∧
      serializeRecord "conversation_proof_leaves" (leafRecord leaf.toMmrLeaf call.sessionId) =
        some serialized ∧
      leaf.chainHash = computeChainHash sha serialized
        (previousChainHash sha (t.leaves.map ProofLeafRow.chainHash)) ∧
      (appendLeafToMmr sha t.leaves.length call.sealMerkleRoot (toIsoString call.now)
        (fetchCurrentPeaks sha t.leaves)).newNodes.foldlM (insertNode sha)
          { t with leaves := t.leaves ++ [leaf], leafSequence := t.leafSequence + 1 } =
        some between ∧
      between = { t with
        leaves := t.leaves ++ [leaf]
        leafSequence := t.leafSequence + 1
        nodes := t.nodes ++ rows
        nodeSequence := between.nodeSequence } ∧
      t' = insertStaging between fun id =>
        { id := id
          sessionId := leaf.sessionId
          sealMerkleRoot := call.sealMerkleRoot
          recordedAt := call.now
          checkpointId := none
          correlationId := some call.correlationId } := by
  unfold appendSeal at h
  obtain ⟨serialized, hs, h⟩ := Option.bind_eq_some_iff.1 h
  obtain ⟨root, hroot, h⟩ := Option.bind_eq_some_iff.1 h
  obtain ⟨sessionId, hsession, h⟩ := Option.bind_eq_some_iff.1 h
  obtain ⟨correlationId, hcorrelation, h⟩ := Option.bind_eq_some_iff.1 h
  obtain ⟨-, h⟩ := Option.ite_none_left_eq_some.1 h
  obtain ⟨between, hbetween, h⟩ := Option.map_eq_some_iff.1 h
  obtain ⟨-, hroot⟩ := Option.ite_none_left_eq_some.1 hroot
  obtain ⟨-, hcorrelation⟩ := Option.ite_none_left_eq_some.1 hcorrelation
  obtain rfl := Option.some.inj hroot
  obtain rfl := Option.some.inj hcorrelation
  obtain ⟨rows, -, hrows⟩ := insertNodes_some hbetween
  refine ⟨_, rows, serialized, between, ?_, rfl, hsession, ?_, rfl, hbetween, ?_,
    (Prod.mk.inj h).2.symm⟩
  · rfl
  · exact hs
  · rw [hrows]

end Spec

end Cello.Directory.MmrStore
