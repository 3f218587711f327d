import Cello.Directory.MmrStore.Tables

/-!
# The two checkpoint writers on one store

Seals are staged by `appendSeal`, and two writers take them from the staging table.  `MmrStore`
stamps the rows (`initiateCheckpoint`), and its `confirmCheckpoint` writes the checkpoint, links the
leaves and deletes the rows in one transaction.  `CheckpointCoordinator` reads the rows, reads the
state of the range from the last checkpoint and from the leaves, collects signatures, and then
writes the checkpoint, the signatures and the deletion one after the other.

Any number of calls and rounds of either kind run at once.  A transaction is one step; between two
of them anything may happen, and a call or a round may be lost in a crash.
-/

namespace Cello.Directory.Checkpoint

open Lib HashChain ChainStore Mmr MmrStore

/-! ### What the coordinator reads and deletes -/

/-- A row of a batch. -/
structure SealBatchRow where
  stagingId : ℕ
  conversationId : String
  recordedAt : Instant
deriving DecidableEq

/-- By `recorded_at`, then by the conversation's id. -/
def SealBatchRow.le (a b : SealBatchRow) : Prop :=
  a.recordedAt.1 < b.recordedAt.1 ∨
    (a.recordedAt.1 = b.recordedAt.1 ∧ Text.unitLe a.conversationId b.conversationId = true)

instance : DecidableRel SealBatchRow.le := fun a b => by
  unfold SealBatchRow.le
  infer_instance

def sortSealBatch (batch : List SealBatchRow) : List SealBatchRow :=
  batch.insertionSort SealBatchRow.le

def sessionLinked (sessionId : String) (t : Tables) : Bool :=
  t.leaves.any fun leaf => decide (leaf.sessionId = sessionId) &&
    decide (leaf.id ∈ t.leafCheckpoints.map LeafCheckpointRow.leafId)

def getStagingRowsForBatch (t : Tables) : List SealBatchRow :=
  sortSealBatch ((t.staging.filter fun row =>
    decide (row.checkpointId = none) && !sessionLinked row.sessionId t).map fun row =>
      ⟨row.id, row.sessionId, row.recordedAt⟩)

/-- The two columns of the last checkpoint that `getCheckpointMmrState` reads. -/
def lastCheckpointState (t : Tables) : List String × String :=
  match t.checkpoints.getLast? with
  | some row => (row.record.mmrPeaks, row.record.identityMerkleRoot)
  | none => ([], String.ofList (List.replicate 64 '0'))

def clearStagingBatch (stagingIds : List ℕ) (t : Tables) : Tables :=
  { t with staging := t.staging.filter fun row => !decide (row.id ∈ stagingIds) }

/-! ### A proposal and its signatures -/

/-- What the round takes from the crypto package, with the keys it signs with. -/
structure CheckpointCrypto where
  computeCheckpointHash : List String → String → String → String
  buildCheckpointTbs : List String → String → String → Bytes
  sign : String → Bytes → Bytes
  verify : Bytes → Bytes → Bytes → Bool

/-- What a round has decided before it writes: the leaves there were when it counted them stand for
`mmrLeafCount`. -/
structure Proposal where
  nodeId : String
  checkpointId : String
  checkpointHash : String
  mmrPeaks : List String
  identityMerkleRoot : String
  counted : List ProofLeafRow
  stagingIds : List ℕ
deriving DecidableEq

def Proposal.mmrLeafCount (p : Proposal) : ℕ := p.counted.length

/-- The record that `writeCheckpoint` chains. -/
def Proposal.record (p : Proposal) : CheckpointRecord :=
  .crossSigned p.checkpointId p.mmrLeafCount p.mmrPeaks p.identityMerkleRoot p.checkpointHash p.nodeId

/-- `writeCheckpoint`; `none` where it rolls back. -/
def writeCheckpoint (sha : Sha256) (p : Proposal) (t : Tables) : Option Tables :=
  (uuidIn p.checkpointId).bind fun checkpointId =>
    p.record.serialize.map fun serialized =>
      insertCheckpoint checkpointId p.record (computeChainHash sha serialized
        (previousChainHash sha (t.checkpoints.map CheckpointRow.chainHash))) t

/-- An answer of a peer. -/
structure CheckpointSignatureResponse where
  nodeId : String
  signature : String
  publicKeyHex : Option String

structure NodeSignature where
  nodeId : String
  signature : String
deriving DecidableEq

/-- What is left of a peer's answer: it names the peer, comes for the first time and is signed. -/
def acceptResponse (crypto : CheckpointCrypto) (p : Proposal) (collected : List NodeSignature)
    (peerNodeId : String) (response : CheckpointSignatureResponse) : List NodeSignature :=
  if response.nodeId ≠ peerNodeId then collected
  else if response.nodeId ∈ collected.map NodeSignature.nodeId then collected
  else
    match response.publicKeyHex with
    | none => collected
    | some publicKeyHex =>
      if publicKeyHex = "" then collected
      else if crypto.verify (bufferFromHex publicKeyHex)
          (crypto.buildCheckpointTbs p.mmrPeaks p.identityMerkleRoot p.checkpointId)
          (bufferFromHex response.signature) then
        collected ++ [⟨response.nodeId, response.signature⟩]
      else collected

def collectSignatures (crypto : CheckpointCrypto) (p : Proposal)
    (responses : List (String × CheckpointSignatureResponse)) : List NodeSignature :=
  responses.foldl (fun collected r => acceptResponse crypto p collected r.1 r.2)
    [⟨p.nodeId, (crypto.sign p.nodeId
      (crypto.buildCheckpointTbs p.mmrPeaks p.identityMerkleRoot p.checkpointId)).toHex⟩]

/-! ### The system -/

/-- Where a round of a coordinator is. -/
inductive Round where
  | reading (nodeId : String) (stagingIds : List ℕ) (last : Option (List String × String))
      (counted : Option (List ProofLeafRow))
  | signed (p : Proposal) (signatures : List NodeSignature)
  | written (p : Proposal) (signatures : List NodeSignature)

/-- The store, the calls of `confirmCheckpoint` that wait for the lock, the rounds, and what the
rounds have written and deleted so far. -/
structure System where
  tables : Tables
  confirming : ℕ → Option String
  rounds : ℕ → Option Round
  nodeSignatures : List (String × NodeSignature)
  written : List Proposal
  cleared : List (Proposal × StagingRow)

def System.init : System where
  tables := Tables.empty
  confirming _ := none
  rounds _ := none
  nodeSignatures := []
  written := []
  cleared := []

inductive Event where
  | appendSeal (call : AppendSeal)
  | initiateCheckpoint (bits : BitVec 128)
  /-- The read of `confirmCheckpoint` outside its transaction. -/
  | confirmCheckpoint (call : ℕ) (checkpointId : String)
  /-- The same for a checkpoint that `detectIncompleteCheckpoints` reports. -/
  | recover (call : ℕ) (checkpointId : String)
  | confirmTransaction (call : ℕ)
  | confirmLost (call : ℕ)
  | roundBatch (round : ℕ) (nodeId : String)
  | roundPeaks (round : ℕ)
  | roundLeafCount (round : ℕ)
  | roundSignatures (round : ℕ) (bits : BitVec 128)
      (responses : List (String × CheckpointSignatureResponse))
  | roundWrite (round : ℕ)
  | roundSignature (round : ℕ)
  | roundClear (round : ℕ)
  | roundLost (round : ℕ)

/-- The call goes on to its transaction where no row of its id is there. -/
def startConfirm (s : System) (call : ℕ) (given : String) : System :=
  match uuidIn given with
  | none => s
  | some checkpointId =>
    match existingPeakHash checkpointId s.tables with
    | some _ => s
    | none => { s with confirming := Function.update s.confirming call (some given) }

/-- Steps 4 to 9 of a round that has read everything: it goes on with enough signatures. -/
def decideRound (crypto : CheckpointCrypto) (requiredThreshold : ℕ) (bits : BitVec 128)
    (responses : List (String × CheckpointSignatureResponse)) : Round → Option Round
  | .reading nodeId stagingIds (some (mmrPeaks, identityMerkleRoot)) (some counted) =>
    let checkpointId := randomUUID bits
    let p : Proposal :=
      { nodeId := nodeId
        checkpointId := checkpointId
        checkpointHash := crypto.computeCheckpointHash mmrPeaks identityMerkleRoot checkpointId
        mmrPeaks := mmrPeaks
        identityMerkleRoot := identityMerkleRoot
        counted := counted
        stagingIds := stagingIds }
    let signatures := collectSignatures crypto p responses
    if signatures.length < requiredThreshold then none else some (.signed p signatures)
  | round => some round

section Step

variable (sha : Sha256) (crypto : CheckpointCrypto) (requiredThreshold : ℕ)

/-- What happens next. -/
def step (s : System) : Event → System
  | .appendSeal call =>
    match appendSeal sha call s.tables with
    | some (_, tables) => { s with tables := tables }
    | none => s
  | .initiateCheckpoint bits =>
    { s with tables := initiateCheckpoint (randomUUID bits) s.tables }
  | .confirmCheckpoint call given => startConfirm s call given
  | .recover call given =>
    if given ∈ detectIncompleteCheckpoints s.tables then startConfirm s call given else s
  | .confirmTransaction call =>
    match s.confirming call with
    | none => s
    | some given =>
      { s with
        confirming := Function.update s.confirming call none
        tables := ((confirmCheckpoint sha given s.tables).map Prod.snd).getD s.tables }
  | .confirmLost call => { s with confirming := Function.update s.confirming call none }
  | .roundBatch round nodeId =>
    { s with
      rounds := Function.update s.rounds round (some (.reading nodeId
        ((sortSealBatch (getStagingRowsForBatch s.tables)).map SealBatchRow.stagingId) none none)) }
  | .roundPeaks round =>
    match s.rounds round with
    | some (.reading nodeId stagingIds none counted) =>
      { s with
        rounds := Function.update s.rounds round
          (some (.reading nodeId stagingIds (some (lastCheckpointState s.tables)) counted)) }
    | _ => s
  | .roundLeafCount round =>
    match s.rounds round with
    | some (.reading nodeId stagingIds last none) =>
      { s with
        rounds := Function.update s.rounds round
          (some (.reading nodeId stagingIds last (some s.tables.leaves))) }
    | _ => s
  | .roundSignatures round bits responses =>
    { s with
      rounds := Function.update s.rounds round
        ((s.rounds round).bind (decideRound crypto requiredThreshold bits responses)) }
  | .roundWrite round =>
    match s.rounds round with
    | some (.signed p signatures) =>
      match writeCheckpoint sha p s.tables with
      | some tables =>
        { s with
          tables := tables
          rounds := Function.update s.rounds round (some (.written p signatures))
          written := s.written ++ [p] }
      | none => { s with rounds := Function.update s.rounds round none }
    | _ => s
  | .roundSignature round =>
    match s.rounds round with
    | some (.written p (signature :: rest)) =>
      { s with
        nodeSignatures := s.nodeSignatures ++ [(p.checkpointId, signature)]
        rounds := Function.update s.rounds round (some (.written p rest)) }
    | _ => s
  | .roundClear round =>
    match s.rounds round with
    | some (.written p []) =>
      { s with
        tables := clearStagingBatch p.stagingIds s.tables
        rounds := Function.update s.rounds round none
        cleared := s.cleared ++
          (s.tables.staging.filter fun row => decide (row.id ∈ p.stagingIds)).map fun row => (p, row) }
    | _ => s
  | .roundLost round => { s with rounds := Function.update s.rounds round none }

def run (events : List Event) : System :=
  events.foldl (step sha crypto requiredThreshold) System.init

end Step

end Cello.Directory.Checkpoint
