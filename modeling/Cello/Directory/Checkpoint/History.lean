import Cello.Directory.Checkpoint.Pipeline

/-!
# The chain of the checkpoints

`directory_checkpoints` has two writers, and each holds a lock while it reads the last row and
inserts the next one: `confirmCheckpoint` that of the range, `writeCheckpoint` that of the table.  The
locks differ, so a transaction of the one can read the tail while a transaction of the other has read
it and not committed yet, and then both rows extend one predecessor.  `confirmCheckpoint` looks for
the row of its id before it waits for the lock; a second confirm that missed it finds the row under
the lock, keeps it, and returns the peak hash of the leaves of the moment.

Here a transaction is cut where another can come in between, and `history_law` holds in every run
that keeps the two apart (`Orderly`).
-/

namespace Cello.Directory.Checkpoint

open Lib Json FlatJson HashChain ChainStore Mmr MmrStore

/-! ### Transactions -/

/-- The keys of the advisory locks. -/
inductive Lock where
  | mmrAppend
  | directoryCheckpoints
deriving DecidableEq, Repr

def Lock.other : Lock → Lock
  | mmrAppend => directoryCheckpoints
  | directoryCheckpoints => mmrAppend

/-- A call that writes a checkpoint. -/
inductive Writer where
  | confirmCheckpoint (given : String)
  | writeCheckpoint (p : Proposal)
deriving DecidableEq

namespace Writer

def lock : Writer → Lock
  | confirmCheckpoint _ => .mmrAppend
  | writeCheckpoint _ => .directoryCheckpoints

def given : Writer → String
  | confirmCheckpoint given => given
  | writeCheckpoint p => p.checkpointId

def staged (w : Writer) (t : Tables) : List StagingRow :=
  match w with
  | confirmCheckpoint given => ((uuidIn given).map fun checkpointId => stagedFor checkpointId t).getD []
  | writeCheckpoint _ => []

def record (sha : Sha256) (w : Writer) (t : Tables) : CheckpointRecord :=
  match w with
  | confirmCheckpoint given => .confirmed given t.leaves.length
      (computePeakHash sha (fetchCurrentPeaks sha t.leaves)) (w.staged t).length
  | writeCheckpoint p => p.record

end Writer

/-- Where a transaction is: what it has read, and the row that it has inserted unless there was one
of its id. -/
inductive Phase where
  | waiting
  | locked
  | read (record : CheckpointRecord) (staged : List StagingRow) (previous : String)
  | inserted (record : CheckpointRecord) (staged : List StagingRow) (checkpointId : String)
      (row : Option CheckpointRow)
deriving DecidableEq

def Phase.Reading : Phase → Prop
  | waiting => False
  | locked => False
  | read .. => True
  | inserted .. => True

instance : DecidablePred Phase.Reading := fun phase => by
  cases phase <;> unfold Phase.Reading <;> infer_instance

structure Transaction where
  writer : Writer
  phase : Phase
deriving DecidableEq

/-- What is committed, who holds the locks, the transactions, and what calls of `confirmCheckpoint`
have returned for which id. -/
structure Database where
  tables : Tables
  holder : Lock → Option ℕ
  transactions : ℕ → Option Transaction
  returned : List (String × String)

def Database.init : Database where
  tables := Tables.empty
  holder _ := none
  transactions _ := none
  returned := []

def byId (rows : List CheckpointRow) : List CheckpointRow :=
  rows.insertionSort fun a b => a.id ≤ b.id

/-- `SELECT chain_hash FROM directory_checkpoints ORDER BY id DESC LIMIT 1`. -/
def lastChainHash (sha : Sha256) (rows : List CheckpointRow) : String :=
  previousChainHash sha ((byId rows).map CheckpointRow.chainHash)

inductive Action where
  /-- A call of `confirmCheckpoint` and its read outside the transaction. -/
  | confirm (tx : ℕ) (given : String)
  | write (tx : ℕ) (p : Proposal)
  | lock (tx : ℕ)
  | read (tx : ℕ)
  | insert (tx : ℕ)
  | commit (tx : ℕ)
  | rollback (tx : ℕ)
  | appendSeal (call : AppendSeal)
  | initiateCheckpoint (bits : BitVec 128)

section Step

variable (sha : Sha256)

def Database.setTransaction (s : Database) (tx : ℕ) (t : Option Transaction) : Database :=
  { s with transactions := Function.update s.transactions tx t }

/-- The end of a transaction: its lock is free. -/
def Database.release (s : Database) (tx : ℕ) (w : Writer) : Database :=
  { s with
    holder := fun lock => if lock = w.lock ∧ s.holder lock = some tx then none else s.holder lock
    transactions := Function.update s.transactions tx none }

def Database.Blocked (s : Database) (w : Writer) (checkpointId : String) : Prop :=
  ∃ record staged row, ((s.holder w.lock.other).bind s.transactions).map Transaction.phase =
    some (.inserted record staged checkpointId (some row))

instance (s : Database) (w : Writer) (checkpointId : String) :
    Decidable (s.Blocked w checkpointId) := by
  unfold Database.Blocked
  cases ((s.holder w.lock.other).bind s.transactions).map Transaction.phase with
  | none => exact isFalse (by simp)
  | some phase =>
    cases phase with
    | inserted record staged id row =>
      cases row with
      | none => exact isFalse (by simp)
      | some row =>
        exact decidable_of_iff (id = checkpointId) (by simp)
    | waiting => exact isFalse (by simp)
    | locked => exact isFalse (by simp)
    | read record staged previous => exact isFalse (by simp)

/-- `INSERT INTO directory_checkpoints … ON CONFLICT (checkpoint_id) DO NOTHING`, of a transaction that
has read; where the record has no text the call throws. -/
def insertRow (s : Database) (tx : ℕ) (w : Writer) (record : CheckpointRecord)
    (staged : List StagingRow) (previous : String) : Database :=
  match uuidIn w.given, record.serialize with
  | some checkpointId, some serialized =>
    if s.Blocked w checkpointId then s
    else
      let row : CheckpointRow :=
        { id := s.tables.checkpointSequence + 1
          checkpointId := checkpointId
          record := record
          chainHash := computeChainHash sha serialized previous }
      let pending :=
        if checkpointId ∈ s.tables.checkpoints.map CheckpointRow.checkpointId then none else some row
      { s with
        tables := { s.tables with checkpointSequence := s.tables.checkpointSequence + 1 }
        transactions := Function.update s.transactions tx
          (some ⟨w, .inserted record staged checkpointId pending⟩) }
  | _, _ => s.release tx w

/-- `COMMIT`: the row is there, and `confirmCheckpoint` has linked its leaves, deleted its staging
rows, and returns the peak hash that it computed. -/
def commitRow (s : Database) (tx : ℕ) (w : Writer) (record : CheckpointRecord)
    (staged : List StagingRow) (checkpointId : String) (row : Option CheckpointRow) : Database :=
  let tables := { s.tables with checkpoints := s.tables.checkpoints ++ row.toList }
  match w with
  | .confirmCheckpoint _ =>
    { s.release tx w with
      tables := deleteStaged checkpointId
        (linkLeaves checkpointId (staged.map StagingRow.sessionId) tables)
      returned := s.returned ++ [(checkpointId, record.peakHash)] }
  | .writeCheckpoint _ => { s.release tx w with tables := tables }

/-- What happens next. -/
def act (s : Database) : Action → Database
  | .confirm tx given =>
    match uuidIn given, s.transactions tx with
    | some checkpointId, none =>
      match existingPeakHash checkpointId s.tables with
      | some peakHash => { s with returned := s.returned ++ [(checkpointId, peakHash)] }
      | none => s.setTransaction tx (some ⟨.confirmCheckpoint given, .waiting⟩)
    | _, _ => s
  | .write tx p =>
    match s.transactions tx with
    | none => s.setTransaction tx (some ⟨.writeCheckpoint p, .waiting⟩)
    | some _ => s
  | .lock tx =>
    match s.transactions tx with
    | some ⟨w, .waiting⟩ =>
      if s.holder w.lock = none then
        { s.setTransaction tx (some ⟨w, .locked⟩) with
          holder := Function.update s.holder w.lock (some tx) }
      else s
    | _ => s
  | .read tx =>
    match s.transactions tx with
    | some ⟨w, .locked⟩ =>
      s.setTransaction tx (some ⟨w, .read (w.record sha s.tables) (w.staged s.tables)
        (lastChainHash sha s.tables.checkpoints)⟩)
    | _ => s
  | .insert tx =>
    match s.transactions tx with
    | some ⟨w, .read record staged previous⟩ => insertRow sha s tx w record staged previous
    | _ => s
  | .commit tx =>
    match s.transactions tx with
    | some ⟨w, .inserted record staged checkpointId row⟩ =>
      commitRow s tx w record staged checkpointId row
    | _ => s
  | .rollback tx =>
    match s.transactions tx with
    | some t => s.release tx t.writer
    | none => s
  | .appendSeal call =>
    if s.holder .mmrAppend = none then
      { s with tables := ((appendSeal sha call s.tables).map Prod.snd).getD s.tables }
    else s
  | .initiateCheckpoint bits =>
    if s.holder .mmrAppend = none then
      { s with tables := initiateCheckpoint (randomUUID bits) s.tables }
    else s

end Step

/-! ### The law -/

def ChainedFrom (sha : Sha256) : String → List CheckpointRow → Prop
  | _, [] => True
  | previous, row :: rest =>
    (∃ serialized, row.record.serialize = some serialized ∧
      row.chainHash = computeChainHash sha serialized previous) ∧ ChainedFrom sha row.chainHash rest

/-- **The checkpoint history is one chain**, and what a confirm returned is what is stored. -/
structure HistoryLaw (sha : Sha256) (s : Database) : Prop where
  chained : ChainedFrom sha (sha.hex genesisText) (byId s.tables.checkpoints)
  returned : ∀ r ∈ s.returned, existingPeakHash r.1 s.tables = some r.2

/-- The writers keep apart: a transaction reads the tail while no other has read it and goes on, and a
confirm that finds a row of its id finds a confirm's, with no leaf appended since. -/
def Orderly (s : Database) : Action → Prop
  | .read tx => ∀ tx' t, tx' ≠ tx → s.transactions tx' = some t → ¬ t.phase.Reading
  | .insert tx => ∀ given record staged previous,
      s.transactions tx = some ⟨.confirmCheckpoint given, .read record staged previous⟩ →
        ∀ row ∈ s.tables.checkpoints, uuidIn given = some row.checkpointId →
          ∃ given' peakHash stagedSealCount,
            row.record = .confirmed given' s.tables.leaves.length peakHash stagedSealCount
  | _ => True

/-! ### What the rows say -/

def RecordSound (sha : Sha256) (leaves : List ProofLeafRow) : CheckpointRecord → Prop
  | .confirmed _ mmrLeafCount peakHash _ => mmrLeafCount ≤ leaves.length ∧
      peakHash = computePeakHash sha (fetchCurrentPeaks sha (leaves.take mmrLeafCount))
  | .crossSigned .. => True

/-- The committed rows: in the order of their ids, chained, and each confirm's as it was computed. -/
structure RowsSound (sha : Sha256) (t : Tables) : Prop where
  ids : (t.checkpoints.map CheckpointRow.id).Pairwise (· < ·)
  bound : ∀ row ∈ t.checkpoints, row.id ≤ t.checkpointSequence
  chained : ChainedFrom sha (sha.hex genesisText) t.checkpoints
  records : ∀ row ∈ t.checkpoints, RecordSound sha t.leaves row.record

/-- A row that can follow the committed ones. -/
structure Next (sha : Sha256) (t : Tables) (checkpointId : String) (record : CheckpointRecord)
    (row : CheckpointRow) : Prop where
  id_eq : row.checkpointId = checkpointId
  record_eq : row.record = record
  above : ∀ r ∈ t.checkpoints, r.id < row.id
  bound : row.id ≤ t.checkpointSequence
  chained : ∃ serialized, row.record.serialize = some serialized ∧
    row.chainHash = computeChainHash sha serialized (lastChainHash sha t.checkpoints)
  fresh : checkpointId ∉ t.checkpoints.map CheckpointRow.checkpointId

/-- The record that a transaction carries is still that of the leaves, if it holds their lock. -/
structure Current (sha : Sha256) (t : Tables) (w : Writer) (record : CheckpointRecord) : Prop where
  sound : RecordSound sha t.leaves record
  confirm : ∀ given, w = .confirmCheckpoint given → ∃ stagedSealCount,
    record = .confirmed given t.leaves.length
      (computePeakHash sha (fetchCurrentPeaks sha t.leaves)) stagedSealCount

/-- What a transaction knows. -/
def PhaseSound (sha : Sha256) (t : Tables) (w : Writer) : Phase → Prop
  | .waiting => True
  | .locked => True
  | .read record _ previous => Current sha t w record ∧ previous = lastChainHash sha t.checkpoints
  | .inserted record _ checkpointId row =>
    Current sha t w record ∧ (∀ r, row = some r → Next sha t checkpointId record r) ∧
      (row = none → ∀ given, w = .confirmCheckpoint given →
        existingPeakHash checkpointId t = some record.peakHash)

/-- The transactions: who goes on behind a lock holds it, and only one has read the tail. -/
structure TransactionsSound (sha : Sha256) (s : Database) : Prop where
  held : ∀ tx t, s.transactions tx = some t → t.phase ≠ .waiting →
    s.holder t.writer.lock = some tx
  apart : ∀ tx tx' t t', s.transactions tx = some t → s.transactions tx' = some t' →
    t.phase.Reading → t'.phase.Reading → tx = tx'
  phases : ∀ tx t, s.transactions tx = some t → PhaseSound sha s.tables t.writer t.phase

/-- **What holds in every state of an orderly run.** -/
structure HistorySound (sha : Sha256) (s : Database) : Prop where
  rows : RowsSound sha s.tables
  transactions : TransactionsSound sha s
  returned : ∀ r ∈ s.returned, existingPeakHash r.1 s.tables = some r.2

section Rows

variable {sha : Sha256} {t t' : Tables}

theorem RecordSound.mono {leaves leaves' : List ProofLeafRow} {record : CheckpointRecord}
    (h : RecordSound sha leaves record) (hleaves : leaves <+: leaves') :
    RecordSound sha leaves' record := by
  cases record with
  | confirmed given mmrLeafCount peakHash stagedSealCount =>
    obtain ⟨suffix, rfl⟩ := hleaves
    obtain ⟨hle, hhash⟩ := h
    refine ⟨hle.trans (by simp), ?_⟩
    rwa [List.take_append_of_le_length hle]
  | crossSigned => trivial

theorem RowsSound.byId_eq (h : RowsSound sha t) : byId t.checkpoints = t.checkpoints := by
  refine List.Pairwise.insertionSort_eq ?_
  exact (List.pairwise_map.1 h.ids).imp fun hlt => Nat.le_of_lt hlt

theorem chainedFrom_concat {previous : String} {rows : List CheckpointRow} {row : CheckpointRow}
    (h : ChainedFrom sha previous rows)
    (hrow : ∃ serialized, row.record.serialize = some serialized ∧ row.chainHash =
      computeChainHash sha serialized ((rows.map CheckpointRow.chainHash).getLast?.getD previous)) :
    ChainedFrom sha previous (rows ++ [row]) := by
  induction rows generalizing previous with
  | nil => exact ⟨hrow, trivial⟩
  | cons first rest ih =>
    refine ⟨h.1, ih h.2 ?_⟩
    cases rest with
    | nil => exact hrow
    | cons second rest => exact hrow

theorem RowsSound.commit (h : RowsSound sha t) {checkpointId : String} {record : CheckpointRecord}
    {row : Option CheckpointRow} (hrecord : RecordSound sha t.leaves record)
    (hrow : ∀ r, row = some r → Next sha t checkpointId record r) :
    RowsSound sha { t with checkpoints := t.checkpoints ++ row.toList } := by
  cases row with
  | none =>
    rw [Option.toList_none, List.append_nil]
    exact h
  | some r =>
    have hnext := hrow r rfl
    have hmem : ∀ x ∈ t.checkpoints ++ [r], x ∈ t.checkpoints ∨ x = r := by
      intro x hx
      rcases List.mem_append.1 hx with hx | hx
      · exact Or.inl hx
      · exact Or.inr (List.mem_singleton.1 hx)
    refine ⟨?_, fun x hx => ?_, ?_, fun x hx => ?_⟩
    · rw [Option.toList_some, List.map_append, List.map_singleton, List.pairwise_append]
      refine ⟨h.ids, List.pairwise_singleton _ _, fun a ha b hb => ?_⟩
      obtain ⟨x, hx, rfl⟩ := List.mem_map.1 ha
      rw [List.mem_singleton.1 hb]
      exact hnext.above x hx
    · rcases hmem x hx with hx | rfl
      · exact h.bound x hx
      · exact hnext.bound
    · have hchained := hnext.chained
      rw [lastChainHash, h.byId_eq] at hchained
      exact chainedFrom_concat h.chained hchained
    · rcases hmem x hx with hx | rfl
      · exact h.records x hx
      · rw [hnext.record_eq]
        exact hrecord

theorem existingPeakHash_append {checkpointId peakHash : String} (rows : List CheckpointRow)
    (h : existingPeakHash checkpointId t = some peakHash) :
    existingPeakHash checkpointId { t with checkpoints := t.checkpoints ++ rows } = some peakHash := by
  obtain ⟨row, hrow, rfl⟩ := Option.map_eq_some_iff.1 h
  rw [existingPeakHash, List.find?_append, hrow]
  rfl

theorem existingPeakHash_fresh {checkpointId : String} {row : CheckpointRow}
    (hid : row.checkpointId = checkpointId)
    (hfresh : checkpointId ∉ t.checkpoints.map CheckpointRow.checkpointId) :
    existingPeakHash checkpointId { t with checkpoints := t.checkpoints ++ [row] } =
      some row.record.peakHash := by
  have hnone : t.checkpoints.find? (fun row => decide (row.checkpointId = checkpointId)) = none := by
    rw [List.find?_eq_none]
    intro x hx heq
    exact hfresh (List.mem_map.2 ⟨x, hx, of_decide_eq_true heq⟩)
  rw [existingPeakHash, List.find?_append, hnone, Option.none_or, List.find?_singleton,
    if_pos (decide_eq_true hid)]
  rfl

theorem PhaseSound.congr {w : Writer} {phase : Phase} (h : PhaseSound sha t w phase)
    (hcheckpoints : t'.checkpoints = t.checkpoints) (hleaves : t'.leaves = t.leaves)
    (hsequence : t.checkpointSequence ≤ t'.checkpointSequence) : PhaseSound sha t' w phase := by
  have hcurrent : ∀ {record}, Current sha t w record → Current sha t' w record := by
    rintro record ⟨hsound, hconfirm⟩
    refine ⟨?_, ?_⟩
    · rwa [hleaves]
    · rwa [hleaves]
  cases phase with
  | waiting => trivial
  | locked => trivial
  | read record staged previous =>
    refine ⟨hcurrent h.1, ?_⟩
    rw [hcheckpoints]
    exact h.2
  | inserted record staged checkpointId row =>
    obtain ⟨hrecord, hnext, hexisting⟩ := h
    refine ⟨hcurrent hrecord, fun r hr => ?_, fun hnone given hw => ?_⟩
    · obtain ⟨hid, hrec, habove, hbound, hchained, hfresh⟩ := hnext r hr
      rw [← hcheckpoints] at habove hchained hfresh
      exact ⟨hid, hrec, habove, hbound.trans hsequence, hchained, hfresh⟩
    · rw [existingPeakHash, hcheckpoints]
      exact hexisting hnone given hw

end Rows

/-! ### What a transaction's step keeps -/

section Steps

variable {sha : Sha256} {s s' : Database} {tx : ℕ} {w : Writer}

theorem TransactionsSound.update (h : TransactionsSound sha s) (tx : ℕ) (new : Option Transaction)
    (htransactions : s'.transactions = Function.update s.transactions tx new)
    (hheld : ∀ tx' t, tx' ≠ tx → s.transactions tx' = some t → t.phase ≠ .waiting →
      s'.holder t.writer.lock = some tx')
    (hphases : ∀ tx' t, tx' ≠ tx → s.transactions tx' = some t →
      PhaseSound sha s'.tables t.writer t.phase)
    (hnew : ∀ t, new = some t → (t.phase ≠ .waiting → s'.holder t.writer.lock = some tx) ∧
      PhaseSound sha s'.tables t.writer t.phase ∧
      (t.phase.Reading → ∀ tx' t', tx' ≠ tx → s.transactions tx' = some t' → ¬ t'.phase.Reading)) :
    TransactionsSound sha s' := by
  have hcases : ∀ tx' t, s'.transactions tx' = some t →
      (tx' = tx ∧ new = some t) ∨ (tx' ≠ tx ∧ s.transactions tx' = some t) := by
    intro tx' t ht
    rw [htransactions] at ht
    by_cases htx : tx' = tx
    · subst htx
      rw [Function.update_self] at ht
      exact Or.inl ⟨rfl, ht⟩
    · rw [Function.update_of_ne htx] at ht
      exact Or.inr ⟨htx, ht⟩
  refine ⟨fun tx' t ht hphase => ?_, fun tx₁ tx₂ t₁ t₂ ht₁ ht₂ hr₁ hr₂ => ?_, fun tx' t ht => ?_⟩
  · rcases hcases tx' t ht with ⟨rfl, hnew'⟩ | ⟨hne, hold⟩
    · exact (hnew t hnew').1 hphase
    · exact hheld tx' t hne hold hphase
  · rcases hcases tx₁ t₁ ht₁ with ⟨rfl, hnew₁⟩ | ⟨hne₁, hold₁⟩
    · rcases hcases tx₂ t₂ ht₂ with ⟨rfl, -⟩ | ⟨hne₂, hold₂⟩
      · rfl
      · exact absurd hr₂ ((hnew t₁ hnew₁).2.2 hr₁ tx₂ t₂ hne₂ hold₂)
    · rcases hcases tx₂ t₂ ht₂ with ⟨rfl, hnew₂⟩ | ⟨hne₂, hold₂⟩
      · exact absurd hr₁ ((hnew t₂ hnew₂).2.2 hr₂ tx₁ t₁ hne₁ hold₁)
      · exact h.apart tx₁ tx₂ t₁ t₂ hold₁ hold₂ hr₁ hr₂
  · rcases hcases tx' t ht with ⟨rfl, hnew'⟩ | ⟨hne, hold⟩
    · exact (hnew t hnew').2.1
    · exact hphases tx' t hne hold

theorem TransactionsSound.release (h : TransactionsSound sha s) {t : Tables}
    (hphases : ∀ tx' t', tx' ≠ tx → s.transactions tx' = some t' →
      PhaseSound sha t t'.writer t'.phase) (returned : List (String × String)) :
    TransactionsSound sha { s.release tx w with tables := t, returned := returned } := by
  refine h.update tx none rfl (fun tx' t' hne hold hphase => ?_) hphases
    fun t' ht' => by cases ht'
  have hholder := h.held tx' t' hold hphase
  have hother : ¬ (t'.writer.lock = w.lock ∧ s.holder t'.writer.lock = some tx) := by
    rintro ⟨-, htx⟩
    rw [hholder] at htx
    exact hne (Option.some.inj htx)
  rw [Database.release]
  dsimp only
  rw [if_neg hother, hholder]

theorem HistorySound.release (h : HistorySound sha s) : HistorySound sha (s.release tx w) where
  rows := h.rows
  transactions := h.transactions.release (fun tx' t' _ hold => h.transactions.phases tx' t' hold)
    s.returned
  returned := h.returned

theorem HistorySound.setPhase (h : HistorySound sha s) {phase : Phase}
    (hheld : phase ≠ .waiting → s.holder w.lock = some tx)
    (hphase : PhaseSound sha s.tables w phase)
    (hreading : phase.Reading → ∀ tx' t', tx' ≠ tx → s.transactions tx' = some t' →
      ¬ t'.phase.Reading) :
    HistorySound sha (s.setTransaction tx (some ⟨w, phase⟩)) where
  rows := h.rows
  transactions := by
    refine h.transactions.update tx _ rfl
      (fun tx' t' _ hold hphase => h.transactions.held tx' t' hold hphase)
      (fun tx' t' _ hold => h.transactions.phases tx' t' hold) fun t' ht' => ?_
    obtain rfl := Option.some.inj ht'
    exact ⟨hheld, hphase, hreading⟩
  returned := h.returned

theorem HistorySound.lock (h : HistorySound sha s) (hfree : s.holder w.lock = none) :
    HistorySound sha { s.setTransaction tx (some ⟨w, .locked⟩) with
      holder := Function.update s.holder w.lock (some tx) } where
  rows := h.rows
  transactions := by
    refine h.transactions.update tx _ rfl (fun tx' t' hne hold hphase => ?_)
      (fun tx' t' _ hold => h.transactions.phases tx' t' hold) fun t' ht' => ?_
    · have hholder := h.transactions.held tx' t' hold hphase
      have hlock : t'.writer.lock ≠ w.lock := by
        intro heq
        rw [heq, hfree] at hholder
        cases hholder
      dsimp only
      rw [Function.update_of_ne hlock, hholder]
    · obtain rfl := Option.some.inj ht'
      exact ⟨fun _ => Function.update_self _ _ _, trivial, fun hreading => hreading.elim⟩
  returned := h.returned

theorem current_record (sha : Sha256) (w : Writer) (t : Tables) :
    Current sha t w (w.record sha t) := by
  cases w with
  | confirmCheckpoint given =>
    refine ⟨⟨le_rfl, by rw [List.take_length]⟩, ?_⟩
    rintro _ hw
    cases hw
    exact ⟨_, rfl⟩
  | writeCheckpoint p => exact ⟨trivial, fun given hw => by cases hw⟩

theorem HistorySound.insert (h : HistorySound sha s) {record : CheckpointRecord}
    {staged : List StagingRow} {previous : String}
    (htx : s.transactions tx = some ⟨w, .read record staged previous⟩)
    (horderly : Orderly s (.insert tx)) :
    HistorySound sha (insertRow sha s tx w record staged previous) := by
  obtain ⟨hcurrent, hprevious⟩ := h.transactions.phases tx _ htx
  have hothers : ∀ tx' t', tx' ≠ tx → s.transactions tx' = some t' → ¬ t'.phase.Reading :=
    fun tx' t' hne hold hreading => hne (h.transactions.apart tx' tx t' _ hold htx hreading trivial)
  unfold insertRow
  split
  · next checkpointId serialized hid hserialized =>
    by_cases hblocked : s.Blocked w checkpointId
    · rw [if_pos hblocked]
      exact h
    · rw [if_neg hblocked]
      refine ⟨⟨h.rows.ids, fun row hrow => (h.rows.bound row hrow).trans (Nat.le_succ _),
        h.rows.chained, h.rows.records⟩, ?_, h.returned⟩
      refine h.transactions.update tx _ rfl
        (fun tx' t' _ hold hphase => h.transactions.held tx' t' hold hphase)
        (fun tx' t' _ hold => (h.transactions.phases tx' t' hold).congr rfl rfl (Nat.le_succ _))
        fun t' ht' => ?_
      obtain rfl := Option.some.inj ht'
      have hheld := h.transactions.held tx ⟨w, .read record staged previous⟩ htx (by simp)
      refine ⟨fun _ => hheld, ⟨⟨hcurrent.1, hcurrent.2⟩, ?_, ?_⟩,
        fun _ => hothers⟩
      · intro r hr
        split_ifs at hr with hconflict
        obtain rfl := Option.some.inj hr
        exact ⟨rfl, rfl, fun x hx => Nat.lt_succ_of_le (h.rows.bound x hx), le_rfl,
          ⟨serialized, hserialized, by rw [hprevious]⟩, hconflict⟩
      · -- a row of this id is there: it is a confirm's, of the same leaves
        intro hnone given hw
        subst hw
        have hconflict : checkpointId ∈ s.tables.checkpoints.map CheckpointRow.checkpointId := by
          by_contra hfresh
          rw [if_neg hfresh] at hnone
          cases hnone
        obtain ⟨first, hfirst⟩ : ∃ first, s.tables.checkpoints.find?
            (fun row => decide (row.checkpointId = checkpointId)) = some first := by
          obtain ⟨row, hrow, heq⟩ := List.mem_map.1 hconflict
          rw [← Option.isSome_iff_exists, List.find?_isSome]
          exact ⟨row, hrow, decide_eq_true heq⟩
        have hmem := List.mem_of_find?_eq_some hfirst
        have heq : first.checkpointId = checkpointId := by simpa using List.find?_some hfirst
        obtain ⟨given', peakHash, stagedSealCount, hrecord⟩ :=
          horderly given record staged previous htx first hmem (heq ▸ hid)
        have hsound := h.rows.records first hmem
        rw [hrecord] at hsound
        obtain ⟨_, hcurrent⟩ := hcurrent.confirm given rfl
        rw [existingPeakHash, hfirst, Option.map_some, hrecord, hcurrent]
        refine congrArg some (hsound.2.trans ?_)
        rw [List.take_length]
        rfl
  · exact h.release

theorem HistorySound.commit (h : HistorySound sha s) {record : CheckpointRecord}
    {staged : List StagingRow} {checkpointId : String} {row : Option CheckpointRow}
    (htx : s.transactions tx = some ⟨w, .inserted record staged checkpointId row⟩) :
    HistorySound sha (commitRow s tx w record staged checkpointId row) := by
  obtain ⟨hcurrent, hnext, hexisting⟩ := h.transactions.phases tx _ htx
  have hrows := h.rows.commit hcurrent.sound hnext
  -- nobody else has read the tail, so nobody knows of it
  have hphases : ∀ {t : Tables} tx' t', tx' ≠ tx → s.transactions tx' = some t' →
      PhaseSound sha t t'.writer t'.phase := by
    intro t tx' t' hne hold
    have hreading : ¬ t'.phase.Reading := fun hreading =>
      hne (h.transactions.apart tx' tx t' _ hold htx hreading trivial)
    obtain ⟨writer, phase⟩ := t'
    cases phase with
    | waiting => trivial
    | locked => trivial
    | read => exact absurd trivial hreading
    | inserted => exact absurd trivial hreading
  have hreturned : ∀ r ∈ s.returned,
      existingPeakHash r.1 { s.tables with checkpoints := s.tables.checkpoints ++ row.toList } =
        some r.2 := fun r hr => existingPeakHash_append _ (h.returned r hr)
  unfold commitRow
  cases w with
  | writeCheckpoint p =>
    exact ⟨hrows, h.transactions.release hphases _, hreturned⟩
  | confirmCheckpoint given =>
    refine ⟨⟨hrows.ids, hrows.bound, hrows.chained, hrows.records⟩,
      h.transactions.release hphases _, fun r hr => ?_⟩
    rcases List.mem_append.1 hr with hr | hr
    · exact hreturned r hr
    · rw [List.mem_singleton.1 hr]
      cases row with
      | none =>
        change existingPeakHash checkpointId
          { s.tables with checkpoints := s.tables.checkpoints ++ [] } = some record.peakHash
        rw [List.append_nil]
        exact hexisting rfl given rfl
      | some r =>
        have hr := hnext r rfl
        have hfound := existingPeakHash_fresh hr.id_eq hr.fresh
        rw [hr.record_eq] at hfound
        exact hfound

theorem HistorySound.appendSeal (h : HistorySound sha s) {call : AppendSeal} {r : AppendSealResult}
    {t : Tables} (hfree : s.holder .mmrAppend = none)
    (happend : MmrStore.appendSeal sha call s.tables = some (r, t)) :
    HistorySound sha { s with tables := t } := by
  have hext := Extends.appendSeal happend
  obtain ⟨hcheckpoints, hsequence⟩ : t.checkpoints = s.tables.checkpoints ∧
      t.checkpointSequence = s.tables.checkpointSequence := by
    obtain ⟨leaf, rows, serialized, between, -, -, -, -, -, -, hbetween, rfl⟩ :=
      appendSeal_some happend
    rw [hbetween]
    exact ⟨rfl, rfl⟩
  refine ⟨⟨?_, ?_, ?_, ?_⟩, ⟨h.transactions.held, h.transactions.apart, fun tx t' ht' => ?_⟩,
    fun x hx => ?_⟩
  · rw [hcheckpoints]
    exact h.rows.ids
  · rw [hcheckpoints, hsequence]
    exact h.rows.bound
  · rw [hcheckpoints]
    exact h.rows.chained
  · rw [hcheckpoints]
    exact fun row hrow => (h.rows.records row hrow).mono hext.leaves
  · obtain ⟨w, phase⟩ := t'
    have hphase := h.transactions.phases tx _ ht'
    have hcurrent : ∀ {record}, phase ≠ .waiting → Current sha s.tables w record →
        Current sha t w record := by
      intro record hwaiting hcurrent
      refine ⟨hcurrent.sound.mono hext.leaves, fun given hw => ?_⟩
      subst hw
      have hheld := h.transactions.held tx _ ht' hwaiting
      rw [show s.holder (Writer.confirmCheckpoint given).lock = none from hfree] at hheld
      cases hheld
    cases phase with
    | waiting => trivial
    | locked => trivial
    | read record staged previous =>
      refine ⟨hcurrent (by simp) hphase.1, ?_⟩
      rw [hcheckpoints]
      exact hphase.2
    | inserted record staged checkpointId row =>
      obtain ⟨hrecord, hnext, hexisting⟩ := hphase
      refine ⟨hcurrent (by simp) hrecord, fun x hx => ?_, fun hnone given hw => ?_⟩
      · obtain ⟨hid, hrec, habove, hbound, hchained, hfresh⟩ := hnext x hx
        rw [← hcheckpoints] at habove hchained hfresh
        exact ⟨hid, hrec, habove, hsequence ▸ hbound, hchained, hfresh⟩
      · rw [existingPeakHash, hcheckpoints]
        exact hexisting hnone given hw
  · rw [existingPeakHash, hcheckpoints]
    exact h.returned x hx

/-- **An orderly step keeps the history sound.** -/
theorem historySound_act (h : HistorySound sha s) (a : Action) (horderly : Orderly s a) :
    HistorySound sha (act sha s a) := by
  cases a with
  | confirm tx given =>
    rw [act]
    split
    · next checkpointId _ hfree =>
      split
      · next peakHash hexisting =>
        refine ⟨h.rows, ⟨h.transactions.held, h.transactions.apart, h.transactions.phases⟩,
          fun r hr => ?_⟩
        rcases List.mem_append.1 hr with hr | hr
        · exact h.returned r hr
        · rw [List.mem_singleton.1 hr]
          exact hexisting
      · exact h.setPhase (fun hphase => absurd rfl hphase) trivial fun hreading => hreading.elim
    · exact h
  | write tx p =>
    rw [act]
    split
    · exact h.setPhase (fun hphase => absurd rfl hphase) trivial fun hreading => hreading.elim
    · exact h
  | lock tx =>
    rw [act]
    split
    · next w _ =>
      split_ifs with hfree
      · exact h.lock hfree
      · exact h
    · exact h
  | read tx =>
    rw [act]
    split
    · next w htx =>
      exact h.setPhase (fun _ => h.transactions.held tx ⟨w, .locked⟩ htx (by simp))
        ⟨current_record sha w s.tables, rfl⟩ fun _ tx' t' hne hold => horderly tx' t' hne hold
    · exact h
  | insert tx =>
    rw [act]
    split
    · next w record staged previous htx => exact h.insert htx horderly
    · exact h
  | commit tx =>
    rw [act]
    split
    · next w record staged checkpointId row htx => exact h.commit htx
    · exact h
  | rollback tx =>
    rw [act]
    split
    · exact h.release
    · exact h
  | appendSeal call =>
    rw [act]
    split_ifs with hfree
    · cases happend : MmrStore.appendSeal sha call s.tables with
      | none => exact h
      | some result => exact h.appendSeal hfree happend
    · exact h
  | initiateCheckpoint bits =>
    rw [act]
    split_ifs
    · exact ⟨⟨h.rows.ids, h.rows.bound, h.rows.chained, h.rows.records⟩,
        ⟨h.transactions.held, h.transactions.apart, fun tx t ht =>
          (h.transactions.phases tx t ht).congr rfl rfl le_rfl⟩, h.returned⟩
    · exact h

end Steps

theorem historySound_init (sha : Sha256) : HistorySound sha Database.init where
  rows := ⟨List.Pairwise.nil, fun _ hrow => absurd hrow List.not_mem_nil, trivial,
    fun _ hrow => absurd hrow List.not_mem_nil⟩
  transactions :=
    { held := fun _ _ ht => by cases ht
      apart := fun _ _ _ _ ht => by cases ht
      phases := fun _ _ ht => by cases ht }
  returned _ hr := absurd hr List.not_mem_nil

/-- **In every state of an orderly run the checkpoints are one chain, and every confirm has returned
what is stored.** -/
theorem history_law (sha : Sha256) (actions : List Action)
    (horderly : Guarded (act sha) Orderly Database.init actions) (m : ℕ) :
    HistoryLaw sha ((actions.take m).foldl (act sha) Database.init) := by
  have hsound := horderly.invariant (P := HistorySound sha)
    (fun _ a h ha => historySound_act h a ha) (historySound_init sha) m
  refine ⟨?_, hsound.returned⟩
  rw [hsound.rows.byId_eq]
  exact hsound.rows.chained

/-! ### Two transactions that read one tail -/

namespace ForkSample

def checkpointId : String := "5f0c9a52-6b1e-4d36-9a6f-2f1f3f5f9a01"

/-- The root of an empty tree. -/
def zeros : String := String.ofList (List.replicate 64 '0')

/-- What a round of `n1` writes before there is a leaf. -/
def proposal : Proposal where
  nodeId := "n1"
  checkpointId := "5f0c9a52-6b1e-4d36-9a6f-2f1f3f5f9a02"
  checkpointHash := "9f86d081884c7d659a2feaa0c55ad015a3bf4f1b2b0b822cd15d6c15b0f00a08"
  mmrPeaks := []
  identityMerkleRoot := zeros
  counted := []
  stagingIds := []

/-- What a confirm of `checkpointId` chains before there is a leaf. -/
def confirmed : CheckpointRecord := .confirmed checkpointId 0 zeros 0

def confirmedText : List Char :=
  ("\x7b\"checkpoint_id\":\"5f0c9a52-6b1e-4d36-9a6f-2f1f3f5f9a01\",\"mmr_leaf_count\":0," ++
    "\"peak_hash\":0,\"staged_seal_count\":0\x7d").toList

def proposalText : List Char :=
  ("\x7b\"checkpoint_hash\":" ++
    "\"9f86d081884c7d659a2feaa0c55ad015a3bf4f1b2b0b822cd15d6c15b0f00a08\"," ++
    "\"checkpoint_id\":\"5f0c9a52-6b1e-4d36-9a6f-2f1f3f5f9a02\",\"coordinator_node_id\":\"n1\"," ++
    "\"identity_merkle_root\":0,\"mmr_leaf_count\":0,\"mmr_peaks\":[],\"peak_hash\":" ++
    "\"9f86d081884c7d659a2feaa0c55ad015a3bf4f1b2b0b822cd15d6c15b0f00a08\"," ++
    "\"staged_seal_count\":0\x7d").toList

def confirmedDigest : BitVec 256 :=
  0xecbaa4aef8adbb8a5fd214952eca69ba287b9ff30b42c9ebbeb24fd187f2fc59#256

/-- The digests of the texts that come up when the two rows follow each other, or both the genesis. -/
def table : List (String × BitVec 256) :=
  [(genesisText, HashChain.Sample.genesisDigest),
    (chainText confirmedText (hexText HashChain.Sample.genesisDigest), confirmedDigest),
    (chainText proposalText (hexText HashChain.Sample.genesisDigest),
      0x3a3a5e0a559acd892db93502347fbcd3dc32a993df188b1c1d7b67dd38a3ec1e#256),
    (chainText proposalText (hexText confirmedDigest),
      0x9714b8d6f07ad102651fb9fd7719f1511caaf944b0f414aa8030ed2348d71042#256)]

def sha : Sha256 := HexSha256.toSha256 <|
  .ofTable table 0xe3b0c44298fc1c149afbf4c8996fb92427ae41e4649b934ca495991b7852b855#256

/-- A confirm and a round write at once, each behind its own lock. -/
def fork : List Action :=
  [.confirm 0 checkpointId, .write 1 proposal, .lock 0, .lock 1, .read 0, .read 1, .insert 0,
    .insert 1, .commit 0, .commit 1]

/-- Two confirms of one id, the second after the first has committed. -/
def twice : List Action :=
  [.confirm 0 checkpointId, .lock 0, .read 0, .insert 0, .commit 0, .confirm 1 checkpointId]

theorem serialize_confirmed : confirmed.serialize = some confirmedText := by decide +kernel

theorem uuidIn_checkpointId : uuidIn checkpointId = some checkpointId := by decide

theorem uuidIn_proposal : uuidIn proposal.checkpointId = some proposal.checkpointId := by decide

theorem normalizeValue_zeros : normalizeValue (.text zeros) = some (numberLeaf (.ofInteger 0)) := by
  have htext : zeros.toList = List.replicate 64 '0' := String.toList_ofList
  simp only [normalizeValue, isIntegerText, numberOf, integerOf, htext]
  decide +kernel

theorem normalizeValue_hash :
    normalizeValue (.text proposal.checkpointHash) = some (.str proposal.checkpointHash.toList) := by
  decide

theorem normalizeValue_proposalId :
    normalizeValue (.text proposal.checkpointId) = some (.str proposal.checkpointId.toList) := by
  decide

theorem normalizeValue_nodeId : normalizeValue (.text "n1") = some (.str "n1".toList) := by decide

/-- The columns of the proposal's record. -/
def proposalColumns : Row := object
  [("checkpoint_id", .text proposal.checkpointId), ("mmr_leaf_count", .number (.ofInteger 0)),
    ("peak_hash", .text proposal.checkpointHash), ("staged_seal_count", .number (.ofInteger 0)),
    ("mmr_peaks", .null), ("identity_merkle_root", .text zeros), ("checkpoint_hash", .text proposal.checkpointHash),
    ("coordinator_node_id", .text "n1")]

theorem chainedKeys_proposal : chainedKeys "directory_checkpoints" proposalColumns =
    ["checkpoint_hash", "checkpoint_id", "coordinator_node_id", "identity_merkle_root", "mmr_leaf_count", "mmr_peaks",
      "peak_hash", "staged_seal_count"] := by
  have hkeys : proposalColumns.columns.keys = ["checkpoint_id", "mmr_leaf_count", "peak_hash", "staged_seal_count",
    "mmr_peaks", "identity_merkle_root", "checkpoint_hash", "coordinator_node_id"] := rfl
  rw [chainedKeys, hkeys]
  decide

theorem render_zero : renderLeaf (numberLeaf (.ofInteger 0)) = ['0'] := by decide +kernel

theorem serialize_proposal : proposal.record.serialize = some proposalText := by
  have hid : proposalColumns.columns.get "checkpoint_id" = some (.text proposal.checkpointId) := rfl
  have hcount : proposalColumns.columns.get "mmr_leaf_count" = some (.number (.ofInteger 0)) := rfl
  have hpeak : proposalColumns.columns.get "peak_hash" = some (.text proposal.checkpointHash) := rfl
  have hstaged : proposalColumns.columns.get "staged_seal_count" = some (.number (.ofInteger 0)) := rfl
  have hroot : proposalColumns.columns.get "identity_merkle_root" = some (.text zeros) := rfl
  have hhash : proposalColumns.columns.get "checkpoint_hash" = some (.text proposal.checkpointHash) := rfl
  have hnode : proposalColumns.columns.get "coordinator_node_id" = some (.text "n1") := rfl
  have hzero : normalizeValue (.number (.ofInteger 0)) = some (numberLeaf (.ofInteger 0)) := rfl
  have hstr : ∀ s, renderLeaf (.str s) = quotedText s := fun _ => rfl
  have hplain : proposal.checkpointHash.toList.flatMap escapeChar = proposal.checkpointHash.toList := by
    decide
  have hplain' : proposal.checkpointId.toList.flatMap escapeChar = proposal.checkpointId.toList := by
    decide
  change serializeWithArray "directory_checkpoints" proposalColumns "mmr_peaks" [] = _
  have hmembers : serializeWithArray "directory_checkpoints" proposalColumns "mmr_peaks" [] = some (objectText
      [("checkpoint_hash", quote :: (proposal.checkpointHash.toList ++ [quote])),
        ("checkpoint_id", quote :: (proposal.checkpointId.toList ++ [quote])),
        ("coordinator_node_id", quotedText "n1".toList), ("identity_merkle_root", ['0']), ("mmr_leaf_count", ['0']),
        ("mmr_peaks", arrayText []), ("peak_hash", quote :: (proposal.checkpointHash.toList ++ [quote])),
        ("staged_seal_count", ['0'])]) := by
    rw [serializeWithArray, chainedKeys_proposal]
    simp [hid, hcount, hpeak, hstaged, hroot, hhash, hnode, hzero, normalizeValue_zeros, normalizeValue_hash,
      normalizeValue_proposalId, normalizeValue_nodeId, render_zero, hstr, quotedText_plain hplain,
      quotedText_plain hplain']
  refine hmembers.trans (congrArg some ?_)
  have hopening : "\x7b\"checkpoint_hash\":".toList = '\x7b' :: (quoted "checkpoint_hash" ++ [':']) := by decide
  have hhashText : "\"9f86d081884c7d659a2feaa0c55ad015a3bf4f1b2b0b822cd15d6c15b0f00a08\",".toList =
      quote :: (proposal.checkpointHash.toList ++ [quote, ',']) := by decide
  have hids : "\"checkpoint_id\":\"5f0c9a52-6b1e-4d36-9a6f-2f1f3f5f9a02\",\"coordinator_node_id\":\"n1\",".toList =
      quoted "checkpoint_id" ++ ':' :: quote :: (proposal.checkpointId.toList ++ quote :: ',' ::
        (quoted "coordinator_node_id" ++ ':' :: (quotedText "n1".toList ++ [',']))) := by decide
  have hroots : "\"identity_merkle_root\":0,\"mmr_leaf_count\":0,\"mmr_peaks\":[],\"peak_hash\":".toList =
      quoted "identity_merkle_root" ++ ':' :: '0' :: ',' :: (quoted "mmr_leaf_count" ++ ':' :: '0' :: ',' ::
        (quoted "mmr_peaks" ++ ':' :: (arrayText [] ++ ',' :: (quoted "peak_hash" ++ [':'])))) := by decide
  have hclosing : "\"staged_seal_count\":0\x7d".toList = quoted "staged_seal_count" ++ [':', '0', '\x7d'] := by decide
  unfold proposalText
  simp only [String.toList_append, hopening, hhashText, hids, hroots, hclosing]
  simp [objectText, List.intercalate, List.intersperse]

theorem checkpointId_ne : checkpointId ≠ proposal.checkpointId := by decide

theorem checkpoints_fork (sha : Sha256) :
    (fork.foldl (act sha) Database.init).tables.checkpoints =
      [⟨1, checkpointId, confirmed, computeChainHash sha confirmedText (sha.hex genesisText)⟩,
        ⟨2, proposal.checkpointId, proposal.record,
          computeChainHash sha proposalText (sha.hex genesisText)⟩] := by
  have hpeak : computePeakHash sha (fetchCurrentPeaks sha []) = zeros := rfl
  have hconfirmed := serialize_confirmed
  rw [confirmed] at hconfirmed
  simp [fork, act, Database.init, Database.setTransaction, uuidIn_checkpointId, uuidIn_proposal,
    existingPeakHash, Tables.empty, Writer.lock, Writer.record, hpeak, Writer.staged, insertRow,
    commitRow, Database.release, Database.Blocked, Writer.given, stagedFor, lastChainHash, byId,
    previousChainHash, hconfirmed, serialize_proposal, checkpointId_ne, deleteStaged,
    linkLeaves, Lock.other, Function.update, confirmed]

theorem hex_genesis : sha.hex genesisText = hexText HashChain.Sample.genesisDigest := by
  rw [sha, HexSha256.hex_ofTable, table, List.lookup_cons_self, Option.getD_some]

theorem hex_confirmed :
    computeChainHash sha confirmedText (sha.hex genesisText) = hexText confirmedDigest := by
  have hne : chainText confirmedText (hexText HashChain.Sample.genesisDigest) ≠ genesisText := by
    decide +kernel
  rw [computeChainHash, hex_genesis, sha, HexSha256.hex_ofTable, table, List.lookup_cons,
    beq_false_of_ne hne, List.lookup_cons_self, Option.getD_some]

theorem proposal_after_confirmed :
    computeChainHash sha proposalText (sha.hex genesisText) ≠
      computeChainHash sha proposalText
        (computeChainHash sha confirmedText (sha.hex genesisText)) := by
  rw [hex_confirmed, hex_genesis]
  intro hsame
  have hinj : Set.InjOn sha.hex {s | s ∈ table.map Prod.fst} :=
    HexSha256.ofTable_injOn (by decide)
  have htext := hinj (by simp [table]) (by simp [table]) hsame
  rw [chainText, chainText, String.ofList_inj, List.append_cancel_left_eq] at htext
  have hdigest := hexText_inj (String.toList_inj.1 htext)
  revert hdigest
  decide

theorem orderly_twice (sha : Sha256) : Guarded (act sha) Orderly Database.init twice := by
  have hpeak : computePeakHash sha (fetchCurrentPeaks sha []) = zeros := rfl
  have hconfirmed := serialize_confirmed
  rw [confirmed] at hconfirmed
  simp [twice, Guarded, Orderly, act, Database.init, Database.setTransaction, uuidIn_checkpointId,
    existingPeakHash, Tables.empty, Writer.lock, Writer.record, hpeak, Writer.staged, Function.update]
  intro tx hne htx
  exact absurd htx hne

end ForkSample

open ForkSample in
theorem history_law_twice :
    HistoryLaw sha ((twice.take 6).foldl (act sha) Database.init) :=
  history_law sha twice (orderly_twice sha) 6

open ForkSample in
/-- Both transactions read the tail before either has committed, and the chain forks. -/
theorem history_forks : ¬ HistoryLaw sha (fork.foldl (act sha) Database.init) := by
  intro hlaw
  have hchained := hlaw.chained
  have hbyId : byId (fork.foldl (act sha) Database.init).tables.checkpoints =
      (fork.foldl (act sha) Database.init).tables.checkpoints := by
    rw [checkpoints_fork]
    rfl
  rw [hbyId, checkpoints_fork] at hchained
  obtain ⟨-, ⟨serialized, hserialized, hchain⟩, -⟩ := hchained
  obtain rfl := Option.some.inj (serialize_proposal.symm.trans hserialized)
  exact proposal_after_confirmed hchain

end Cello.Directory.Checkpoint
