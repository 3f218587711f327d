import Cello.Directory.Checkpoint.Pipeline

/-!
# What a cross-signed checkpoint commits to

A coordinator's round takes its batch from the staging rows, its leaf count from the leaves and its
peaks from the last checkpoint row.  The batch is read first, so every seal that the round clears is
among the leaves it counted, in every interleaving (`RoundsSound`).  The peaks are another matter:
`mmr_peaks` of the last row is what the round before it wrote there, `confirmCheckpoint` leaves the
column at its default, and the first round finds no row at all.  Nothing writes a peak, so the list
that is hashed, signed and written is empty in every round, and a checkpoint commits to its log just
when there was no leaf to commit to (`commits_to_log_iff`).
-/

namespace Cello.Directory.Checkpoint

open Lib HashChain ChainStore Mmr MmrStore

/-! ### The law -/

def peaksOver (sha : Sha256) (leaves : List ProofLeafRow) : List String :=
  (Rows.build sha (leaves.map fun leaf => (leaf.sealMerkleRoot, toIsoString leaf.recordedAt))).peaks.map
    MmrPeak.hash

/-- **A checkpoint commits to the log it clears**: what is hashed, signed and written are the peaks
over the first `mmrLeafCount` leaves, and every seal that is cleared is one of these. -/
def CommitsToLog (sha : Sha256) (crypto : CheckpointCrypto) (s : System) : Prop :=
  (∀ p ∈ s.written,
      p.checkpointHash =
        crypto.computeCheckpointHash p.mmrPeaks p.identityMerkleRoot p.checkpointId ∧
      p.mmrPeaks = peaksOver sha (s.tables.leaves.take p.mmrLeafCount)) ∧
    ∀ c ∈ s.cleared, StagedLeaf (s.tables.leaves.take c.1.mmrLeafCount) c.2

/-! ### Peaks -/

theorem mergePeaks_ne_nil (sha : Sha256) (right : MmrPeak) (peaks : List MmrPeak) :
    (mergePeaks sha right peaks).1 ≠ [] := by
  induction peaks generalizing right with
  | nil => exact List.cons_ne_nil _ _
  | cons left rest ih =>
    rw [mergePeaks]
    split_ifs
    · exact List.cons_ne_nil _ _
    · exact ih _

theorem peaksOver_eq_nil_iff {sha : Sha256} {leaves : List ProofLeafRow} :
    peaksOver sha leaves = [] ↔ leaves = [] := by
  constructor
  · intro h
    cases leaves using List.reverseRecOn with
    | nil => rfl
    | append_singleton leaves leaf =>
      rw [peaksOver, List.map_append, Rows.build, List.foldl_append, List.map_eq_nil_iff] at h
      exact absurd (List.reverse_eq_nil_iff.1 h) (mergePeaks_ne_nil _ _ _)
  · rintro rfl
    rfl

/-! ### The staging rows of a batch -/

/-- A staging row is one that was there, stamped perhaps, or it has an id that is new. -/
structure StagingGrows (t t' : Tables) : Prop where
  sequence : t.stagingSequence ≤ t'.stagingSequence
  rows : ∀ row ∈ t'.staging, t.stagingSequence < row.id ∨
    ∃ old ∈ t.staging, row = { old with checkpointId := row.checkpointId }

theorem StagingGrows.of_subset {t t' : Tables} (hsequence : t.stagingSequence ≤ t'.stagingSequence)
    (hrows : t'.staging ⊆ t.staging) : StagingGrows t t' :=
  ⟨hsequence, fun row hrow => Or.inr ⟨row, hrows hrow, rfl⟩⟩

theorem StagingGrows.appendSeal {sha : Sha256} {call : AppendSeal} {r : AppendSealResult}
    {t t' : Tables} (h : appendSeal sha call t = some (r, t')) : StagingGrows t t' := by
  obtain ⟨leaf, row, -, -, -, -, hid, -, hstaging, hsequence, -, -⟩ := appendSeal_tables h
  refine ⟨by omega, fun x hx => ?_⟩
  rw [hstaging] at hx
  split_ifs at hx
  · exact Or.inr ⟨x, hx, rfl⟩
  · rcases List.mem_append.1 hx with hx | hx
    · exact Or.inr ⟨x, hx, rfl⟩
    · obtain rfl := List.mem_singleton.1 hx
      exact Or.inl (by omega)

theorem stagingGrows_step (sha : Sha256) (crypto : CheckpointCrypto) (requiredThreshold : ℕ)
    (s : System) (e : Event) :
    StagingGrows s.tables (step sha crypto requiredThreshold s e).tables := by
  generalize ht : (step sha crypto requiredThreshold s e).tables = t
  have hstep := tablesStep sha crypto requiredThreshold s e
  rw [ht] at hstep
  cases hstep with
  | unchanged => exact .of_subset le_rfl (List.Subset.refl _)
  | appendSeal h => exact .appendSeal h
  | initiate checkpointId => exact ⟨le_rfl, fun row hrow => Or.inr (mem_initiateCheckpoint hrow)⟩
  | confirm h =>
    obtain ⟨checkpointId, record, chainHash, -, rfl⟩ := confirmCheckpoint_some h
    exact .of_subset le_rfl (List.filter_subset_self _)
  | write _ h =>
    obtain ⟨checkpointId, chainHash, rfl⟩ := writeCheckpoint_some h
    exact .of_subset le_rfl (List.Subset.refl _)
  | clear h => exact .of_subset le_rfl (List.filter_subset_self _)

/-- The rows of a batch are rows of these leaves, and no row to come is one of the batch. -/
structure BatchSound (t : Tables) (stagingIds : List ℕ) (leaves : List ProofLeafRow) : Prop where
  ids : ∀ id ∈ stagingIds, id ≤ t.stagingSequence
  rows : ∀ row ∈ t.staging, row.id ∈ stagingIds → StagedLeaf leaves row

theorem BatchSound.mono {t t' : Tables} {stagingIds : List ℕ} {leaves leaves' : List ProofLeafRow}
    (h : BatchSound t stagingIds leaves) (hgrows : StagingGrows t t') (hleaves : leaves ⊆ leaves') :
    BatchSound t' stagingIds leaves' where
  ids id hid := (h.ids id hid).trans hgrows.sequence
  rows row hrow hid := by
    rcases hgrows.rows row hrow with hnew | ⟨old, hold, heq⟩
    · exact absurd (h.ids row.id hid) (by omega)
    · rw [heq] at hid ⊢
      exact (h.rows old hold hid).mono hleaves

/-! ### The rounds of a run -/

/-- What a round that has read everything knows. -/
structure ProposalSound (crypto : CheckpointCrypto) (t : Tables) (p : Proposal) : Prop where
  hash : p.checkpointHash =
    crypto.computeCheckpointHash p.mmrPeaks p.identityMerkleRoot p.checkpointId
  peaks : p.mmrPeaks = []
  counted : p.counted <+: t.leaves

/-- What a round knows, wherever it is. -/
def RoundSound (crypto : CheckpointCrypto) (t : Tables) (written : List Proposal) : Round → Prop
  | .reading _ stagingIds last counted =>
    (∀ l, last = some l → l.1 = []) ∧ BatchSound t stagingIds (counted.getD t.leaves) ∧
      ∀ c, counted = some c → c <+: t.leaves
  | .signed p _ => ProposalSound crypto t p ∧ BatchSound t p.stagingIds p.counted
  | .written p _ => ProposalSound crypto t p ∧ BatchSound t p.stagingIds p.counted ∧ p ∈ written

/-- **What holds of the rounds after every run.** -/
structure RoundsSound (crypto : CheckpointCrypto) (s : System) : Prop where
  tables : Sound s.tables
  checkpoints : ∀ row ∈ s.tables.checkpoints, row.record.mmrPeaks = []
  rounds : ∀ round state, s.rounds round = some state →
    RoundSound crypto s.tables s.written state
  written : ∀ p ∈ s.written, ProposalSound crypto s.tables p
  cleared : ∀ c ∈ s.cleared, c.1 ∈ s.written ∧ StagedLeaf c.1.counted c.2

section

variable {sha : Sha256} {crypto : CheckpointCrypto} {requiredThreshold : ℕ} {s : System}

theorem ProposalSound.mono {t t' : Tables} {p : Proposal} (h : ProposalSound crypto t p)
    (hext : Extends t t') : ProposalSound crypto t' p :=
  ⟨h.hash, h.peaks, h.counted.trans hext.leaves⟩

theorem RoundSound.mono {t t' : Tables} {written written' : List Proposal} {state : Round}
    (h : RoundSound crypto t written state) (hext : Extends t t') (hgrows : StagingGrows t t')
    (hwritten : written ⊆ written') : RoundSound crypto t' written' state := by
  cases state with
  | reading nodeId stagingIds last counted =>
    obtain ⟨hlast, hbatch, hcounted⟩ := h
    refine ⟨hlast, hbatch.mono hgrows ?_, fun c hc => (hcounted c hc).trans hext.leaves⟩
    cases counted with
    | none => exact hext.leaves.subset
    | some c => exact List.Subset.refl _
  | signed p signatures => exact ⟨h.1.mono hext, h.2.mono hgrows (List.Subset.refl _)⟩
  | written p signatures =>
    exact ⟨h.1.mono hext, h.2.1.mono hgrows (List.Subset.refl _), hwritten h.2.2⟩

theorem mem_insertCheckpoint_or {checkpointId : String} {record : CheckpointRecord}
    {chainHash : String} {t : Tables} {row : CheckpointRow}
    (h : row ∈ (insertCheckpoint checkpointId record chainHash t).checkpoints) :
    row ∈ t.checkpoints ∨ row.record = record := by
  rw [insertCheckpoint] at h
  dsimp only at h
  split_ifs at h
  · exact Or.inl h
  · rcases List.mem_append.1 h with h | h
    · exact Or.inl h
    · exact Or.inr (by rw [List.mem_singleton.1 h])

theorem checkpoints_step (h : RoundsSound crypto s) (e : Event) :
    ∀ row ∈ (step sha crypto requiredThreshold s e).tables.checkpoints, row.record.mmrPeaks = [] := by
  generalize ht : (step sha crypto requiredThreshold s e).tables = t
  have hstep := tablesStep sha crypto requiredThreshold s e
  rw [ht] at hstep
  intro row hrow
  cases hstep with
  | unchanged => exact h.checkpoints row hrow
  | appendSeal happend =>
    obtain ⟨_, _, -, -, -, -, -, -, -, -, hcheckpoints, -⟩ := appendSeal_tables happend
    exact h.checkpoints row (hcheckpoints ▸ hrow)
  | initiate checkpointId => exact h.checkpoints row hrow
  | confirm hconfirm =>
    obtain ⟨checkpointId, record, chainHash, hpeaks, rfl⟩ := confirmCheckpoint_some hconfirm
    rcases mem_insertCheckpoint_or hrow with hrow | hrecord
    · exact h.checkpoints row hrow
    · rw [hrecord, hpeaks]
  | write hround hwrite =>
    obtain ⟨checkpointId, chainHash, rfl⟩ := writeCheckpoint_some hwrite
    rcases mem_insertCheckpoint_or hrow with hrow | hrecord
    · exact h.checkpoints row hrow
    · rw [hrecord]
      exact (h.rounds _ _ hround).1.peaks
  | clear => exact h.checkpoints row hrow

theorem lastCheckpointState_peaks (h : RoundsSound crypto s) :
    (lastCheckpointState s.tables).1 = [] := by
  rw [lastCheckpointState]
  split
  · next row hlast => exact h.checkpoints row (List.mem_of_getLast? hlast)
  · rfl

theorem batchSound_read {t : Tables} (h : Sound t) :
    BatchSound t ((sortSealBatch (getStagingRowsForBatch t)).map SealBatchRow.stagingId)
      t.leaves where
  ids id hid := by
    obtain ⟨b, hb, rfl⟩ := List.mem_map.1 hid
    rw [sortSealBatch, List.mem_insertionSort, getStagingRowsForBatch, sortSealBatch,
      List.mem_insertionSort] at hb
    obtain ⟨row, hrow, rfl⟩ := List.mem_map.1 hb
    exact h.stagingIds row (List.mem_of_mem_filter hrow)
  rows row hrow _ := h.stagedLeaf row hrow

theorem rounds_update {rounds : ℕ → Option Round} {P : Round → Prop} {i : ℕ} {new : Option Round}
    (h : ∀ round state, rounds round = some state → P state)
    (hnew : ∀ state, new = some state → P state) :
    ∀ round state, Function.update rounds i new round = some state → P state := by
  intro round state hstate
  by_cases hi : round = i
  · subst hi
    rw [Function.update_self] at hstate
    exact hnew state hstate
  · rw [Function.update_of_ne hi] at hstate
    exact h round state hstate

theorem RoundSound.decide {t : Tables} {written : List Proposal} {bits : BitVec 128}
    {responses : List (String × CheckpointSignatureResponse)} {state next : Round}
    (h : RoundSound crypto t written state)
    (hnext : decideRound crypto requiredThreshold bits responses state = some next) :
    RoundSound crypto t written next := by
  unfold decideRound at hnext
  split at hnext
  · next nodeId stagingIds mmrPeaks identityMerkleRoot counted =>
    obtain ⟨-, hnext⟩ := Option.ite_none_left_eq_some.1 hnext
    obtain rfl := Option.some.inj hnext
    exact ⟨⟨rfl, h.1 _ rfl, h.2.2 counted rfl⟩, h.2.1⟩
  · obtain rfl := Option.some.inj hnext
    exact h

/-- What an event adds to what the rounds have written and cleared. -/
inductive LogStep (s : System) : List Proposal → List (Proposal × StagingRow) → Prop
  | unchanged : LogStep s s.written s.cleared
  | write {round p signatures} : s.rounds round = some (.signed p signatures) →
      LogStep s (s.written ++ [p]) s.cleared
  | clear {round p} : s.rounds round = some (.written p []) →
      LogStep s s.written (s.cleared ++
        (s.tables.staging.filter fun row => decide (row.id ∈ p.stagingIds)).map fun row => (p, row))

theorem logStep (sha : Sha256) (crypto : CheckpointCrypto) (requiredThreshold : ℕ) (s : System)
    (e : Event) : LogStep s (step sha crypto requiredThreshold s e).written
      (step sha crypto requiredThreshold s e).cleared := by
  cases e with
  | appendSeal call =>
    rw [step]
    split <;> exact .unchanged
  | confirmCheckpoint call given =>
    obtain ⟨_, heq⟩ := startConfirm_eq s call given
    rw [step, heq]
    exact .unchanged
  | recover call given =>
    obtain ⟨_, heq⟩ := startConfirm_eq s call given
    rw [step]
    split_ifs
    · rw [heq]
      exact .unchanged
    · exact .unchanged
  | confirmTransaction call =>
    rw [step]
    split <;> exact .unchanged
  | roundWrite round =>
    rw [step]
    split
    · next p signatures hround =>
      split
      · exact .write hround
      · exact .unchanged
    · exact .unchanged
  | roundClear round =>
    rw [step]
    split
    · next p hround => exact .clear hround
    · exact .unchanged
  | roundPeaks round | roundLeafCount round | roundSignature round =>
    rw [step]
    split <;> exact .unchanged
  | _ => exact .unchanged

theorem written_step (sha : Sha256) (crypto : CheckpointCrypto) (requiredThreshold : ℕ) (s : System)
    (e : Event) : s.written ⊆ (step sha crypto requiredThreshold s e).written := by
  have hlog := logStep sha crypto requiredThreshold s e
  generalize (step sha crypto requiredThreshold s e).written = written at hlog ⊢
  generalize (step sha crypto requiredThreshold s e).cleared = cleared at hlog
  cases hlog with
  | unchanged => exact List.Subset.refl _
  | write => exact List.subset_append_left _ _
  | clear => exact List.Subset.refl _

/-- **A round keeps what it knows**, and so does every other while it goes on. -/
theorem rounds_step (h : RoundsSound crypto s) (e : Event) :
    ∀ round state, (step sha crypto requiredThreshold s e).rounds round = some state →
      RoundSound crypto (step sha crypto requiredThreshold s e).tables
        (step sha crypto requiredThreshold s e).written state := by
  have hold : ∀ round state, s.rounds round = some state →
      RoundSound crypto (step sha crypto requiredThreshold s e).tables
        (step sha crypto requiredThreshold s e).written state := fun round state hstate =>
    (h.rounds round state hstate).mono (extends_step sha crypto requiredThreshold s e)
      (stagingGrows_step sha crypto requiredThreshold s e)
      (written_step sha crypto requiredThreshold s e)
  have hnone : ∀ {t : Tables} {written : List Proposal} state, none = some state →
      RoundSound crypto t written state := by
    intro t written state hstate
    cases hstate
  cases e with
  | appendSeal call =>
    revert hold
    rw [step]
    split <;> exact id
  | initiateCheckpoint bits => exact hold
  | confirmCheckpoint call given =>
    obtain ⟨_, heq⟩ := startConfirm_eq s call given
    rw [step, heq] at hold ⊢
    exact hold
  | recover call given =>
    obtain ⟨_, heq⟩ := startConfirm_eq s call given
    revert hold
    rw [step]
    split_ifs
    · rw [heq]
      exact id
    · exact id
  | confirmTransaction call =>
    revert hold
    rw [step]
    split <;> exact id
  | confirmLost call => exact hold
  | roundBatch round nodeId =>
    refine rounds_update hold fun state hstate => ?_
    obtain rfl := Option.some.inj hstate
    refine ⟨fun l hl => ?_, batchSound_read h.tables, fun c hc => ?_⟩
    · cases hl
    · cases hc
  | roundPeaks round =>
    revert hold
    rw [step]
    split
    · next nodeId stagingIds counted hround =>
      intro hold
      refine rounds_update hold fun state hstate => ?_
      obtain rfl := Option.some.inj hstate
      obtain ⟨-, hbatch, hcounted⟩ := h.rounds round _ hround
      refine ⟨fun l hl => ?_, hbatch, hcounted⟩
      rw [← Option.some.inj hl]
      exact lastCheckpointState_peaks h
    · exact id
  | roundLeafCount round =>
    revert hold
    rw [step]
    split
    · next nodeId stagingIds last hround =>
      intro hold
      refine rounds_update hold fun state hstate => ?_
      obtain rfl := Option.some.inj hstate
      obtain ⟨hlast, hbatch, -⟩ := h.rounds round _ hround
      refine ⟨hlast, hbatch, fun c hc => ?_⟩
      rw [← Option.some.inj hc]
    · exact id
  | roundSignatures round bits responses =>
    refine rounds_update hold fun state hstate => ?_
    obtain ⟨before, hbefore, hdecide⟩ := Option.bind_eq_some_iff.1 hstate
    exact (h.rounds round before hbefore).decide hdecide
  | roundWrite round =>
    revert hold
    rw [step]
    split
    · next p signatures hround =>
      split
      · next t hwrite =>
        intro hold
        refine rounds_update hold fun state hstate => ?_
        obtain rfl := Option.some.inj hstate
        obtain ⟨hp, hbatch⟩ := hold round _ hround
        exact ⟨hp, hbatch, List.mem_append_right _ (List.mem_singleton_self p)⟩
      · exact fun hold => rounds_update hold hnone
    · exact id
  | roundSignature round =>
    revert hold
    rw [step]
    split
    · next p signature rest hround =>
      intro hold
      refine rounds_update hold fun state hstate => ?_
      obtain rfl := Option.some.inj hstate
      obtain ⟨hp, hbatch, hwritten⟩ := h.rounds round _ hround
      exact ⟨hp, hbatch, hwritten⟩
    · exact id
  | roundClear round =>
    revert hold
    rw [step]
    split
    · exact fun hold => rounds_update hold hnone
    · exact id
  | roundLost round => exact rounds_update hold hnone

theorem roundsSound_step (h : RoundsSound crypto s) (e : Event) :
    RoundsSound crypto (step sha crypto requiredThreshold s e) := by
  have hext := extends_step sha crypto requiredThreshold s e
  have hlog : (∀ p ∈ (step sha crypto requiredThreshold s e).written,
        ProposalSound crypto s.tables p) ∧
      ∀ c ∈ (step sha crypto requiredThreshold s e).cleared,
        c.1 ∈ (step sha crypto requiredThreshold s e).written ∧ StagedLeaf c.1.counted c.2 := by
    have hlog := logStep sha crypto requiredThreshold s e
    generalize (step sha crypto requiredThreshold s e).written = written at hlog ⊢
    generalize (step sha crypto requiredThreshold s e).cleared = cleared at hlog ⊢
    cases hlog with
    | unchanged => exact ⟨h.written, h.cleared⟩
    | @write round p signatures hround =>
      refine ⟨fun q hq => ?_, fun c hc => ?_⟩
      · rcases List.mem_append.1 hq with hq | hq
        · exact h.written q hq
        · rw [List.mem_singleton.1 hq]
          exact (h.rounds round _ hround).1
      · exact ⟨List.mem_append_left _ (h.cleared c hc).1, (h.cleared c hc).2⟩
    | @clear round p hround =>
      refine ⟨h.written, fun c hc => ?_⟩
      rcases List.mem_append.1 hc with hc | hc
      · exact h.cleared c hc
      · obtain ⟨row, hrow, rfl⟩ := List.mem_map.1 hc
        obtain ⟨hrow, hid⟩ := List.mem_filter.1 hrow
        obtain ⟨-, hbatch, hin⟩ := h.rounds round _ hround
        exact ⟨hin, hbatch.rows row hrow (by simpa using hid)⟩
  exact
    { tables := sound_step sha crypto requiredThreshold s e h.tables
      checkpoints := checkpoints_step h e
      rounds := rounds_step h e
      written := fun p hp => (hlog.1 p hp).mono hext
      cleared := hlog.2 }

theorem roundsSound_init : RoundsSound crypto System.init where
  tables := sound_empty
  checkpoints _ hrow := absurd hrow List.not_mem_nil
  rounds _ _ hstate := by cases hstate
  written _ hp := absurd hp List.not_mem_nil
  cleared _ hc := absurd hc List.not_mem_nil

theorem roundsSound_run (events : List Event) :
    RoundsSound crypto (run sha crypto requiredThreshold events) := by
  induction events using List.reverseRecOn with
  | nil => exact roundsSound_init
  | append_singleton events e ih =>
    rw [run, List.foldl_append, List.foldl_cons, List.foldl_nil]
    exact roundsSound_step ih e

theorem cleared_counted (events : List Event) :
    ∀ c ∈ (run sha crypto requiredThreshold events).cleared,
      StagedLeaf ((run sha crypto requiredThreshold events).tables.leaves.take c.1.mmrLeafCount)
        c.2 := by
  intro c hc
  have hsound : RoundsSound crypto (run sha crypto requiredThreshold events) :=
    roundsSound_run events
  obtain ⟨hin, hleaf⟩ := hsound.cleared c hc
  have hcounted := (hsound.written c.1 hin).counted
  rwa [List.prefix_iff_eq_take.1 hcounted] at hleaf

/-- **A run commits to the logs it clears exactly when no leaf had been appended** when the rounds
that wrote a checkpoint counted the leaves. -/
theorem commits_to_log_iff (events : List Event) :
    CommitsToLog sha crypto (run sha crypto requiredThreshold events) ↔
      ∀ p ∈ (run sha crypto requiredThreshold events).written, p.counted = [] := by
  have hsound : RoundsSound crypto (run sha crypto requiredThreshold events) :=
    roundsSound_run events
  constructor
  · rintro ⟨hwritten, -⟩ p hp
    have hp' := hsound.written p hp
    have hpeaks := (hwritten p hp).2
    rw [hp'.peaks, Proposal.mmrLeafCount, ← List.prefix_iff_eq_take.1 hp'.counted] at hpeaks
    exact peaksOver_eq_nil_iff.1 hpeaks.symm
  · intro hempty
    refine ⟨fun p hp => ⟨(hsound.written p hp).hash, ?_⟩, cleared_counted events⟩
    rw [(hsound.written p hp).peaks, Proposal.mmrLeafCount, hempty p hp]
    exact (peaksOver_eq_nil_iff.2 rfl).symm

end

/-- The round of `RoundSample` counts one leaf, and what it hashes, signs and writes is no peak. -/
theorem first_round_commits_to_nothing :
    ¬ CommitsToLog RoundSample.sha RoundSample.crypto
      (run RoundSample.sha RoundSample.crypto 2 RoundSample.events) := by
  have hwritten : (run RoundSample.sha RoundSample.crypto 2 RoundSample.events).written.map
      (fun p => (p.mmrPeaks, p.mmrLeafCount)) = [([], 1)] := by decide
  have hleaves : (run RoundSample.sha RoundSample.crypto 2 RoundSample.events).tables.leaves.length =
      1 := by decide
  rintro ⟨hcommits, -⟩
  obtain ⟨p, hp, heq⟩ := List.mem_map.1 (hwritten ▸ List.mem_singleton_self _)
  have hpeaks := (hcommits p hp).2
  rw [(Prod.mk.inj heq).1, (Prod.mk.inj heq).2, List.take_of_length_le hleaves.le] at hpeaks
  have hnil := peaksOver_eq_nil_iff.1 hpeaks.symm
  rw [hnil] at hleaves
  cases hleaves

end Cello.Directory.Checkpoint
