import Cello.Directory.Checkpoint.Rounds
import Cello.Lib.GuardedRun

/-!
# Sealed conversations on their way into a checkpoint

A seal that is appended is staged, and it should stay staged until its leaf is linked to a
checkpoint.  `confirmCheckpoint` links and deletes in one transaction.  A coordinator's round deletes
the rows of its batch and links nothing, so the seals of a confirmed round are neither staged nor
linked, and their status is `not_staged` from then on.

`pipeline_iff` says when the law holds of a run: when no round finds a row of its batch still staged as it clears the
batch.  A row that is staged always has a leaf that is linked to nothing (`Unlinked`), so it is never time to delete it.
-/

namespace Cello.Directory.Checkpoint

open Lib HashChain ChainStore Mmr MmrStore

/-! ### The law -/

def Confirmed (t : Tables) (leaf : ProofLeafRow) : Prop :=
  ∃ link ∈ t.leafCheckpoints, link.leafId = leaf.id ∧
    ∃ row ∈ t.checkpoints, row.checkpointId = link.checkpointId

def Covered (t : Tables) : Prop :=
  ∀ leaf ∈ t.leaves, leaf.sessionId ∈ t.staging.map StagingRow.sessionId ∨ Confirmed t leaf

def Appended (t : Tables) (given : String) : Prop :=
  ∃ leaf ∈ t.leaves, uuidIn given = some leaf.sessionId

def IsConfirmed (status : Option SealStagingStatus) : Prop :=
  ∃ leafIndex peakHash checkpointId, status = some (.confirmed leafIndex peakHash checkpointId)

/-- A round that clears its batch finds none of its rows still staged. -/
def FindsNothingStaged (s : System) : Event → Prop
  | .roundClear round => ∀ p, s.rounds round = some (.written p []) →
      ∀ row ∈ s.tables.staging, row.id ∉ p.stagingIds
  | _ => True

/-! ### What every transaction keeps -/

/-- The tables only grow, the staging rows apart. -/
structure Extends (t t' : Tables) : Prop where
  leaves : t.leaves <+: t'.leaves
  leafCheckpoints : t.leafCheckpoints ⊆ t'.leafCheckpoints
  checkpoints : t.checkpoints ⊆ t'.checkpoints

theorem Extends.refl (t : Tables) : Extends t t :=
  ⟨List.prefix_refl _, List.Subset.refl _, List.Subset.refl _⟩

theorem Extends.trans {t t' t'' : Tables} (h : Extends t t') (h' : Extends t' t'') :
    Extends t t'' :=
  ⟨h.leaves.trans h'.leaves, List.Subset.trans h.leafCheckpoints h'.leafCheckpoints,
    List.Subset.trans h.checkpoints h'.checkpoints⟩

theorem Confirmed.mono {t t' : Tables} {leaf : ProofLeafRow} (h : Confirmed t leaf)
    (hext : Extends t t') : Confirmed t' leaf := by
  obtain ⟨link, hlink, hleaf, row, hrow, hid⟩ := h
  exact ⟨link, hext.leafCheckpoints hlink, hleaf, row, hext.checkpoints hrow, hid⟩

def StagedLeaf (leaves : List ProofLeafRow) (row : StagingRow) : Prop :=
  ∃ leaf ∈ leaves, leaf.sessionId = row.sessionId ∧ leaf.sealMerkleRoot = row.sealMerkleRoot ∧
    leaf.recordedAt = row.recordedAt

/-- What the constraints and the writers keep of the tables. -/
structure Sound (t : Tables) : Prop where
  references : ∀ link ∈ t.leafCheckpoints, ∃ row ∈ t.checkpoints,
    row.checkpointId = link.checkpointId
  stagedOnce : (t.staging.map StagingRow.sessionId).Nodup
  stagedLeaf : ∀ row ∈ t.staging, StagedLeaf t.leaves row
  stagingIds : ∀ row ∈ t.staging, row.id ≤ t.stagingSequence

theorem sound_empty : Sound Tables.empty where
  references _ hlink := absurd hlink List.not_mem_nil
  stagedOnce := List.nodup_nil
  stagedLeaf _ hrow := absurd hrow List.not_mem_nil
  stagingIds _ hrow := absurd hrow List.not_mem_nil

theorem StagedLeaf.mono {leaves leaves' : List ProofLeafRow} {row : StagingRow}
    (h : StagedLeaf leaves row) (hle : leaves ⊆ leaves') : StagedLeaf leaves' row := by
  obtain ⟨leaf, hleaf, hrow⟩ := h
  exact ⟨leaf, hle hleaf, hrow⟩

section Transactions

variable {sha : Sha256} {t t' : Tables}

theorem appendSeal_tables {call : AppendSeal} {r : AppendSealResult}
    (h : appendSeal sha call t = some (r, t')) :
    ∃ leaf row, t'.leaves = t.leaves ++ [leaf] ∧
      row.sessionId = leaf.sessionId ∧ row.sealMerkleRoot = leaf.sealMerkleRoot ∧
      row.recordedAt = leaf.recordedAt ∧ row.id = t.stagingSequence + 1 ∧
      row.checkpointId = none ∧
      t'.staging = (if leaf.sessionId ∈ t.staging.map StagingRow.sessionId then t.staging
        else t.staging ++ [row]) ∧
      t'.stagingSequence = t.stagingSequence + 1 ∧
      t'.checkpoints = t.checkpoints ∧ t'.leafCheckpoints = t.leafCheckpoints ∧
      leaf.id = t.leafSequence + 1 ∧ t'.leafSequence = t.leafSequence + 1 := by
  obtain ⟨leaf, rows, serialized, between, hleaf, hleafId, -, -, -, -, hbetween, rfl⟩ := appendSeal_some h
  have hroot : leaf.sealMerkleRoot = call.sealMerkleRoot := congrArg MmrLeaf.sealMerkleRoot hleaf
  have htime : toIsoString leaf.recordedAt = toIsoString call.now :=
    congrArg MmrLeaf.recordedAt hleaf
  have hnow : leaf.recordedAt = call.now :=
    Subtype.ext (IsoDate.isoText_inj leaf.recordedAt.2 call.now.2 (String.ofList_injective htime))
  refine ⟨leaf, ⟨t.stagingSequence + 1, leaf.sessionId, call.sealMerkleRoot, call.now, none,
    some call.correlationId⟩, ?_, rfl, hroot.symm, hnow.symm, rfl, rfl, ?_, ?_, ?_, ?_, hleafId, ?_⟩
  all_goals
    rw [hbetween]
    rfl

theorem Extends.appendSeal {call : AppendSeal} {r : AppendSealResult}
    (h : appendSeal sha call t = some (r, t')) : Extends t t' := by
  obtain ⟨leaf, row, hleaves, -, -, -, -, -, -, -, hcheckpoints, hlinks, -⟩ := appendSeal_tables h
  refine ⟨?_, ?_, ?_⟩
  · rw [hleaves]
    exact List.prefix_append _ _
  · rw [hlinks]
    exact List.Subset.refl _
  · rw [hcheckpoints]
    exact List.Subset.refl _

theorem Sound.appendSeal {call : AppendSeal} {r : AppendSealResult} (hs : Sound t)
    (h : appendSeal sha call t = some (r, t')) : Sound t' := by
  obtain ⟨leaf, row, hleaves, hsession, hroot, htime, hid, -, hstaging, hsequence, hcheckpoints,
    hlinks, -⟩ := appendSeal_tables h
  have hmem : ∀ x ∈ t'.staging, x ∈ t.staging ∨ x = row := by
    intro x hx
    rw [hstaging] at hx
    split_ifs at hx
    · exact Or.inl hx
    · simpa using hx
  refine ⟨?_, ?_, ?_, ?_⟩
  · rw [hlinks, hcheckpoints]
    exact hs.references
  · rw [hstaging]
    split_ifs with hin
    · exact hs.stagedOnce
    · rw [List.map_append, List.map_singleton, hsession, ← List.concat_eq_append]
      exact hs.stagedOnce.concat hin
  · intro x hx
    rcases hmem x hx with hx | rfl
    · refine (hs.stagedLeaf x hx).mono ?_
      rw [hleaves]
      exact List.subset_append_left _ _
    · exact ⟨leaf, by simp [hleaves], hsession.symm, hroot.symm, htime.symm⟩
  · intro x hx
    rw [hsequence]
    rcases hmem x hx with hx | rfl
    · exact (hs.stagingIds x hx).trans (Nat.le_succ _)
    · exact hid.le

theorem Covered.appendSeal {call : AppendSeal} {r : AppendSealResult} (hc : Covered t)
    (h : appendSeal sha call t = some (r, t')) : Covered t' := by
  have hext := Extends.appendSeal h
  obtain ⟨leaf, row, hleaves, hsession, -, -, -, -, hstaging, -, -, -⟩ := appendSeal_tables h
  have hstaged : ∀ sessionId, sessionId ∈ t.staging.map StagingRow.sessionId ∨
      sessionId = leaf.sessionId → sessionId ∈ t'.staging.map StagingRow.sessionId := by
    intro sessionId hin
    rw [hstaging]
    split_ifs with hold
    · rcases hin with hin | rfl
      · exact hin
      · exact hold
    · rw [List.map_append, List.mem_append, List.map_singleton, List.mem_singleton, hsession]
      exact hin
  intro x hx
  rw [hleaves, List.mem_append, List.mem_singleton] at hx
  rcases hx with hx | rfl
  · rcases hc x hx with hin | hconfirmed
    · exact Or.inl (hstaged _ (Or.inl hin))
    · exact Or.inr (hconfirmed.mono hext)
  · exact Or.inl (hstaged _ (Or.inr rfl))

theorem initiateCheckpoint_sessions (checkpointId : String) (t : Tables) :
    (initiateCheckpoint checkpointId t).staging.map StagingRow.sessionId =
      t.staging.map StagingRow.sessionId := by
  rw [initiateCheckpoint, List.map_map]
  refine List.map_congr_left fun row _ => ?_
  rw [Function.comp_apply]
  split_ifs <;> rfl

theorem mem_initiateCheckpoint {checkpointId : String} {row : StagingRow}
    (h : row ∈ (initiateCheckpoint checkpointId t).staging) :
    ∃ old ∈ t.staging, row = { old with checkpointId := row.checkpointId } := by
  obtain ⟨old, hold, rfl⟩ := List.mem_map.1 h
  refine ⟨old, hold, ?_⟩
  split_ifs <;> rfl

theorem Sound.initiateCheckpoint (hs : Sound t) (checkpointId : String) :
    Sound (initiateCheckpoint checkpointId t) where
  references := hs.references
  stagedOnce := by
    rw [initiateCheckpoint_sessions]
    exact hs.stagedOnce
  stagedLeaf row hrow := by
    obtain ⟨old, hold, heq⟩ := mem_initiateCheckpoint hrow
    rw [heq]
    exact hs.stagedLeaf old hold
  stagingIds row hrow := by
    obtain ⟨old, hold, heq⟩ := mem_initiateCheckpoint hrow
    rw [heq]
    exact hs.stagingIds old hold

theorem Covered.initiateCheckpoint (hc : Covered t) (checkpointId : String) :
    Covered (initiateCheckpoint checkpointId t) := by
  intro leaf hleaf
  rw [initiateCheckpoint_sessions]
  exact hc leaf hleaf

/-! ### Checkpoints -/

theorem mem_insertCheckpoint (checkpointId : String) (record : CheckpointRecord) (chainHash : String)
    (t : Tables) :
    (∃ row ∈ (insertCheckpoint checkpointId record chainHash t).checkpoints,
        row.checkpointId = checkpointId) ∧
      t.checkpoints ⊆ (insertCheckpoint checkpointId record chainHash t).checkpoints := by
  rw [insertCheckpoint]
  dsimp only
  split_ifs with hin
  · exact ⟨List.mem_map.1 hin, List.Subset.refl _⟩
  · exact ⟨⟨_, List.mem_append_right _ List.mem_cons_self, rfl⟩, List.subset_append_left _ _⟩

theorem Extends.insertCheckpoint (checkpointId : String) (record : CheckpointRecord)
    (chainHash : String) (t : Tables) :
    Extends t (insertCheckpoint checkpointId record chainHash t) :=
  ⟨List.prefix_refl _, List.Subset.refl _,
    (mem_insertCheckpoint checkpointId record chainHash t).2⟩

theorem Sound.insertCheckpoint (hs : Sound t) (checkpointId : String) (record : CheckpointRecord)
    (chainHash : String) : Sound (insertCheckpoint checkpointId record chainHash t) where
  references link hlink := by
    obtain ⟨row, hrow, hid⟩ := hs.references link hlink
    exact ⟨row, (Extends.insertCheckpoint checkpointId record chainHash t).checkpoints hrow, hid⟩
  stagedOnce := hs.stagedOnce
  stagedLeaf := hs.stagedLeaf
  stagingIds := hs.stagingIds

theorem Covered.of_extends (hc : Covered t) (hext : Extends t t') (hleaves : t'.leaves = t.leaves)
    (hstaging : t'.staging = t.staging) : Covered t' := by
  intro leaf hleaf
  rw [hleaves] at hleaf
  rw [hstaging]
  exact (hc leaf hleaf).imp_right fun h => h.mono hext

theorem Sound.filterStaging (hs : Sound t) (keep : StagingRow → Bool) :
    Sound { t with staging := t.staging.filter keep } where
  references := hs.references
  stagedOnce := hs.stagedOnce.sublist (List.filter_sublist.map _)
  stagedLeaf row hrow := hs.stagedLeaf row (List.mem_of_mem_filter hrow)
  stagingIds row hrow := hs.stagingIds row (List.mem_of_mem_filter hrow)

theorem Covered.filterStaging (hc : Covered t) (keep : StagingRow → Bool)
    (hdeleted : ∀ row ∈ t.staging, keep row = false → ∀ leaf ∈ t.leaves,
      leaf.sessionId = row.sessionId → Confirmed t leaf) :
    Covered { t with staging := t.staging.filter keep } := by
  intro leaf hleaf
  rcases hc leaf hleaf with hstaged | hconfirmed
  · obtain ⟨row, hrow, hsession⟩ := List.mem_map.1 hstaged
    cases hkeep : keep row with
    | true => exact Or.inl (List.mem_map.2 ⟨row, List.mem_filter.2 ⟨hrow, hkeep⟩, hsession⟩)
    | false => exact Or.inr (hdeleted row hrow hkeep leaf hleaf hsession.symm)
  · exact Or.inr hconfirmed

theorem confirmed_linkLeaves {checkpointId : String} {sessionIds : List String}
    (hs : Sound t) (hrow : ∃ row ∈ t.checkpoints, row.checkpointId = checkpointId)
    {leaf : ProofLeafRow} (hleaf : leaf ∈ t.leaves) (hsession : leaf.sessionId ∈ sessionIds) :
    Confirmed (linkLeaves checkpointId sessionIds t) leaf := by
  by_cases hin : leaf.id ∈ t.leafCheckpoints.map LeafCheckpointRow.leafId
  · obtain ⟨link, hlink, hid⟩ := List.mem_map.1 hin
    exact ⟨link, List.mem_append_left _ hlink, hid, hs.references link hlink⟩
  · refine ⟨⟨leaf.id, checkpointId⟩, List.mem_append_right _ (List.mem_map.2 ⟨leaf, ?_, rfl⟩), rfl,
      hrow⟩
    simp only [List.mem_filter, decide_eq_true_eq]
    exact ⟨⟨hleaf, hsession⟩, hin⟩

theorem Extends.linkLeaves (checkpointId : String) (sessionIds : List String) (t : Tables) :
    Extends t (linkLeaves checkpointId sessionIds t) :=
  ⟨List.prefix_refl _, List.subset_append_left _ _, List.Subset.refl _⟩

theorem Sound.linkLeaves {checkpointId : String} (hs : Sound t)
    (hrow : ∃ row ∈ t.checkpoints, row.checkpointId = checkpointId) (sessionIds : List String) :
    Sound (linkLeaves checkpointId sessionIds t) where
  references link hlink := by
    rcases List.mem_append.1 hlink with hlink | hlink
    · exact hs.references link hlink
    · obtain ⟨leaf, -, rfl⟩ := List.mem_map.1 hlink
      exact hrow
  stagedOnce := hs.stagedOnce
  stagedLeaf := hs.stagedLeaf
  stagingIds := hs.stagingIds

theorem confirmCheckpoint_some {given peakHash : String}
    (h : confirmCheckpoint sha given t = some (peakHash, t')) :
    ∃ checkpointId record chainHash, record.mmrPeaks = [] ∧ t' = deleteStaged checkpointId
      (linkLeaves checkpointId ((stagedFor checkpointId t).map StagingRow.sessionId)
        (insertCheckpoint checkpointId record chainHash t)) := by
  obtain ⟨checkpointId, -, h⟩ := Option.bind_eq_some_iff.1 h
  obtain ⟨serialized, -, h⟩ := Option.map_eq_some_iff.1 h
  exact ⟨checkpointId, .confirmed _ _ _ _, _, rfl, (Prod.mk.inj h).2.symm⟩

theorem writeCheckpoint_some {p : Proposal} (h : writeCheckpoint sha p t = some t') :
    ∃ checkpointId chainHash, t' = insertCheckpoint checkpointId p.record chainHash t := by
  obtain ⟨checkpointId, -, h⟩ := Option.bind_eq_some_iff.1 h
  obtain ⟨serialized, -, rfl⟩ := Option.map_eq_some_iff.1 h
  exact ⟨checkpointId, _, rfl⟩

theorem Extends.confirmCheckpoint {given peakHash : String}
    (h : confirmCheckpoint sha given t = some (peakHash, t')) : Extends t t' := by
  obtain ⟨checkpointId, record, chainHash, -, rfl⟩ := confirmCheckpoint_some h
  have hext := (Extends.insertCheckpoint checkpointId record chainHash t).trans
    (Extends.linkLeaves checkpointId ((stagedFor checkpointId t).map StagingRow.sessionId) _)
  exact ⟨hext.leaves, hext.leafCheckpoints, hext.checkpoints⟩

theorem Sound.confirmCheckpoint {given peakHash : String} (hs : Sound t)
    (h : confirmCheckpoint sha given t = some (peakHash, t')) : Sound t' := by
  obtain ⟨checkpointId, record, chainHash, -, rfl⟩ := confirmCheckpoint_some h
  exact ((hs.insertCheckpoint checkpointId record chainHash).linkLeaves
    (mem_insertCheckpoint checkpointId record chainHash t).1 _).filterStaging _

/-- **`confirmCheckpoint` lets no seal fall out**: what it deletes it has linked. -/
theorem Covered.confirmCheckpoint {given peakHash : String} (hc : Covered t) (hs : Sound t)
    (h : confirmCheckpoint sha given t = some (peakHash, t')) : Covered t' := by
  obtain ⟨checkpointId, record, chainHash, -, rfl⟩ := confirmCheckpoint_some h
  have hinsert := mem_insertCheckpoint checkpointId record chainHash t
  have hsound := hs.insertCheckpoint checkpointId record chainHash
  have hext := (Extends.insertCheckpoint checkpointId record chainHash t).trans
    (Extends.linkLeaves checkpointId ((stagedFor checkpointId t).map StagingRow.sessionId) _)
  refine (hc.of_extends hext rfl rfl).filterStaging _ fun row hrow hdeleted leaf hleaf hsession => ?_
  refine confirmed_linkLeaves hsound hinsert.1 hleaf ?_
  rw [hsession]
  refine List.mem_map.2 ⟨row, List.mem_filter.2 ⟨hrow, ?_⟩, rfl⟩
  simpa using hdeleted

/-! ### Leaves that are linked to nothing -/

/-- A staged session has a leaf that is linked to nothing. -/
structure Unlinked (t : Tables) : Prop where
  ids : (t.leaves.map ProofLeafRow.id).Nodup
  bound : ∀ leaf ∈ t.leaves, leaf.id ≤ t.leafSequence
  links : ∀ link ∈ t.leafCheckpoints, link.leafId ≤ t.leafSequence
  staged : ∀ row ∈ t.staging, ∃ leaf ∈ t.leaves, leaf.sessionId = row.sessionId ∧
    leaf.id ∉ t.leafCheckpoints.map LeafCheckpointRow.leafId

theorem unlinked_empty : Unlinked Tables.empty where
  ids := List.nodup_nil
  bound _ hleaf := absurd hleaf List.not_mem_nil
  links _ hlink := absurd hlink List.not_mem_nil
  staged _ hrow := absurd hrow List.not_mem_nil

theorem Unlinked.appendSeal {call : AppendSeal} {r : AppendSealResult} (hu : Unlinked t)
    (h : appendSeal sha call t = some (r, t')) : Unlinked t' := by
  obtain ⟨leaf, row, hleaves, hsession, -, -, -, -, hstaging, -, -, hlinks, hid, hsequence⟩ := appendSeal_tables h
  refine ⟨?_, ?_, ?_, ?_⟩
  · rw [hleaves, List.map_append, List.map_singleton, ← List.concat_eq_append]
    refine hu.ids.concat fun hin => ?_
    obtain ⟨old, hold, heq⟩ := List.mem_map.1 hin
    have := hu.bound old hold
    omega
  · intro x hx
    rw [hleaves, List.mem_append, List.mem_singleton] at hx
    rw [hsequence]
    rcases hx with hx | rfl
    · exact (hu.bound x hx).trans (Nat.le_succ _)
    · exact hid.le
  · intro link hlink
    rw [hlinks] at hlink
    rw [hsequence]
    exact (hu.links link hlink).trans (Nat.le_succ _)
  · intro x hx
    rw [hleaves, hlinks]
    have hold : ∀ x ∈ t.staging, ∃ leaf' ∈ t.leaves ++ [leaf], leaf'.sessionId = x.sessionId ∧
        leaf'.id ∉ t.leafCheckpoints.map LeafCheckpointRow.leafId := fun x hx => by
      obtain ⟨leaf', hleaf', h⟩ := hu.staged x hx
      exact ⟨leaf', List.mem_append_left _ hleaf', h⟩
    rw [hstaging] at hx
    split_ifs at hx
    · exact hold x hx
    · rcases List.mem_append.1 hx with hx | hx
      · exact hold x hx
      · obtain rfl := List.mem_singleton.1 hx
        refine ⟨leaf, List.mem_append_right _ List.mem_cons_self, hsession.symm, fun hin => ?_⟩
        obtain ⟨link, hlink, heq⟩ := List.mem_map.1 hin
        have := hu.links link hlink
        omega

theorem Unlinked.of_staging (hu : Unlinked t) (hleaves : t'.leaves = t.leaves)
    (hsequence : t'.leafSequence = t.leafSequence) (hlinks : t'.leafCheckpoints = t.leafCheckpoints)
    (hstaging : ∀ row ∈ t'.staging, ∃ old ∈ t.staging, old.sessionId = row.sessionId) : Unlinked t' := by
  refine ⟨hleaves ▸ hu.ids, ?_, ?_, fun row hrow => ?_⟩
  · rw [hleaves, hsequence]
    exact hu.bound
  · rw [hlinks, hsequence]
    exact hu.links
  · obtain ⟨old, hold, hsession⟩ := hstaging row hrow
    rw [hleaves, hlinks, ← hsession]
    exact hu.staged old hold

theorem Unlinked.filterStaging (hu : Unlinked t) (keep : StagingRow → Bool) :
    Unlinked { t with staging := t.staging.filter keep } :=
  hu.of_staging rfl rfl rfl fun row hrow => ⟨row, List.mem_of_mem_filter hrow, rfl⟩

/-- The sessions whose leaves are linked are those whose rows go. -/
theorem Unlinked.confirmCheckpoint {given peakHash : String} (hu : Unlinked t) (hs : Sound t)
    (h : confirmCheckpoint sha given t = some (peakHash, t')) : Unlinked t' := by
  obtain ⟨checkpointId, record, chainHash, -, rfl⟩ := confirmCheckpoint_some h
  refine ⟨hu.ids, hu.bound, fun link hlink => ?_, fun row hrow => ?_⟩
  · rcases List.mem_append.1 hlink with hlink | hlink
    · exact hu.links link hlink
    · obtain ⟨leaf, hleaf, rfl⟩ := List.mem_map.1 hlink
      exact hu.bound leaf (List.mem_of_mem_filter (List.mem_of_mem_filter hleaf))
  · obtain ⟨hin, hkept⟩ := List.mem_filter.1 hrow
    obtain ⟨leaf, hleaf, hsession, hfree⟩ := hu.staged row hin
    refine ⟨leaf, hleaf, hsession, fun hlinked => ?_⟩
    obtain ⟨link, hlink, hid⟩ := List.mem_map.1 hlinked
    rcases List.mem_append.1 hlink with hlink | hlink
    · exact hfree (List.mem_map.2 ⟨link, hlink, hid⟩)
    · obtain ⟨other, hother, rfl⟩ := List.mem_map.1 hlink
      obtain ⟨hmem, hsessions⟩ := List.mem_filter.1 (List.mem_of_mem_filter hother)
      obtain rfl := List.inj_on_of_nodup_map hu.ids hmem hleaf hid
      obtain ⟨gone, hgone, hsame⟩ := List.mem_map.1 (of_decide_eq_true hsessions)
      obtain ⟨hgone, hof⟩ := List.mem_filter.1 hgone
      obtain rfl := List.inj_on_of_nodup_map hs.stagedOnce hgone hin (hsame.trans hsession)
      simp [of_decide_eq_true hof] at hkept

end Transactions

/-! ### One step -/

/-- What an event does to the tables. -/
inductive TablesStep (sha : Sha256) (s : System) : Event → Tables → Prop
  | unchanged {e} : TablesStep sha s e s.tables
  | appendSeal {e call r t} : appendSeal sha call s.tables = some (r, t) → TablesStep sha s e t
  | initiate {e} (checkpointId : String) :
      TablesStep sha s e (initiateCheckpoint checkpointId s.tables)
  | confirm {e given peakHash t} : confirmCheckpoint sha given s.tables = some (peakHash, t) →
      TablesStep sha s e t
  | write {round p signatures t} : s.rounds round = some (.signed p signatures) →
      writeCheckpoint sha p s.tables = some t → TablesStep sha s (.roundWrite round) t
  | clear {round p} : s.rounds round = some (.written p []) →
      TablesStep sha s (.roundClear round) (clearStagingBatch p.stagingIds s.tables)

section Runs

variable (sha : Sha256) (crypto : CheckpointCrypto) (requiredThreshold : ℕ)

theorem startConfirm_eq (s : System) (call : ℕ) (given : String) :
    ∃ confirming, startConfirm s call given = { s with confirming := confirming } := by
  unfold startConfirm
  split
  · exact ⟨_, rfl⟩
  · split
    · exact ⟨_, rfl⟩
    · exact ⟨_, rfl⟩

theorem tablesStep (s : System) (e : Event) :
    TablesStep sha s e (step sha crypto requiredThreshold s e).tables := by
  cases e with
  | appendSeal call =>
    rw [step]
    split
    · next r t h => exact .appendSeal h
    · exact .unchanged
  | initiateCheckpoint bits => exact .initiate (randomUUID bits)
  | confirmCheckpoint call given =>
    obtain ⟨_, heq⟩ := startConfirm_eq s call given
    rw [step, heq]
    exact .unchanged
  | recover call given =>
    obtain ⟨_, heq⟩ := startConfirm_eq s call given
    rw [step]
    split_ifs
    · rw [heq]
      exact .unchanged
    · exact .unchanged
  | confirmTransaction call =>
    rw [step]
    split
    · exact .unchanged
    · next given _ =>
      cases h : MmrStore.confirmCheckpoint sha given s.tables with
      | none => exact .unchanged
      | some result => exact .confirm h
  | confirmLost call => exact .unchanged
  | roundBatch round nodeId => exact .unchanged
  | roundPeaks round =>
    rw [step]
    split <;> exact .unchanged
  | roundLeafCount round =>
    rw [step]
    split <;> exact .unchanged
  | roundSignatures round bits responses => exact .unchanged
  | roundWrite round =>
    rw [step]
    split
    · next p signatures hround =>
      split
      · next t h => exact .write hround h
      · exact .unchanged
    · exact .unchanged
  | roundSignature round =>
    rw [step]
    split <;> exact .unchanged
  | roundClear round =>
    rw [step]
    split
    · next p h => exact .clear h
    · exact .unchanged
  | roundLost round => exact .unchanged

theorem extends_step (s : System) (e : Event) :
    Extends s.tables (step sha crypto requiredThreshold s e).tables := by
  generalize ht : (step sha crypto requiredThreshold s e).tables = t
  have hstep := tablesStep sha crypto requiredThreshold s e
  rw [ht] at hstep
  cases hstep with
  | unchanged => exact Extends.refl _
  | appendSeal h => exact Extends.appendSeal h
  | initiate checkpointId => exact ⟨List.prefix_refl _, List.Subset.refl _, List.Subset.refl _⟩
  | confirm h => exact Extends.confirmCheckpoint h
  | write _ h =>
    obtain ⟨checkpointId, chainHash, rfl⟩ := writeCheckpoint_some h
    exact Extends.insertCheckpoint _ _ _ _
  | clear h => exact ⟨List.prefix_refl _, List.Subset.refl _, List.Subset.refl _⟩

theorem sound_step (s : System) (e : Event) (hs : Sound s.tables) :
    Sound (step sha crypto requiredThreshold s e).tables := by
  generalize ht : (step sha crypto requiredThreshold s e).tables = t
  have hstep := tablesStep sha crypto requiredThreshold s e
  rw [ht] at hstep
  cases hstep with
  | unchanged => exact hs
  | appendSeal h => exact hs.appendSeal h
  | initiate checkpointId => exact hs.initiateCheckpoint checkpointId
  | confirm h => exact hs.confirmCheckpoint h
  | write _ h =>
    obtain ⟨checkpointId, chainHash, rfl⟩ := writeCheckpoint_some h
    exact hs.insertCheckpoint _ _ _
  | clear h => exact hs.filterStaging _

theorem unlinked_step (s : System) (e : Event) (hs : Sound s.tables) (hu : Unlinked s.tables) :
    Unlinked (step sha crypto requiredThreshold s e).tables := by
  generalize ht : (step sha crypto requiredThreshold s e).tables = t
  have hstep := tablesStep sha crypto requiredThreshold s e
  rw [ht] at hstep
  cases hstep with
  | unchanged => exact hu
  | appendSeal h => exact hu.appendSeal h
  | initiate checkpointId =>
    refine hu.of_staging rfl rfl rfl fun row hrow => ?_
    obtain ⟨old, hold, heq⟩ := mem_initiateCheckpoint hrow
    exact ⟨old, hold, (congrArg StagingRow.sessionId heq).symm⟩
  | confirm h => exact hu.confirmCheckpoint hs h
  | write _ h =>
    obtain ⟨checkpointId, chainHash, rfl⟩ := writeCheckpoint_some h
    exact hu.of_staging rfl rfl rfl fun row hrow => ⟨row, hrow, rfl⟩
  | clear h => exact hu.filterStaging _

theorem covered_step (s : System) (e : Event) (h : Sound s.tables ∧ Covered s.tables)
    (hclears : FindsNothingStaged s e) :
    Sound (step sha crypto requiredThreshold s e).tables ∧
      Covered (step sha crypto requiredThreshold s e).tables := by
  refine ⟨sound_step sha crypto requiredThreshold s e h.1, ?_⟩
  obtain ⟨hs, hc⟩ := h
  generalize ht : (step sha crypto requiredThreshold s e).tables = t
  have hstep := tablesStep sha crypto requiredThreshold s e
  rw [ht] at hstep
  cases hstep with
  | unchanged => exact hc
  | appendSeal h => exact hc.appendSeal h
  | initiate checkpointId => exact hc.initiateCheckpoint checkpointId
  | confirm h => exact hc.confirmCheckpoint hs h
  | write _ h =>
    obtain ⟨checkpointId, chainHash, rfl⟩ := writeCheckpoint_some h
    exact hc.of_extends (Extends.insertCheckpoint _ _ _ _) rfl rfl
  | @clear round p h =>
    refine hc.filterStaging _ fun row hrow hdeleted => ?_
    exact absurd (by simpa using hdeleted) (hclears p h row hrow)

/-! ### Runs -/

/-- The tables after the first events of a run. -/
def tablesAfter (events : List Event) (m : ℕ) : Tables :=
  (run sha crypto requiredThreshold (events.take m)).tables

/-- **No sealed conversation falls out of the pipeline**: after every event each appended seal is
staged or linked to a checkpoint, no appended session is `not_staged`, and one that is confirmed stays
confirmed. -/
def PipelineLaw (events : List Event) : Prop :=
  (∀ m, Covered (tablesAfter sha crypto requiredThreshold events m)) ∧
    (∀ m given, Appended (tablesAfter sha crypto requiredThreshold events m) given →
      getSealStagingStatus given (tablesAfter sha crypto requiredThreshold events m) ≠
        some .notStaged) ∧
    ∀ m k given, m ≤ k →
      IsConfirmed (getSealStagingStatus given (tablesAfter sha crypto requiredThreshold events m)) →
      IsConfirmed (getSealStagingStatus given (tablesAfter sha crypto requiredThreshold events k))

variable {sha crypto requiredThreshold}

theorem tablesAfter_succ {events : List Event} {m : ℕ} {e : Event} (h : events[m]? = some e) :
    tablesAfter sha crypto requiredThreshold events (m + 1) =
      (step sha crypto requiredThreshold
        (run sha crypto requiredThreshold (events.take m)) e).tables := by
  rw [tablesAfter, run, foldl_take_succ h]
  rfl

theorem extends_tablesAfter (events : List Event) {m k : ℕ} (h : m ≤ k) :
    Extends (tablesAfter sha crypto requiredThreshold events m)
      (tablesAfter sha crypto requiredThreshold events k) := by
  induction k, h using Nat.le_induction with
  | base => exact Extends.refl _
  | succ k _ ih =>
    cases he : events[k]? with
    | none =>
      have hlength : events.length ≤ k := List.getElem?_eq_none_iff.1 he
      have hsame : events.take (k + 1) = events.take k := by
        rw [List.take_of_length_le hlength, List.take_of_length_le (hlength.trans (Nat.le_succ k))]
      rw [tablesAfter, tablesAfter, hsame] at *
      exact ih
    | some e =>
      rw [tablesAfter_succ he]
      exact ih.trans (extends_step sha crypto requiredThreshold _ e)

theorem sound_tablesAfter (events : List Event) (m : ℕ) :
    Sound (tablesAfter sha crypto requiredThreshold events m) ∧
      Unlinked (tablesAfter sha crypto requiredThreshold events m) := by
  have hguarded : Guarded (step sha crypto requiredThreshold) (fun _ _ => True) System.init events :=
    Guarded.of_forall fun _ _ _ => trivial
  exact hguarded.invariant (P := fun s => Sound s.tables ∧ Unlinked s.tables)
    (fun s e h _ => ⟨sound_step sha crypto requiredThreshold s e h.1,
      unlinked_step sha crypto requiredThreshold s e h.1 h.2⟩) ⟨sound_empty, unlinked_empty⟩ m

/-! ### The status of a session -/

theorem mem_confirmedCheckpoints {t : Tables} {sessionId : String} {leaf : ProofLeafRow}
    {row : CheckpointRow} :
    (leaf, row) ∈ confirmedCheckpoints sessionId t ↔ leaf ∈ t.leaves ∧ leaf.sessionId = sessionId ∧
      ∃ link ∈ t.leafCheckpoints, link.leafId = leaf.id ∧
        row ∈ t.checkpoints ∧ row.checkpointId = link.checkpointId := by
  simp only [confirmedCheckpoints, List.mem_flatMap, List.mem_map, List.mem_filter,
    decide_eq_true_eq, Prod.mk.injEq]
  constructor
  · rintro ⟨l, ⟨hl, hsession⟩, link, ⟨hlink, hid⟩, c, ⟨hc, hcheckpoint⟩, rfl, rfl⟩
    exact ⟨hl, hsession, link, hlink, hid, hc, hcheckpoint⟩
  · rintro ⟨hl, hsession, link, hlink, hid, hc, hcheckpoint⟩
    exact ⟨leaf, ⟨hl, hsession⟩, link, ⟨hlink, hid⟩, row, ⟨hc, hcheckpoint⟩, rfl, rfl⟩

theorem isConfirmed_iff {t : Tables} {given : String} :
    IsConfirmed (getSealStagingStatus given t) ↔
      ∃ leaf ∈ t.leaves, uuidIn given = some leaf.sessionId ∧ Confirmed t leaf := by
  have hexists : ∀ sessionId, confirmedCheckpoints sessionId t ≠ [] ↔
      ∃ leaf ∈ t.leaves, leaf.sessionId = sessionId ∧ Confirmed t leaf := by
    intro sessionId
    rw [← List.length_pos_iff, List.length_pos_iff_exists_mem]
    constructor
    · rintro ⟨⟨leaf, row⟩, hmem⟩
      obtain ⟨hleaf, hsession, link, hlink, hid, hrow, hcheckpoint⟩ := mem_confirmedCheckpoints.1 hmem
      exact ⟨leaf, hleaf, hsession, link, hlink, hid, row, hrow, hcheckpoint⟩
    · rintro ⟨leaf, hleaf, hsession, link, hlink, hid, row, hrow, hcheckpoint⟩
      exact ⟨(leaf, row), mem_confirmedCheckpoints.2
        ⟨hleaf, hsession, link, hlink, hid, hrow, hcheckpoint⟩⟩
  cases hin : uuidIn given with
  | none => simp [getSealStagingStatus, hin, IsConfirmed]
  | some sessionId =>
    simp only [Option.some.injEq]
    rw [← show (∃ leaf ∈ t.leaves, leaf.sessionId = sessionId ∧ Confirmed t leaf) ↔
      ∃ leaf ∈ t.leaves, sessionId = leaf.sessionId ∧ Confirmed t leaf by simp only [eq_comm],
      ← hexists]
    simp only [getSealStagingStatus, hin, Option.map_some, IsConfirmed]
    cases hc : confirmedCheckpoints sessionId t with
    | nil =>
      simp only [ne_eq, not_true_eq_false, iff_false]
      split <;> simp
    | cons first rest => simp

theorem not_notStaged {t : Tables} {given : String} (hc : Covered t) (happended : Appended t given) :
    getSealStagingStatus given t ≠ some .notStaged := by
  obtain ⟨leaf, hleaf, hsession⟩ := happended
  intro hstatus
  rcases hc leaf hleaf with hstaged | hconfirmed
  · obtain ⟨row, hrow, hid⟩ := List.mem_map.1 hstaged
    simp only [getSealStagingStatus, hsession, Option.map_some, Option.some.injEq] at hstatus
    split at hstatus
    · cases hstatus
    · split at hstatus
      · cases hstatus
      · next hfind =>
        exact absurd (decide_eq_true hid) (List.find?_eq_none.1 hfind row hrow)
  · obtain ⟨_, _, _, hconfirmed⟩ := isConfirmed_iff.2 ⟨leaf, hleaf, hsession, hconfirmed⟩
    rw [hstatus] at hconfirmed
    cases hconfirmed

/-- **The law holds of a run exactly when no round that clears its batch finds a row of it still staged.** -/
theorem pipeline_iff (events : List Event) :
    PipelineLaw sha crypto requiredThreshold events ↔
      Guarded (step sha crypto requiredThreshold) FindsNothingStaged System.init events := by
  constructor
  · intro hlaw
    refine Guarded.of_forall fun m e he => ?_
    cases e with
    | roundClear round =>
      intro p hround row hrow hid
      obtain ⟨hsound, hunlinked⟩ : Sound (tablesAfter sha crypto requiredThreshold events m) ∧
        Unlinked (tablesAfter sha crypto requiredThreshold events m) := sound_tablesAfter events m
      obtain ⟨leaf, hleaf, hsession, hfree⟩ := hunlinked.staged row hrow
      -- after the deletion no row of the session is left, so its leaf has to be linked
      have hafter := hlaw.1 (m + 1)
      rw [tablesAfter_succ he] at hafter
      have htables : (step sha crypto requiredThreshold
          (run sha crypto requiredThreshold (events.take m)) (.roundClear round)).tables =
          clearStagingBatch p.stagingIds (run sha crypto requiredThreshold (events.take m)).tables := by
        rw [step, show (run sha crypto requiredThreshold (events.take m)).rounds round =
          some (.written p []) from hround]
      rw [htables] at hafter
      rcases hafter leaf hleaf with hstaged | ⟨link, hlink, hof, -⟩
      · obtain ⟨other, hother, hsame⟩ := List.mem_map.1 hstaged
        obtain ⟨hin, hkept⟩ := List.mem_filter.1 hother
        obtain rfl := List.inj_on_of_nodup_map hsound.stagedOnce hin hrow (hsame.trans hsession)
        simp [hid] at hkept
      · exact hfree (List.mem_map.2 ⟨link, hlink, hof⟩)
    | _ => trivial
  · intro hguarded
    have hcovered : ∀ m, Covered (tablesAfter sha crypto requiredThreshold events m) := fun m =>
      (hguarded.invariant (P := fun s => Sound s.tables ∧ Covered s.tables)
        (covered_step sha crypto requiredThreshold)
        ⟨sound_empty, fun leaf hleaf => absurd hleaf List.not_mem_nil⟩ m).2
    refine ⟨hcovered, fun m given => not_notStaged (hcovered m), fun m k given hmk hconfirmed => ?_⟩
    obtain ⟨leaf, hleaf, hsession, hlinked⟩ := isConfirmed_iff.1 hconfirmed
    have hext : Extends (tablesAfter sha crypto requiredThreshold events m)
        (tablesAfter sha crypto requiredThreshold events k) := extends_tablesAfter events hmk
    exact isConfirmed_iff.2 ⟨leaf, hext.leaves.subset hleaf, hsession, hlinked.mono hext⟩

end Runs

/-! ### A round that clears its batch -/

namespace RoundSample

def sessionId : String := "5f0c9a52-6b1e-4d36-9a6f-2f1f3f5f9a01"

/-- A seal in the afternoon of the 18th of May 2026. -/
def call : AppendSeal where
  sessionId := sessionId
  sealMerkleRoot := "9f86d081884c7d659a2feaa0c55ad015a3bf4f1b2b0b822cd15d6c15b0f00a08"
  correlationId := "c-1"
  now := ⟨1779116475378, by unfold IsoDate.InRange; decide⟩

def sha : Sha256 := HexSha256.toSha256 <| .ofTable []
  0xe3b0c44298fc1c149afbf4c8996fb92427ae41e4649b934ca495991b7852b855#256

/-- Each node signs with its name. -/
def crypto : CheckpointCrypto where
  computeCheckpointHash _ _ checkpointId := sha.hex checkpointId
  buildCheckpointTbs _ _ checkpointId := checkpointId.toList.map fun c => UInt8.ofNat c.toNat
  sign nodeId _ := nodeId.toList.map fun c => UInt8.ofNat c.toNat
  verify publicKey _ signature := decide (signature = publicKey)

/-- A seal is appended, and a round of `n1` confirms a checkpoint with the signature of `n2`. -/
def events : List Event :=
  [.appendSeal call, .roundBatch 0 "n1", .roundPeaks 0, .roundLeafCount 0,
    .roundSignatures 0 0x5f0c9a526b1e4d369a6f2f1f3f5f9a02#128 [("n2", ⟨"n2", "6e32", some "6e32"⟩)],
    .roundWrite 0, .roundSignature 0, .roundSignature 0, .roundClear 0]

theorem status_after :
    (tablesAfter sha crypto 2 events 9).leaves.map ProofLeafRow.sessionId = [sessionId] ∧
      uuidIn sessionId = some sessionId ∧
      getSealStagingStatus sessionId (tablesAfter sha crypto 2 events 9) = some .notStaged := by
  decide

end RoundSample

open RoundSample in
/-- The round is confirmed by two nodes of three, and the session is not staged any more. -/
theorem pipeline_drops_cleared_seal : ¬ PipelineLaw sha crypto 2 events := by
  intro hlaw
  obtain ⟨hleaves, hin, hstatus⟩ := status_after
  obtain ⟨leaf, hleaf, hsession⟩ := List.mem_map.1 (hleaves ▸ List.mem_singleton_self sessionId)
  exact hlaw.2.1 9 sessionId ⟨leaf, hleaf, hin.trans (congrArg some hsession.symm)⟩ hstatus

end Cello.Directory.Checkpoint
