import Cello.Directory.AntiEntropy.TierB
import Mathlib.Data.Prod.Lex

/-!
# The suspension bodies a node accepts

`SUSPENSIONS.validateBody` admits more than the bodies that a directory serves: the origin of a
record may be `null`, and the sequence number is any whole number that a double holds.
`SuspensionBody` is what it admits, and `acceptedSuspensions` is the table as such bodies meet it.  On
bodies with an origin it is the table of `TierB.lean` (`applyOneTierB_accepted`).

What a merge does to the standing of an agent is a join: of the sequence number and the pause, in
this order, and of the burn (`standing_merge`).
-/

namespace Cello.Directory.AntiEntropy

open Lib

/-- A body that `SUSPENSIONS.validateBody` accepts. -/
structure SuspensionBody where
  agentId : String
  paused : Bool
  burned : Bool
  reason : Option String
  authorizedByAccount : Option String
  suspensionSeq : Double.Whole
  originNode : Option String
deriving DecidableEq

/-- The bodies that a directory serves have an origin. -/
def SuspensionRecord.accepted (r : SuspensionRecord) : SuspensionBody where
  agentId := r.agentId
  paused := r.paused
  burned := r.burned
  reason := r.reason
  authorizedByAccount := r.authorizedByAccount
  suspensionSeq := r.suspensionSeq
  originNode := some r.originNode

namespace SuspensionBody

/-- The object `tiebreakHash` hashes, column by column. -/
def tiebreakValue (b : SuspensionBody) : String → CanonicalValue
  | "agent_id" => .str b.agentId
  | "reason" => textOrNull b.reason
  | "authorized_by_account" => textOrNull b.authorizedByAccount
  | "origin_node" => textOrNull b.originNode
  | "suspension_seq" => .str (Double.text b.suspensionSeq)
  | _ => .null

def tiebreakHash (nfc : Nfc) (sha : Sha256) (b : SuspensionBody) : String :=
  sha.hex (recordText nfc tiebreakTable (tiebreakColumns.map fun c => (c, b.tiebreakValue c)))

/-- `mergeSuspension`. -/
def merge (nfc : Nfc) (sha : Sha256) (a b : SuspensionBody) : SuspensionBody :=
  let burned := a.burned || b.burned
  if a.suspensionSeq ≠ b.suspensionSeq then
    let winner := if b.suspensionSeq < a.suspensionSeq then a else b
    { winner with burned }
  else
    let paused := a.paused || b.paused
    let winner := if b.tiebreakHash nfc sha ≤ a.tiebreakHash nfc sha then a else b
    { agentId := winner.agentId
      paused
      burned
      reason := winner.reason
      authorizedByAccount := winner.authorizedByAccount
      suspensionSeq := winner.suspensionSeq
      originNode := winner.originNode }

/-- `SUSPENSIONS.toVersionRow(body)`. -/
def toVersionRow (b : SuspensionBody) : MutableRow
  | "agent_id" => some (.canonical (.str b.agentId))
  | "paused" => some (.canonical (.bool b.paused))
  | "burned" => some (.canonical (.bool b.burned))
  | "reason" => some (.canonical (textOrNull b.reason))
  | "authorized_by_account" => some (.canonical (textOrNull b.authorizedByAccount))
  | "suspension_seq" => some (.canonical (.str (Double.text b.suspensionSeq)))
  | "origin_node" => some (.canonical (textOrNull b.originNode))
  | _ => none

def versionText (nfc : Nfc) (b : SuspensionBody) : String :=
  tierBText nfc suspensionVersionSpec b.toVersionRow

/-- The columns that are written for a body. -/
def toRow (b : SuspensionBody) : Except AeError SuspensionRow :=
  accountColumn b.authorizedByAccount >>= fun account =>
    (Bigint.ofInt (Double.integer b.suspensionSeq)).map fun seq =>
      { paused := b.paused
        burned := b.burned
        reason := b.reason
        authorizedByAccount := account
        suspensionSeq := seq
        originNode := b.originNode }

end SuspensionBody

/-- `SUSPENSIONS`, for every body that it accepts. -/
def acceptedSuspensions (nfc : Nfc) (sha : Sha256) : TierBTable SuspensionRow SuspensionBody where
  table := "agent_suspensions"
  keyColumn := "agent_id"
  bodyKey := SuspensionBody.agentId
  merge := SuspensionBody.merge nfc sha
  rowToBody := fun agentId row => (row.toBody agentId).accepted
  versionHash := fun b => sha.hex (b.versionText nfc)
  validateBody := fun _ => none
  insert := SuspensionBody.toRow
  update := fun _ body => body.toRow
  witnessDisagrees := none

section

variable {nfc : Nfc} {sha : Sha256}

/-! ### Bodies with an origin -/

theorem merge_accepted (a b : SuspensionRecord) :
    a.accepted.merge nfc sha b.accepted = (mergeSuspension nfc sha a b).accepted := by
  have htie : ∀ r : SuspensionRecord, r.accepted.tiebreakHash nfc sha = tiebreakHash nfc sha r :=
    fun _ => rfl
  have hseq : ∀ r : SuspensionRecord, r.accepted.suspensionSeq = r.suspensionSeq := fun _ => rfl
  rw [SuspensionBody.merge, mergeSuspension]
  simp only [htie, hseq]
  split_ifs <;> rfl

theorem toRow_accepted (r : SuspensionRecord) : r.accepted.toRow = SuspensionRow.ofBody r := by
  rw [SuspensionBody.toRow, SuspensionRow.ofBody]
  rfl

theorem applyOneTierB_accepted (existing : Option SuspensionRow) (key : String)
    (r : SuspensionRecord) :
    applyOneTierB (acceptedSuspensions nfc sha) existing ⟨key, r.accepted⟩ =
      applyOneTierB (suspensions nfc sha) existing ⟨key, r⟩ := by
  have hversion : ∀ r : SuspensionRecord,
      sha.hex (r.accepted.versionText nfc) = versionHash nfc sha r := fun _ => rfl
  cases existing with
  | none =>
    simp only [applyOneTierB, mergeRow, acceptedSuspensions, suspensions, toRow_accepted]
    rfl
  | some row =>
    simp only [applyOneTierB, mergeRow, acceptedSuspensions, suspensions, merge_accepted,
      toRow_accepted, hversion]
    rfl

/-! ### The standing of an agent -/

def SuspensionBody.standing (b : SuspensionBody) : Double.Whole ×ₗ Bool :=
  toLex (b.suspensionSeq, b.paused)

variable (nfc sha) in
theorem standing_merge (a b : SuspensionBody) :
    (a.merge nfc sha b).standing = max a.standing b.standing := by
  unfold SuspensionBody.merge
  dsimp only
  rcases lt_trichotomy a.suspensionSeq b.suspensionSeq with h | h | h
  · rw [if_pos h.ne, if_neg h.not_gt, max_eq_right]
    · rfl
    · exact Prod.Lex.le_iff.2 (Or.inl h)
  · rw [if_neg (not_not.2 h)]
    have hwin : ∀ c : Prop, [Decidable c] → (if c then a else b).suspensionSeq = b.suspensionSeq := by
      intro c _
      split_ifs
      · exact h
      · rfl
    simp only [SuspensionBody.standing, hwin, h]
    cases hp : a.paused with
    | false =>
      rw [Bool.false_or, max_eq_right]
      exact Prod.Lex.le_iff.2 (Or.inr ⟨rfl, Bool.false_le _⟩)
    | true =>
      rw [Bool.true_or, max_eq_left]
      exact Prod.Lex.le_iff.2 (Or.inr ⟨rfl, Bool.le_true _⟩)
  · rw [if_pos h.ne', if_pos h, max_eq_left]
    · rfl
    · exact Prod.Lex.le_iff.2 (Or.inl h)

theorem burned_merge (a b : SuspensionBody) :
    (a.merge nfc sha b).burned = (a.burned || b.burned) := by
  unfold SuspensionBody.merge
  dsimp only
  split_ifs <;> rfl

theorem seq_merge (a b : SuspensionBody) :
    (a.merge nfc sha b).suspensionSeq = max a.suspensionSeq b.suspensionSeq := by
  have h := congrArg (fun s => (ofLex s).1) (standing_merge nfc sha a b)
  exact h.trans (Prod.Lex.monotone_fst_ofLex.map_max)

theorem paused_merge {a b : SuspensionBody} (h : b.suspensionSeq ≤ a.suspensionSeq)
    (hp : a.paused = true) :
    (a.merge nfc sha b).paused = true ∧ (b.merge nfc sha a).paused = true := by
  have hle : b.standing ≤ a.standing := by
    rcases h.lt_or_eq with hlt | heq
    · exact Prod.Lex.le_iff.2 (Or.inl hlt)
    · exact Prod.Lex.le_iff.2 (Or.inr ⟨heq, le_of_le_of_eq (Bool.le_true _) hp.symm⟩)
  have hleft := standing_merge nfc sha a b
  have hright := standing_merge nfc sha b a
  rw [max_eq_left hle] at hleft
  rw [max_eq_right hle] at hright
  exact ⟨(congrArg (fun s => (ofLex s).2) hleft).trans hp,
    (congrArg (fun s => (ofLex s).2) hright).trans hp⟩

theorem lt_of_unpaused_merge {a b : SuspensionBody} (hp : a.paused = true)
    (h : (a.merge nfc sha b).paused = false) : a.suspensionSeq < b.suspensionSeq := by
  by_contra hle
  rw [(paused_merge (not_lt.1 hle) hp).1] at h
  cases h

theorem standing_of_versionText {a b : SuspensionBody} (h : a.versionText nfc = b.versionText nfc) :
    a.standing = b.standing ∧ a.burned = b.burned := by
  rw [SuspensionBody.versionText, SuspensionBody.versionText, tierBText, tierBText,
    recordText_eq_iff] at h
  have hpaused := h "paused" (by decide)
  have hburned := h "burned" (by decide)
  have hseq := h "suspension_seq" (by decide)
  have hid : ∀ t : String, normalizeColumn (some (.canonical (.str t))) = .str t := fun _ => rfl
  simp only [SuspensionBody.toVersionRow, replaced_flag_iff] at hpaused hburned
  simp only [SuspensionBody.toVersionRow, hid, replaced_str_iff, normalize_text_iff] at hseq
  exact ⟨by rw [SuspensionBody.standing, SuspensionBody.standing, hpaused, hseq], hburned⟩

theorem toRow_ok {b : SuspensionBody} {row : SuspensionRow} (h : b.toRow = .ok row) :
    ((row.toBody b.agentId).accepted).standing = b.standing ∧ row.burned = b.burned := by
  unfold SuspensionBody.toRow at h
  cases ha : accountColumn b.authorizedByAccount with
  | error e => rw [ha] at h; cases h
  | ok account =>
    rw [ha] at h
    obtain ⟨seq, hb, rfl⟩ := exists_of_map_ok h
    refine ⟨?_, rfl⟩
    simp only [SuspensionBody.standing, SuspensionRecord.accepted, SuspensionRow.toBody,
      Bigint.val_of_ofInt hb, Double.number_integer]

theorem standing_of_applied {existing : Option SuspensionRow} {key : String} {body : SuspensionBody}
    {one : Applied SuspensionRow}
    (hfree : ∀ row, existing = some row →
      sha.hex (((row.toBody key).accepted.merge nfc sha body).versionText nfc) =
        sha.hex ((row.toBody key).accepted.versionText nfc) →
      ((row.toBody key).accepted.merge nfc sha body).versionText nfc =
        (row.toBody key).accepted.versionText nfc)
    (h : applyOneTierB (acceptedSuspensions nfc sha) existing ⟨key, body⟩ = .ok one) :
    (one.row.toBody key).accepted.standing =
      existing.elim body.standing
        (fun row => max (row.toBody key).accepted.standing body.standing) := by
  have hkey : ∀ (row : SuspensionRow) (k : String),
      (row.toBody k).accepted.standing = (row.toBody key).accepted.standing := fun _ _ => rfl
  rcases applyOne_cases h with ⟨rfl, -, hinsert⟩ | ⟨row, rfl, -, hrow, hversion⟩ |
    ⟨row, rfl, -, hupdate⟩
  · exact (toRow_ok hinsert).1
  · have hmerge := (standing_of_versionText (hfree row rfl hversion)).1
    rw [standing_merge] at hmerge
    rw [hrow]
    exact hmerge.symm
  · have hmerge := (toRow_ok hupdate).1
    rw [hkey] at hmerge
    rw [hmerge]
    exact standing_merge _ _ _ _

end

end Cello.Directory.AntiEntropy
