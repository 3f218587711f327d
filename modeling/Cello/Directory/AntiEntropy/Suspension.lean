import Cello.Directory.AntiEntropy.RecordHash
import Cello.Lib.Decimal

/-!
# The suspension merge

`packages/directory/src/suspension-merge.ts` and the `agent_suspensions` part of
`ae-mutable-version.ts`.  A record's *label* is what the tiebreak hash sees of it, after
normalization; its version is the label together with the two flags.

Everything later rests on what one merge does to the four parts: `burned` is an or
(`mergeSuspension_burned`), the sequence number is the greater one
(`mergeSuspension_seq`), the label is that of one of the two records
(`label_mergeSuspension`), and `paused` follows the label or is an or.  From these,
merging twice in either order settles on one version (`sameVersion_absorb`).
-/

namespace Cello.Directory.AntiEntropy

open Lib

/-- The merge-relevant columns of an `agent_suspensions` row. -/
structure SuspensionRecord where
  agentId : String
  paused : Bool
  burned : Bool
  reason : Option String
  authorizedByAccount : Option String
  suspensionSeq : Double.Whole
  originNode : String
deriving DecidableEq

/-- `string | null`. -/
def textOrNull : Option String → CanonicalValue
  | some s => .str s
  | none => .null

def tiebreakTable : String := "agent_suspensions.tiebreak"

def tiebreakColumns : List String :=
  ["agent_id", "reason", "authorized_by_account", "origin_node", "suspension_seq"]

/-- The object `tiebreakHash` hashes, column by column. -/
def tiebreakValue (r : SuspensionRecord) : String → CanonicalValue
  | "agent_id" => .str r.agentId
  | "reason" => textOrNull r.reason
  | "authorized_by_account" => textOrNull r.authorizedByAccount
  | "origin_node" => .str r.originNode
  | "suspension_seq" => .str (Double.text r.suspensionSeq)
  | _ => .null

/-- The text `tiebreakHash` hashes. -/
def tiebreakText (nfc : Nfc) (r : SuspensionRecord) : String :=
  recordText nfc tiebreakTable (tiebreakColumns.map fun c => (c, tiebreakValue r c))

def tiebreakHash (nfc : Nfc) (sha : Sha256) (r : SuspensionRecord) : String :=
  sha.hex (tiebreakText nfc r)

/-- Digests are compared as strings; on lower-case hex the order by code unit is the order of
characters. -/
def mergeSuspension (nfc : Nfc) (sha : Sha256) (a b : SuspensionRecord) : SuspensionRecord :=
  let burned := a.burned || b.burned
  if a.suspensionSeq ≠ b.suspensionSeq then
    let winner := if b.suspensionSeq < a.suspensionSeq then a else b
    { winner with burned }
  else
    let paused := a.paused || b.paused
    let winner := if tiebreakHash nfc sha b ≤ tiebreakHash nfc sha a then a else b
    { agentId := winner.agentId
      paused
      burned
      reason := winner.reason
      authorizedByAccount := winner.authorizedByAccount
      suspensionSeq := winner.suspensionSeq
      originNode := winner.originNode }

/-! ### The version of a record -/

def suspensionVersionSpec : TierBVersionSpec where
  table := "agent_suspensions"
  key := ["agent_id"]
  versionColumns := ["agent_id", "paused", "burned", "reason", "authorized_by_account",
    "suspension_seq", "origin_node"]

/-- `SUSPENSIONS.toVersionRow(body)`: numbers as text. -/
def toVersionRow (r : SuspensionRecord) : MutableRow
  | "agent_id" => some (.canonical (.str r.agentId))
  | "paused" => some (.canonical (.bool r.paused))
  | "burned" => some (.canonical (.bool r.burned))
  | "reason" => some (.canonical (textOrNull r.reason))
  | "authorized_by_account" => some (.canonical (textOrNull r.authorizedByAccount))
  | "suspension_seq" => some (.canonical (.str (Double.text r.suspensionSeq)))
  | "origin_node" => some (.canonical (.str r.originNode))
  | _ => none

def versionText (nfc : Nfc) (r : SuspensionRecord) : String :=
  tierBText nfc suspensionVersionSpec (toVersionRow r)

/-- `encodeTierBVersion(SUSPENSION_VERSION_SPEC, toVersionRow(r)).versionHash`. -/
def versionHash (nfc : Nfc) (sha : Sha256) (r : SuspensionRecord) : String :=
  (encodeTierBVersion nfc sha suspensionVersionSpec (toVersionRow r)).2

theorem versionHash_eq (nfc : Nfc) (sha : Sha256) (r : SuspensionRecord) :
    versionHash nfc sha r = sha.hex (versionText nfc r) := rfl

/-! ### Labels -/

/-- What the tiebreak compares: the fields that are copied wholesale. -/
structure Label where
  agentId : String
  reason : Option String
  authorizedByAccount : Option String
  originNode : String
  suspensionSeq : Double.Whole
deriving DecidableEq

def label (nfc : Nfc) (r : SuspensionRecord) : Label where
  agentId := nfc.normalize r.agentId
  reason := r.reason.map nfc.normalize
  authorizedByAccount := r.authorizedByAccount.map nfc.normalize
  originNode := nfc.normalize r.originNode
  suspensionSeq := r.suspensionSeq

/-- Two records a peer cannot tell apart by their version. -/
structure SameVersion (nfc : Nfc) (r s : SuspensionRecord) : Prop where
  label : label nfc r = label nfc s
  paused : r.paused = s.paused
  burned : r.burned = s.burned

section

variable {nfc : Nfc} {sha : Sha256} {a b : SuspensionRecord} {r s : SuspensionRecord}

theorem SameVersion.refl (r : SuspensionRecord) : SameVersion nfc r r := ⟨rfl, rfl, rfl⟩

theorem SameVersion.symm (h : SameVersion nfc r s) :
    SameVersion nfc s r := ⟨h.label.symm, h.paused.symm, h.burned.symm⟩

theorem SameVersion.trans {r s t : SuspensionRecord} (h : SameVersion nfc r s)
    (k : SameVersion nfc s t) : SameVersion nfc r t :=
  ⟨h.label.trans k.label, h.paused.trans k.paused, h.burned.trans k.burned⟩

theorem SameVersion.seq (h : SameVersion nfc r s) :
    r.suspensionSeq = s.suspensionSeq := congrArg Label.suspensionSeq h.label

theorem replaced_textOrNull_iff {x y : Option String} :
    replaced nfc (textOrNull x) = replaced nfc (textOrNull y) ↔
      x.map nfc.normalize = y.map nfc.normalize := by
  cases x <;> cases y <;> simp [textOrNull, replaced]

theorem replaced_str_iff {x y : String} :
    replaced nfc (.str x) = replaced nfc (.str y) ↔ nfc.normalize x = nfc.normalize y := by
  simp [replaced]

theorem normalize_text_iff {d e : Double.Whole} :
    nfc.normalize (Double.text d) = nfc.normalize (Double.text e) ↔ d = e := by
  rw [nfc.normalize_ascii _ (Double.text_ascii d), nfc.normalize_ascii _ (Double.text_ascii e)]
  exact ⟨Double.text_inj, fun h => by rw [h]⟩

theorem replaced_flag_iff {x y : Bool} :
    replaced nfc (normalizeColumn (some (.canonical (.bool x)))) =
      replaced nfc (normalizeColumn (some (.canonical (.bool y)))) ↔ x = y := by
  have ht : nfc.normalize "true" = "true" := nfc.normalize_ascii _ (by simp)
  have hf : nfc.normalize "false" = "false" := nfc.normalize_ascii _ (by simp)
  cases x <;> cases y <;> simp [normalizeColumn, replaced, ht, hf]

theorem normalizeColumn_textOrNull (x : Option String) :
    normalizeColumn (some (.canonical (textOrNull x))) = textOrNull x := by
  cases x <;> rfl

theorem tiebreakText_eq_iff :
    tiebreakText nfc r = tiebreakText nfc s ↔ label nfc r = label nfc s := by
  rw [tiebreakText, tiebreakText, recordText_eq_iff]
  simp only [tiebreakColumns, List.forall_mem_cons, List.not_mem_nil, false_implies,
    implies_true, and_true, tiebreakValue, replaced_str_iff, replaced_textOrNull_iff,
    normalize_text_iff, label, Label.mk.injEq]

theorem versionText_eq_iff :
    versionText nfc r = versionText nfc s ↔ SameVersion nfc r s := by
  rw [versionText, versionText, tierBText, tierBText, recordText_eq_iff]
  simp only [suspensionVersionSpec, List.forall_mem_cons, List.not_mem_nil, false_implies,
    implies_true, and_true, toVersionRow, replaced_flag_iff, normalizeColumn_textOrNull,
    replaced_textOrNull_iff]
  -- the columns that stay text: agent, sequence number and node
  have hid : ∀ t : String, normalizeColumn (some (.canonical (.str t))) = .str t := fun _ => rfl
  simp only [hid, replaced_str_iff, normalize_text_iff]
  constructor
  · rintro ⟨h1, h2, h3, h4, h5, h6, h7⟩
    exact ⟨by simp only [label, h1, h4, h5, h6, h7], h2, h3⟩
  · rintro ⟨hl, hp, hb⟩
    simp only [label, Label.mk.injEq] at hl
    obtain ⟨h1, h4, h5, h7, h6⟩ := hl
    exact ⟨h1, hp, hb, h4, h5, h6, h7⟩

/-! ### What one merge does -/

@[simp] theorem mergeSuspension_burned (a b : SuspensionRecord) :
    (mergeSuspension nfc sha a b).burned = (a.burned || b.burned) := by
  unfold mergeSuspension
  dsimp only
  split_ifs <;> rfl

theorem mergeSuspension_of_lt (h : a.suspensionSeq < b.suspensionSeq) :
    mergeSuspension nfc sha a b = { b with burned := a.burned || b.burned } := by
  unfold mergeSuspension
  dsimp only
  rw [if_pos (ne_of_lt h), if_neg (not_lt_of_gt h)]

theorem mergeSuspension_of_gt (h : b.suspensionSeq < a.suspensionSeq) :
    mergeSuspension nfc sha a b = { a with burned := a.burned || b.burned } := by
  unfold mergeSuspension
  dsimp only
  rw [if_pos (ne_of_gt h), if_pos h]

theorem mergeSuspension_paused_of_eq (h : a.suspensionSeq = b.suspensionSeq) :
    (mergeSuspension nfc sha a b).paused = (a.paused || b.paused) := by
  unfold mergeSuspension
  dsimp only
  rw [if_neg (not_not.2 h)]

theorem label_mergeSuspension_of_eq (h : a.suspensionSeq = b.suspensionSeq) :
    label nfc (mergeSuspension nfc sha a b) =
      if tiebreakHash nfc sha b ≤ tiebreakHash nfc sha a then label nfc a else label nfc b := by
  unfold mergeSuspension
  dsimp only
  rw [if_neg (not_not.2 h)]
  split_ifs <;> rfl

theorem mergeSuspension_agentId (h : a.agentId = b.agentId) :
    (mergeSuspension nfc sha a b).agentId = a.agentId := by
  unfold mergeSuspension
  dsimp only
  split_ifs <;> simp [h]

theorem mergeSuspension_seq (a b : SuspensionRecord) :
    (mergeSuspension nfc sha a b).suspensionSeq = max a.suspensionSeq b.suspensionSeq := by
  rcases lt_trichotomy a.suspensionSeq b.suspensionSeq with h | h | h
  · rw [mergeSuspension_of_lt h, max_eq_right h.le]
  · change (label nfc (mergeSuspension nfc sha a b)).suspensionSeq = _
    rw [label_mergeSuspension_of_eq h, h, max_self]
    split_ifs
    · exact h
    · rfl
  · rw [mergeSuspension_of_gt h, max_eq_left h.le]

theorem mergeSuspension_paused_of_le (h : b.suspensionSeq ≤ a.suspensionSeq) (hp : a.paused = true) :
    (mergeSuspension nfc sha a b).paused = true := by
  rcases h.eq_or_lt with he | hl
  · rw [mergeSuspension_paused_of_eq he.symm, hp, Bool.true_or]
  · rw [mergeSuspension_of_gt hl, hp]

/-! ### Merging settles -/

theorem tiebreakHash_congr (h : label nfc r = label nfc s) :
    tiebreakHash nfc sha r = tiebreakHash nfc sha s := by
  rw [tiebreakHash, tiebreakHash, tiebreakText_eq_iff.2 h]

theorem sameVersion_mergeSuspension (h : SameVersion nfc a b) :
    SameVersion nfc (mergeSuspension nfc sha a b) a := by
  have hseq := h.seq
  refine ⟨?_, ?_, ?_⟩
  · rw [label_mergeSuspension_of_eq hseq]
    split_ifs
    · rfl
    · exact h.label.symm
  · rw [mergeSuspension_paused_of_eq hseq, h.paused, Bool.or_self]
  · rw [mergeSuspension_burned, h.burned, Bool.or_self]

/-- **Once `m` is the merge of `a` and `b`, merging it into `b` leaves `m`.**  The only thing
asked of the hash is that the tiebreak tells the two labels apart. -/
theorem sameVersion_absorb {a b m : SuspensionRecord}
    (hfree : tiebreakHash nfc sha a = tiebreakHash nfc sha b → label nfc a = label nfc b)
    (hm : SameVersion nfc m (mergeSuspension nfc sha a b)) :
    SameVersion nfc (mergeSuspension nfc sha b m) m := by
  have hburned : (mergeSuspension nfc sha b m).burned = m.burned := by
    rw [mergeSuspension_burned, hm.burned, mergeSuspension_burned]
    cases a.burned <;> cases b.burned <;> rfl
  rcases lt_trichotomy a.suspensionSeq b.suspensionSeq with h | h | h
  · -- `b` was newer: `m` is `b`, possibly burned
    rw [mergeSuspension_of_lt h] at hm
    have hlab : label nfc m = label nfc b := hm.label
    have hseq : b.suspensionSeq = m.suspensionSeq := (congrArg Label.suspensionSeq hlab).symm
    refine ⟨?_, ?_, hburned⟩
    · rw [label_mergeSuspension_of_eq hseq, hlab, ite_self]
    · rw [mergeSuspension_paused_of_eq hseq, hm.paused, Bool.or_self]
  · have hseq : b.suspensionSeq = m.suspensionSeq := by
      rw [hm.seq, mergeSuspension_seq, h, max_self]
    refine ⟨?_, ?_, hburned⟩
    · have hlab := hm.label
      rw [label_mergeSuspension_of_eq h] at hlab
      rw [label_mergeSuspension_of_eq hseq]
      split_ifs at hlab with hab
      · rw [tiebreakHash_congr hlab]
        split_ifs with hba
        · rw [hlab, hfree (le_antisymm hba hab)]
        · rfl
      · rw [hlab, ite_self]
    · rw [mergeSuspension_paused_of_eq hseq, hm.paused, mergeSuspension_paused_of_eq h]
      cases a.paused <;> cases b.paused <;> rfl
  · -- `a` was newer: `m` is `a`, possibly burned, and newer than `b`
    have hlt : b.suspensionSeq < m.suspensionSeq := by
      rw [hm.seq, mergeSuspension_seq, max_eq_left h.le]
      exact h
    refine ⟨?_, ?_, hburned⟩
    · rw [mergeSuspension_of_lt hlt]
      rfl
    · rw [mergeSuspension_of_lt hlt]

end

end Cello.Directory.AntiEntropy
