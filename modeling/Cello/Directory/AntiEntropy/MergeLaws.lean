import Cello.Directory.AntiEntropy.Liveness
import Cello.Lib.Pick
import Mathlib.Data.Prod.Lex

/-!
# The laws of the merges

`presence-merge.ts`, `directory-node-heartbeat-merge.ts` and `suspension-merge.ts`, as algebra.

The freshness merges pick by the time, with what is no time below every time, and then by a canonical text, which
tells all that is replicated.  The key is injective, so both settle (`freshness_merges_settle`); the status of a
heartbeat stays the receiver's.

The suspension merge picks by the sequence number and then by a hash, which sees its texts normalized.  `paused` is
an or among the records of the greatest sequence number and `burned` an or of all, and neither disturbs the pick.
So it is idempotent and associative always, and commutative unless two spellings of one text meet
(`suspension_laws_iff`).
-/

namespace Cello.Directory.AntiEntropy

open Lib

/-! ### Freshness -/

def timeRank (s : String) : WithBot ℚ :=
  match AntiEntropy.norm s with
  | .fin q => q
  | _ => ⊥

/-- What `freshest` compares. -/
def freshness {β : Type} (time canonical : β → String) (r : β) : WithBot ℚ ×ₗ List ℕ :=
  toLex (timeRank (time r), Text.codeUnits (canonical r))

theorem norm_eq (s : String) :
    (∃ q : ℚ, AntiEntropy.norm s = .fin q ∧ timeRank s = q) ∨ AntiEntropy.norm s = .negInf ∧ timeRank s = ⊥ := by
  unfold timeRank AntiEntropy.norm
  cases Number.ofString s with
  | fin q => exact .inl ⟨q, rfl, rfl⟩
  | nan => exact .inr ⟨rfl, rfl⟩
  | negInf => exact .inr ⟨rfl, rfl⟩
  | posInf => exact .inr ⟨rfl, rfl⟩

theorem norm_eq_iff {s t : String} : AntiEntropy.norm s = AntiEntropy.norm t ↔ timeRank s = timeRank t := by
  rcases norm_eq s with ⟨q, hs, hs'⟩ | ⟨hs, hs'⟩ <;> rcases norm_eq t with ⟨r, ht, ht'⟩ | ⟨ht, ht'⟩
  · simp [hs, hs', ht, ht']
  · simp [hs, hs', ht, ht']
  · simp [hs, hs', ht, ht']
  · simp [hs, hs', ht, ht']

theorem norm_gt_iff {s t : String} :
    (AntiEntropy.norm s).gt (AntiEntropy.norm t) = true ↔ timeRank t < timeRank s := by
  rcases norm_eq s with ⟨q, hs, hs'⟩ | ⟨hs, hs'⟩ <;> rcases norm_eq t with ⟨r, ht, ht'⟩ | ⟨ht, ht'⟩
  · simp [hs, hs', ht, ht', JsNumber.gt]
  · simp [hs, hs', ht, ht', JsNumber.gt]
  · simp [hs, hs', ht, ht', JsNumber.gt]
  · simp [hs, hs', ht, ht', JsNumber.gt]

theorem freshest_eq_pick {β : Type} (time canonical : β → String) (a b : β) :
    freshest time canonical a b = pick (freshness time canonical) a b := by
  have hle : freshness time canonical b ≤ freshness time canonical a ↔
      timeRank (time b) < timeRank (time a) ∨
        timeRank (time b) = timeRank (time a) ∧ Text.unitLe (canonical b) (canonical a) = true := by
    rw [freshness, freshness, Prod.Lex.toLex_le_toLex, Text.unitLe, decide_eq_true_eq]
  unfold freshest pick
  simp only [hle, ne_eq, norm_eq_iff, norm_gt_iff]
  rcases lt_trichotomy (timeRank (time b)) (timeRank (time a)) with h | h | h
  · simp [h, h.ne']
  · simp [h]
  · simp [h.ne, h.not_gt, h.ne']

theorem freshness_injective {β : Type} {time canonical : β → String} (h : Function.Injective canonical) :
    Function.Injective (freshness time canonical) := by
  intro a b hab
  exact h (Text.codeUnits_injective (congrArg (fun k => (ofLex k).2) hab))

theorem PresenceRecord.canonical_injective : Function.Injective PresenceRecord.canonical := by
  intro a b h
  obtain ⟨kLocalPubkey, online, owningNodeId, lastSeenAt, updatedAt⟩ := a
  have h := Json.stringify_inj h
  simp only [Json.arr.injEq, List.cons.injEq, Json.str.injEq, Json.bool.injEq, and_true] at h
  obtain ⟨rfl, rfl, rfl, rfl, rfl⟩ := h
  rfl

/-- The columns of a heartbeat that a peer's row is merged into. -/
structure ReplicatedHeartbeat where
  nodeId : String
  lastHeartbeatAt : String
deriving DecidableEq, Repr

namespace DirectoryNodeHeartbeatRecord

def replicated (r : DirectoryNodeHeartbeatRecord) : ReplicatedHeartbeat := ⟨r.nodeId, r.lastHeartbeatAt⟩

end DirectoryNodeHeartbeatRecord

/-- `canonical` of a heartbeat, which sees the replicated columns. -/
def ReplicatedHeartbeat.canonical (r : ReplicatedHeartbeat) : String :=
  Json.stringify (.arr [.str r.nodeId, .str r.lastHeartbeatAt])

theorem ReplicatedHeartbeat.canonical_injective : Function.Injective ReplicatedHeartbeat.canonical := by
  intro a b h
  obtain ⟨nodeId, lastHeartbeatAt⟩ := a
  have h := Json.stringify_inj h
  simp only [Json.arr.injEq, List.cons.injEq, Json.str.injEq, and_true] at h
  obtain ⟨rfl, rfl⟩ := h
  rfl

theorem replicated_merge (a b : DirectoryNodeHeartbeatRecord) :
    (mergeDirectoryNodeHeartbeat a b).replicated =
      pick (freshness ReplicatedHeartbeat.lastHeartbeatAt ReplicatedHeartbeat.canonical) a.replicated
        b.replicated := by
  have hkey : ∀ r : DirectoryNodeHeartbeatRecord,
      freshness DirectoryNodeHeartbeatRecord.lastHeartbeatAt DirectoryNodeHeartbeatRecord.canonical r =
        freshness ReplicatedHeartbeat.lastHeartbeatAt ReplicatedHeartbeat.canonical r.replicated := fun _ => rfl
  change (freshest _ _ a b).replicated = _
  rw [freshest_eq_pick]
  unfold pick
  rw [hkey, hkey]
  split_ifs
  · rfl
  · rfl

/-- **The freshness merges are semilattices**: presence rows whole, heartbeats on the replicated columns, with the
receiver's status in the end. -/
theorem freshness_merges_settle :
    Settles id mergePresence ∧ Settles DirectoryNodeHeartbeatRecord.replicated mergeDirectoryNodeHeartbeat ∧
      ∀ (own : DirectoryNodeHeartbeatRecord) (l : List DirectoryNodeHeartbeatRecord),
        (l.foldl mergeDirectoryNodeHeartbeat own).status = own.status := by
  refine ⟨?_, ?_, ?_⟩
  · exact Settles.of_pick (freshness_injective PresenceRecord.canonical_injective) (freshest_eq_pick _ _)
  · exact Settles.of_pick (freshness_injective ReplicatedHeartbeat.canonical_injective) replicated_merge
  · intro own l
    induction l generalizing own with
    | nil => rfl
    | cons b l ih => exact ih (mergeDirectoryNodeHeartbeat own b)

/-! ### Suspensions -/

def SuspensionRecord.unflagged (r : SuspensionRecord) : SuspensionRecord := { r with paused := false, burned := false }

def suspensionKey (nfc : Nfc) (sha : Sha256) (r : SuspensionRecord) : Double.Whole ×ₗ String :=
  toLex (r.suspensionSeq, tiebreakHash nfc sha r)

theorem SuspensionRecord.ext_unflagged {a b : SuspensionRecord} (h : a.unflagged = b.unflagged)
    (hpaused : a.paused = true ↔ b.paused = true) (hburned : a.burned = b.burned) : a = b := by
  obtain ⟨agentId, paused, burned, reason, authorizedByAccount, suspensionSeq, originNode⟩ := a
  simp only [SuspensionRecord.unflagged, SuspensionRecord.mk.injEq, true_and] at h
  obtain ⟨rfl, rfl, rfl, rfl, rfl⟩ := h
  obtain rfl : paused = b.paused := Bool.eq_iff_iff.2 hpaused
  obtain rfl : burned = b.burned := hburned
  rfl

section

variable {nfc : Nfc} {sha : Sha256}

theorem unflagged_mergeSuspension (a b : SuspensionRecord) :
    (mergeSuspension nfc sha a b).unflagged = pick (suspensionKey nfc sha) a.unflagged b.unflagged := by
  have hle : suspensionKey nfc sha b.unflagged ≤ suspensionKey nfc sha a.unflagged ↔
      b.suspensionSeq < a.suspensionSeq ∨
        b.suspensionSeq = a.suspensionSeq ∧ tiebreakHash nfc sha b ≤ tiebreakHash nfc sha a :=
    Prod.Lex.toLex_le_toLex
  rcases lt_trichotomy a.suspensionSeq b.suspensionSeq with h | h | h
  · rw [mergeSuspension_of_lt h, pick, if_neg (fun hb => (hle.1 hb).elim h.not_gt fun he => h.ne' he.1)]
    rfl
  · by_cases htie : tiebreakHash nfc sha b ≤ tiebreakHash nfc sha a
    · rw [pick, if_pos (hle.2 (.inr ⟨h.symm, htie⟩)), mergeSuspension, if_neg (not_not.2 h), if_pos htie]
      rfl
    · rw [pick, if_neg (fun hb => (hle.1 hb).elim h.not_gt fun he => htie he.2), mergeSuspension,
        if_neg (not_not.2 h), if_neg htie]
      rfl
  · rw [mergeSuspension_of_gt h, pick, if_pos (hle.2 (.inl h))]
    rfl

theorem paused_mergeSuspension_iff (a b : SuspensionRecord) : (mergeSuspension nfc sha a b).paused = true ↔
    (b.suspensionSeq ≤ a.suspensionSeq ∧ a.paused = true) ∨
      (a.suspensionSeq ≤ b.suspensionSeq ∧ b.paused = true) := by
  rcases lt_trichotomy a.suspensionSeq b.suspensionSeq with h | h | h
  · simp [mergeSuspension_of_lt h, h.not_ge, h.le]
  · rw [mergeSuspension_paused_of_eq h, h]
    simp
  · simp [mergeSuspension_of_gt h, h.not_ge, h.le]

theorem mergeSuspension_self (a : SuspensionRecord) : mergeSuspension nfc sha a a = a := by
  refine SuspensionRecord.ext_unflagged ?_ ?_ ?_
  · rw [unflagged_mergeSuspension, pick_self]
  · rw [paused_mergeSuspension_iff]
    simp
  · rw [mergeSuspension_burned, Bool.or_self]

theorem mergeSuspension_assoc (a b c : SuspensionRecord) :
    mergeSuspension nfc sha a (mergeSuspension nfc sha b c) =
      mergeSuspension nfc sha (mergeSuspension nfc sha a b) c := by
  refine SuspensionRecord.ext_unflagged ?_ ?_ ?_
  · simp only [unflagged_mergeSuspension, pick_assoc]
  · simp only [paused_mergeSuspension_iff, mergeSuspension_seq, max_le_iff, le_max_iff]
    -- a paused record counts if it is of the greatest number of the three, whichever two meet first
    generalize a.suspensionSeq = x
    generalize b.suspensionSeq = y
    generalize c.suspensionSeq = z
    have hyz : (x ≤ y ∨ x ≤ z) ∧ z ≤ y ↔ x ≤ y ∧ z ≤ y :=
      and_congr_left fun hzy => ⟨fun h => h.elim id fun hxz => hxz.trans hzy, Or.inl⟩
    have hzy : (x ≤ y ∨ x ≤ z) ∧ y ≤ z ↔ x ≤ z ∧ y ≤ z :=
      and_congr_left fun hyz => ⟨fun h => h.elim (fun hxy => hxy.trans hyz) id, Or.inr⟩
    have hxy : (z ≤ x ∨ z ≤ y) ∧ y ≤ x ↔ y ≤ x ∧ z ≤ x := by
      rw [and_comm (a := y ≤ x)]
      exact and_congr_left fun hyx => ⟨fun h => h.elim id fun hzy => hzy.trans hyx, Or.inl⟩
    have hyx : (z ≤ x ∨ z ≤ y) ∧ x ≤ y ↔ x ≤ y ∧ z ≤ y := by
      rw [and_comm (a := x ≤ y)]
      exact and_congr_left fun hxy => ⟨fun h => h.elim (fun hzx => hzx.trans hxy) id, Or.inr⟩
    rw [and_or_left, and_or_left, ← and_assoc, ← and_assoc, ← and_assoc, ← and_assoc, hyz, hzy, hxy, hyx, or_assoc]
  · rw [mergeSuspension_burned, mergeSuspension_burned, mergeSuspension_burned, mergeSuspension_burned,
      Bool.or_assoc]

theorem suspensionKey_eq_iff {a b : SuspensionRecord}
    (hinj : Set.InjOn sha.hex {tiebreakText nfc a, tiebreakText nfc b}) :
    suspensionKey nfc sha a = suspensionKey nfc sha b ↔ label nfc a = label nfc b := by
  constructor
  · intro h
    have hhash : sha.hex (tiebreakText nfc a) = sha.hex (tiebreakText nfc b) := congrArg (fun k => (ofLex k).2) h
    exact tiebreakText_eq_iff.1 (hinj (.inl rfl) (.inr rfl) hhash)
  · intro h
    have hseq : a.suspensionSeq = b.suspensionSeq := congrArg Label.suspensionSeq h
    rw [suspensionKey, suspensionKey, hseq, tiebreakHash_congr h]

theorem mergeSuspension_comm_iff {a b : SuspensionRecord} (hagent : a.agentId = b.agentId)
    (hinj : Set.InjOn sha.hex {tiebreakText nfc a, tiebreakText nfc b}) :
    mergeSuspension nfc sha a b = mergeSuspension nfc sha b a ↔ (label nfc a = label nfc b →
      a.reason = b.reason ∧ a.authorizedByAccount = b.authorizedByAccount ∧ a.originNode = b.originNode) := by
  have hpick : mergeSuspension nfc sha a b = mergeSuspension nfc sha b a ↔
      pick (suspensionKey nfc sha) a.unflagged b.unflagged =
        pick (suspensionKey nfc sha) b.unflagged a.unflagged := by
    rw [← unflagged_mergeSuspension, ← unflagged_mergeSuspension]
    refine ⟨congrArg SuspensionRecord.unflagged, fun h => SuspensionRecord.ext_unflagged h ?_ ?_⟩
    · rw [paused_mergeSuspension_iff, paused_mergeSuspension_iff, or_comm]
    · rw [mergeSuspension_burned, mergeSuspension_burned, Bool.or_comm]
  have hkey : suspensionKey nfc sha a.unflagged = suspensionKey nfc sha b.unflagged ↔ label nfc a = label nfc b :=
    suspensionKey_eq_iff hinj
  rw [hpick, pick_comm_iff, hkey]
  refine imp_congr_right fun hlabel => ?_
  have hseq : a.suspensionSeq = b.suspensionSeq := congrArg Label.suspensionSeq hlabel
  simp [SuspensionRecord.unflagged, hagent, hseq]

/-- **The laws of the suspension merge**: it is idempotent and associative on every record, and commutative exactly
if the two records do not spell one label in two ways. -/
theorem suspension_laws_iff (nfc : Nfc) (sha : Sha256) {a b : SuspensionRecord} (c : SuspensionRecord)
    (hagent : a.agentId = b.agentId) (hinj : Set.InjOn sha.hex {tiebreakText nfc a, tiebreakText nfc b}) :
    (mergeSuspension nfc sha a a = a ∧ mergeSuspension nfc sha a b = mergeSuspension nfc sha b a ∧
      mergeSuspension nfc sha a (mergeSuspension nfc sha b c) =
        mergeSuspension nfc sha (mergeSuspension nfc sha a b) c) ↔
      (label nfc a = label nfc b →
        a.reason = b.reason ∧ a.authorizedByAccount = b.authorizedByAccount ∧ a.originNode = b.originNode) := by
  rw [← mergeSuspension_comm_iff hagent hinj]
  exact ⟨fun h => h.2.1, fun h => ⟨mergeSuspension_self a, h, mergeSuspension_assoc a b c⟩⟩

end

namespace MergeLaws.Sample

/-- A letter with its accent is composed; the text is otherwise its own normal form. -/
def nfc : Nfc where
  normalize s := if s = "e\u0301" then "\u00e9" else s
  normalize_ascii s hs := by
    refine if_neg fun he => ?_
    exact absurd (hs (Char.ofNat 0x301) (by rw [he]; decide)) (by decide)

def suspended (reason : String) : SuspensionRecord where
  agentId := "agent"
  paused := true
  burned := false
  reason := some reason
  authorizedByAccount := none
  suspensionSeq := Double.number 3
  originNode := "dir-1"

/-- The digests of what is hashed of two reasons. -/
def sha : Sha256 := HexSha256.toSha256 <|
  .ofTable [(tiebreakText nfc (suspended "\u00e9"),
        0x69c05fd5ab2fc1516a542f6e948c65f8d98f01dca3b4177b30318f6f4ba899e0#256),
      (tiebreakText nfc (suspended "lost device"),
        0xd114351a6ad1831912e647005d6f57d855cfd335d8fed14b2aa557fbf5961c37#256)]
    0xe3b0c44298fc1c149afbf4c8996fb92427ae41e4649b934ca495991b7852b855#256

theorem sameLabel : label nfc (suspended "e\u0301") = label nfc (suspended "\u00e9") := by
  simp [label, suspended, nfc]

theorem injOn : Set.InjOn sha.hex
    {tiebreakText nfc (suspended "e\u0301"), tiebreakText nfc (suspended "\u00e9")} := by
  rw [tiebreakText_eq_iff.2 sameLabel, Set.pair_eq_singleton]
  exact Set.injOn_singleton _ _

end MergeLaws.Sample

open MergeLaws.Sample in
/-- One reason in two spellings. -/
theorem suspension_laws_two_spellings :
    (mergeSuspension nfc sha (suspended "e\u0301") (suspended "e\u0301") = suspended "e\u0301" ∧
      mergeSuspension nfc sha (suspended "e\u0301") (suspended "\u00e9") =
        mergeSuspension nfc sha (suspended "\u00e9") (suspended "e\u0301") ∧
      mergeSuspension nfc sha (suspended "e\u0301")
          (mergeSuspension nfc sha (suspended "\u00e9") (suspended "lost device")) =
        mergeSuspension nfc sha (mergeSuspension nfc sha (suspended "e\u0301") (suspended "\u00e9"))
          (suspended "lost device")) ↔
      (label nfc (suspended "e\u0301") = label nfc (suspended "\u00e9") →
        (suspended "e\u0301").reason = (suspended "\u00e9").reason ∧
          (suspended "e\u0301").authorizedByAccount = (suspended "\u00e9").authorizedByAccount ∧
          (suspended "e\u0301").originNode = (suspended "\u00e9").originNode) :=
  suspension_laws_iff nfc sha (suspended "lost device") rfl injOn

open MergeLaws.Sample in
/-- Which of the two spellings is kept depends on which record is merged into which. -/
theorem suspension_order_shows : ¬∀ (nfc : Nfc) (sha : Sha256) (a b c : SuspensionRecord),
    a.agentId = b.agentId → b.agentId = c.agentId →
      Set.InjOn sha.hex {tiebreakText nfc a, tiebreakText nfc b, tiebreakText nfc c} →
        mergeSuspension nfc sha a a = a ∧ mergeSuspension nfc sha a b = mergeSuspension nfc sha b a ∧
          mergeSuspension nfc sha a (mergeSuspension nfc sha b c) =
            mergeSuspension nfc sha (mergeSuspension nfc sha a b) c := by
  intro h
  have htexts : Set.InjOn sha.hex {tiebreakText nfc (suspended "e\u0301"),
      tiebreakText nfc (suspended "\u00e9"), tiebreakText nfc (suspended "\u00e9")} := by
    rw [Set.pair_eq_singleton]
    exact injOn
  have hcomm := (h nfc sha (suspended "e\u0301") (suspended "\u00e9") (suspended "\u00e9") rfl rfl htexts).2.1
  have hreason := (mergeSuspension_comm_iff (a := suspended "e\u0301") (b := suspended "\u00e9") rfl injOn).1 hcomm
    sameLabel
  exact absurd hreason.1 (by decide)

end Cello.Directory.AntiEntropy
