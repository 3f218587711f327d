import Mathlib.Data.List.Induction
import Cello.Interfaces.SealChain

/-!
# The legibility of a seal

`packages/directory/src/seal-legibility.ts`: what a sealed transcript shows of each
participant, read off the verified leaves.  A participant's reach is the highest
sequence number it wrote or acknowledged, and the transcript counts as countersigned
as far as the least of these.
-/

namespace Cello.Directory.Seal

open Lib Cello.Interfaces

inductive AttestationMode where
  | live
  | absent
  | recovered
deriving DecidableEq, Repr

structure SealLegibilityParticipant where
  pubkey : Bytes
  contentFrontierSeq : JsNumber
  lastAuthoredSeq : JsNumber
  attestationMode : AttestationMode
deriving DecidableEq, Repr

structure SealLegibilityFinalMessage where
  senderPubkey : Bytes
  seq : JsNumber
  answered : Bool
deriving DecidableEq, Repr

def sealReceiptDisclaimer : String :=
  "This certificate attests faithful receipt, integrity, and ordering of the " ++
  "transcript. No signature in this certificate implies agreement to, or assent " ++
  "to, the contents of any message. Agreement is always a separate, explicit act " ++
  "(its own signed reply). A sealed transcript is a receipt, never a record of agreement."

structure SealLegibility where
  attests : String := "receipt"
  impliesAssent : Bool := false
  disclaimer : String := sealReceiptDisclaimer
  participants : List SealLegibilityParticipant
  finalMessage : SealLegibilityFinalMessage
  countersignedThroughSeq : JsNumber
deriving DecidableEq, Repr

def decodeSignedLastSeenSeq (ext : Externals) (cbor : Bytes) : Option JsNumber :=
  (decodeStructure1Fields ext cbor).map Structure1Fields.lastSeenSeq

/-! ### The closing ceremony -/

/-- The last two `ctrl` leaves, when two senders signed them: initiator and responder index. -/
def findSealCeremonyPair (leaves : List RelaySealLeaf) : Option (ℕ × ℕ) :=
  match leaves.zipIdx.reverse.filter fun e => decide (e.1.kind = .ctrl) with
  | responder :: initiator :: _ =>
    if responder.1.s2.senderPubkey = initiator.1.s2.senderPubkey then none
    else some (initiator.2, responder.2)
  | _ => none

/-- The `ctrl` leaves after the last message, when there is a ceremony. -/
def sealCeremonyRegion (leaves : List RelaySealLeaf) : List ℕ :=
  match findSealCeremonyPair leaves with
  | none => []
  | some _ =>
    ((leaves.zipIdx.reverse.takeWhile fun e => decide (e.1.kind ≠ .msg)).filter
      fun e => decide (e.1.kind = .ctrl)).map Prod.snd

/-- Who signed a `ctrl` leaf after the last message; document leaves are looked through. -/
def trailingSealCtrlAuthors (leaves : List RelaySealLeaf) : List Bytes :=
  ((leaves.reverse.filter fun l => decide (l.kind ≠ .doc ∧ l.kind ≠ .reject)).takeWhile
    fun l => decide (l.kind = .ctrl)).map fun l => l.s2.senderPubkey

/-! ### Participants -/

def participantReach (p : SealLegibilityParticipant) : JsNumber :=
  p.contentFrontierSeq.max p.lastAuthoredSeq

/-- The least reach, and `0` where there is none. -/
def countersignedThroughSeq (participants : List SealLegibilityParticipant) : JsNumber :=
  let lowest := participants.foldl
    (fun lowest p => if lowest.gt (participantReach p) then participantReach p else lowest)
    JsNumber.posInf
  match lowest with
  | .fin q => .fin q
  | _ => (0 : ℕ)

/-- What the walk over the leaves records. -/
structure Frontiers where
  order : List Bytes
  frontier : OrdMap Bytes JsNumber
  lastAuthored : OrdMap Bytes JsNumber

/-- `cur = map.get(k) ?? 0; if (n > cur) map.set(k, n)`. -/
def raise (m : OrdMap Bytes JsNumber) (k : Bytes) (n : JsNumber) : OrdMap Bytes JsNumber :=
  if n.gt ((m.get k).getD (0 : ℕ)) then m.set k n else m

def recordLeaf (ext : Externals) (st : Frontiers) (leaf : RelaySealLeaf) : Frontiers where
  order :=
    if leaf.s2.senderPubkey ∈ st.order then st.order else st.order ++ [leaf.s2.senderPubkey]
  frontier :=
    match decodeSignedLastSeenSeq ext leaf.structure1Cbor with
    | none => st.frontier
    | some n => raise st.frontier leaf.s2.senderPubkey n
  lastAuthored := raise st.lastAuthored leaf.s2.senderPubkey leaf.s2.sequenceNumber

def frontiersOf (ext : Externals) (leaves : List RelaySealLeaf) : Frontiers :=
  leaves.foldl (recordLeaf ext) { order := [], frontier := OrdMap.empty, lastAuthored := OrdMap.empty }

def participantsOf (ext : Externals) (overrides : Bytes → Option AttestationMode)
    (leaves : List RelaySealLeaf) : List SealLegibilityParticipant :=
  let st := frontiersOf ext leaves
  st.order.map fun key =>
    { pubkey := key
      contentFrontierSeq := (st.frontier.get key).getD (0 : ℕ)
      lastAuthoredSeq := (st.lastAuthored.get key).getD (0 : ℕ)
      attestationMode := (overrides key).getD
        (if key ∈ trailingSealCtrlAuthors leaves then .live else .absent) }

/-! ### The final message -/

/-- The first leaf with the highest sequence number above `-1`, among those satisfying `p`. -/
def highest (p : RelaySealLeaf → Bool) (leaves : List RelaySealLeaf) : Option RelaySealLeaf :=
  leaves.foldl (fun best l =>
    if p l ∧ l.s2.sequenceNumber.gt ((best.map fun b => b.s2.sequenceNumber).getD (.fin (-1))) then
      some l
    else best) none

/-- Somebody else wrote a leaf after `seq` that is not part of the closing and not a document. -/
def answeredAfter (leaves : List RelaySealLeaf) (sender : Bytes) (seq : JsNumber) : Bool :=
  leaves.zipIdx.any fun e =>
    decide (e.2 ∉ sealCeremonyRegion leaves) && decide (e.1.kind ≠ .doc) &&
      decide (e.1.kind ≠ .reject) && decide (e.1.s2.senderPubkey ≠ sender) &&
      e.1.s2.sequenceNumber.gt seq

/-- `none` when there is no leaf at all, where the source throws. -/
def finalMessageOf (leaves : List RelaySealLeaf) : Option SealLegibilityFinalMessage :=
  match highest (fun l => decide (l.kind = .msg)) leaves with
  | some l => some
      { senderPubkey := l.s2.senderPubkey, seq := l.s2.sequenceNumber
        answered := answeredAfter leaves l.s2.senderPubkey l.s2.sequenceNumber }
  | none =>
    ((highest (fun _ => true) leaves).or leaves.head?).map fun l =>
      { senderPubkey := l.s2.senderPubkey, seq := l.s2.sequenceNumber, answered := false }

theorem highest_mem {p : RelaySealLeaf → Bool} {leaves : List RelaySealLeaf} {l : RelaySealLeaf}
    (h : highest p leaves = some l) : l ∈ leaves := by
  induction leaves using List.reverseRecOn with
  | nil => cases h
  | append_singleton init a ih =>
    rw [highest, List.foldl_append, List.foldl_cons, List.foldl_nil] at h
    split at h
    · cases h
      exact List.mem_append_right _ List.mem_cons_self
    · exact List.mem_append_left _ (ih h)

theorem finalMessage_leaf {leaves : List RelaySealLeaf} {m : SealLegibilityFinalMessage}
    (h : finalMessageOf leaves = some m) :
    ∃ l ∈ leaves, l.s2.senderPubkey = m.senderPubkey ∧ l.s2.sequenceNumber = m.seq := by
  rw [finalMessageOf] at h
  split at h
  · rename_i l hl
    cases h
    exact ⟨l, highest_mem hl, rfl, rfl⟩
  · obtain ⟨l, hl, rfl⟩ := Option.map_eq_some_iff.1 h
    refine ⟨l, ?_, rfl, rfl⟩
    rcases Option.or_eq_some_iff.1 hl with hl | ⟨-, hl⟩
    · exact highest_mem hl
    · exact List.mem_of_mem_head? hl

def buildSealLegibility (ext : Externals) (overrides : Bytes → Option AttestationMode)
    (leaves : List RelaySealLeaf) : Option SealLegibility :=
  (finalMessageOf leaves).map fun finalMessage =>
    { participants := participantsOf ext overrides leaves
      finalMessage := finalMessage
      countersignedThroughSeq := countersignedThroughSeq (participantsOf ext overrides leaves) }

end Cello.Directory.Seal
