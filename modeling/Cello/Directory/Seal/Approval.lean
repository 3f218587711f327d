import Cello.Directory.Seal.CosignEvidence
import Cello.Interfaces.SealChainSpec
import Mathlib.Data.UInt

/-!
# Which leaves both participants approved

Both verifiers end with the same arithmetic: two participants signed one root, and it
is the root over the leaves not labelled `ctrl`.  The label is the relay's.  A leaf is
really part of the closing when it carries a SEAL payload bound to its signed hash;
the other leaves are the transcript.

So what the two signatures cover is the transcript exactly when the labels and the
payloads select the same content hashes (`approved_transcript_iff`).  A leaf labelled
`ctrl` whose payload is left out is in the certified list and outside the approved
root.
-/

namespace Cello.Directory.Seal

open Lib Cello.Interfaces

variable {ext : SealExternals}

/-- The content hash the leaf's author signed. -/
def signedHash (ext : SealExternals) (structure1Cbor : Bytes) : Option Bytes :=
  (decodeStructure1Signed ext.toExternals structure1Cbor).map Prod.fst

def carriesSeal (ext : SealExternals) (structure1Cbor : Bytes) : Option Bytes → Bool
  | none => false
  | some bytes => decide (signedHash ext structure1Cbor = some (sealContentHash ext bytes)) &&
      (ext.decodeSealPayload bytes).isSome

/-- The content hashes of the leaves that carry no bound SEAL payload. -/
def transcriptHashes (ext : SealExternals) (leaves : List RelaySealLeaf) : List Bytes :=
  (leaves.filter fun l => !carriesSeal ext l.structure1Cbor l.contentBytes).map
    fun l => l.s2.contentHash

/-- The same for the leaves of a sign request, by their signed hashes. -/
def cosignTranscriptHashes (ext : SealExternals) (leaves : List CosignLeaf) : List Bytes :=
  (leaves.filter fun l => !carriesSeal ext l.structure1Cbor l.contentBytes).filterMap
    (cosignSignedHash ext)

/-- The author of these bytes signed a SEAL payload for this session that commits to `root`. -/
def SignedRoot (ext : SealExternals) (sessionId root : Bytes) (structure1Cbor : Bytes)
    (contentBytes : Option Bytes) : Prop :=
  ∃ bytes payload sid, contentBytes = some bytes ∧
    decodeStructure1Signed ext.toExternals structure1Cbor = some (sealContentHash ext bytes, sid) ∧
    ext.decodeSealPayload bytes = some payload ∧ payload.sessionId = sessionId ∧
    payload.finalRoot = root

/-- The root of the first list is not the root of a different second one. -/
def Separates (ext : SealExternals) (a b : List Bytes) : Prop :=
  ext.merkleRoot a = ext.merkleRoot b → a = b

/-- Some leaf in the list is by `key` and signs `root` for the session. -/
def SignedBy (ext : SealExternals) (sessionId root : Bytes) (leaves : List RelaySealLeaf)
    (key : Bytes) : Prop :=
  ∃ l ∈ leaves, l.s2.senderPubkey = key ∧ SignedRoot ext sessionId root l.structure1Cbor l.contentBytes

/-- The same for the leaves of a sign request. -/
def CosignedBy (ext : SealExternals) (sessionId root : Bytes) (leaves : List CosignLeaf)
    (key : Bytes) : Prop :=
  ∃ l ∈ leaves, l.senderPubkey = key ∧ SignedRoot ext sessionId root l.structure1Cbor l.contentBytes

/-! ### The verifying directory -/

theorem boundRoot_ok {sid root : Bytes} {i : ℕ} {leaf : RelaySealLeaf} {bytes : Bytes}
    (h : boundRoot ext sid i leaf bytes = .ok root) :
    SignedRoot ext sid root leaf.structure1Cbor (some bytes) := by
  rw [boundRoot] at h
  cases hd : decodeStructure1Signed ext.toExternals leaf.structure1Cbor with
  | none => simp [hd] at h
  | some s =>
    obtain ⟨contentHash, sid'⟩ := s
    simp only [hd] at h
    split at h
    · simp at h
    split at h
    · simp at h
    rename_i hbound
    cases hp : ext.decodeSealPayload bytes with
    | none => simp [hp] at h
    | some payload =>
      simp only [hp] at h
      split at h
      · simp at h
      rename_i hsid
      refine ⟨bytes, payload, sid', rfl, ?_, hp, not_not.1 hsid, Except.ok.inj h⟩
      rw [not_not.1 hbound]
      exact hd

/-- **Every collected root was signed by the sender it is filed under.** -/
theorem collectRoots_signed {sid : Bytes} : ∀ {leaves : List RelaySealLeaf} {i : ℕ}
    {bySender result : OrdMap Bytes (Bytes × ℕ)},
    collectRoots ext sid i bySender leaves = .ok result →
    ∀ sender root index, result.get sender = some (root, index) →
      bySender.get sender = some (root, index) ∨ SignedBy ext sid root leaves sender := by
  intro leaves
  induction leaves with
  | nil =>
    intro i bySender result h sender root index hg
    obtain rfl := Except.ok.inj h
    exact Or.inl hg
  | cons leaf rest ih =>
    intro i bySender result h sender root index hg
    have later : ∀ {m : OrdMap Bytes (Bytes × ℕ)}, collectRoots ext sid (i + 1) m rest = .ok result →
        m.get sender = some (root, index) ∨ SignedBy ext sid root (leaf :: rest) sender := by
      intro m hm
      exact (ih hm sender root index hg).imp id fun ⟨l, hl, hrest⟩ =>
        ⟨l, List.mem_cons_of_mem _ hl, hrest⟩
    rw [collectRoots] at h
    split at h
    · exact later h
    · cases hb : leaf.contentBytes with
      | none =>
        simp only [hb] at h
        exact later h
      | some bytes =>
        simp only [hb] at h
        cases hr : boundRoot ext sid i leaf bytes with
        | error e => simp [hr] at h
        | ok r =>
          simp only [hr] at h
          rcases later h with hm | hlater
          · rw [OrdMap.get_set] at hm
            split at hm
            · rename_i hs
              obtain ⟨rfl, -⟩ := Prod.mk.inj (Option.some.inj hm)
              exact Or.inr ⟨leaf, by simp, hs.symm, hb ▸ boundRoot_ok hr⟩
            · exact Or.inl hm
          · exact Or.inr hlater

theorem judgeRoots_both {expected root : Bytes} {entries : List (Bytes × (Bytes × ℕ))}
    (h : judgeRoots expected entries = .ok ⟨.both, root⟩) :
    root = expected ∧ 2 ≤ entries.length ∧ ∀ e ∈ entries, e.2.1 = expected := by
  cases entries with
  | nil => simp [judgeRoots] at h
  | cons first rest =>
    rw [judgeRoots] at h
    cases hf : rest.find? fun e => decide (e.2.1 ≠ first.2.1) with
    | some e =>
      simp only [hf] at h
      cases h
    | none =>
      simp only [hf] at h
      have hsame : ∀ e ∈ rest, e.2.1 = first.2.1 := by
        intro e he
        simpa using List.find?_eq_none.1 hf e he
      split at h
      · simp at h
      rename_i hfirst
      rw [not_not] at hfirst
      split at h
      · rename_i hlen
        have hroot : root = expected := by
          have := congrArg VerifiedRoot.verifiedRoot (Except.ok.inj h)
          exact this.symm
        refine ⟨hroot, by simpa using hlen, fun e he => ?_⟩
        rcases List.mem_cons.1 he with rfl | he
        · exact hfirst
        · exact (hsame e he).trans hfirst
      · simp at h

theorem exists_two_keys {ν : Type*} (m : OrdMap Bytes ν) (h : 2 ≤ m.entries.length) :
    ∃ a ∈ m.entries, ∃ b ∈ m.entries, a.1 ≠ b.1 := by
  obtain ⟨entries, hnodup⟩ := m
  cases entries with
  | nil => simp at h
  | cons a entries =>
    cases entries with
    | nil => simp at h
    | cons b rest =>
      refine ⟨a, by simp, b, by simp, fun he => ?_⟩
      rw [List.map_cons, List.nodup_cons] at hnodup
      exact hnodup.1 (by simp [he])

theorem verifySealFinalRoots_both {leaves : List RelaySealLeaf} {sid root : Bytes}
    {participants : Option (Bytes × Bytes)}
    (h : verifySealFinalRoots ext leaves sid participants = .ok ⟨.both, root⟩) :
    root = ext.merkleRoot (nonCtrlHashes leaves) ∧
      verifyLeafProvenance ext.toExternals leaves sid participants = .ok () ∧
      ∃ p q, p ≠ q ∧ SignedBy ext sid root leaves p ∧ SignedBy ext sid root leaves q := by
  rw [verifySealFinalRoots] at h
  cases hp : verifyLeafProvenance ext.toExternals leaves sid participants with
  | error e => simp [hp] at h
  | ok u =>
    cases hc : collectRoots ext sid 0 OrdMap.empty leaves with
    | error e => simp [hp, hc] at h
    | ok bySender =>
      simp only [hp, hc] at h
      obtain ⟨rfl, hlen, hall⟩ := judgeRoots_both h
      refine ⟨rfl, rfl, ?_⟩
      obtain ⟨x, hx, y, hy, hne⟩ := exists_two_keys bySender hlen
      -- each entry points back to the leaf it was read from
      have back : ∀ e ∈ bySender.entries,
          SignedBy ext sid (rootOverNonCtrlLeaves ext leaves) leaves e.1 := by
        intro e he
        have hg := (OrdMap.get_eq_some_iff bySender e.1 e.2).2 he
        rcases collectRoots_signed hc e.1 e.2.1 e.2.2 hg with h0 | hsigned
        · simp at h0
        · exact hall e he ▸ hsigned
      exact ⟨x.1, y.1, hne, back x hx, back y hy⟩

theorem signers_eq_roster {leaves : List RelaySealLeaf} {sid root a b p q : Bytes}
    (hprov : verifyLeafProvenance ext.toExternals leaves sid (some (a, b)) = .ok ())
    (hp : SignedBy ext sid root leaves p) (hq : SignedBy ext sid root leaves q) (hne : p ≠ q) :
    (p = a ∧ q = b) ∨ (p = b ∧ q = a) := by
  have mem : ∀ {k : Bytes}, SignedBy ext sid root leaves k → a = k ∨ b = k := by
    rintro k ⟨l, hl, rfl, -⟩
    exact (provenanceLoop_ok (verifyLeafProvenance_ok hprov) l hl).1 (a, b) rfl
  rcases mem hp with rfl | rfl <;> rcases mem hq with rfl | rfl
  · exact absurd rfl hne
  · exact Or.inl ⟨rfl, rfl⟩
  · exact Or.inr ⟨rfl, rfl⟩
  · exact absurd rfl hne

/-! ### The co-signing directory -/

def namedSession (ext : SealExternals) (leaves : List CosignLeaf) : Option Bytes :=
  leaves.head?.bind fun l => (decodeStructure1Signed ext.toExternals l.structure1Cbor).map Prod.snd

/-- A request accepted with the 32 bytes of a legibility hash behind the expected message. -/
structure BilateralAcceptance (ext : SealExternals) (framedMsg : Bytes) (rawLeaves : RawLeaves)
    (closeTimestamp : Cbor) (leaves : List CosignLeaf) (sessionId : Bytes) : Prop where
  accepted : verifySealCosignEvidence ext framedMsg rawLeaves closeTimestamp = .ok ()
  parsed : parseCosignLeaves rawLeaves = some leaves
  session : namedSession ext leaves = some sessionId
  remainder : ∀ ts, closeTimestampOf closeTimestamp = some ts →
    framedMsg.length = (expectedFramed ext sessionId (leaves.filterMap (cosignSignedHash ext)) ts).length +
      legibilityHashBytes

theorem cosignStep_ok {i : ℕ} {st st' : CosignWalk} {leaf : CosignLeaf}
    (h : cosignStep ext i st leaf = .ok st') :
    ∃ contentHash sid, decodeStructure1Signed ext.toExternals leaf.structure1Cbor =
        some (contentHash, sid) ∧
      st'.contentHashes = st.contentHashes ++ [contentHash] ∧
      st'.sessionId = some (st.sessionId.getD sid) := by
  rw [cosignStep] at h
  split at h
  · simp at h
  cases hd : decodeStructure1Signed ext.toExternals leaf.structure1Cbor with
  | none => simp [hd] at h
  | some s =>
    obtain ⟨contentHash, sid⟩ := s
    simp only [hd] at h
    split at h
    · simp at h
    obtain rfl := Except.ok.inj h
    exact ⟨contentHash, sid, rfl, rfl, rfl⟩

theorem cosignLoop_ok : ∀ {leaves : List CosignLeaf} {i : ℕ} {st walk : CosignWalk},
    cosignLoop ext i st leaves = .ok walk →
    walk.contentHashes = st.contentHashes ++ leaves.filterMap (cosignSignedHash ext) ∧
      walk.sessionId = st.sessionId.or (namedSession ext leaves) := by
  intro leaves
  induction leaves with
  | nil =>
    intro i st walk h
    obtain rfl := Except.ok.inj h
    simp [namedSession]
  | cons leaf rest ih =>
    intro i st walk h
    rw [cosignLoop] at h
    cases hs : cosignStep ext i st leaf with
    | error e => simp [hs] at h
    | ok st' =>
      simp only [hs] at h
      obtain ⟨contentHash, sid, hd, hc, hsid⟩ := cosignStep_ok hs
      obtain ⟨hhashes, hsession⟩ := ih h
      constructor
      · rw [hhashes, hc]
        simp [cosignSignedHash, hd]
      · rw [hsession, hsid]
        cases st.sessionId <;> simp [namedSession, hd]

/-- **An accepted bilateral request passed the approval check** for the session its leaves name. -/
theorem BilateralAcceptance.approvals {framedMsg : Bytes} {rawLeaves : RawLeaves}
    {closeTimestamp : Cbor} {leaves : List CosignLeaf} {sid : Bytes}
    (h : BilateralAcceptance ext framedMsg rawLeaves closeTimestamp leaves sid) :
    verifyBilateralApprovals ext leaves sid = .ok () := by
  obtain ⟨hacc, hparsed, hsession, hrem⟩ := h
  rw [verifySealCosignEvidence] at hacc
  simp only [hparsed] at hacc
  split at hacc
  · simp at hacc
  cases ht : closeTimestampOf closeTimestamp with
  | none => simp [ht] at hacc
  | some ts =>
    simp only [ht] at hacc
    split at hacc
    · simp at hacc
    cases hl : cosignLoop ext 0 ⟨none, [], []⟩ leaves with
    | error e => simp [hl] at hacc
    | ok walk =>
      obtain ⟨hhashes, hsid⟩ := cosignLoop_ok hl
      simp only [List.nil_append, Option.none_or] at hhashes hsid
      simp only [hl, hsid, hsession] at hacc
      rw [judgeCosign] at hacc
      split at hacc
      · simp at hacc
      split at hacc
      · simp at hacc
      split at hacc
      · simp at hacc
      -- the remainder of 32 bytes selects the branch with the approval check
      rw [if_pos (hhashes ▸ hrem ts ht)] at hacc
      exact hacc

theorem cosignCollect_signed {sid : Bytes} : ∀ {leaves : List CosignLeaf}
    {bySender result : OrdMap Bytes Bytes}, cosignCollect ext sid bySender leaves = .ok result →
    ∀ sender root, result.get sender = some root →
      bySender.get sender = some root ∨ CosignedBy ext sid root leaves sender := by
  intro leaves
  induction leaves with
  | nil =>
    intro bySender result h sender root hg
    obtain rfl := Except.ok.inj h
    exact Or.inl hg
  | cons leaf rest ih =>
    intro bySender result h sender root hg
    have later : ∀ {m : OrdMap Bytes Bytes}, cosignCollect ext sid m rest = .ok result →
        m.get sender = some root ∨ CosignedBy ext sid root (leaf :: rest) sender := by
      intro m hm
      exact (ih hm sender root hg).imp id fun ⟨l, hl, hrest⟩ =>
        ⟨l, List.mem_cons_of_mem _ hl, hrest⟩
    rw [cosignCollect] at h
    split at h
    · exact later h
    split at h
    · rename_i bytes contentHash hb hsigned
      split at h
      · simp at h
      rename_i hbound
      split at h
      · rename_i payload hp
        split at h
        · simp at h
        rename_i hsid
        rcases later h with hm | hlater
        · rw [OrdMap.get_set] at hm
          split at hm
          · rename_i hs
            obtain ⟨s, hd, hfst⟩ := Option.map_eq_some_iff.1 hsigned
            refine Or.inr ⟨leaf, by simp, hs.symm, bytes, payload, s.2, hb, ?_, hp,
              not_not.1 hsid, Option.some.inj hm⟩
            rw [hd, not_not.1 hbound, ← hfst]
          · exact Or.inl hm
        · exact Or.inr hlater
      · simp at h
    · exact later h

theorem verifyBilateralApprovals_ok {leaves : List CosignLeaf} {sid : Bytes}
    (h : verifyBilateralApprovals ext leaves sid = .ok ()) :
    ∃ p q, p ≠ q ∧
      CosignedBy ext sid (ext.merkleRoot (cosignNonCtrlHashes ext leaves)) leaves p ∧
      CosignedBy ext sid (ext.merkleRoot (cosignNonCtrlHashes ext leaves)) leaves q := by
  rw [verifyBilateralApprovals] at h
  cases hc : cosignCollect ext sid OrdMap.empty leaves with
  | error e => simp [hc] at h
  | ok bySender =>
    simp only [hc] at h
    split at h
    · simp at h
    rename_i hlen
    split at h
    · simp at h
    rename_i hfind
    obtain ⟨x, hx, y, hy, hne⟩ := exists_two_keys bySender (by omega)
    have back : ∀ e ∈ bySender.entries,
        CosignedBy ext sid (ext.merkleRoot (cosignNonCtrlHashes ext leaves)) leaves e.1 := by
      intro e he
      have hroot : e.2 = ext.merkleRoot (cosignNonCtrlHashes ext leaves) := by
        simpa using List.find?_eq_none.1 hfind e he
      have hg := (OrdMap.get_eq_some_iff bySender e.1 e.2).2 he
      rcases cosignCollect_signed hc e.1 e.2 hg with h0 | hsigned
      · simp at h0
      · exact hroot ▸ hsigned
    exact ⟨x.1, y.1, hne, back x hx, back y hy⟩

/-! ### What the two signatures cover -/

theorem merkleRoot_eq_iff {a b : List Bytes} (h : Separates ext a b) :
    ext.merkleRoot b = ext.merkleRoot a ↔ a = b :=
  ⟨fun he => h he.symm, fun he => by rw [he]⟩

/-- **When the approved root covers the transcript.**  Both verifiers make sure that two participants
signed one root, and it is the root over the transcript exactly when the leaves labelled other than
`ctrl` have the content hashes of the leaves that carry no bound SEAL payload. -/
theorem approved_transcript_iff (ext : SealExternals) :
    (∀ (leaves : List RelaySealLeaf) (sid root : Bytes) (participants : Option (Bytes × Bytes)),
      verifySealFinalRoots ext leaves sid participants = .ok ⟨.both, root⟩ →
      Separates ext (nonCtrlHashes leaves) (transcriptHashes ext leaves) →
      (∃ p q, p ≠ q ∧ SignedBy ext sid root leaves p ∧ SignedBy ext sid root leaves q ∧
        ∀ a b, participants = some (a, b) → (p = a ∧ q = b) ∨ (p = b ∧ q = a)) ∧
      (ext.merkleRoot (transcriptHashes ext leaves) = root ↔
        nonCtrlHashes leaves = transcriptHashes ext leaves)) ∧
    (∀ (framedMsg : Bytes) (rawLeaves : RawLeaves) (closeTimestamp : Cbor)
      (leaves : List CosignLeaf) (sid : Bytes),
      BilateralAcceptance ext framedMsg rawLeaves closeTimestamp leaves sid →
      Separates ext (cosignNonCtrlHashes ext leaves) (cosignTranscriptHashes ext leaves) →
      ∃ root, (∃ p q, p ≠ q ∧ CosignedBy ext sid root leaves p ∧ CosignedBy ext sid root leaves q) ∧
        (ext.merkleRoot (cosignTranscriptHashes ext leaves) = root ↔
          cosignNonCtrlHashes ext leaves = cosignTranscriptHashes ext leaves)) := by
  constructor
  · intro leaves sid root participants h hsep
    obtain ⟨rfl, hprov, p, q, hne, hp, hq⟩ := verifySealFinalRoots_both h
    refine ⟨⟨p, q, hne, hp, hq, ?_⟩, merkleRoot_eq_iff hsep⟩
    rintro a b rfl
    exact signers_eq_roster hprov hp hq hne
  · intro framedMsg rawLeaves closeTimestamp leaves sid h hsep
    exact ⟨_, verifyBilateralApprovals_ok h.approvals, merkleRoot_eq_iff hsep⟩

/-! ### A conversation of two messages, closed by both -/

namespace Sample

/-- The chain verifier's stand-ins, with a checksum for SHA-256 and payloads that are the session id
followed by the root. -/
def externals : SealExternals where
  toExternals := Interfaces.Sample.externals
  sha256 b := List.replicate 32 b.sum
  decodeSealPayload b := if b.length < 16 then none else some ⟨b.take 16, b.drop 16⟩
  buildSealTbs sid root _ _ := sid ++ root

/-- The payload of a SEAL leaf that commits to `root`. -/
def payload (root : Bytes) : Bytes := Interfaces.Sample.sid ++ root

/-- Two messages of sender 1, then the SEAL leaves of both participants.  The second message is
labelled `kind`, and the payloads commit to `root`. -/
def leaves (kind : LeafKind) (root : Bytes) : List RelaySealLeaf :=
  let c := ((2 : UInt8) :: payload root).sum
  (Interfaces.Sample.chain 1 [] [] [(.msg, [1, 5, 0, 9, 1]), (kind, [1, 6, 0, 5, 2]),
    (.ctrl, [1, c, 0, 6, 3]), (.ctrl, [2, c, 3, 9, 4])]).mapIdx fun i l =>
      if 2 ≤ i then { l with contentBytes := some (payload root) } else l

/-- The same leaves as they travel with a sign request. -/
def cosignLeaves (kind : LeafKind) (root : Bytes) : List CosignLeaf :=
  (leaves kind root).map fun l =>
    { structure1Cbor := l.structure1Cbor, senderPubkey := l.s2.senderPubkey
      senderSignature := l.s2.senderSignature, contentBytes := l.contentBytes
      kind := some l.kind.text }

def rawLeaves (kind : LeafKind) (root : Bytes) : RawLeaves :=
  .items ((cosignLeaves kind root).map fun l =>
    some ⟨some l.structure1Cbor, some l.senderPubkey, some l.senderSignature, l.contentBytes, l.kind⟩)

/-- The message a directory asks to be signed: the expected one and 32 bytes behind it. -/
def framedMsg (kind : LeafKind) (root : Bytes) : Bytes :=
  expectedFramed externals Interfaces.Sample.sid
    ((cosignLeaves kind root).filterMap (cosignSignedHash externals)) (4 : ℕ) ++ List.replicate 32 0

/-- Both messages are in the root. -/
def bothRoot : Bytes := List.replicate 32 5 ++ List.replicate 32 6

/-- Only the first message is in the root. -/
def firstRoot : Bytes := List.replicate 32 5

theorem bilateral_of_accepted {kind : LeafKind} {root : Bytes}
    (h : verifySealCosignEvidence externals (framedMsg kind root) (rawLeaves kind root)
      (.num (4 : ℕ)) = .ok ())
    (hparsed : parseCosignLeaves (rawLeaves kind root) = some (cosignLeaves kind root))
    (hsid : namedSession externals (cosignLeaves kind root) = some Interfaces.Sample.sid) :
    BilateralAcceptance externals (framedMsg kind root) (rawLeaves kind root) (.num (4 : ℕ))
      (cosignLeaves kind root) Interfaces.Sample.sid where
  accepted := h
  parsed := hparsed
  session := hsid
  remainder ts hts := by
    obtain rfl := Option.some.inj hts
    simp [framedMsg, legibilityHashBytes]

end Sample

/-- Under honest labels both messages are covered, for both verifiers. -/
theorem approved_transcript_both_messages :
    Sample.externals.merkleRoot (transcriptHashes Sample.externals (Sample.leaves .msg Sample.bothRoot)) =
        Sample.bothRoot ∧
      ∃ root p q, p ≠ q ∧
        CosignedBy Sample.externals Interfaces.Sample.sid root
          (Sample.cosignLeaves .msg Sample.bothRoot) p ∧
        CosignedBy Sample.externals Interfaces.Sample.sid root
          (Sample.cosignLeaves .msg Sample.bothRoot) q ∧
        Sample.externals.merkleRoot
          (cosignTranscriptHashes Sample.externals (Sample.cosignLeaves .msg Sample.bothRoot)) = root := by
  constructor
  · have h := (approved_transcript_iff Sample.externals).1 (Sample.leaves .msg Sample.bothRoot)
      Interfaces.Sample.sid Sample.bothRoot (some (Interfaces.Sample.key 1, Interfaces.Sample.key 2))
      (by decide +kernel) (fun _ => by decide +kernel)
    exact h.2.2 (by decide +kernel)
  · obtain ⟨root, ⟨p, q, hne, hp, hq⟩, hroot⟩ := (approved_transcript_iff Sample.externals).2
      (Sample.framedMsg .msg Sample.bothRoot) (Sample.rawLeaves .msg Sample.bothRoot)
      (.num (4 : ℕ)) (Sample.cosignLeaves .msg Sample.bothRoot) Interfaces.Sample.sid
      (Sample.bilateral_of_accepted (by decide +kernel) (by decide +kernel) (by decide +kernel))
      (fun _ => by decide +kernel)
    exact ⟨root, p, q, hne, hp, hq, hroot.2 (by decide +kernel)⟩

/-- **A message labelled `ctrl` without its payload is certified and not approved.**  Every leaf is
signed and its envelope is honest, both verifiers accept, and the root both participants signed
leaves the second message out. -/
theorem approved_transcript_misses_message :
    (∀ l ∈ Sample.leaves .ctrl Sample.firstRoot,
      Sample.externals.verify l.s2.senderPubkey l.structure1Cbor l.s2.senderSignature = true ∧
        signedHash Sample.externals l.structure1Cbor = some l.s2.contentHash) ∧
      verifySealFinalRoots Sample.externals (Sample.leaves .ctrl Sample.firstRoot)
        Interfaces.Sample.sid (some (Interfaces.Sample.key 1, Interfaces.Sample.key 2)) =
        .ok ⟨.both, Sample.firstRoot⟩ ∧
      Sample.externals.merkleRoot
          (transcriptHashes Sample.externals (Sample.leaves .ctrl Sample.firstRoot)) ≠
        Sample.firstRoot ∧
      BilateralAcceptance Sample.externals (Sample.framedMsg .ctrl Sample.firstRoot)
        (Sample.rawLeaves .ctrl Sample.firstRoot) (.num (4 : ℕ))
        (Sample.cosignLeaves .ctrl Sample.firstRoot) Interfaces.Sample.sid ∧
      Sample.externals.merkleRoot
          (cosignTranscriptHashes Sample.externals (Sample.cosignLeaves .ctrl Sample.firstRoot)) ≠
        Sample.firstRoot := by
  refine ⟨by decide +kernel, by decide +kernel, by decide +kernel, ?_, by decide +kernel⟩
  exact Sample.bilateral_of_accepted (by decide +kernel) (by decide +kernel) (by decide +kernel)

end Cello.Directory.Seal
