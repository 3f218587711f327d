import Cello.Interfaces.CarriedLeaves
import Cello.Relay.SessionLog

/-!
# A new relay takes over a conversation

`#processSessionReplay` of `packages/relay/src/relay-node.ts` with the verification of the frame
it is handed: the receipts of the relay named in the assignment, the chain, and the counterparty's
tip.  What is signed is pinned by these checks; the kind of a leaf, its sender, the choice among
the variants its sender signed and the root the chain starts from are not signed by anybody but the
participant who carries them.  `handover_same_tree_iff` says that the adopted tree is the one of the
relay before exactly when the batch keeps those.
-/

namespace Cello.Relay

open Lib Cello.Interfaces

/-- A `session_replay` frame. -/
structure SessionReplay where
  sessionId : Bytes
  reportedRoot : Bytes
  leaves : List SealUnilateralLeaf
  counterpartyTip : Option SessionTipAttestation := none

/-- What the verifiers use, on a relay. -/
def RelayExternals.replay (ext : RelayExternals) (encodeCbor : String → Bytes → JsNumber → Bytes → Bytes) :
    ReplayExternals :=
  { ext.toExternals with buildRelayAckTbs := ext.buildRelayAckTbs, encodeCbor := encodeCbor }

def ChainRefusal.code : ChainRefusal → String
  | .chain r => r.code
  | .provenance r => r.code

section

variable (ext : RelayExternals) (encodeCbor : String → Bytes → JsNumber → Bytes → Bytes)

def counterpartyOf (st : RelaySessionState) (submitter : Bytes) : Bytes :=
  if submitter = st.assignment.participantA then st.assignment.participantB
  else st.assignment.participantA

/-- What the frame verifies to. -/
def replayVerdict (st : RelaySessionState) (submitter : Bytes) (frame : SessionReplay) : ReplayVerdict :=
  match reconstructCarriedSealLeaves (ext.replay encodeCbor) frame.leaves submitter st.priorRelayId with
  | .error e => .refused e.code
  | .ok leaves =>
    match verifySealLeafChain ext.toExternals leaves frame.reportedRoot frame.sessionId
        (st.assignment.participantA, st.assignment.participantB) with
    | .error e => .refused (ChainRefusal.code e)
    | .ok _ =>
      match verifySessionTipAttestation (ext.replay encodeCbor) frame.counterpartyTip leaves
          frame.sessionId (counterpartyOf st submitter) with
      | .error .diverged => .diverged TipReason.diverged.code
      | .error e => .refused e.code
      | .ok _ => .adopted leaves

/-- `#processSessionReplay` on a frame. -/
def handleSessionReplay (d : Directories) (session : Option RelaySessionState) (submitter : Bytes)
    (frame : SessionReplay) : Handled :=
  match session with
  | none => processSessionReplay ext d none submitter (.refused "session_not_found")
  | some st =>
    processSessionReplay ext d (some st) submitter (replayVerdict ext encodeCbor st submitter frame)

end

/-- Two sessions have the same tree: kinds, envelopes, stack and root. -/
structure SameTree (st st' : RelaySessionState) : Prop where
  kinds : st'.leafLog.map RelaySealLeaf.kind = st.leafLog.map RelaySealLeaf.kind
  structure2 : st'.leafLog.map RelaySealLeaf.s2 = st.leafLog.map RelaySealLeaf.s2
  treeStack : st'.treeStack = st.treeStack
  runningRoot : st'.runningRoot = st.runningRoot

def carriedEnvelope (ext : RelayExternals) (w : SealUnilateralLeaf) : Option Structure2 :=
  (ext.cborDecode w.structure2Cbor).bind carriedStructure2

/-- **The batch keeps what nobody else signed**: at each position the kind, the sender and the signature of
the log, and at the first the root the session starts from. -/
structure KeepsUnsigned (ext : RelayExternals) (genesisRoot : Bytes) (log : List RelaySealLeaf)
    (wire : List SealUnilateralLeaf) : Prop where
  position : ∀ (i : ℕ) (w : SealUnilateralLeaf) (l : RelaySealLeaf), wire[i]? = some w → log[i]? = some l →
    leafKinds w.leafKind = some l.kind ∧
      ∀ s2, carriedEnvelope ext w = some s2 →
        s2.senderPubkey = l.s2.senderPubkey ∧ s2.senderSignature = l.s2.senderSignature
  first : ∀ w ∈ wire.head?, ∀ s2, carriedEnvelope ext w = some s2 → s2.prevRoot = genesisRoot

/-! ### What adoption has checked -/

/-- The frame was adopted: its leaves, and the state they are written in. -/
structure Adopted (ext : RelayExternals) (encodeCbor : String → Bytes → JsNumber → Bytes → Bytes)
    (st : RelaySessionState) (submitter : Bytes) (frame : SessionReplay) (leaves : List RelaySealLeaf) :
    Prop where
  carried : reconstructCarriedSealLeaves (ext.replay encodeCbor) frame.leaves submitter st.priorRelayId =
    .ok leaves
  chain : ∃ root, verifySealLeafChain ext.toExternals leaves frame.reportedRoot frame.sessionId
    (st.assignment.participantA, st.assignment.participantB) = .ok root
  tip : ∃ covers, verifySessionTipAttestation (ext.replay encodeCbor) frame.counterpartyTip leaves
    frame.sessionId (counterpartyOf st submitter) = .ok covers

section

variable {ext : RelayExternals} {encodeCbor : String → Bytes → JsNumber → Bytes → Bytes}
  {st : RelaySessionState} {submitter : Bytes} {frame : SessionReplay}

theorem adopted_of_verdict {leaves : List RelaySealLeaf}
    (h : replayVerdict ext encodeCbor st submitter frame = .adopted leaves) :
    Adopted ext encodeCbor st submitter frame leaves := by
  rw [replayVerdict] at h
  split at h
  · cases h
  · rename_i leaves' hcarried
    split at h
    · cases h
    · rename_i root hchain
      split at h
      · cases h
      · cases h
      · rename_i covers htip
        cases h
        exact ⟨hcarried, ⟨root, hchain⟩, ⟨covers, htip⟩⟩

/-- **An adoption writes the verified leaves, and then looks at the seal.** -/
theorem handleSessionReplay_ok {d : Directories} {n : ℕ}
    (h : .replayResult (.ok n) ∈ (handleSessionReplay ext encodeCbor d (some st) submitter frame).out) :
    ∃ leaves, Adopted ext encodeCbor st submitter frame leaves ∧ leaves.length = n ∧
      (submitter = st.assignment.participantA ∨ submitter = st.assignment.participantB) ∧
      (handleSessionReplay ext encodeCbor d (some st) submitter frame).session =
        (if ext.hasDirectory then maybeProcessSeal ext d (adoptLeaves ext st leaves)
          else ⟨some (adoptLeaves ext st leaves), []⟩).session := by
  simp only [handleSessionReplay, processSessionReplay] at h ⊢
  split at h
  · simp at h
  rename_i hpart
  split at h
  · simp at h
  rename_i hprior
  split at h
  · simp at h
  rename_i hactive
  split at h
  · simp at h
  rename_i hawaiting
  rw [if_neg hpart, if_neg hprior, if_neg hactive, if_neg hawaiting]
  cases hv : replayVerdict ext encodeCbor st submitter frame with
  | refused reason => simp [hv] at h
  | diverged reason => simp [hv] at h
  | adopted leaves =>
    simp only [hv] at h
    refine ⟨leaves, adopted_of_verdict hv, ?_, by rw [not_and_or, not_not, not_not] at hpart; exact hpart,
      by simp only⟩
    rcases List.mem_append.1 h with h | h
    · exfalso
      split at h
      · rcases maybeProcessSeal_cases ext d (adoptLeaves ext st leaves) with ⟨-, he⟩ | ⟨-, he⟩
        · simp [he] at h
        · rw [he] at h
          obtain ⟨c, -, hc⟩ := List.mem_map.1 h
          exact Output.noConfusion hc
      · simp at h
    · have := List.mem_singleton.1 h
      simpa using this.symm

end

/-! ### The adopted tree -/

theorem grown_foldl (ext : Externals) (start : Bytes) : ∀ (leaves prior : List RelaySealLeaf)
    (acc : Stack × Bytes), Grown ext start prior acc.1 acc.2 →
    let out := leaves.foldl (fun (acc : Stack × Bytes) (leaf : RelaySealLeaf) =>
      (pushNode ext.nodeHash (treeLeaf ext leaf) 0 acc.1,
        stackRoot ext.nodeHash (treeLeaf ext leaf) (pushNode ext.nodeHash (treeLeaf ext leaf) 0 acc.1))) acc
    Grown ext start (prior ++ leaves) out.1 out.2 := by
  intro leaves
  induction leaves with
  | nil => intro prior acc h; simpa using h
  | cons l rest ih =>
    intro prior acc h
    have := ih (prior ++ [l]) (_, _) (h.append l)
    rwa [List.append_assoc, List.singleton_append] at this

theorem grown_adoptLeaves (ext : RelayExternals) (st : RelaySessionState) (leaves : List RelaySealLeaf) :
    Grown ext.toExternals st.genesisPrevRoot leaves (adoptLeaves ext st leaves).treeStack
      (adoptLeaves ext st leaves).runningRoot :=
  grown_foldl ext.toExternals st.genesisPrevRoot leaves [] ([], st.genesisPrevRoot) (Grown.nil _ _)

theorem adoptLeaves_kinds (ext : RelayExternals) (st : RelaySessionState) (leaves : List RelaySealLeaf) :
    (adoptLeaves ext st leaves).leafLog.map RelaySealLeaf.kind = leaves.map RelaySealLeaf.kind := by
  rw [adoptLeaves, List.map_map]
  rfl

theorem adoptLeaves_structure2 (ext : RelayExternals) (st : RelaySessionState)
    (leaves : List RelaySealLeaf) :
    (adoptLeaves ext st leaves).leafLog.map RelaySealLeaf.s2 = leaves.map RelaySealLeaf.s2 := by
  rw [adoptLeaves, List.map_map]
  rfl

section

variable {ext : RelayExternals} {leaves log : List RelaySealLeaf}

theorem structure2_ext {a b : Structure2} (hseq : a.sequenceNumber = b.sequenceNumber)
    (hkey : a.senderPubkey = b.senderPubkey) (hcontent : a.contentHash = b.contentHash)
    (hsig : a.senderSignature = b.senderSignature) (hprev : a.prevRoot = b.prevRoot) : a = b := by
  cases a
  cases b
  simp only at hseq hkey hcontent hsig hprev
  rw [hseq, hkey, hcontent, hsig, hprev]

/-- **The roots in a chain follow from its kinds and envelopes**: two chains from one start that agree in
all but the roots are equal. -/
theorem tagged_eq_of_roots {ext : Externals} {start : Bytes} (hlen : leaves.length = log.length)
    (hroots : ∀ (i : ℕ) (leaf : RelaySealLeaf), leaves[i]? = some leaf →
      leaf.s2.prevRoot = rootOver ext start (leaves.take i))
    (hroots' : ∀ (i : ℕ) (l : RelaySealLeaf), log[i]? = some l →
      l.s2.prevRoot = rootOver ext start (log.take i))
    (hagree : ∀ (i : ℕ) (leaf l : RelaySealLeaf), leaves[i]? = some leaf → log[i]? = some l →
      leaf.kind = l.kind ∧ leaf.s2.sequenceNumber = l.s2.sequenceNumber ∧
        leaf.s2.senderPubkey = l.s2.senderPubkey ∧ leaf.s2.contentHash = l.s2.contentHash ∧
        leaf.s2.senderSignature = l.s2.senderSignature) :
    leaves.map tagged = log.map tagged := by
  -- by induction on the length of the prefix on which the two agree
  have hprefix : ∀ n ≤ leaves.length, (leaves.take n).map tagged = (log.take n).map tagged := by
    intro n
    induction n with
    | zero => intro _; rfl
    | succ n ih =>
      intro hn
      have hleaf : leaves[n]? = some (leaves.get ⟨n, hn⟩) := List.getElem?_eq_getElem hn
      have hl : log[n]? = some (log.get ⟨n, hlen ▸ hn⟩) := List.getElem?_eq_getElem (hlen ▸ hn)
      have hpre := ih (by omega)
      obtain ⟨hkind, hseq, hkey, hcontent, hsig⟩ := hagree n _ _ hleaf hl
      have hs2 : (leaves.get ⟨n, hn⟩).s2 = (log.get ⟨n, hlen ▸ hn⟩).s2 := by
        refine structure2_ext hseq hkey hcontent hsig ?_
        rw [hroots n _ hleaf, hroots' n _ hl]
        exact rootOver_congr hpre
      rw [List.take_add_one, List.take_add_one, hleaf, hl, Option.toList_some, Option.toList_some,
        List.map_append, List.map_append, hpre, List.map_singleton, List.map_singleton, tagged, tagged,
        hkind, hs2]
  have := hprefix leaves.length le_rfl
  rwa [List.take_length, hlen, List.take_length] at this

theorem contents_of_tip {encodeCbor : String → Bytes → JsNumber → Bytes → Bytes}
    (hroot : ComputesTreeHead ext.toExternals) {tip : SessionTipAttestation} {sid attestor : Bytes}
    {covers : ℕ} (ht : TipHolds (ext.replay encodeCbor) tip leaves sid attestor covers)
    (hseq : tip.lastSeq = (log.length : JsNumber)) (hlen : leaves.length = log.length)
    (htip : tip.root = ext.merkleRoot (log.map fun l => l.s2.contentHash))
    (hfree : CollisionFree ext.toExternals (leaves.map fun l => l.s2.contentHash)
      (log.map fun l => l.s2.contentHash)) :
    leaves.map (fun l => l.s2.contentHash) = log.map fun l => l.s2.contentHash := by
  obtain rfl : covers = log.length := JsNumber.natCast_inj (ht.lastSeq.symm.trans hseq)
  have hne : log.map (fun l => l.s2.contentHash) ≠ [] := by
    intro hnil
    have := ht.positive
    rw [List.map_eq_nil_iff.1 hnil] at this
    simp at this
  have htake : leaves.take log.length = leaves := by rw [← hlen, List.take_length]
  have hreplay : ComputesTreeHead (ext.replay encodeCbor).toExternals := hroot
  have := attested_of_ok hreplay ht (List.length_map _)
    (by rw [htip]; exact (hroot _ hne).symm) (by rw [htake]; exact hfree)
  rwa [htake] at this

end

section Carried

variable {priorExt ext : RelayExternals} {encodeCbor : String → Bytes → JsNumber → Bytes → Bytes}
  {assignment : SessionAssignment} {genesisRoot submitter : Bytes} {receiptRelay : Option String}
  {prior : RelaySessionState} {wire : List SealUnilateralLeaf} {leaves : List RelaySealLeaf}
  (hcarried : ∀ (i : ℕ) (leaf : RelaySealLeaf), leaves[i]? = some leaf →
    ∃ w, wire[i]? = some w ∧ Carried (ext.replay encodeCbor) submitter receiptRelay i w leaf)

include hcarried

theorem keepsUnsigned_of_sameTree {st : RelaySessionState}
    (hkept : Kept priorExt assignment genesisRoot prior) (hcount : leaves.length = wire.length)
    (h : SameTree prior (adoptLeaves ext st leaves)) : KeepsUnsigned ext genesisRoot prior.leafLog wire := by
  have hkinds := h.kinds
  have hs2s := h.structure2
  rw [adoptLeaves_kinds] at hkinds
  rw [adoptLeaves_structure2] at hs2s
  -- the leaf that was read from a carried one
  have hread : ∀ (i : ℕ) (w : SealUnilateralLeaf), wire[i]? = some w →
      ∃ leaf l, leaves[i]? = some leaf ∧ prior.leafLog[i]? = some l ∧ leaf.kind = l.kind ∧
        leaf.s2 = l.s2 ∧ Carried (ext.replay encodeCbor) submitter receiptRelay i w leaf := by
    intro i w hw
    obtain ⟨hlt, -⟩ := List.getElem?_eq_some_iff.1 hw
    rw [← hcount] at hlt
    have hleaf : leaves[i]? = some (leaves.get ⟨i, hlt⟩) := List.getElem?_eq_getElem hlt
    obtain ⟨w', hw', hc⟩ := hcarried i _ hleaf
    obtain rfl : w' = w := Option.some.inj (hw'.symm.trans hw)
    have hk := congrArg (fun l => l[i]?) hkinds
    have hs := congrArg (fun l => l[i]?) hs2s
    simp only [List.getElem?_map, hleaf, Option.map_some] at hk hs
    obtain ⟨l, hl, hk⟩ := Option.map_eq_some_iff.1 hk.symm
    rw [hl, Option.map_some] at hs
    exact ⟨_, l, hleaf, hl, hk.symm, Option.some.inj hs, hc⟩
  constructor
  · intro i w l hw hl
    obtain ⟨leaf, l', -, hl', hkind, hs2, hc⟩ := hread i w hw
    obtain rfl : l' = l := Option.some.inj (hl'.symm.trans hl)
    refine ⟨hkind ▸ hc.kind, fun s2 hd => ?_⟩
    obtain rfl : leaf.s2 = s2 := Option.some.inj (hc.decoded.symm.trans hd)
    rw [hs2]
    exact ⟨rfl, rfl⟩
  · intro w hw s2 hd
    rw [List.head?_eq_getElem?] at hw
    obtain ⟨leaf, l, -, hl, -, hs2, hc⟩ := hread 0 w hw
    obtain rfl : leaf.s2 = s2 := Option.some.inj (hc.decoded.symm.trans hd)
    rw [hs2, (hkept.log.leaves 0 l hl).prevRoot, List.take_zero, hkept.genesis]
    rfl

theorem startOf_of_first {log : List RelaySealLeaf} (h : KeepsUnsigned ext genesisRoot log wire)
    (hne : leaves ≠ []) : startOf leaves = genesisRoot := by
  cases leaves with
  | nil => exact absurd rfl hne
  | cons l rest =>
    obtain ⟨w, hw, hc⟩ := hcarried 0 l rfl
    refine h.first w ?_ l.s2 hc.decoded
    rw [List.head?_eq_getElem?]
    exact hw

/-- **A batch that keeps what nobody else signed is the log of the relay before.** -/
theorem tagged_of_keepsUnsigned {reported sid root : Bytes} {roster : Bytes × Bytes}
    (hkept : Kept priorExt assignment genesisRoot prior)
    (hsame : priorExt.toExternals = ext.toExternals) (hlen : leaves.length = prior.leafLog.length)
    (hchain : verifySealLeafChain ext.toExternals leaves reported sid roster = .ok root)
    (hcontents : leaves.map (fun l => l.s2.contentHash) =
      prior.leafLog.map fun l => l.s2.contentHash)
    (h : KeepsUnsigned ext genesisRoot prior.leafLog wire) :
    leaves.map tagged = prior.leafLog.map tagged := by
  have hreplay : verifySealLeafChain (ext.replay encodeCbor).toExternals leaves reported sid roster =
      .ok root := hchain
  have hroots : ∀ (i : ℕ) (leaf : RelaySealLeaf), leaves[i]? = some leaf →
      leaf.s2.prevRoot = rootOver ext.toExternals genesisRoot (leaves.take i) := by
    intro i leaf hi
    obtain ⟨s1, hf⟩ := follows_of_ok hreplay hi
    have hstart := startOf_of_first hcarried h (List.ne_nil_of_mem (List.mem_of_getElem? hi))
    rw [← hstart]
    exact hf.prevRoot
  refine tagged_eq_of_roots hlen hroots ?_ ?_
  · intro i l hi
    rw [(hkept.log.leaves i l hi).prevRoot, hsame, hkept.genesis]
  · intro i leaf l hi hl
    obtain ⟨w, hw, hc⟩ := hcarried i leaf hi
    obtain ⟨hkind, henv⟩ := h.position i w l hw hl
    obtain ⟨hkey, hsig⟩ := henv leaf.s2 hc.decoded
    have hcontent := congrArg (fun l => l[i]?) hcontents
    simp only [List.getElem?_map, hi, hl, Option.map_some, Option.some.injEq] at hcontent
    refine ⟨Option.some.inj (hc.kind.symm.trans hkind), ?_, hkey, hcontent, hsig⟩
    rw [hc.numbered, (hkept.log.leaves i l hl).numbered]

end Carried

/-- **When a handover keeps the tree of the relay before.**  `prior` is any state a relay reached with the
session from its start, the tip covers its whole log and the batch has its length.  The adopted kinds,
envelopes, stack and root are those of `prior` exactly when the batch keeps what nobody else signed. -/
theorem handover_same_tree_iff (priorExt ext : RelayExternals)
    (encodeCbor : String → Bytes → JsNumber → Bytes → Bytes) (hbuild : BuildsStructure2 priorExt)
    (hsame : priorExt.toExternals = ext.toExternals) (hroot : ComputesTreeHead ext.toExternals)
    -- the relay before, and its log
    (assignment : SessionAssignment) (hfresh : assignment.priorRelayId = none) (genesisRoot : Bytes)
    (events : List Event) (hroute : ∀ e ∈ events, e.RoutedTo assignment.sessionId)
    (prior : RelaySessionState)
    (hprior : run priorExt (some (recordSession assignment genesisRoot)) events = some prior)
    -- the session on the new relay, and the frame it adopts
    (st : RelaySessionState) (hgenesis : st.genesisPrevRoot = genesisRoot) (d : Directories)
    (submitter : Bytes) (frame : SessionReplay) (tip : SessionTipAttestation)
    (hframe : frame.counterpartyTip = some tip) (hseq : tip.lastSeq = (prior.leafLog.length : JsNumber))
    (htip : tip.root = ext.merkleRoot (prior.leafLog.map fun l => l.s2.contentHash))
    (hlen : frame.leaves.length = prior.leafLog.length)
    (hfree : ∀ leaves, reconstructCarriedSealLeaves (ext.replay encodeCbor) frame.leaves submitter
        st.priorRelayId = .ok leaves →
      CollisionFree ext.toExternals (leaves.map fun l => l.s2.contentHash)
        (prior.leafLog.map fun l => l.s2.contentHash)) (n : ℕ)
    (hadopted : .replayResult (.ok n) ∈
      (handleSessionReplay ext encodeCbor d (some st) submitter frame).out) :
    ∃ leaves, Adopted ext encodeCbor st submitter frame leaves ∧
      (handleSessionReplay ext encodeCbor d (some st) submitter frame).session =
        (if ext.hasDirectory then maybeProcessSeal ext d (adoptLeaves ext st leaves)
          else ⟨some (adoptLeaves ext st leaves), []⟩).session ∧
      (SameTree prior (adoptLeaves ext st leaves) ↔
        KeepsUnsigned ext genesisRoot prior.leafLog frame.leaves) := by
  obtain ⟨leaves, had, -, -, hsession⟩ := handleSessionReplay_ok hadopted
  refine ⟨leaves, had, hsession, ?_⟩
  have hkept := kept_run hbuild hfresh genesisRoot hroute prior hprior
  obtain ⟨hcount, hcarried⟩ := reconstruct_ok had.carried
  have hlength : leaves.length = prior.leafLog.length := hcount.trans hlen
  have hcontents : leaves.map (fun l => l.s2.contentHash) =
      prior.leafLog.map fun l => l.s2.contentHash := by
    obtain ⟨covers, hcovers⟩ := had.tip
    rw [hframe] at hcovers
    exact contents_of_tip hroot (verifySessionTip_ok hcovers) hseq hlength htip (hfree leaves had.carried)
  have hgrown : Grown ext.toExternals genesisRoot prior.leafLog prior.treeStack prior.runningRoot := by
    rw [← hsame, ← hkept.genesis]
    exact hkept.log.grown
  have hgrown' := grown_adoptLeaves ext st leaves
  rw [hgenesis] at hgrown'
  constructor
  · intro h
    exact keepsUnsigned_of_sameTree hcarried hkept hcount h
  · intro h
    obtain ⟨root, hchain⟩ := had.chain
    have htagged := tagged_of_keepsUnsigned hcarried hkept hsame hlength hchain hcontents h
    obtain ⟨hstack, hrunning⟩ := hgrown'.unique hgrown htagged
    refine ⟨?_, ?_, hstack, hrunning⟩
    · rw [adoptLeaves_kinds]
      simpa [List.map_map, Function.comp_def, tagged] using congrArg (List.map Prod.fst) htagged
    · rw [adoptLeaves_structure2]
      simpa [List.map_map, Function.comp_def, tagged] using congrArg (List.map Prod.snd) htagged

/-! ### A handover of two messages -/

namespace Sample

open Interfaces.Sample (key sid relay replayExternals digestSignature replayChain carry contentRoot tipOver)

theorem length_digestSignature (s : UInt8) (m : Bytes) : (digestSignature (key s) m).length = 64 := by
  simp [digestSignature, key, Interfaces.Sample.digest]

/-- The relay with key 9, without a directory. -/
def firstRelay : RelayExternals where
  toExternals := replayExternals.toExternals
  buildStructure2 seq pk ch sig prev := some ⟨(seq : ℕ), pk, ch, sig, prev⟩
  buildRelayAckTbs := replayExternals.buildRelayAckTbs
  relayId := some relay
  hasSigningKey := true
  hasDirectory := false
  hasKeyLookup := false

/-- The relay that takes over. -/
def secondRelay : RelayExternals := { firstRelay with relayId := none, hasSigningKey := false }

/-- `s` submits its own message. -/
def hands (s : UInt8) (leaf : Bytes) : Event :=
  .submit { now := 1, sign := fun m => some (digestSignature (key 9) m), relayPublicKey := fun _ => none
            directories := unreachable } (key s)
    { sessionId := sid, leafKind := 0, structure1Cbor := leaf
      senderSignature := digestSignature (key s) leaf
      signature_length := length_digestSignature s leaf }

/-- Sender 1 speaks, then sender 2. -/
def spokenByBoth : List Event := [hands 1 [1, 5, 0, 0, 1], hands 2 [2, 6, 0, 0, 2]]

/-- The session on the first relay. -/
def witnessedFirst : RelaySessionState :=
  (run firstRelay (some session) spokenByBoth).get (by decide)

/-- The session on the second relay, just recorded. -/
def inherited : RelaySessionState := recordSession ⟨sid, key 1, key 2, some relay⟩ genesis

/-- The batch sender 1 makes of these leaves, with sender 2's tip over the first relay's log. -/
def batchOf (leaves : List RelaySealLeaf) : SessionReplay where
  sessionId := sid
  reportedRoot := contentRoot leaves
  leaves := leaves.map carry
  counterpartyTip := some (tipOver witnessedFirst.leafLog)

/-- The first relay's leaves with the first of them labelled as a document. -/
def relabelled : List RelaySealLeaf :=
  replayChain 1 [] genesis [(.doc, [1, 5, 0, 0, 1]), (.msg, [2, 6, 0, 0, 2])]

/-- The first relay's leaves, from another start. -/
def restarted : List RelaySealLeaf :=
  replayChain 1 [] (List.replicate 32 1) [(.msg, [1, 5, 0, 0, 1]), (.msg, [2, 6, 0, 0, 2])]

/-- What the second relay makes of a batch of sender 1. -/
def takesOver (leaves : List RelaySealLeaf) : Handled :=
  handleSessionReplay secondRelay replayExternals.encodeCbor unreachable (some inherited) (key 1)
    (batchOf leaves)

end Sample

open Interfaces.Sample (key sid replayExternals) in
/-- The batch of the log itself is adopted with the same tree. -/
theorem handover_of_the_log :
    ∃ leaves, Adopted Sample.secondRelay replayExternals.encodeCbor Sample.inherited (key 1)
        (Sample.batchOf Sample.witnessedFirst.leafLog) leaves ∧
      (Sample.takesOver Sample.witnessedFirst.leafLog).session =
        (if Sample.secondRelay.hasDirectory then maybeProcessSeal Sample.secondRelay Sample.unreachable
            (adoptLeaves Sample.secondRelay Sample.inherited leaves)
          else ⟨some (adoptLeaves Sample.secondRelay Sample.inherited leaves), []⟩).session ∧
      (SameTree Sample.witnessedFirst (adoptLeaves Sample.secondRelay Sample.inherited leaves) ↔
        KeepsUnsigned Sample.secondRelay Sample.genesis Sample.witnessedFirst.leafLog
          (Sample.batchOf Sample.witnessedFirst.leafLog).leaves) := by
  refine handover_same_tree_iff Sample.firstRelay Sample.secondRelay replayExternals.encodeCbor
    (fun _ _ _ _ _ _ => rfl) rfl (fun _ _ => rfl) ⟨sid, key 1, key 2, none⟩ rfl Sample.genesis
    Sample.spokenByBoth ?_ Sample.witnessedFirst (Option.some_get _).symm Sample.inherited rfl
    Sample.unreachable (key 1) (Sample.batchOf Sample.witnessedFirst.leafLog)
    (Interfaces.Sample.tipOver Sample.witnessedFirst.leafLog) rfl rfl rfl (by simp [Sample.batchOf]) ?_ 2
    (by decide +kernel)
  · intro e he
    simp only [Sample.spokenByBoth, List.mem_cons, List.not_mem_nil, or_false] at he
    rcases he with rfl | rfl <;> rfl
  · intro leaves hleaves
    have hread : reconstructCarriedSealLeaves (Sample.secondRelay.replay replayExternals.encodeCbor)
        (Sample.batchOf Sample.witnessedFirst.leafLog).leaves (key 1) Sample.inherited.priorRelayId =
        .ok Sample.witnessedFirst.leafLog := by decide +kernel
    obtain rfl := Except.ok.inj (hleaves.symm.trans hread)
    have hpair : TreeHead.pairs Sample.secondRelay.nodeHash []
        (Sample.witnessedFirst.leafLog.map fun l => l.s2.contentHash) =
        [(List.replicate 32 5, List.replicate 32 6)] := by decide
    intro p hp q hq _
    rw [Set.mem_ofPred_eq, hpair, or_self, List.mem_singleton] at hp hq
    rw [hp, hq]

open Interfaces.Sample (key sid replayExternals) in
/-- **Sender 1 relabels its message, and starts the chain elsewhere, and both batches are adopted.**  The
receipt in them is the one the first relay gave, the tip is over the first relay's log, and every signature
is by its author. -/
theorem handover_relabels :
    run Sample.firstRelay (some Sample.session) Sample.spokenByBoth = some Sample.witnessedFirst ∧
      (∃ a ∈ (step Sample.firstRelay (some Sample.session) (Sample.hands 1 [1, 5, 0, 0, 1])).out,
        a = .ack ⟨1, some Interfaces.Sample.relay, (Sample.relabelled.map Interfaces.Sample.carry).head?.bind
          SealUnilateralLeaf.relaySignature, some 1, replayExternals.encodeStructure2
          ((Sample.witnessedFirst.leafLog.map RelaySealLeaf.s2).head (by decide))⟩) ∧
      Sample.relabelled.map (fun l => (l.structure1Cbor, l.s2.senderPubkey, l.s2.senderSignature)) =
        Sample.witnessedFirst.leafLog.map
          (fun l => (l.structure1Cbor, l.s2.senderPubkey, l.s2.senderSignature)) ∧
      Output.replayResult (.ok 2) ∈ (Sample.takesOver Sample.relabelled).out ∧
      Output.replayResult (.ok 2) ∈ (Sample.takesOver Sample.restarted).out ∧
      ((Sample.takesOver Sample.relabelled).session.map fun st =>
        (st.leafLog.map RelaySealLeaf.kind, decide (st.runningRoot = Sample.witnessedFirst.runningRoot))) =
          some ([.doc, .msg], false) ∧
      Sample.witnessedFirst.leafLog.map RelaySealLeaf.kind = [.msg, .msg] ∧
      ((Sample.takesOver Sample.restarted).session.map fun st =>
        st.leafLog.map fun l => decide (l.s2.prevRoot = st.genesisPrevRoot)) = some [false, false] := by
  refine ⟨(Option.some_get _).symm, ⟨_, ?_, rfl⟩, ?_, ?_, ?_, ?_, ?_, ?_⟩
  all_goals decide +kernel

end Cello.Relay
