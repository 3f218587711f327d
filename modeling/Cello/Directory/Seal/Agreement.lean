import Cello.Directory.Seal.Adjudication
import Cello.Directory.Seal.Approval

/-!
# The two seal verifiers agree

The directory that certifies a seal runs `verifySealFinalRoots`; every co-signer runs
`verifySealCosignEvidence` on the message it is asked to sign, with the leaves as they travel in
`frontier_leaves`.  Two programs, each with its own walk over the leaves: both select the last carried
payload of each sender, and both compare the roots in it with the root over the leaves not labelled
`ctrl`.

For leaves that are signed, whose envelope says what was signed and whose senders are on the roster,
the two verdicts are one (`seal_verifiers_agree`).  The walks are compared leaf by leaf; what is left
is the session, which the directory is told and the co-signer reads off the first leaf and finds
again in the message.
-/

namespace Cello.Directory.Seal

open Lib Cello.Interfaces

/-! ### A bilateral seal and its evidence -/

/-- The leaves of a sign request on the wire. -/
def evidenceOf (leaves : List CosignLeaf) : RawLeaves :=
  .items (leaves.map fun l => some
    { structure1Cbor := some l.structure1Cbor, senderPubkey := some l.senderPubkey
      senderSignature := some l.senderSignature, contentBytes := l.contentBytes, kind := l.kind })

/-- The framed message of a bilateral seal of these leaves. -/
def framedSeal (ext : SealExternals) (sessionId : Bytes) (leaves : List RelaySealLeaf)
    (closeTimestamp : JsNumber) (legibility : SealLegibility) : Bytes :=
  sealFrostContext ++ [0] ++ bindLegibilityToTbs ext.sha256
    (ext.buildSealTbs sessionId (ext.merkleRoot (leaves.map fun l => l.s2.contentHash)) leaves.length
      closeTimestamp)
    legibility.toValue

/-- A leaf that its sender signed, in an envelope that says so. -/
structure Enveloped (ext : SealExternals) (a b : Bytes) (l : RelaySealLeaf) : Prop where
  signed : ext.verify l.s2.senderPubkey l.structure1Cbor l.s2.senderSignature = true
  content : ∀ contentHash sid, decodeStructure1Signed ext.toExternals l.structure1Cbor =
    some (contentHash, sid) → contentHash = l.s2.contentHash
  sender : l.s2.senderPubkey = a ∨ l.s2.senderPubkey = b

/-- The bytes of a seal name its session: those of another session do not begin like them. -/
def NamesSession (ext : SealExternals) : Prop :=
  ∀ sid sid' root root' n n' ts ts' tail,
    ext.buildSealTbs sid' root' n' ts' <+: ext.buildSealTbs sid root n ts ++ tail → sid' = sid

variable {ext : SealExternals} {sid : Bytes}

theorem parse_evidenceOf {leaves : List CosignLeaf} (h : leaves ≠ []) :
    parseCosignLeaves (evidenceOf leaves) = some leaves := by
  have hitems : ∀ leaves : List CosignLeaf, (leaves.map fun l => some
      ({ structure1Cbor := some l.structure1Cbor, senderPubkey := some l.senderPubkey
         senderSignature := some l.senderSignature, contentBytes := l.contentBytes
         kind := l.kind } : RawItem)).mapM parseItem = some leaves := by
    intro leaves
    induction leaves with
    | nil => rfl
    | cons l rest ih =>
      rw [List.map_cons, List.mapM_cons, ih]
      rfl
  cases leaves with
  | nil => exact absurd rfl h
  | cons l rest => exact hitems (l :: rest)

/-! ### The two walks -/

@[simp] theorem kind_frontierLeaf (l : RelaySealLeaf) :
    (frontierLeaf l).kind = some "ctrl" ↔ l.kind = .ctrl := by
  cases hk : l.kind <;> simp [frontierLeaf, hk, LeafKind.text]

def InSession (ext : SealExternals) (sid : Bytes) (l : RelaySealLeaf) : Prop :=
  decodeStructure1Signed ext.toExternals l.structure1Cbor = some (l.s2.contentHash, sid)

theorem cosignSignedHash_frontierLeaf {l : RelaySealLeaf} (h : InSession ext sid l) :
    cosignSignedHash ext (frontierLeaf l) = some l.s2.contentHash := by
  rw [cosignSignedHash]
  change (decodeStructure1Signed ext.toExternals l.structure1Cbor).map Prod.fst = _
  rw [h]
  rfl

theorem filterMap_frontierLeaf {leaves : List RelaySealLeaf} (h : ∀ l ∈ leaves, InSession ext sid l) :
    (leaves.map frontierLeaf).filterMap (cosignSignedHash ext) =
      leaves.map fun l => l.s2.contentHash := by
  induction leaves with
  | nil => rfl
  | cons l rest ih =>
    rw [List.map_cons, List.filterMap_cons, cosignSignedHash_frontierLeaf (h l (by simp)),
      ih fun l' hl' => h l' (List.mem_cons_of_mem _ hl')]
    rfl

theorem nonCtrlHashes_frontierLeaf {leaves : List RelaySealLeaf}
    (h : ∀ l ∈ leaves, InSession ext sid l) :
    cosignNonCtrlHashes ext (leaves.map frontierLeaf) = nonCtrlHashes leaves := by
  have hfilter : (leaves.map frontierLeaf).filter (fun l => decide (l.kind ≠ some "ctrl")) =
      (leaves.filter fun l => decide (l.kind ≠ .ctrl)).map frontierLeaf := by
    rw [List.filter_map]
    simp [Function.comp_def]
  rw [cosignNonCtrlHashes, hfilter, nonCtrlHashes]
  exact filterMap_frontierLeaf fun l hl => h l (List.mem_of_mem_filter hl)

theorem boundRoot_eq_ok_iff {l : RelaySealLeaf} (h : InSession ext sid l) {i : ℕ} {bytes root : Bytes} :
    boundRoot ext sid i l bytes = .ok root ↔
      sealContentHash ext bytes = l.s2.contentHash ∧
        ext.decodeSealPayload bytes = some ⟨sid, root⟩ := by
  unfold InSession at h
  rw [boundRoot, h]
  by_cases hbound : sealContentHash ext bytes = l.s2.contentHash
  · cases hp : ext.decodeSealPayload bytes with
    | none => simp [hbound]
    | some payload =>
      obtain ⟨psid, proot⟩ := payload
      by_cases hs : psid = sid
      · simp [hbound, hs]
      · simp [hbound, hs]
  · simp [hbound]

theorem cosignCollect_carried {l : RelaySealLeaf} (h : InSession ext sid l) (hkind : l.kind = .ctrl)
    {bytes : Bytes} (hbytes : l.contentBytes = some bytes) (m : OrdMap Bytes Bytes)
    (rest : List CosignLeaf) :
    (∃ root, boundRoot ext sid 0 l bytes = .ok root ∧
      cosignCollect ext sid m (frontierLeaf l :: rest) =
        cosignCollect ext sid (m.set l.s2.senderPubkey root) rest) ∨
    ((∀ root, ¬boundRoot ext sid 0 l bytes = .ok root) ∧
      ∃ e, cosignCollect ext sid m (frontierLeaf l :: rest) = .error e) := by
  have hk : (frontierLeaf l).kind = some "ctrl" := (kind_frontierLeaf l).2 hkind
  have hc : (frontierLeaf l).contentBytes = some bytes := hbytes
  simp only [boundRoot_eq_ok_iff h]
  rw [cosignCollect]
  simp only [hk, hc, cosignSignedHash_frontierLeaf h, ne_eq, not_true_eq_false, if_false]
  by_cases hbound : sealContentHash ext bytes = l.s2.contentHash
  · rw [if_neg (not_not.2 hbound)]
    simp only [hbound, true_and]
    cases hp : ext.decodeSealPayload bytes with
    | none => exact Or.inr ⟨by simp, _, rfl⟩
    | some payload =>
      obtain ⟨psid, proot⟩ := payload
      by_cases hs : psid = sid
      · subst hs
        exact Or.inl ⟨proot, rfl, if_neg (not_not.2 rfl)⟩
      · exact Or.inr ⟨by simp [hs], _, if_pos hs⟩
  · exact Or.inr ⟨by simp [hbound], _, if_pos hbound⟩

theorem boundRoot_index {l : RelaySealLeaf} (h : InSession ext sid l) (i : ℕ) {bytes root : Bytes} :
    boundRoot ext sid i l bytes = .ok root ↔ boundRoot ext sid 0 l bytes = .ok root := by
  rw [boundRoot_eq_ok_iff h, boundRoot_eq_ok_iff h]

/-- **Both collect the same roots**: the last bound payload of each sender, or nothing. -/
theorem cosignCollect_frontierLeaf : ∀ {leaves : List RelaySealLeaf},
    (∀ l ∈ leaves, InSession ext sid l) → ∀ (i : ℕ) (m : OrdMap Bytes (Bytes × ℕ)),
      (cosignCollect ext sid (m.mapValues Prod.fst) (leaves.map frontierLeaf)).toOption =
        (collectRoots ext sid i m leaves).toOption.map (OrdMap.mapValues Prod.fst) := by
  intro leaves
  induction leaves with
  | nil => intro _ i m; rfl
  | cons l rest ih =>
    intro h i m
    have hl : InSession ext sid l := h l (by simp)
    have hrest := ih fun l' hl' => h l' (List.mem_cons_of_mem _ hl')
    rw [List.map_cons, collectRoots]
    by_cases hkind : l.kind = .ctrl
    · simp only [hkind, ne_eq, not_true_eq_false, if_false]
      cases hbytes : l.contentBytes with
      | none =>
        -- a `ctrl` leaf without a payload is passed over by both
        have hc : (frontierLeaf l).contentBytes = none := hbytes
        rw [cosignCollect, if_neg (by rw [not_not]; exact (kind_frontierLeaf l).2 hkind), hc]
        exact hrest (i + 1) m
      | some bytes =>
        rcases cosignCollect_carried hl hkind hbytes (m.mapValues Prod.fst) (rest.map frontierLeaf) with
          ⟨root, hroot, hstep⟩ | ⟨hnone, e, hstep⟩
        · dsimp only
          rw [hstep, (boundRoot_index hl i).2 hroot]
          exact OrdMap.mapValues_set m Prod.fst _ (root, i) ▸ hrest (i + 1) _
        · dsimp only
          rw [hstep]
          cases hb : boundRoot ext sid i l bytes with
          | error e' => rfl
          | ok root => exact absurd ((boundRoot_index hl i).1 hb) (hnone root)
    · rw [cosignCollect, if_pos (fun hc => hkind ((kind_frontierLeaf l).1 hc)), if_pos hkind]
      exact hrest (i + 1) m

/-! ### The two verdicts -/

theorem judgeRoots_both_iff {expected : Bytes} {entries : List (Bytes × (Bytes × ℕ))} :
    (∃ root, judgeRoots expected entries = .ok ⟨.both, root⟩) ↔
      2 ≤ entries.length ∧ ∀ e ∈ entries, e.2.1 = expected := by
  constructor
  · rintro ⟨root, h⟩
    exact (judgeRoots_both h).2
  · rintro ⟨hlen, hall⟩
    cases entries with
    | nil => simp at hlen
    | cons first rest =>
      have hfirst : first.2.1 = expected := hall first (by simp)
      have hfind : (rest.find? fun e => decide (e.2.1 ≠ first.2.1)) = none :=
        List.find?_eq_none.2 fun e he => by
          simp [hfirst, hall e (List.mem_cons_of_mem _ he)]
      refine ⟨expected, ?_⟩
      rw [judgeRoots, hfind]
      simp only [hfirst, ne_eq, not_true_eq_false, if_false]
      rw [if_pos (by simpa using hlen)]

theorem verifyBilateralApprovals_ok_iff {leaves : List CosignLeaf} :
    verifyBilateralApprovals ext leaves sid = .ok () ↔
      ∃ bySender, cosignCollect ext sid OrdMap.empty leaves = .ok bySender ∧
        2 ≤ bySender.entries.length ∧
        ∀ e ∈ bySender.entries, e.2 = ext.merkleRoot (cosignNonCtrlHashes ext leaves) := by
  rw [verifyBilateralApprovals]
  cases hc : cosignCollect ext sid OrdMap.empty leaves with
  | error e => simp
  | ok bySender =>
    simp only [Except.ok.injEq, exists_eq_left']
    by_cases hlen : bySender.entries.length < 2
    · simp [hlen]
    · simp only [hlen, if_false, not_lt.1 hlen, true_and]
      cases hf : bySender.entries.find? fun e =>
          decide (e.2 ≠ ext.merkleRoot (cosignNonCtrlHashes ext leaves)) with
      | none =>
        simpa using List.find?_eq_none.1 hf
      | some e =>
        have hne := List.find?_some hf
        have hmem := List.mem_of_find?_eq_some hf
        simp only [reduceCtorEq, false_iff]
        intro hall
        simp [hall e hmem] at hne

theorem approvals_iff_both {leaves : List RelaySealLeaf} (h : ∀ l ∈ leaves, InSession ext sid l) :
    verifyBilateralApprovals ext (leaves.map frontierLeaf) sid = .ok () ↔
      ∃ bySender root, collectRoots ext sid 0 OrdMap.empty leaves = .ok bySender ∧
        judgeRoots (rootOverNonCtrlLeaves ext leaves) bySender.entries = .ok ⟨.both, root⟩ := by
  have hcollect := cosignCollect_frontierLeaf h 0 OrdMap.empty
  rw [show (OrdMap.empty : OrdMap Bytes (Bytes × ℕ)).mapValues Prod.fst = OrdMap.empty from rfl] at hcollect
  rw [verifyBilateralApprovals_ok_iff, nonCtrlHashes_frontierLeaf h]
  cases hd : collectRoots ext sid 0 OrdMap.empty leaves with
  | error e =>
    rw [hd] at hcollect
    cases hc : cosignCollect ext sid OrdMap.empty (leaves.map frontierLeaf) with
    | error e' => simp
    | ok m => rw [hc] at hcollect; cases hcollect
  | ok bySender =>
    rw [hd] at hcollect
    cases hc : cosignCollect ext sid OrdMap.empty (leaves.map frontierLeaf) with
    | error e' => rw [hc] at hcollect; cases hcollect
    | ok m =>
      rw [hc] at hcollect
      obtain rfl : m = bySender.mapValues Prod.fst := Option.some.inj hcollect
      simp only [Except.ok.injEq, exists_eq_left', exists_and_left]
      rw [judgeRoots_both_iff]
      simp only [OrdMap.mapValues, List.length_map, List.forall_mem_map]
      rfl

/-! ### The session -/

theorem cosignLoop_inSession {a b : Bytes} : ∀ {leaves : List RelaySealLeaf},
    (∀ l ∈ leaves, Enveloped ext a b l ∧ InSession ext sid l) → ∀ (i : ℕ) (st : CosignWalk),
      (st.sessionId = none ∨ st.sessionId = some sid) → st.senders ⊆ [a, b] → st.senders.Nodup →
      ∃ walk, cosignLoop ext i st (leaves.map frontierLeaf) = .ok walk ∧
        walk.senders ⊆ [a, b] ∧ walk.senders.Nodup := by
  intro leaves
  induction leaves with
  | nil => intro _ i st _ hsub hnodup; exact ⟨st, rfl, hsub, hnodup⟩
  | cons l rest ih =>
    intro h i st hsid hsub hnodup
    obtain ⟨henv, hin⟩ := h l (by simp)
    have hstep : cosignStep ext i st (frontierLeaf l) = .ok
        { sessionId := some (st.sessionId.getD sid)
          senders := if l.s2.senderPubkey ∈ st.senders then st.senders
            else st.senders ++ [l.s2.senderPubkey]
          contentHashes := st.contentHashes ++ [l.s2.contentHash] } := by
      have hsession : ¬(st.sessionId ≠ none ∧ st.sessionId ≠ some sid) := by
        rcases hsid with h | h <;> simp [h]
      have hd : decodeStructure1Signed ext.toExternals (frontierLeaf l).structure1Cbor =
        some (l.s2.contentHash, sid) := hin
      rw [cosignStep, show ext.verify (frontierLeaf l).senderPubkey (frontierLeaf l).structure1Cbor
        (frontierLeaf l).senderSignature = true from henv.signed, hd]
      simp only [Bool.not_true, Bool.false_eq_true, if_false, hsession]
      rfl
    rw [List.map_cons, cosignLoop, hstep]
    have hkey : l.s2.senderPubkey ∈ [a, b] := by simpa using henv.sender
    refine ih (fun l' hl' => h l' (List.mem_cons_of_mem _ hl')) (i + 1) _ (Or.inr ?_) ?_ ?_
    · rcases hsid with h | h <;> simp [h]
    · dsimp only
      split
      · exact hsub
      · exact List.append_subset.2 ⟨hsub, by simpa using hkey⟩
    · dsimp only
      split
      · exact hnodup
      · rename_i hnot
        exact List.nodup_append.2 ⟨hnodup, by simp, by
          rintro x hx y hy rfl
          exact hnot (by simpa using (List.mem_singleton.1 hy) ▸ hx)⟩

theorem cosignStep_session {i : ℕ} {st st' : CosignWalk} {leaf : CosignLeaf}
    (h : cosignStep ext i st leaf = .ok st') :
    ∃ contentHash session, decodeStructure1Signed ext.toExternals leaf.structure1Cbor =
      some (contentHash, session) ∧ st'.sessionId = some session := by
  obtain ⟨contentHash, session, hd, -, hst⟩ := cosignStep_ok h
  refine ⟨contentHash, session, hd, ?_⟩
  rw [hst]
  cases hs : st.sessionId with
  | none => rfl
  | some first =>
    rw [cosignStep, hd] at h
    split at h
    · simp at h
    · -- a leaf of another session would have been refused
      by_cases hsame : first = session
      · rw [hsame, Option.getD_some]
      · simp [hs, hsame] at h

theorem cosignLoop_session : ∀ {leaves : List CosignLeaf} {i : ℕ} {st walk : CosignWalk},
    cosignLoop ext i st leaves = .ok walk → ∀ leaf ∈ leaves, ∃ contentHash session,
      decodeStructure1Signed ext.toExternals leaf.structure1Cbor = some (contentHash, session) ∧
        walk.sessionId = some session := by
  intro leaves
  induction leaves with
  | nil => intro i st walk _ leaf hleaf; simp at hleaf
  | cons l rest ih =>
    intro i st walk h leaf hleaf
    rw [cosignLoop] at h
    cases hs : cosignStep ext i st l with
    | error e => simp [hs] at h
    | ok st' =>
      simp only [hs] at h
      rcases List.mem_cons.1 hleaf with rfl | hleaf
      · obtain ⟨contentHash, session, hd, hst⟩ := cosignStep_session hs
        refine ⟨contentHash, session, hd, ?_⟩
        rw [(cosignLoop_ok h).2, hst, Option.some_or]
      · exact ih h leaf hleaf

/-! ### The message -/

theorem idxOf_framed (tail : Bytes) :
    (sealFrostContext ++ [0] ++ tail).idxOf 0 = sealFrostContext.length := by
  rw [List.append_assoc, List.idxOf_append_of_notMem (by decide +kernel)]
  rfl

theorem framedSeal_eq (leaves : List RelaySealLeaf) (ts : JsNumber) (legibility : SealLegibility) :
    framedSeal ext sid leaves ts legibility =
      expectedFramed ext sid (leaves.map fun l => l.s2.contentHash) ts ++
        ext.sha256 (canonicalLegibilityBytes legibility.toValue) := by
  have hbind : ∀ tbs, bindLegibilityToTbs ext.sha256 tbs legibility.toValue =
      tbs ++ ext.sha256 (canonicalLegibilityBytes legibility.toValue) := fun _ => rfl
  rw [framedSeal, hbind, expectedFramed, List.length_map]
  simp only [List.append_assoc]

section Framed

variable {leaves : List RelaySealLeaf} {closeTimestamp : Cbor} {ts : JsNumber}
  (hts : closeTimestampOf closeTimestamp = some ts) (legibility : SealLegibility)

include hts

theorem verifySealCosignEvidence_framedSeal (hne : leaves ≠ []) :
    verifySealCosignEvidence ext (framedSeal ext sid leaves ts legibility)
        (evidenceOf (leaves.map frontierLeaf)) closeTimestamp =
      match cosignLoop ext 0 ⟨none, [], []⟩ (leaves.map frontierLeaf) with
      | .error e => .error e
      | .ok walk =>
        match walk.sessionId with
        | none => .error ⟨.evidenceMalformed, "no leaves to read a session from"⟩
        | some session => judgeCosign ext (framedSeal ext sid leaves ts legibility) ts
            (leaves.map frontierLeaf) walk session := by
  have hidx : (framedSeal ext sid leaves ts legibility).idxOf 0 = sealFrostContext.length :=
    idxOf_framed _
  have hlen : sealFrostContext.length < (framedSeal ext sid leaves ts legibility).length := by
    simp only [framedSeal, List.length_append, List.length_singleton]
    omega
  have htake : (framedSeal ext sid leaves ts legibility).take sealFrostContext.length =
      sealFrostContext := by
    rw [framedSeal, List.append_assoc, List.take_left]
  have hcontext : ¬(sealFrostContext.length = (framedSeal ext sid leaves ts legibility).length ∨
      sealFrostContext.length = 0 ∨
      (framedSeal ext sid leaves ts legibility).take sealFrostContext.length ≠ sealFrostContext) := by
    rw [htake]
    rintro (h | h | h)
    · omega
    · exact absurd h (by decide +kernel)
    · exact h rfl
  have hmap : leaves.map frontierLeaf ≠ [] := by simpa using hne
  have hraw : ¬(evidenceOf (leaves.map frontierLeaf) = .absent ∨
      evidenceOf (leaves.map frontierLeaf) = .items []) := by
    simp [evidenceOf, hne]
  rw [verifySealCosignEvidence]
  cases hloop : cosignLoop ext 0 ⟨none, [], []⟩ (leaves.map frontierLeaf) with
  | error e => simp only [hidx, if_neg hcontext, hts, if_neg hraw, parse_evidenceOf hmap, hloop]
  | ok walk =>
    cases hsession : walk.sessionId with
    | none => simp only [hidx, if_neg hcontext, hts, if_neg hraw, parse_evidenceOf hmap, hloop, hsession]
    | some session => simp only [hidx, if_neg hcontext, hts, if_neg hraw, parse_evidenceOf hmap, hloop, hsession]

theorem verifySealCosignEvidence_inSession {a b : Bytes}
    (hsha : ∀ bytes, (ext.sha256 bytes).length = legibilityHashBytes) (hne : leaves ≠ [])
    (h : ∀ l ∈ leaves, Enveloped ext a b l ∧ InSession ext sid l) :
    verifySealCosignEvidence ext (framedSeal ext sid leaves ts legibility)
        (evidenceOf (leaves.map frontierLeaf)) closeTimestamp =
      verifyBilateralApprovals ext (leaves.map frontierLeaf) sid := by
  obtain ⟨walk, hwalk, hsub, hnodup⟩ :=
    cosignLoop_inSession h 0 ⟨none, [], []⟩ (Or.inl rfl) (by simp) List.nodup_nil
  have hhashes : walk.contentHashes = leaves.map fun l => l.s2.contentHash := by
    rw [(cosignLoop_ok hwalk).1, List.nil_append, filterMap_frontierLeaf fun l hl => (h l hl).2]
  have hsession : walk.sessionId = some sid := by
    obtain ⟨l, hl⟩ := List.exists_mem_of_ne_nil _ hne
    obtain ⟨contentHash, session, hd, hs⟩ :=
      cosignLoop_session hwalk (frontierLeaf l) (List.mem_map_of_mem hl)
    have hin : decodeStructure1Signed ext.toExternals (frontierLeaf l).structure1Cbor =
      some (l.s2.contentHash, sid) := (h l hl).2
    rw [hin] at hd
    rw [hs, ← (Prod.mk.inj (Option.some.inj hd)).2]
  have hsenders : ¬2 < walk.senders.length := by
    have := (List.subperm_of_subset hnodup hsub).length_le
    simpa using this
  rw [verifySealCosignEvidence_framedSeal hts legibility hne, hwalk]
  simp only [hsession]
  rw [judgeCosign, hhashes, framedSeal_eq]
  simp only [hsenders, if_false, List.length_append, hsha, List.take_left, ne_eq, not_true_eq_false,
    and_false, if_true]

/-- **What the co-signer accepts is of the session.** -/
theorem inSession_of_accepted {a b : Bytes} (hnames : NamesSession ext)
    (h : ∀ l ∈ leaves, Enveloped ext a b l)
    (hok : verifySealCosignEvidence ext (framedSeal ext sid leaves ts legibility)
        (evidenceOf (leaves.map frontierLeaf)) closeTimestamp = .ok ()) :
    leaves ≠ [] ∧ ∀ l ∈ leaves, InSession ext sid l := by
  have hne : leaves ≠ [] := by
    rintro rfl
    rw [verifySealCosignEvidence] at hok
    split at hok
    · simp at hok
    · simp [hts, evidenceOf] at hok
  refine ⟨hne, ?_⟩
  rw [verifySealCosignEvidence_framedSeal hts legibility hne] at hok
  cases hwalk : cosignLoop ext 0 ⟨none, [], []⟩ (leaves.map frontierLeaf) with
  | error e => simp [hwalk] at hok
  | ok walk =>
    cases hs : walk.sessionId with
    | none => simp [hwalk, hs] at hok
    | some session =>
      simp only [hwalk, hs] at hok
      rw [judgeCosign] at hok
      split at hok
      · simp at hok
      split at hok
      · simp at hok
      split at hok
      · simp at hok
      rename_i htake
      -- the message begins as that of the leaves' session, so it is theirs
      have hprefix : expectedFramed ext session walk.contentHashes ts <+:
          framedSeal ext sid leaves ts legibility := by
        rw [not_not] at htake
        rw [← htake]
        exact List.take_prefix _ _
      rw [framedSeal_eq, expectedFramed, expectedFramed, List.append_assoc (sealFrostContext ++ [0]),
        List.prefix_append_right_inj] at hprefix
      obtain rfl : session = sid := hnames _ _ _ _ _ _ _ _ _ hprefix
      intro l hl
      obtain ⟨contentHash, session', hd, hs'⟩ :=
        cosignLoop_session hwalk (frontierLeaf l) (List.mem_map_of_mem hl)
      obtain rfl : session = session' := Option.some.inj (hs.symm.trans hs')
      have hd' : decodeStructure1Signed ext.toExternals l.structure1Cbor =
        some (contentHash, session) := hd
      rw [InSession, hd', (h l hl).content _ _ hd']

end Framed

/-- **The directory and its co-signers agree.**  For signed leaves of the roster in honest envelopes,
the directory finds both participants' roots and finds them right exactly when a co-signer accepts
the message of the bilateral seal with the leaves as evidence. -/
theorem seal_verifiers_agree (ext : SealExternals) (hnames : NamesSession ext)
    (hsha : ∀ bytes, (ext.sha256 bytes).length = legibilityHashBytes) (sid a b : Bytes)
    (leaves : List RelaySealLeaf) (closeTimestamp : Cbor) (ts : JsNumber)
    (legibility : SealLegibility) (hts : closeTimestampOf closeTimestamp = some ts)
    (henv : ∀ l ∈ leaves, Enveloped ext a b l) :
    (∃ root, verifySealFinalRoots ext leaves sid (some (a, b)) = .ok ⟨.both, root⟩) ↔
      verifySealCosignEvidence ext (framedSeal ext sid leaves ts legibility)
        (evidenceOf (leaves.map frontierLeaf)) closeTimestamp = .ok () := by
  constructor
  · rintro ⟨root, hok⟩
    rw [verifySealFinalRoots] at hok
    cases hprov : verifyLeafProvenance ext.toExternals leaves sid (some (a, b)) with
    | error e => simp [hprov] at hok
    | ok u =>
      have hin : ∀ l ∈ leaves, InSession ext sid l := by
        intro l hl
        obtain ⟨-, contentHash, hd⟩ := verifyLeafProvenance_ok_iff.1 hprov l hl
        rw [InSession, hd, (henv l hl).content _ _ hd]
      simp only [hprov] at hok
      cases hc : collectRoots ext sid 0 OrdMap.empty leaves with
      | error e => simp [hc] at hok
      | ok bySender =>
        simp only [hc] at hok
        have hne : leaves ≠ [] := by
          rintro rfl
          obtain rfl := Except.ok.inj hc
          cases hok
        rw [verifySealCosignEvidence_inSession hts legibility hsha hne
          fun l hl => ⟨henv l hl, hin l hl⟩]
        exact (approvals_iff_both hin).2 ⟨bySender, root, hc, hok⟩
  · intro hok
    obtain ⟨hne, hin⟩ := inSession_of_accepted hts legibility hnames henv hok
    rw [verifySealCosignEvidence_inSession hts legibility hsha hne
      fun l hl => ⟨henv l hl, hin l hl⟩] at hok
    obtain ⟨bySender, root, hc, hjudge⟩ := (approvals_iff_both hin).1 hok
    have hprov : verifyLeafProvenance ext.toExternals leaves sid (some (a, b)) = .ok () :=
      verifyLeafProvenance_ok_iff.2 fun l hl => by
        refine ⟨(henv l hl).sender.imp Eq.symm Eq.symm, l.s2.contentHash, hin l hl⟩
    exact ⟨root, by rw [verifySealFinalRoots, hprov, hc]; exact hjudge⟩

namespace Sample

/-- The stand-ins with a message that begins with its session, byte by byte up to a mark. -/
def namingExternals : SealExternals :=
  { externals with
    buildSealTbs := fun sid root _ _ => (sid.flatMap fun b => [1, b]) ++ (0 :: root) }

theorem namesSession : NamesSession namingExternals := by
  intro sid sid' root root' _ _ _ _ tail
  change (sid'.flatMap fun b => [1, b]) ++ (0 :: root') <+:
    (sid.flatMap fun b => [1, b]) ++ (0 :: root) ++ tail → sid' = sid
  induction sid' generalizing sid with
  | nil =>
    cases sid with
    | nil => intro _; rfl
    | cons b sid => intro h; simp at h
  | cons b sid' ih =>
    cases sid with
    | nil => intro h; simp at h
    | cons c sid =>
      intro h
      simp only [List.flatMap_cons, List.cons_append, List.nil_append, List.cons_prefix_cons,
        true_and] at h
      obtain ⟨rfl, h⟩ := h
      rw [ih sid h]

/-- What the directory says of two messages that both participants sealed. -/
def sealedLegibility : SealLegibility :=
  (buildSealLegibility Interfaces.Sample.externals (fun _ => none) (leaves .msg bothRoot)).getD
    greetingLegibility

theorem enveloped_leaves : ∀ l ∈ leaves .msg bothRoot,
    Enveloped namingExternals (Interfaces.Sample.key 1) (Interfaces.Sample.key 2) l := by
  intro l hl
  have hsigned : ∀ l ∈ leaves .msg bothRoot,
      namingExternals.verify l.s2.senderPubkey l.structure1Cbor l.s2.senderSignature = true ∧
        signedHash namingExternals l.structure1Cbor = some l.s2.contentHash ∧
        (l.s2.senderPubkey = Interfaces.Sample.key 1 ∨
          l.s2.senderPubkey = Interfaces.Sample.key 2) := by
    decide +kernel
  obtain ⟨hverify, hcontent, hsender⟩ := hsigned l hl
  refine ⟨hverify, fun contentHash sid hd => ?_, hsender⟩
  rw [signedHash, hd] at hcontent
  exact Option.some.inj hcontent

end Sample

/-- Two messages and both SEAL leaves: the directory finds both roots, so a co-signer accepts. -/
theorem seal_verifiers_agree_both_messages :
    verifySealCosignEvidence Sample.namingExternals
      (framedSeal Sample.namingExternals Interfaces.Sample.sid (Sample.leaves .msg Sample.bothRoot)
        (4 : ℕ) Sample.sealedLegibility)
      (evidenceOf ((Sample.leaves .msg Sample.bothRoot).map frontierLeaf)) (.num (4 : ℕ)) = .ok () :=
  (seal_verifiers_agree Sample.namingExternals Sample.namesSession
    (fun _ => List.length_replicate) Interfaces.Sample.sid (Interfaces.Sample.key 1)
    (Interfaces.Sample.key 2) (Sample.leaves .msg Sample.bothRoot) (.num (4 : ℕ)) (4 : ℕ)
    Sample.sealedLegibility rfl Sample.enveloped_leaves).1 ⟨Sample.bothRoot, by decide +kernel⟩

end Cello.Directory.Seal
