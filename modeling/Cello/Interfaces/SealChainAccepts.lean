import Cello.Interfaces.MerkleTree
import Cello.Interfaces.SealChainSpec

/-!
# Which chains are accepted

`chainStep_ok` reads off what an admitted leaf satisfies.  Here the converse: a leaf that
`Follows` the leaves before it is admitted, so a list of leaves is accepted exactly when each
follows the ones before (`chainLoop_ok_iff`), and the whole verification comes to four conditions
on the leaves (`verifySealLeafChain_ok_iff`).
-/

namespace Cello.Interfaces

open Lib

variable {ext : Externals}

/-- The content of the last of these leaves that `sender` wrote. -/
def lastContent (leaves : List RelaySealLeaf) (sender : Bytes) : Option Bytes :=
  ((leaves.filter fun l => decide (l.s2.senderPubkey = sender)).getLast?).map fun l => l.s2.contentHash

/-- The leaf can come next after `prior`, in a session that started at `start`. -/
structure Follows (ext : Externals) (start : Bytes) (prior : List RelaySealLeaf) (leaf : RelaySealLeaf)
    (s1 : Structure1Fields) : Prop extends Admitted ext prior leaf s1 where
  prevRoot : leaf.s2.prevRoot = rootOver ext start prior
  link : ∀ p, lastContent prior leaf.s2.senderPubkey = some p → s1.prevOwnHash = p

/-- What the loop carries is what the leaves so far come to. -/
structure Tracks (ext : Externals) (start : Bytes) (prior : List RelaySealLeaf) (st : ChainState) :
    Prop where
  grown : Grown ext start prior st.stack st.runningRoot
  lastOwn : ∀ sender, st.lastOwn.get sender = lastContent prior sender

theorem lastContent_concat (prior : List RelaySealLeaf) (leaf : RelaySealLeaf) (sender : Bytes) :
    lastContent (prior ++ [leaf]) sender =
      if leaf.s2.senderPubkey = sender then some leaf.s2.contentHash else lastContent prior sender := by
  rw [lastContent, List.filter_append]
  by_cases h : leaf.s2.senderPubkey = sender
  · simp [h]
  · simp [h, lastContent]

theorem chainStep_ok_iff {start : Bytes} {prior : List RelaySealLeaf} {st : ChainState}
    (ht : Tracks ext start prior st) (leaf : RelaySealLeaf) :
    (∃ st', chainStep ext prior st leaf = .ok st') ↔ ∃ s1, Follows ext start prior leaf s1 := by
  constructor
  · rintro ⟨st', h⟩
    obtain ⟨s1, ha, hlink, -⟩ := chainStep_ok h
    refine ⟨s1, ha, ?_, fun p hp => hlink p (by rw [ht.lastOwn, hp])⟩
    by_contra hne
    rw [← ht.grown.root] at hne
    simp [chainStep, ha.verified, ha.decoded, ha.content, hne] at h
  · rintro ⟨s1, ha, hprev, hlink⟩
    rw [← ht.grown.root] at hprev
    refine ⟨chainStep.advance ext st leaf s1, ?_⟩
    rw [chainStep]
    simp only [ha.verified, ha.decoded, ha.content, hprev, ha.causal, Bool.not_true, Bool.false_eq_true,
      if_false, ne_eq, not_true_eq_false]
    cases hl : st.lastOwn.get leaf.s2.senderPubkey with
    | none => rfl
    | some p =>
      simp only [hlink p (by rw [← ht.lastOwn, hl]), not_true_eq_false, if_false]

theorem chainStep_state {prior : List RelaySealLeaf} {st st' : ChainState} {leaf : RelaySealLeaf}
    (h : chainStep ext prior st leaf = .ok st') :
    ∃ s1, decodeStructure1Fields ext leaf.structure1Cbor = some s1 ∧
      st' = chainStep.advance ext st leaf s1 := by
  obtain ⟨s1, ha, -, -⟩ := chainStep_ok h
  refine ⟨s1, ha.decoded, ?_⟩
  rw [chainStep] at h
  simp only [ha.verified, ha.decoded, ha.content, ha.causal, Bool.not_true, Bool.false_eq_true, if_false,
    ne_eq, not_true_eq_false] at h
  split at h
  · simp at h
  split at h
  · split at h
    · simp at h
    · exact (Except.ok.inj h).symm
  · exact (Except.ok.inj h).symm

theorem Tracks.step {start : Bytes} {prior : List RelaySealLeaf} {st st' : ChainState}
    {leaf : RelaySealLeaf} (ht : Tracks ext start prior st)
    (h : chainStep ext prior st leaf = .ok st') : Tracks ext start (prior ++ [leaf]) st' := by
  obtain ⟨s1, ha, -, hown⟩ := chainStep_ok h
  obtain ⟨s1', -, rfl⟩ := chainStep_state h
  refine ⟨ht.grown.append leaf, fun sender => ?_⟩
  rw [hown, lastContent_concat, OrdMap.get_set, ht.lastOwn, ha.content]
  by_cases hs : sender = leaf.s2.senderPubkey
  · rw [if_pos hs, if_pos hs.symm]
  · rw [if_neg hs, if_neg (Ne.symm hs)]

/-- **The loop runs to its end exactly when every leaf follows the ones before.** -/
theorem chainLoop_ok_iff {start : Bytes} : ∀ {leaves prior : List RelaySealLeaf} {st : ChainState},
    Tracks ext start prior st →
    ((∃ st', chainLoop ext prior st leaves = .ok st') ↔
      ∀ pre leaf post, leaves = pre ++ leaf :: post → ∃ s1, Follows ext start (prior ++ pre) leaf s1) := by
  intro leaves
  induction leaves with
  | nil => intro prior st _; simp [chainLoop]
  | cons l rest ih =>
    intro prior st ht
    constructor
    · rintro ⟨st', h⟩ pre leaf post he
      obtain ⟨st₁, hs, hr⟩ := chainLoop_cons h
      cases pre with
      | nil =>
        obtain ⟨rfl, rfl⟩ := List.cons.inj he
        rw [List.append_nil]
        exact (chainStep_ok_iff ht l).1 ⟨st₁, hs⟩
      | cons p pre =>
        obtain ⟨rfl, hpost⟩ := List.cons.inj he
        have := (ih (ht.step hs)).1 ⟨st', hr⟩ pre leaf post hpost
        rwa [List.append_assoc, List.singleton_append] at this
    · intro h
      have hfirst := h [] l rest rfl
      rw [List.append_nil] at hfirst
      obtain ⟨st₁, hs⟩ := (chainStep_ok_iff ht l).2 hfirst
      obtain ⟨st', hr⟩ := (ih (ht.step hs)).2 fun pre leaf post he => by
        have := h (l :: pre) leaf post (by rw [he]; rfl)
        rwa [List.append_assoc, List.singleton_append]
      exact ⟨st', by rw [chainLoop, hs]; exact hr⟩

def startOf (leaves : List RelaySealLeaf) : Bytes := (initialChain leaves).runningRoot

theorem tracks_initialChain (leaves : List RelaySealLeaf) :
    Tracks ext (startOf leaves) [] (initialChain leaves) :=
  ⟨Grown.nil _ _, fun _ => rfl⟩

/-! ### The bound of the causal check -/

/-- Leaf `i` carries the position `i + 1`. -/
def Numbered (log : List RelaySealLeaf) : Prop :=
  ∀ i leaf, log[i]? = some leaf → leaf.s2.sequenceNumber = ((i + 1 : ℕ) : JsNumber)

theorem Numbered.take {leaves : List RelaySealLeaf} (h : Numbered leaves) (i : ℕ) :
    Numbered (leaves.take i) := by
  intro j leaf hj
  obtain ⟨hlt, -⟩ := List.getElem?_eq_some_iff.1 hj
  rw [List.length_take] at hlt
  rw [List.getElem?_take_of_lt (by omega)] at hj
  exact h j leaf hj

/-- **How far the other senders have got, in a numbered log.** -/
theorem effectiveSeen_eq (sender : Bytes) : ∀ {log : List RelaySealLeaf}, Numbered log →
    ∃ m : ℕ, m ≤ log.length ∧ effectiveSeen sender log = (m : JsNumber) ∧
      ∀ n : ℕ, n ≤ m ↔ n = 0 ∨
        ∃ j other, log[j]? = some other ∧ other.s2.senderPubkey ≠ sender ∧ n ≤ j + 1 := by
  intro log
  induction log using List.reverseRecOn with
  | nil => intro _; exact ⟨0, le_rfl, rfl, by simp⟩
  | append_singleton log l ih =>
    intro hnum
    have hpre : Numbered log := by
      intro i leaf hi
      refine hnum i leaf ?_
      rw [List.getElem?_append_left (List.getElem?_eq_some_iff.1 hi).1]
      exact hi
    have hlast : l.s2.sequenceNumber = ((log.length + 1 : ℕ) : JsNumber) := hnum log.length l (by simp)
    obtain ⟨m, hle, hm, hiff⟩ := ih hpre
    have hfold : effectiveSeen sender (log ++ [l]) =
        if l.s2.senderPubkey ≠ sender ∧ l.s2.sequenceNumber.gt (effectiveSeen sender log) then
          l.s2.sequenceNumber else effectiveSeen sender log := by
      rw [effectiveSeen, List.foldl_append]
      rfl
    rw [hm, hlast, JsNumber.gt_natCast] at hfold
    by_cases hs : l.s2.senderPubkey = sender
    · refine ⟨m, by simp; omega, ?_, fun n => ?_⟩
      · rw [hfold, if_neg (by simp [hs])]
      · rw [hiff]
        refine or_congr_right ⟨?_, ?_⟩
        · rintro ⟨j, other, hj, hne, hn⟩
          exact ⟨j, other, by rw [List.getElem?_append_left (List.getElem?_eq_some_iff.1 hj).1]; exact hj,
            hne, hn⟩
        · rintro ⟨j, other, hj, hne, hn⟩
          by_cases hlt : j < log.length
          · rw [List.getElem?_append_left hlt] at hj
            exact ⟨j, other, hj, hne, hn⟩
          · -- the last leaf is the sender's own
            obtain ⟨hidx, -⟩ := List.getElem?_eq_some_iff.1 hj
            rw [List.length_append, List.length_singleton] at hidx
            obtain rfl : j = log.length := by omega
            obtain rfl : l = other := by simpa using hj
            exact absurd hs hne
    · refine ⟨log.length + 1, by simp, ?_, fun n => ?_⟩
      · rw [hfold, if_pos ⟨hs, by simpa using by omega⟩]
      · constructor
        · intro hn
          exact Or.inr ⟨log.length, l, by simp, hs, hn⟩
        · rintro (rfl | ⟨j, other, hj, -, hn⟩)
          · omega
          · obtain ⟨hidx, -⟩ := List.getElem?_eq_some_iff.1 hj
            rw [List.length_append, List.length_singleton] at hidx
            omega

/-! ### Provenance -/

def BelongsTo (ext : Externals) (sid : Bytes) (roster : Bytes × Bytes) (leaf : RelaySealLeaf) : Prop :=
  (roster.1 = leaf.s2.senderPubkey ∨ roster.2 = leaf.s2.senderPubkey) ∧
    ∃ ch, decodeStructure1Signed ext leaf.structure1Cbor = some (ch, sid)

theorem leafProvenance_of_belongsTo {sid : Bytes} {roster : Bytes × Bytes} {leaf : RelaySealLeaf}
    (h : BelongsTo ext sid roster leaf) (i : ℕ) :
    leafProvenance ext sid (some roster) i leaf = .ok () := by
  obtain ⟨hkey, ch, hd⟩ := h
  have hadmit : admitsKey (some roster) leaf.s2.senderPubkey = true := decide_eq_true hkey
  simp [leafProvenance, hadmit, hd]

theorem provenanceLoop_of_belongsTo {sid : Bytes} {roster : Bytes × Bytes} :
    ∀ {leaves : List RelaySealLeaf} (i : ℕ), (∀ leaf ∈ leaves, BelongsTo ext sid roster leaf) →
      provenanceLoop ext sid (some roster) i leaves = .ok () := by
  intro leaves
  induction leaves with
  | nil => intro i _; rfl
  | cons l rest ih =>
    intro i h
    rw [provenanceLoop, leafProvenance_of_belongsTo (h l List.mem_cons_self)]
    exact ih (i + 1) fun leaf hl => h leaf (List.mem_cons_of_mem _ hl)

theorem verifyLeafProvenance_ok_iff {sid : Bytes} {roster : Bytes × Bytes}
    {leaves : List RelaySealLeaf} : verifyLeafProvenance ext leaves sid (some roster) = .ok () ↔
      ∀ leaf ∈ leaves, BelongsTo ext sid roster leaf := by
  constructor
  · intro h leaf hl
    obtain ⟨hkey, hd⟩ := provenanceLoop_ok (verifyLeafProvenance_ok h) leaf hl
    exact ⟨hkey roster rfl, hd⟩
  · intro h
    rw [verifyLeafProvenance, provenanceLoop_of_belongsTo 0 h]
    simp

/-! ### The whole verification -/

theorem verifySealLeafChain_ok_iff {leaves : List RelaySealLeaf} {reported sid root : Bytes}
    {roster : Bytes × Bytes} : verifySealLeafChain ext leaves reported sid roster = .ok root ↔
      ext.merkleRoot (leaves.map fun l => l.s2.contentHash) = reported ∧ root = reported ∧
      (∀ pre leaf post, leaves = pre ++ leaf :: post →
        ∃ s1, Follows ext (startOf leaves) pre leaf s1) ∧
      ∀ leaf ∈ leaves, BelongsTo ext sid roster leaf := by
  have htracks : Tracks ext (startOf leaves) [] (initialChain leaves) := tracks_initialChain leaves
  have hloop : (∃ st, chainLoop ext [] (initialChain leaves) leaves = .ok st) ↔ _ :=
    chainLoop_ok_iff htracks
  simp only [List.nil_append] at hloop
  rw [← hloop, ← verifyLeafProvenance_ok_iff]
  constructor
  · intro h
    obtain ⟨hl, hp⟩ := verifySealLeafChain_ok h
    obtain ⟨st, hst⟩ := hl
    rw [verifySealLeafChain] at h
    by_cases hr : ext.merkleRoot (leaves.map fun l => l.s2.contentHash) = reported
    · simp only [hr, ne_eq, not_true_eq_false, if_false, hst, hp] at h
      exact ⟨hr, (Except.ok.inj h).symm, ⟨st, hst⟩, hp⟩
    · simp [hr] at h
  · rintro ⟨hr, rfl, ⟨st, hst⟩, hp⟩
    simp only [verifySealLeafChain, hr, ne_eq, not_true_eq_false, if_false, hst, hp]

end Cello.Interfaces
