import Cello.Interfaces.SealChain
import Cello.Lib.Trail

/-!
# What an accepted chain guarantees

`chainStep_ok` says once what a round of the loop has checked.  From it, along the
loop, come the two facts the certificate rests on: every leaf was signed, decodes,
and acknowledges no more than was there to see (`admitted_of_ok`); and the leaves of
one sender link to each other (`isTrail_of_ok`).

The link is by content hash.  An accepted order of one sender's leaves is therefore
a trail whose vertices are content hashes, and `Lib.Trail` says how much of the
order that fixes: all of it, once the first leaf and the order among leaves with the
same link are given (`own_order_iff`).
-/

namespace Cello.Interfaces

open Lib Lib.Trail

variable {ext : Externals}

/-- What is checked of a leaf that comes after `prior`. -/
structure Admitted (ext : Externals) (prior : List RelaySealLeaf) (leaf : RelaySealLeaf)
    (s1 : Structure1Fields) : Prop where
  verified : ext.verify leaf.s2.senderPubkey leaf.structure1Cbor leaf.s2.senderSignature = true
  decoded : decodeStructure1Fields ext leaf.structure1Cbor = some s1
  content : s1.contentHash = leaf.s2.contentHash
  causal : s1.lastSeenSeq.gt (effectiveSeen leaf.s2.senderPubkey prior) = false

/-- **What one round of the loop has checked, and what it remembers.** -/
theorem chainStep_ok {prior : List RelaySealLeaf} {st st' : ChainState} {leaf : RelaySealLeaf}
    (h : chainStep ext prior st leaf = .ok st') : ∃ s1, Admitted ext prior leaf s1 ∧
      (∀ p, st.lastOwn.get leaf.s2.senderPubkey = some p → s1.prevOwnHash = p) ∧
      st'.lastOwn = st.lastOwn.set leaf.s2.senderPubkey s1.contentHash := by
  rw [chainStep] at h
  by_cases hv : ext.verify leaf.s2.senderPubkey leaf.structure1Cbor leaf.s2.senderSignature = true
  · rw [if_neg (by simp [hv])] at h
    cases hd : decodeStructure1Fields ext leaf.structure1Cbor with
    | none => simp [hd] at h
    | some s1 =>
      simp only [hd] at h
      by_cases hc : s1.contentHash = leaf.s2.contentHash
      · rw [if_neg (by simp [hc])] at h
        by_cases hp : leaf.s2.prevRoot = st.runningRoot
        · rw [if_neg (by simp [hp])] at h
          by_cases hs : s1.lastSeenSeq.gt (effectiveSeen leaf.s2.senderPubkey prior) = true
          · simp [hs] at h
          · rw [if_neg hs] at h
            refine ⟨s1, ⟨hv, hd, hc, Bool.eq_false_iff.2 hs⟩, ?_⟩
            cases hl : st.lastOwn.get leaf.s2.senderPubkey with
            | none =>
              simp only [hl] at h
              obtain rfl := Except.ok.inj h
              exact ⟨by simp, rfl⟩
            | some p =>
              simp only [hl] at h
              by_cases hq : s1.prevOwnHash = p
              · rw [if_neg (by simp [hq])] at h
                obtain rfl := Except.ok.inj h
                exact ⟨fun p' hp' => hq.trans (Option.some.inj hp'), rfl⟩
              · simp [hq] at h
        · simp [hp] at h
      · simp [hc] at h
  · simp [hv] at h

theorem chainLoop_cons {prior rest : List RelaySealLeaf} {st st' : ChainState}
    {leaf : RelaySealLeaf} (h : chainLoop ext prior st (leaf :: rest) = .ok st') :
    ∃ st₁, chainStep ext prior st leaf = .ok st₁ ∧
      chainLoop ext (prior ++ [leaf]) st₁ rest = .ok st' := by
  rw [chainLoop] at h
  cases hs : chainStep ext prior st leaf with
  | error e => simp [hs] at h
  | ok st₁ => exact ⟨st₁, rfl, by simpa only [hs] using h⟩

theorem admitted_of_chainLoop : ∀ {leaves prior : List RelaySealLeaf} {st st' : ChainState},
    chainLoop ext prior st leaves = .ok st' →
    ∀ pre leaf post, leaves = pre ++ leaf :: post → ∃ s1, Admitted ext (prior ++ pre) leaf s1 := by
  intro leaves
  induction leaves with
  | nil => intro prior st st' _ pre leaf post he; simp at he
  | cons l rest ih =>
    intro prior st st' h pre leaf post he
    obtain ⟨st₁, hs, hr⟩ := chainLoop_cons h
    cases pre with
    | nil =>
      obtain ⟨rfl, rfl⟩ := List.cons.inj he
      obtain ⟨s1, ha, -⟩ := chainStep_ok hs
      exact ⟨s1, by simpa using ha⟩
    | cons p pre =>
      obtain ⟨rfl, hpost⟩ := List.cons.inj he
      have := ih hr pre leaf post hpost
      rwa [List.append_assoc, List.singleton_append] at this

/-! ### The self link -/

def signedLeaf (l : RelaySealLeaf) : Bytes × Bytes := (l.structure1Cbor, l.s2.senderSignature)

/-- The leaves of `sender`, in order. -/
def ownLeaves (sender : Bytes) (leaves : List RelaySealLeaf) : List (Bytes × Bytes) :=
  (leaves.filter fun l => decide (l.s2.senderPubkey = sender)).map signedLeaf

/-- The content hash a signed leaf links to. -/
def linkOf (ext : Externals) (p : Bytes × Bytes) : Option Bytes :=
  (decodeStructure1Fields ext p.1).map Structure1Fields.prevOwnHash

def contentOf (ext : Externals) (p : Bytes × Bytes) : Option Bytes :=
  (decodeStructure1Fields ext p.1).map Structure1Fields.contentHash

theorem ownLeaves_cons_self {sender : Bytes} {l : RelaySealLeaf} {rest : List RelaySealLeaf}
    (h : l.s2.senderPubkey = sender) :
    ownLeaves sender (l :: rest) = signedLeaf l :: ownLeaves sender rest := by
  simp [ownLeaves, h]

theorem ownLeaves_cons_of_ne {sender : Bytes} {l : RelaySealLeaf} {rest : List RelaySealLeaf}
    (h : l.s2.senderPubkey ≠ sender) : ownLeaves sender (l :: rest) = ownLeaves sender rest := by
  simp [ownLeaves, h]

/-- **The leaves of one sender are a trail**, starting at what the loop remembers of them. -/
theorem isTrail_of_chainLoop (sender : Bytes) : ∀ {leaves prior : List RelaySealLeaf}
    {st st' : ChainState}, chainLoop ext prior st leaves = .ok st' →
    IsTrail (linkOf ext) (contentOf ext) (ownLeaves sender leaves) ∧
      ∀ p, st.lastOwn.get sender = some p →
        ∀ e ∈ (ownLeaves sender leaves).head?, linkOf ext e = some p := by
  intro leaves
  induction leaves with
  | nil => intro prior st st' _; exact ⟨List.IsChain.nil, by simp [ownLeaves]⟩
  | cons l rest ih =>
    intro prior st st' h
    obtain ⟨st₁, hs, hr⟩ := chainLoop_cons h
    obtain ⟨s1, ha, hlink, hown⟩ := chainStep_ok hs
    obtain ⟨htrail, hhead⟩ := ih hr
    by_cases hl : l.s2.senderPubkey = sender
    · have hnext : ∀ e ∈ (ownLeaves sender rest).head?, linkOf ext e = some s1.contentHash := by
        refine hhead s1.contentHash ?_
        rw [hown, hl]
        exact OrdMap.get_set_self _ _ _
      have hcontent : contentOf ext (signedLeaf l) = some s1.contentHash := by
        rw [contentOf, signedLeaf, ha.decoded]
        rfl
      rw [ownLeaves_cons_self hl]
      refine ⟨List.isChain_cons.2 ⟨fun e he => ?_, htrail⟩, fun p hp e he => ?_⟩
      · rw [hnext e he, hcontent]
      · obtain rfl : signedLeaf l = e := by simpa using he
        rw [linkOf, signedLeaf, ha.decoded, Option.map_some, hlink p (hl ▸ hp)]
    · rw [ownLeaves_cons_of_ne hl]
      refine ⟨htrail, fun p hp => hhead p ?_⟩
      rw [hown, OrdMap.get_set_of_ne _ _ (Ne.symm hl)]
      exact hp

/-! ### Provenance -/

theorem leafProvenance_ok {sid : Bytes} {participants : Option (Bytes × Bytes)} {i : ℕ}
    {leaf : RelaySealLeaf} (h : leafProvenance ext sid participants i leaf = .ok ()) :
    (∀ r, participants = some r → r.1 = leaf.s2.senderPubkey ∨ r.2 = leaf.s2.senderPubkey) ∧
      ∃ ch, decodeStructure1Signed ext leaf.structure1Cbor = some (ch, sid) := by
  rw [leafProvenance] at h
  split at h
  · simp at h
  · rename_i hin
    constructor
    · rintro ⟨a, b⟩ rfl
      have hkey : admitsKey (some (a, b)) leaf.s2.senderPubkey = true := by simpa using hin
      exact of_decide_eq_true hkey
    · cases hd : decodeStructure1Signed ext leaf.structure1Cbor with
      | none => simp [hd] at h
      | some p =>
        obtain ⟨ch, sid'⟩ := p
        by_cases hs : sid' = sid
        · exact ⟨ch, by rw [hs]⟩
        · simp [hd, hs] at h

theorem provenanceLoop_ok {sid : Bytes} {participants : Option (Bytes × Bytes)} :
    ∀ {leaves : List RelaySealLeaf} {i : ℕ}, provenanceLoop ext sid participants i leaves = .ok () →
    ∀ leaf ∈ leaves,
      (∀ r, participants = some r → r.1 = leaf.s2.senderPubkey ∨ r.2 = leaf.s2.senderPubkey) ∧
        ∃ ch, decodeStructure1Signed ext leaf.structure1Cbor = some (ch, sid) := by
  intro leaves
  induction leaves with
  | nil => intro i _ leaf hl; simp at hl
  | cons l rest ih =>
    intro i h leaf hl
    rw [provenanceLoop] at h
    cases hp : leafProvenance ext sid participants i l with
    | error e => simp [hp] at h
    | ok u =>
      simp only [hp] at h
      rcases List.mem_cons.1 hl with rfl | hl
      · exact leafProvenance_ok hp
      · exact ih h leaf hl

theorem verifyLeafProvenance_ok {leaves : List RelaySealLeaf} {sid : Bytes}
    {participants : Option (Bytes × Bytes)}
    (h : verifyLeafProvenance ext leaves sid participants = .ok ()) :
    provenanceLoop ext sid participants 0 leaves = .ok () := by
  rw [verifyLeafProvenance] at h
  cases hp : provenanceLoop ext sid participants 0 leaves with
  | error e => simp [hp] at h
  | ok u => rfl

/-! ### Acceptance -/

section Accepted

variable {leaves : List RelaySealLeaf} {reported sid root : Bytes} {roster : Bytes × Bytes}
  (h : verifySealLeafChain ext leaves reported sid roster = .ok root)

include h

theorem verifySealLeafChain_ok :
    (∃ st, chainLoop ext [] (initialChain leaves) leaves = .ok st) ∧
      verifyLeafProvenance ext leaves sid (some roster) = .ok () := by
  rw [verifySealLeafChain] at h
  split at h
  · simp at h
  · cases hc : chainLoop ext [] (initialChain leaves) leaves with
    | error e => simp [hc] at h
    | ok st =>
      refine ⟨⟨st, rfl⟩, ?_⟩
      cases hp : verifyLeafProvenance ext leaves sid (some roster) with
      | error e => simp [hc, hp] at h
      | ok u => rfl

theorem admitted_of_ok {pre post : List RelaySealLeaf} {leaf : RelaySealLeaf} (he : leaves = pre ++ leaf :: post) :
    ∃ s1, Admitted ext pre leaf s1 := by
  obtain ⟨⟨st, hst⟩, -⟩ := verifySealLeafChain_ok h
  exact admitted_of_chainLoop hst pre leaf post he

theorem linkOf_isSome_of_ok {sender : Bytes} {e : Bytes × Bytes} (he : e ∈ ownLeaves sender leaves) :
    linkOf ext e ≠ none := by
  obtain ⟨l, hl, rfl⟩ := List.mem_map.1 he
  obtain ⟨pre, post, hsplit⟩ := List.append_of_mem (List.mem_of_mem_filter hl)
  obtain ⟨s1, ha⟩ := admitted_of_ok h hsplit
  simp [linkOf, signedLeaf, ha.decoded]

theorem sender_mem_roster_of_ok {leaf : RelaySealLeaf} (hl : leaf ∈ leaves) :
    roster.1 = leaf.s2.senderPubkey ∨ roster.2 = leaf.s2.senderPubkey :=
  (provenanceLoop_ok (verifyLeafProvenance_ok (verifySealLeafChain_ok h).2) leaf hl).1 roster rfl

theorem isTrail_of_ok (sender : Bytes) : IsTrail (linkOf ext) (contentOf ext) (ownLeaves sender leaves) := by
  obtain ⟨⟨st, hst⟩, -⟩ := verifySealLeafChain_ok h
  exact (isTrail_of_chainLoop sender hst).1

end Accepted

/-- **How far the self link pins the order of one author's leaves.**  Two accepted chains with the
same leaves of `sender` have them in the same order exactly when they start with the same one and
the leaves that link to one hash stand in the same order, for each hash. -/
theorem own_order_iff (ext : Externals) (l₁ l₂ : List RelaySealLeaf)
    (reported₁ reported₂ sid₁ sid₂ root₁ root₂ : Bytes) (roster₁ roster₂ : Bytes × Bytes)
    (h₁ : verifySealLeafChain ext l₁ reported₁ sid₁ roster₁ = .ok root₁)
    (h₂ : verifySealLeafChain ext l₂ reported₂ sid₂ roster₂ = .ok root₂) (sender : Bytes) :
    (ownLeaves sender l₁).Perm (ownLeaves sender l₂) →
      (ownLeaves sender l₁ = ownLeaves sender l₂ ↔
        (ownLeaves sender l₁).head? = (ownLeaves sender l₂).head? ∧
          ∀ x : Bytes, edgesFrom (linkOf ext) (some x) (ownLeaves sender l₁) =
            edgesFrom (linkOf ext) (some x) (ownLeaves sender l₂)) := by
  intro _
  refine ⟨fun he => by rw [he]; exact ⟨rfl, fun _ => rfl⟩, fun ⟨hhead, hlinks⟩ => ?_⟩
  refine eq_of_edgesFrom_eq (isTrail_of_ok h₁ sender) (isTrail_of_ok h₂ sender) hhead fun x => ?_
  cases x with
  | some x => exact hlinks x
  | none =>
    -- every admitted leaf decodes, so none is without a link
    have hnone : ∀ {l : List RelaySealLeaf} {reported sid root : Bytes} {roster : Bytes × Bytes},
        verifySealLeafChain ext l reported sid roster = .ok root →
        edgesFrom (linkOf ext) none (ownLeaves sender l) = [] := by
      intro l reported sid root roster h
      refine List.filter_eq_nil_iff.2 fun e he => ?_
      simpa using linkOf_isSome_of_ok h he
    rw [hnone h₁, hnone h₂]

/-! ### A session where one author repeats himself -/

namespace Sample

/-- A leaf is coded by sender, content, `last_seen_seq`, link and timestamp, one byte each. -/
def decode : Bytes → Option Cbor
  | [s, c, seen, link, t] => some (.arr [.num (3 : ℕ), .bytes (List.replicate 32 c),
      .bytes (List.replicate 32 s), .bytes (List.replicate 16 7), .num (seen.toNat : ℕ),
      .num (t.toNat : ℕ), .bytes (List.replicate 32 0), .bytes (List.replicate 32 link)])
  | _ => none

def kindByte : LeafKind → UInt8
  | .msg => 0
  | .ctrl => 2
  | .doc => 4
  | .reject => 5

/-- Injective stand-ins for the hashes, and a signature that repeats key and message. -/
def externals : Externals where
  verify key m signature := decide (signature = key ++ m)
  cborDecode := decode
  merkleRoot := List.flatten
  leafHash k b := kindByte k :: b
  nodeHash l r := 1 :: (l ++ r)
  encodeStructure2 s := s.senderPubkey ++ s.contentHash ++ s.senderSignature ++ s.prevRoot

/-- The key of sender `s`. -/
def key (s : UInt8) : Bytes := List.replicate 32 s

def sid : Bytes := List.replicate 16 7

/-- The envelopes a relay makes of signed leaves that arrive in this order. -/
def chain : ℕ → Stack → Bytes → List (LeafKind × Bytes) → List RelaySealLeaf
  | _, _, _, [] => []
  | n, stack, running, (kind, b) :: rest =>
    let s2 : Structure2 :=
      { sequenceNumber := (n : ℕ), senderPubkey := key (b.headD 0)
        contentHash := List.replicate 32 (b.getD 1 0)
        senderSignature := key (b.headD 0) ++ b, prevRoot := running }
    let node := externals.leafHash kind (externals.encodeStructure2 s2)
    let stack' := pushNode externals.nodeHash node 0 stack
    { kind := kind, s2 := s2, structure1Cbor := b } ::
      chain (n + 1) stack' (stackRoot externals.nodeHash node stack') rest

/-- `sender 1` says the same thing three times. -/
def thrice : List RelaySealLeaf :=
  chain 1 [] [] [(.msg, [1, 5, 0, 9, 1]), (.msg, [1, 5, 0, 5, 2]), (.msg, [1, 5, 0, 5, 3])]

/-- The same leaves with the last two exchanged. -/
def thriceSwapped : List RelaySealLeaf :=
  chain 1 [] [] [(.msg, [1, 5, 0, 9, 1]), (.msg, [1, 5, 0, 5, 3]), (.msg, [1, 5, 0, 5, 2])]

/-- The root over the content hashes of three such leaves. -/
def thriceRoot : Bytes := List.replicate 96 5

theorem thrice_ok :
    verifySealLeafChain externals thrice thriceRoot sid (key 1, key 2) = .ok thriceRoot := by
  decide +kernel

theorem thriceSwapped_ok :
    verifySealLeafChain externals thriceSwapped thriceRoot sid (key 1, key 2) = .ok thriceRoot := by
  decide +kernel

/-- `sender 1` says two things, `sender 2` one in between. -/
def between : List RelaySealLeaf :=
  chain 1 [] [] [(.msg, [1, 5, 0, 9, 1]), (.msg, [2, 6, 0, 9, 1]), (.msg, [1, 8, 0, 5, 2])]

/-- The same leaves with that of `sender 2` at the end. -/
def after : List RelaySealLeaf :=
  chain 1 [] [] [(.msg, [1, 5, 0, 9, 1]), (.msg, [1, 8, 0, 5, 2]), (.msg, [2, 6, 0, 9, 1])]

/-- The root over content hashes of one byte each. -/
def rootOf (contents : List UInt8) : Bytes := contents.flatMap (List.replicate 32)

theorem between_ok : verifySealLeafChain externals between (rootOf [5, 6, 8]) sid (key 1, key 2) =
    .ok (rootOf [5, 6, 8]) := by
  decide +kernel

theorem after_ok : verifySealLeafChain externals after (rootOf [5, 8, 6]) sid (key 1, key 2) =
    .ok (rootOf [5, 8, 6]) := by
  decide +kernel

end Sample

/-- Two chains that differ, with the leaves of `sender 1` in one order. -/
theorem own_order_interleaved :
    Sample.between ≠ Sample.after ∧
      (ownLeaves (Sample.key 1) Sample.between = ownLeaves (Sample.key 1) Sample.after ↔
        (ownLeaves (Sample.key 1) Sample.between).head? =
          (ownLeaves (Sample.key 1) Sample.after).head? ∧
        ∀ x : Bytes, edgesFrom (linkOf Sample.externals) (some x)
            (ownLeaves (Sample.key 1) Sample.between) =
          edgesFrom (linkOf Sample.externals) (some x) (ownLeaves (Sample.key 1) Sample.after)) := by
  refine ⟨fun heq => ?_, ?_⟩
  · have hsecond : (Sample.between[1]?.map (·.s2.contentHash)) ≠
        (Sample.after[1]?.map (·.s2.contentHash)) := by
      decide
    exact hsecond (by rw [heq])
  · exact own_order_iff Sample.externals Sample.between Sample.after _ _ _ _ _ _ _ _
      Sample.between_ok Sample.after_ok (Sample.key 1) (by decide)

/-- **The two exchanged leaves both link to the repeated content**, so both orders are accepted. -/
theorem own_order_not_pinned :
    verifySealLeafChain Sample.externals Sample.thrice Sample.thriceRoot Sample.sid
        (Sample.key 1, Sample.key 2) = .ok Sample.thriceRoot ∧
      verifySealLeafChain Sample.externals Sample.thriceSwapped Sample.thriceRoot Sample.sid
        (Sample.key 1, Sample.key 2) = .ok Sample.thriceRoot ∧
      (ownLeaves (Sample.key 1) Sample.thrice).Perm
        (ownLeaves (Sample.key 1) Sample.thriceSwapped) ∧
      ownLeaves (Sample.key 1) Sample.thrice ≠ ownLeaves (Sample.key 1) Sample.thriceSwapped :=
  ⟨Sample.thrice_ok, Sample.thriceSwapped_ok, by decide, by decide⟩

end Cello.Interfaces
