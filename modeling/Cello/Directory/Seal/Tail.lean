import Cello.Directory.Seal.Certificate
import Cello.Directory.Seal.ProcessSeal

/-!
# The tail of a certified transcript

What `final_message.answered` says of a seal that `processSeal` certifies.  The answer is looked for
among the leaves numbered above the highest message, and the numbers are the relay's.  A message is never
numbered above the highest one and a document never answers, so only a closing leaf can.  Those after the
last message of the list are left out; one before it is not, although it closes nothing.

So the certificate presents a tail as answered exactly if the relay numbered such a leaf above every
message (`answered_iff`), and `tailLaw_iff` says when that is no harm.
-/

namespace Cello.Directory.Seal

open Lib Cello.Interfaces

/-! ### The last message and the highest one -/

/-- The message after which the list has no other. -/
structure LastMessage (leaves : List RelaySealLeaf) (k : ℕ) (l : RelaySealLeaf) : Prop where
  stands : leaves[k]? = some l
  message : l.kind = .msg
  last : ∀ j x, k < j → leaves[j]? = some x → x.kind ≠ .msg

/-- The first leaf with the highest number above `-1`, among those satisfying `p`. -/
structure Top (p : RelaySealLeaf → Prop) (leaves : List RelaySealLeaf) (k : ℕ) (f : RelaySealLeaf) :
    Prop where
  stands : leaves[k]? = some f
  sat : p f
  counted : f.s2.sequenceNumber.gt (.fin (-1)) = true
  before : ∀ j x, j < k → leaves[j]? = some x → p x → x.s2.sequenceNumber.gt (.fin (-1)) = true →
    f.s2.sequenceNumber.gt x.s2.sequenceNumber = true
  after : ∀ j x, k < j → leaves[j]? = some x → p x →
    x.s2.sequenceNumber.gt f.s2.sequenceNumber = false

abbrev TopMessage (leaves : List RelaySealLeaf) (k : ℕ) (f : RelaySealLeaf) : Prop :=
  Top (fun l => l.kind = .msg) leaves k f

/-- `x` was written by another than the author of `f`, and closes nothing. -/
def OtherContent (f x : RelaySealLeaf) : Prop :=
  x.s2.senderPubkey ≠ f.s2.senderPubkey ∧ x.kind ≠ .ctrl

/-- The other participant wrote more than closing leaves after the leaf at `k`. -/
def WroteAfter (leaves : List RelaySealLeaf) (k : ℕ) (f : RelaySealLeaf) : Prop :=
  ∃ j x, k < j ∧ leaves[j]? = some x ∧ OtherContent f x

/-- A leaf of the other participant that closes nothing acknowledges `f`. -/
def AcknowledgedBy (ext : Externals) (leaves : List RelaySealLeaf) (f : RelaySealLeaf) : Prop :=
  ∃ x ∈ leaves, OtherContent f x ∧
    ∃ n, decodeSignedLastSeenSeq ext x.structure1Cbor = some n ∧ n.ge f.s2.sequenceNumber = true

/-! ### The law -/

/-- **A malicious tail is not presented as answered.**  Without a word of the other participant after the
last message the verdict is `false`; a verdict of `true` comes with a word of theirs after the final
message, or with one that acknowledges it. -/
structure TailLaw (ext : Externals) (leaves : List RelaySealLeaf) (m : SealLegibilityFinalMessage) :
    Prop where
  unanswered : ∀ k l, LastMessage leaves k l →
    (∀ j x, k < j → leaves[j]? = some x → x.s2.senderPubkey ≠ l.s2.senderPubkey → x.kind = .ctrl) →
    m.answered = false
  answered : m.answered = true → ∃ k f, leaves[k]? = some f ∧ f.kind = .msg ∧
    f.s2.senderPubkey = m.senderPubkey ∧ f.s2.sequenceNumber = m.seq ∧
      (WroteAfter leaves k f ∨ AcknowledgedBy ext leaves f)

/-- **A closing leaf out of its place**: a message follows it, and the relay numbered it above the highest
message, which is another's. -/
def ClosedBeforeTail (leaves : List RelaySealLeaf) : Prop :=
  ∃ (i j k : ℕ) (c x f : RelaySealLeaf), leaves[i]? = some c ∧ c.kind = .ctrl ∧ i < j ∧
    leaves[j]? = some x ∧ x.kind = .msg ∧ TopMessage leaves k f ∧ c.s2.senderPubkey ≠ f.s2.senderPubkey ∧
      c.s2.sequenceNumber.gt f.s2.sequenceNumber = true

/-- The other participant has a document after the last message, and after the highest one too unless it
acknowledges that one elsewhere. -/
structure WroteOtherwise (ext : Externals) (leaves : List RelaySealLeaf) : Prop where
  last : ∀ k l, LastMessage leaves k l → WroteAfter leaves k l
  top : ∀ k f, TopMessage leaves k f → WroteAfter leaves k f ∨ AcknowledgedBy ext leaves f

/-! ### The highest leaf -/

theorem gt_self (n : JsNumber) : n.gt n = false := by
  cases n <;> simp [JsNumber.gt]

theorem gt_of_gt_of_le {a v x w : JsNumber} (ha : a.gt v = true) (hx : x.gt v = false)
    (hw : x.gt w = true) : a.gt x = true := by
  cases x with
  | nan => cases hw
  | negInf => cases w <;> cases hw
  | posInf => cases v <;> simp [JsNumber.gt] at ha hx
  | fin q =>
    cases v with
    | nan => cases a <;> simp [JsNumber.gt] at ha
    | negInf => simp [JsNumber.gt] at hx
    | posInf => cases a <;> simp [JsNumber.gt] at ha
    | fin b =>
      cases a with
      | nan => cases ha
      | negInf => cases ha
      | posInf => rfl
      | fin a =>
        simp only [JsNumber.gt_fin, decide_eq_true_eq, decide_eq_false_iff_not, not_lt] at ha hx ⊢
        exact hx.trans_lt ha

section Highest

variable {leaves : List RelaySealLeaf}

theorem Top.unique {p : RelaySealLeaf → Prop} {k k' : ℕ} {f f' : RelaySealLeaf}
    (h : Top p leaves k f) (h' : Top p leaves k' f') : k = k' ∧ f = f' := by
  have hle : ∀ {k k' f f'}, Top p leaves k f → Top p leaves k' f' → ¬k < k' := by
    intro k k' f f' h h' hlt
    have habove := h'.before k f hlt h.stands h.sat h.counted
    rw [h.after k' f' hlt h'.stands h'.sat] at habove
    cases habove
  have hk : k = k' := by
    have h1 := hle h h'
    have h2 := hle h' h
    omega
  subst hk
  exact ⟨rfl, Option.some.inj (h.stands.symm.trans h'.stands)⟩

theorem Top.max {p : RelaySealLeaf → Prop} {k j : ℕ} {f x : RelaySealLeaf} (h : Top p leaves k f)
    (hx : leaves[j]? = some x) (hp : p x) : x.s2.sequenceNumber.gt f.s2.sequenceNumber = false := by
  rcases lt_trichotomy j k with hlt | rfl | hgt
  · rw [← Bool.not_eq_true]
    intro hgt
    have habove := h.before j x hlt hx hp (gt_trans hgt h.counted)
    have hself := gt_trans hgt habove
    rw [gt_self] at hself
    cases hself
  · obtain rfl : f = x := Option.some.inj (h.stands.symm.trans hx)
    exact gt_self _
  · exact h.after j x hgt hx hp

/-- **The scan** finds the highest leaf, and nothing only where there is none. -/
theorem highest_spec (p : RelaySealLeaf → Bool) : ∀ leaves : List RelaySealLeaf,
    match highest p leaves with
    | none => ∀ x ∈ leaves, p x = true → x.s2.sequenceNumber.gt (.fin (-1)) = false
    | some f => ∃ k, Top (fun l => p l = true) leaves k f := by
  intro leaves
  induction leaves using List.reverseRecOn with
  | nil =>
    intro x hx
    cases hx
  | append_singleton ls a ih =>
    rw [highest, List.foldl_append, ← highest, List.foldl_cons, List.foldl_nil]
    cases hbest : highest p ls with
    | none =>
      rw [hbest] at ih
      dsimp only [Option.map_none, Option.getD_none]
      by_cases ha : p a = true ∧ a.s2.sequenceNumber.gt (.fin (-1)) = true
      · rw [if_pos ha]
        refine ⟨ls.length, by simp, ha.1, ha.2, ?_, ?_⟩
        · intro j x hj hx hp hcounted
          rw [List.getElem?_append_left hj] at hx
          rw [ih x (List.mem_of_getElem? hx) hp] at hcounted
          cases hcounted
        · intro j x hj hx
          rw [List.getElem?_eq_none (by simp; omega)] at hx
          cases hx
      · rw [if_neg ha]
        intro x hx hp
        rcases List.mem_append.1 hx with hx | hx
        · exact ih x hx hp
        · obtain rfl := List.mem_singleton.1 hx
          simpa [hp] using ha
    | some f =>
      rw [hbest] at ih
      obtain ⟨k, hf⟩ := ih
      have hk : k < ls.length := (List.getElem?_eq_some_iff.1 hf.stands).1
      dsimp only [Option.map_some, Option.getD_some]
      by_cases ha : p a = true ∧ a.s2.sequenceNumber.gt f.s2.sequenceNumber = true
      · rw [if_pos ha]
        refine ⟨ls.length, by simp, ha.1, gt_trans ha.2 hf.counted, ?_, ?_⟩
        · intro j x hj hx hp hcounted
          rw [List.getElem?_append_left hj] at hx
          rcases lt_trichotomy j k with hlt | rfl | hgt
          · exact gt_trans ha.2 (hf.before j x hlt hx hp hcounted)
          · obtain rfl : f = x := Option.some.inj (hf.stands.symm.trans hx)
            exact ha.2
          · exact gt_of_gt_of_le ha.2 (hf.after j x hgt hx hp) hcounted
        · intro j x hj hx
          rw [List.getElem?_eq_none (by simp; omega)] at hx
          cases hx
      · rw [if_neg ha]
        refine ⟨k, ?_, hf.sat, hf.counted, ?_, ?_⟩
        · rw [List.getElem?_append_left hk]
          exact hf.stands
        · intro j x hj hx
          rw [List.getElem?_append_left (hj.trans hk)] at hx
          exact hf.before j x hj hx
        · intro j x hj hx hp
          by_cases hjl : j < ls.length
          · rw [List.getElem?_append_left hjl] at hx
            exact hf.after j x hj hx hp
          · have hjlt := (List.getElem?_eq_some_iff.1 hx).1
            obtain rfl : j = ls.length := by
              rw [List.length_append, List.length_singleton] at hjlt
              omega
            rw [List.getElem?_concat_length] at hx
            obtain rfl := Option.some.inj hx
            simpa [hp] using ha

end Highest

/-! ### The closing leaves that are left out -/

theorem mem_tail_iff {x : RelaySealLeaf} {i : ℕ} : ∀ leaves : List RelaySealLeaf,
    (x, i) ∈ leaves.zipIdx.reverse.takeWhile (fun e => decide (e.1.kind ≠ .msg)) ↔
      leaves[i]? = some x ∧ ∀ j y, i ≤ j → leaves[j]? = some y → y.kind ≠ .msg := by
  intro leaves
  induction leaves using List.reverseRecOn with
  | nil => simp
  | append_singleton ls a ih =>
    have hlast : (ls ++ [a])[ls.length]? = some a := List.getElem?_concat_length
    rw [List.zipIdx_append, List.reverse_append]
    simp only [List.zipIdx_cons, List.zipIdx_nil, List.reverse_cons, List.reverse_nil, List.nil_append,
      List.singleton_append, Nat.zero_add]
    by_cases ha : a.kind = .msg
    · rw [List.takeWhile_cons_of_neg (by simpa using ha)]
      constructor
      · intro h
        cases h
      · rintro ⟨hx, hnone⟩
        have hi := (List.getElem?_eq_some_iff.1 hx).1
        rw [List.length_append, List.length_singleton] at hi
        exact absurd ha (hnone ls.length a (by omega) hlast)
    · rw [List.takeWhile_cons_of_pos (by simpa using ha), List.mem_cons, ih]
      constructor
      · rintro (h | ⟨hx, hnone⟩)
        · obtain ⟨rfl, rfl⟩ := Prod.mk.inj h
          refine ⟨hlast, ?_⟩
          intro j y hj hy
          have hjlt := (List.getElem?_eq_some_iff.1 hy).1
          rw [List.length_append, List.length_singleton] at hjlt
          obtain rfl : j = ls.length := by omega
          rw [hlast] at hy
          cases hy
          exact ha
        · have hi := (List.getElem?_eq_some_iff.1 hx).1
          refine ⟨by rwa [List.getElem?_append_left hi], ?_⟩
          intro j y hj hy
          by_cases hjl : j < ls.length
          · rw [List.getElem?_append_left hjl] at hy
            exact hnone j y hj hy
          · have hjlt := (List.getElem?_eq_some_iff.1 hy).1
            rw [List.length_append, List.length_singleton] at hjlt
            obtain rfl : j = ls.length := by omega
            rw [hlast] at hy
            cases hy
            exact ha
      · rintro ⟨hx, hnone⟩
        by_cases hi : i < ls.length
        · rw [List.getElem?_append_left hi] at hx
          refine Or.inr ⟨hx, ?_⟩
          intro j y hj hy
          have hjl := (List.getElem?_eq_some_iff.1 hy).1
          exact hnone j y hj (by rwa [List.getElem?_append_left hjl])
        · have hilt := (List.getElem?_eq_some_iff.1 hx).1
          rw [List.length_append, List.length_singleton] at hilt
          obtain rfl : i = ls.length := by omega
          rw [hlast] at hx
          cases hx
          exact Or.inl rfl

theorem mem_sealCeremonyRegion_iff {leaves : List RelaySealLeaf} {pair : ℕ × ℕ}
    (hpair : findSealCeremonyPair leaves = some pair) {i : ℕ} {c : RelaySealLeaf}
    (hc : leaves[i]? = some c) (hkind : c.kind = .ctrl) :
    i ∈ sealCeremonyRegion leaves ↔ ∀ j y, i < j → leaves[j]? = some y → y.kind ≠ .msg := by
  rw [sealCeremonyRegion, hpair]
  simp only [List.mem_map, List.mem_filter]
  constructor
  · rintro ⟨⟨x, i'⟩, ⟨hmem, -⟩, rfl⟩
    obtain ⟨-, hnone⟩ := (mem_tail_iff leaves).1 hmem
    intro j y hj hy
    exact hnone j y hj.le hy
  · intro hnone
    refine ⟨(c, i), ⟨(mem_tail_iff leaves).2 ⟨hc, ?_⟩, by simpa using hkind⟩, rfl⟩
    intro j y hj hy
    rcases hj.eq_or_lt with rfl | hlt
    · rw [hc] at hy
      cases hy
      rw [hkind]
      exact LeafKind.noConfusion
    · exact hnone j y hlt hy

/-! ### What answers -/

theorem finalMessageOf_top {leaves : List RelaySealLeaf} {m : SealLegibilityFinalMessage} {k : ℕ}
    {f : RelaySealLeaf} (h : finalMessageOf leaves = some m) (hf : TopMessage leaves k f) :
    m = { senderPubkey := f.s2.senderPubkey, seq := f.s2.sequenceNumber
          answered := answeredAfter leaves f.s2.senderPubkey f.s2.sequenceNumber } := by
  have hspec := highest_spec (fun l => decide (l.kind = .msg)) leaves
  rw [finalMessageOf] at h
  cases hbest : highest (fun l => decide (l.kind = .msg)) leaves with
  | none =>
    rw [hbest] at hspec
    have hnone := hspec f (List.mem_of_getElem? hf.stands) (decide_eq_true hf.sat)
    rw [hf.counted] at hnone
    cases hnone
  | some g =>
    rw [hbest] at h hspec
    obtain ⟨k', hg⟩ := hspec
    simp only [decide_eq_true_eq] at hg
    obtain ⟨-, rfl⟩ := Top.unique hg hf
    exact (Option.some.inj h).symm

theorem top_of_answered {leaves : List RelaySealLeaf} {m : SealLegibilityFinalMessage}
    (h : finalMessageOf leaves = some m) (hanswered : m.answered = true) :
    ∃ k f, TopMessage leaves k f := by
  have hspec := highest_spec (fun l => decide (l.kind = .msg)) leaves
  rw [finalMessageOf] at h
  cases hbest : highest (fun l => decide (l.kind = .msg)) leaves with
  | none =>
    rw [hbest] at h
    obtain ⟨l, -, rfl⟩ := Option.map_eq_some_iff.1 h
    cases hanswered
  | some g =>
    rw [hbest] at hspec
    obtain ⟨k, hg⟩ := hspec
    simp only [decide_eq_true_eq] at hg
    exact ⟨k, g, hg⟩

/-- **What a verdict of `true` says**: a closing leaf stands before a message, and the relay numbered it
above the highest. -/
theorem answered_iff {leaves : List RelaySealLeaf} {m : SealLegibilityFinalMessage} {pair : ℕ × ℕ}
    (h : finalMessageOf leaves = some m) (hpair : findSealCeremonyPair leaves = some pair) :
    m.answered = true ↔ ClosedBeforeTail leaves := by
  have key : ∀ k f, TopMessage leaves k f →
      (answeredAfter leaves f.s2.senderPubkey f.s2.sequenceNumber = true ↔
        ∃ (i j : ℕ) (c x : RelaySealLeaf), leaves[i]? = some c ∧ c.kind = .ctrl ∧ i < j ∧
          leaves[j]? = some x ∧ x.kind = .msg ∧ c.s2.senderPubkey ≠ f.s2.senderPubkey ∧
            c.s2.sequenceNumber.gt f.s2.sequenceNumber = true) := by
    intro k f hf
    rw [answeredAfter, List.any_eq_true]
    constructor
    · rintro ⟨⟨c, i⟩, hmem, hc⟩
      have hat : leaves[i]? = some c := List.mem_zipIdx_iff_getElem?.1 hmem
      simp only [Bool.and_eq_true, decide_eq_true_eq] at hc
      obtain ⟨⟨⟨⟨hregion, hdoc⟩, hreject⟩, hsender⟩, habove⟩ := hc
      have hkind : c.kind = .ctrl := by
        cases hkind : c.kind with
        | ctrl => rfl
        | doc => exact absurd hkind hdoc
        | reject => exact absurd hkind hreject
        | msg =>
          -- a message is not numbered above the highest
          rw [hf.max hat hkind] at habove
          cases habove
      rw [mem_sealCeremonyRegion_iff hpair hat hkind] at hregion
      push Not at hregion
      obtain ⟨j, x, hj, hx, hmsg⟩ := hregion
      exact ⟨i, j, c, x, hat, hkind, hj, hx, hmsg, hsender, habove⟩
    · rintro ⟨i, j, c, x, hat, hkind, hj, hx, hmsg, hsender, habove⟩
      refine ⟨(c, i), List.mem_zipIdx_iff_getElem?.2 hat, ?_⟩
      have hregion : i ∉ sealCeremonyRegion leaves := by
        rw [mem_sealCeremonyRegion_iff hpair hat hkind]
        intro hnone
        exact hnone j x hj hx hmsg
      simp [hregion, hkind, hsender, habove]
  constructor
  · intro hanswered
    obtain ⟨k, f, hf⟩ := top_of_answered h hanswered
    rw [finalMessageOf_top h hf] at hanswered
    obtain ⟨i, j, c, x, hat, hkind, hj, hx, hmsg, hsender, habove⟩ := (key k f hf).1 hanswered
    exact ⟨i, j, k, c, x, f, hat, hkind, hj, hx, hmsg, hf, hsender, habove⟩
  · rintro ⟨i, j, k, c, x, f, hat, hkind, hj, hx, hmsg, hf, hsender, habove⟩
    rw [finalMessageOf_top h hf]
    exact (key k f hf).2 ⟨i, j, c, x, hat, hkind, hj, hx, hmsg, hsender, habove⟩

/-! ### When the law holds -/

theorem certified_parts {ext : SealExternals} {sessionId relayRoot : Bytes}
    {roster : Option (Bytes × Bytes)} {leaves : List RelaySealLeaf} {a : SealAdjudication}
    (h : adjudicateSeal ext sessionId roster leaves relayRoot = .ok a) :
    (∃ pair, findSealCeremonyPair leaves = some pair) ∧
      finalMessageOf leaves = some a.legibility.finalMessage := by
  have hbuilt := (adjudicateSeal_ok h).legibility
  refine ⟨?_, (legibility_parts hbuilt).2⟩
  unfold adjudicateSeal at h
  split at h
  · cases h
  · split at h
    · cases h
    · split at h
      · cases h
      · split at h
        · cases h
        · split at h
          next legibility initiator responder hlegibility hpair => exact ⟨_, hpair⟩
          · cases h

/-- **When a malicious tail is not presented as answered.**  A certificate obeys the law exactly if the
relay numbered no closing leaf above the messages that stand behind it, or the other participant left a
document behind as well. -/
theorem tailLaw_iff (ext : SealExternals) (sessionId relayRoot : Bytes)
    (roster : Option (Bytes × Bytes)) (leaves : List RelaySealLeaf) (a : SealAdjudication)
    (h : adjudicateSeal ext sessionId roster leaves relayRoot = .ok a) :
    TailLaw ext.toExternals leaves a.legibility.finalMessage ↔
      ¬ClosedBeforeTail leaves ∨ WroteOtherwise ext.toExternals leaves := by
  obtain ⟨⟨pair, hpair⟩, hfinal⟩ := certified_parts h
  have hiff := answered_iff hfinal hpair
  constructor
  · intro hlaw
    by_cases hclosed : ClosedBeforeTail leaves
    · have hanswered := hiff.2 hclosed
      refine Or.inr ⟨?_, ?_⟩
      · intro k l hl
        by_contra hnot
        have hfalse := hlaw.unanswered k l hl ?_
        · rw [hanswered] at hfalse
          cases hfalse
        · intro j x hj hx hsender
          by_contra hkind
          exact hnot ⟨j, x, hj, hx, hsender, hkind⟩
      · intro k f hf
        obtain ⟨k', f', hat, hmsg, hsender, hseq, hreply⟩ := hlaw.answered hanswered
        rw [finalMessageOf_top hfinal hf] at hsender hseq
        dsimp only at hsender hseq
        -- the leaf that the law names has the highest number, so the first of these is not behind it
        have hle : k ≤ k' := by
          by_contra hlt
          have habove := hf.before k' f' (by omega) hat hmsg (by rw [hseq]; exact hf.counted)
          rw [hseq, gt_self] at habove
          cases habove
        rcases hreply with ⟨j, x, hj, hx, hother, hkind⟩ | ⟨x, hx, ⟨hother, hkind⟩, n, hn, hge⟩
        · exact Or.inl ⟨j, x, by omega, hx, by rwa [← hsender], hkind⟩
        · exact Or.inr ⟨x, hx, ⟨by rwa [← hsender], hkind⟩, n, hn, by rwa [← hseq]⟩
    · exact Or.inl hclosed
  · rintro (hnot | hother)
    · have hfalse : a.legibility.finalMessage.answered = false := by
        rw [← Bool.not_eq_true, hiff]
        exact hnot
      refine ⟨fun _ _ _ _ => hfalse, ?_⟩
      intro htrue
      rw [hfalse] at htrue
      cases htrue
    · constructor
      · intro k l hl hctrl
        obtain ⟨j, x, hj, hx, hsender, hkind⟩ := hother.last k l hl
        exact absurd (hctrl j x hj hx hsender) hkind
      · intro hanswered
        obtain ⟨k, f, hf⟩ := top_of_answered hfinal hanswered
        refine ⟨k, f, hf.stands, hf.sat, ?_, ?_, hother.top k f hf⟩
        · rw [finalMessageOf_top hfinal hf]
        · rw [finalMessageOf_top hfinal hf]

namespace Sample

/-- The envelopes of signed leaves that arrive in this order, under numbers of the relay's choice. -/
def relayed : Stack → Bytes → List (ℕ × LeafKind × Bytes) → List RelaySealLeaf
  | _, _, [] => []
  | stack, running, (n, kind, b) :: rest =>
    let s2 : Structure2 :=
      { sequenceNumber := (n : ℕ), senderPubkey := Interfaces.Sample.key (b.headD 0)
        contentHash := List.replicate 32 (b.getD 1 0)
        senderSignature := Interfaces.Sample.digestSignature (Interfaces.Sample.key (b.headD 0)) b
        prevRoot := running }
    let node := sealExternals.leafHash kind (sealExternals.encodeStructure2 s2)
    let stack' := pushNode sealExternals.nodeHash node 0 stack
    { kind := kind, s2 := s2, structure1Cbor := b } ::
      relayed stack' (stackRoot sealExternals.nodeHash node stack') rest

/-- What both participants sign at the end of `lateClose`: the root over its two messages. -/
def latePayload : Bytes :=
  Interfaces.Sample.sid ++
    sealExternals.merkleRoot [List.replicate 32 5, List.replicate 32 6]

/-- Sender 1 writes, sender 2 tries to close, sender 1 writes again, and both close.  The relay numbered the
attempt `attempt`. -/
def lateClose (attempt : ℕ) : List RelaySealLeaf :=
  let c := ((2 : UInt8) :: latePayload).sum
  (relayed [] [] [(1, .msg, [1, 5, 0, 9, 1]), (attempt, .ctrl, [2, 7, 0, 9, 2]),
    (3, .msg, [1, 6, 0, 9, 3]), (4, .ctrl, [1, c, 0, 9, 4]), (5, .ctrl, [2, c, 0, 9, 5])]).mapIdx
      fun i l => if 3 ≤ i then { l with contentBytes := some latePayload } else l

def lateRoot (attempt : ℕ) : Bytes :=
  sealExternals.merkleRoot ((lateClose attempt).map (treeLeaf sealExternals.toExternals))

/-- What is certified, with the verdict on the final message. -/
def lateCertificate (attempt : ℕ) (answered : Bool) (reach : ℕ) : SealAdjudication where
  contentRoot := sealExternals.merkleRoot ((lateClose attempt).map fun l => l.s2.contentHash)
  leafCount := 5
  legibility :=
    { participants :=
        [⟨Interfaces.Sample.key 1, (0 : ℕ), (4 : ℕ), .live⟩,
          ⟨Interfaces.Sample.key 2, (0 : ℕ), (reach : ℕ), .live⟩]
      finalMessage := ⟨Interfaces.Sample.key 1, (3 : ℕ), answered⟩
      countersignedThroughSeq := (4 : ℕ) }
  participantA := Interfaces.Sample.key 1
  participantB := Interfaces.Sample.key 2
  initiator := Interfaces.Sample.key 1

theorem late_in_order : adjudicateSeal sealExternals Interfaces.Sample.sid
    (some (Interfaces.Sample.key 1, Interfaces.Sample.key 2)) (lateClose 2) (lateRoot 2) =
      .ok (lateCertificate 2 false 5) := by
  decide +kernel

theorem late_out_of_order : adjudicateSeal sealExternals Interfaces.Sample.sid
    (some (Interfaces.Sample.key 1, Interfaces.Sample.key 2)) (lateClose 9) (lateRoot 9) =
      .ok (lateCertificate 9 true 9) := by
  decide +kernel

end Sample

/-- In order, the attempt is numbered below the message that follows it, and the law holds. -/
theorem tailLaw_in_order : TailLaw Sample.sealExternals.toExternals (Sample.lateClose 2)
    (Sample.lateCertificate 2 false 5).legibility.finalMessage := by
  refine (tailLaw_iff Sample.sealExternals _ _ _ _ _ Sample.late_in_order).2 (Or.inl ?_)
  intro hclosed
  have hanswered := (answered_iff (certified_parts Sample.late_in_order).2
    (certified_parts Sample.late_in_order).1.choose_spec).2 hclosed
  cases hanswered

/-- **The relay numbers the attempt above the message**, and a tail that nobody answered is certified as
answered. -/
theorem tail_presented_as_answered :
    adjudicateSeal Sample.sealExternals Interfaces.Sample.sid
        (some (Interfaces.Sample.key 1, Interfaces.Sample.key 2)) (Sample.lateClose 9)
        (Sample.lateRoot 9) = .ok (Sample.lateCertificate 9 true 9) ∧
      ¬TailLaw Sample.sealExternals.toExternals (Sample.lateClose 9)
        (Sample.lateCertificate 9 true 9).legibility.finalMessage := by
  refine ⟨Sample.late_out_of_order, fun hlaw => ?_⟩
  have hkinds : (Sample.lateClose 9).map RelaySealLeaf.kind = [.msg, .ctrl, .msg, .ctrl, .ctrl] := by
    decide
  have hkind : ∀ j x, (Sample.lateClose 9)[j]? = some x → 2 < j → x.kind = .ctrl := by
    intro j x hx hj
    have hat : ((Sample.lateClose 9).map RelaySealLeaf.kind)[j]? = some x.kind := by
      rw [List.getElem?_map, hx]
      rfl
    rw [hkinds] at hat
    match j, hj, hat with
    | 3, _, hat => exact (Option.some.inj hat).symm
    | 4, _, hat => exact (Option.some.inj hat).symm
    | j + 5, _, hat => cases hat
  obtain ⟨l, hl⟩ : ∃ l, (Sample.lateClose 9)[2]? = some l := ⟨_, rfl⟩
  have hmsg : ((Sample.lateClose 9).map RelaySealLeaf.kind)[2]? = some l.kind := by
    rw [List.getElem?_map, hl]
    rfl
  rw [hkinds] at hmsg
  have hlast : LastMessage (Sample.lateClose 9) 2 l := by
    refine ⟨hl, (Option.some.inj hmsg).symm, ?_⟩
    intro j x hj hx
    rw [hkind j x hx hj]
    exact LeafKind.noConfusion
  have hfalse := hlaw.unanswered 2 l hlast fun j x hj hx _ => hkind j x hx hj
  cases hfalse

end Cello.Directory.Seal
