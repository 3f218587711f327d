import Cello.Directory.Seal.Legibility
import Cello.Interfaces.SealChainSpec

/-!
# What `countersigned_through_seq` bounds

In an accepted chain with sequence numbers `1, 2, ..` an acknowledgement never
reaches past the leaves before it, so a participant's reach is the sequence number of
the last leaf it wrote (`reach_eq_last`) and the countersigned prefix ends with the
earliest of these last leaves.

Whether every participant's signature reaches every leaf of that prefix is another
question.  Having written leaf `n` says nothing about having seen the leaves before
it; two messages that cross are enough to make the two differ.  `countersigned_iff`
gives the exact condition: every leaf is acknowledged by the authors of later leaves.
-/

namespace Cello.Directory.Seal

open Lib Cello.Interfaces

/-- Sequence numbers count from `1`. -/
def Numbered (leaves : List RelaySealLeaf) : Prop :=
  ∀ i a, leaves[i]? = some a → a.s2.sequenceNumber = ((i + 1 : ℕ) : JsNumber)

/-- Some leaf signed by `key` carries a `last_seen_seq` of at least `seq`. -/
def Acknowledged (ext : Externals) (leaves : List RelaySealLeaf) (key : Bytes) (seq : JsNumber) :
    Prop :=
  ∃ m ∈ leaves, m.s2.senderPubkey = key ∧
    ∃ n, decodeSignedLastSeenSeq ext m.structure1Cbor = some n ∧ n.ge seq = true

instance (ext : Externals) (leaves : List RelaySealLeaf) (key : Bytes) (seq : JsNumber) :
    Decidable (Acknowledged ext leaves key seq) :=
  decidable_of_iff (∃ m ∈ leaves, m.s2.senderPubkey = key ∧
      ∃ n ∈ decodeSignedLastSeenSeq ext m.structure1Cbor, n.ge seq = true) Iff.rfl

theorem numbered_concat {l : List RelaySealLeaf} {a : RelaySealLeaf} (h : Numbered (l ++ [a])) :
    Numbered l ∧ a.s2.sequenceNumber = ((l.length + 1 : ℕ) : JsNumber) := by
  constructor
  · intro i b hb
    refine h i b ?_
    rw [List.getElem?_append_left (List.getElem?_eq_some_iff.1 hb).1]
    exact hb
  · exact h l.length a (by simp)

/-! ### The walk -/

theorem frontiersOf_concat (ext : Externals) (l : List RelaySealLeaf) (a : RelaySealLeaf) :
    frontiersOf ext (l ++ [a]) = recordLeaf ext (frontiersOf ext l) a := by
  rw [frontiersOf, List.foldl_append]
  rfl

theorem getD_raise (m : OrdMap Bytes JsNumber) (k x : Bytes) (n : JsNumber) :
    ((raise m k n).get x).getD (0 : ℕ) =
      if x = k ∧ n.gt ((m.get k).getD (0 : ℕ)) = true then n else (m.get x).getD (0 : ℕ) := by
  rw [raise]
  by_cases hn : n.gt ((m.get k).getD (0 : ℕ)) = true
  · rw [if_pos hn, OrdMap.get_set]
    by_cases hx : x = k
    · simp [hx, hn]
    · simp [hx]
  · rw [if_neg hn, if_neg (fun h => hn h.2)]

theorem mem_order_iff (ext : Externals) (key : Bytes) : ∀ leaves : List RelaySealLeaf,
    key ∈ (frontiersOf ext leaves).order ↔ ∃ l ∈ leaves, l.s2.senderPubkey = key := by
  intro leaves
  induction leaves using List.reverseRecOn with
  | nil => simp [frontiersOf]
  | append_singleton l a ih =>
    rw [frontiersOf_concat]
    have hstep : key ∈ (recordLeaf ext (frontiersOf ext l) a).order ↔
        key ∈ (frontiersOf ext l).order ∨ key = a.s2.senderPubkey := by
      simp only [recordLeaf]
      split
      · rename_i hm
        exact ⟨Or.inl, fun h => h.elim id fun he => he ▸ hm⟩
      · simp
    rw [hstep, ih]
    constructor
    · rintro (⟨b, hb, he⟩ | rfl)
      · exact ⟨b, by simp [hb], he⟩
      · exact ⟨a, by simp, rfl⟩
    · rintro ⟨b, hb, he⟩
      rcases List.mem_append.1 hb with hb | hb
      · exact Or.inl ⟨b, hb, he⟩
      · obtain rfl : b = a := by simpa using hb
        exact Or.inr he.symm

/-- `k` is the sequence number of the last leaf of `key`, or `0`. -/
structure IsLast (leaves : List RelaySealLeaf) (key : Bytes) (k : ℕ) : Prop where
  bound : ∀ i a, leaves[i]? = some a → a.s2.senderPubkey = key → i < k
  reached : 0 < k → ∃ a, leaves[k - 1]? = some a ∧ a.s2.senderPubkey = key

/-- **`last_authored_seq` is the last leaf.** -/
theorem lastAuthored_isLast (ext : Externals) (key : Bytes) : ∀ leaves : List RelaySealLeaf,
    Numbered leaves → ∃ k : ℕ, k ≤ leaves.length ∧
      ((frontiersOf ext leaves).lastAuthored.get key).getD (0 : ℕ) = k ∧ IsLast leaves key k := by
  intro leaves
  induction leaves using List.reverseRecOn with
  | nil => intro _; exact ⟨0, by simp, by simp [frontiersOf], by simp, by simp⟩
  | append_singleton l a ih =>
    intro hn
    obtain ⟨hl, ha⟩ := numbered_concat hn
    obtain ⟨k, hk, hval, hlast⟩ := ih hl
    have hlen : (l ++ [a]).length = l.length + 1 := by simp
    rw [frontiersOf_concat, hlen]
    simp only [recordLeaf]
    rw [getD_raise, ha]
    by_cases hkey : key = a.s2.senderPubkey
    · subst hkey
      refine ⟨l.length + 1, le_rfl, ?_, ?_, ?_⟩
      · rw [hval, JsNumber.gt_natCast, if_pos ⟨rfl, decide_eq_true (by omega)⟩]
      · intro i b hb _
        have := (List.getElem?_eq_some_iff.1 hb).1
        omega
      · intro _
        exact ⟨a, by simp, rfl⟩
    · rw [if_neg (fun h => hkey h.1)]
      refine ⟨k, by omega, hval, ?_, ?_⟩
      · intro i b hb hbk
        rcases Nat.lt_or_ge i l.length with hi | hi
        · rw [List.getElem?_append_left hi] at hb
          exact hlast.bound i b hb hbk
        · have hlt := (List.getElem?_eq_some_iff.1 hb).1
          obtain rfl : i = l.length := by omega
          obtain rfl : a = b := by simpa using hb
          exact absurd hbk.symm hkey
      · intro h0
        obtain ⟨b, hb, hbk⟩ := hlast.reached h0
        refine ⟨b, ?_, hbk⟩
        rw [List.getElem?_append_left (by omega)]
        exact hb

/-- `v` is `0`, or a `last_seen_seq` of `key` that was above something. -/
def FrontierValue (ext : Externals) (leaves : List RelaySealLeaf) (key : Bytes) (v : JsNumber) :
    Prop :=
  v = (0 : ℕ) ∨ ∃ (i : ℕ) (a : RelaySealLeaf) (w : JsNumber), leaves[i]? = some a ∧
    a.s2.senderPubkey = key ∧ decodeSignedLastSeenSeq ext a.structure1Cbor = some v ∧
    v.gt w = true

theorem FrontierValue.concat {ext : Externals} {l : List RelaySealLeaf} {key : Bytes}
    {v : JsNumber} (h : FrontierValue ext l key v) (a : RelaySealLeaf) :
    FrontierValue ext (l ++ [a]) key v := by
  rcases h with h0 | ⟨i, b, w, hb, hrest⟩
  · exact Or.inl h0
  · refine Or.inr ⟨i, b, w, ?_, hrest⟩
    rw [List.getElem?_append_left (List.getElem?_eq_some_iff.1 hb).1]
    exact hb

theorem frontier_value (ext : Externals) (key : Bytes) : ∀ leaves : List RelaySealLeaf,
    FrontierValue ext leaves key (((frontiersOf ext leaves).frontier.get key).getD (0 : ℕ)) := by
  intro leaves
  induction leaves using List.reverseRecOn with
  | nil => exact Or.inl (by simp [frontiersOf])
  | append_singleton l a ih =>
    rw [frontiersOf_concat]
    simp only [recordLeaf]
    cases hd : decodeSignedLastSeenSeq ext a.structure1Cbor with
    | none => exact ih.concat a
    | some n =>
      simp only []
      rw [getD_raise]
      split
      · rename_i h
        exact Or.inr ⟨l.length, a, _, by simp, h.1.symm, hd, h.2⟩
      · exact ih.concat a

/-! ### Acknowledgements in an accepted chain -/

theorem effectiveSeen_le (sender : Bytes) : ∀ leaves : List RelaySealLeaf, Numbered leaves →
    ∃ n : ℕ, n ≤ leaves.length ∧ effectiveSeen sender leaves = n := by
  intro leaves
  induction leaves using List.reverseRecOn with
  | nil => intro _; exact ⟨0, le_rfl, rfl⟩
  | append_singleton l a ih =>
    intro hn
    obtain ⟨hl, ha⟩ := numbered_concat hn
    obtain ⟨n, hle, he⟩ := ih hl
    have hlen : (l ++ [a]).length = l.length + 1 := by simp
    rw [effectiveSeen, List.foldl_append, ← effectiveSeen, List.foldl_cons, List.foldl_nil, he, ha,
      hlen]
    split
    · exact ⟨l.length + 1, le_rfl, rfl⟩
    · exact ⟨n, by omega, rfl⟩

/-! ### The least reach -/

theorem lowest_natCast : ∀ ps : List SealLegibilityParticipant,
    (∀ p ∈ ps, ∃ k : ℕ, participantReach p = k) → ps ≠ [] →
    ∃ p ∈ ps, ∃ L : ℕ, countersignedThroughSeq ps = L ∧ participantReach p = L ∧
      ∀ p' ∈ ps, ∀ k : ℕ, participantReach p' = k → L ≤ k := by
  -- the running minimum: `+∞` before the first participant, a reach after it
  have run : ∀ ps : List SealLegibilityParticipant, (∀ p ∈ ps, ∃ k : ℕ, participantReach p = k) →
      ps ≠ [] → ∃ p ∈ ps, ∃ L : ℕ,
        ps.foldl (fun lowest p => if lowest.gt (participantReach p) then participantReach p
          else lowest) JsNumber.posInf = L ∧ participantReach p = L ∧
        ∀ p' ∈ ps, ∀ k : ℕ, participantReach p' = k → L ≤ k := by
    intro ps
    induction ps using List.reverseRecOn with
    | nil => intro _ h; exact absurd rfl h
    | append_singleton ps a ih =>
      intro hk _
      obtain ⟨n, hn⟩ := hk a (by simp)
      rw [List.foldl_append, List.foldl_cons, List.foldl_nil, hn]
      by_cases he : ps = []
      · subst he
        refine ⟨a, by simp, n, rfl, hn, fun p' hp' k hk' => ?_⟩
        obtain rfl : p' = a := by simpa using hp'
        exact (JsNumber.natCast_inj (hn.symm.trans hk')).le
      · obtain ⟨p, hp, L, hL, hpL, hleast⟩ := ih (fun p hp => hk p (by simp [hp])) he
        rw [hL, JsNumber.gt_natCast]
        by_cases hlt : n < L
        · rw [if_pos (decide_eq_true hlt)]
          refine ⟨a, by simp, n, rfl, hn, fun p' hp' k hk' => ?_⟩
          rcases List.mem_append.1 hp' with hp' | hp'
          · exact hlt.le.trans (hleast p' hp' k hk')
          · obtain rfl : p' = a := by simpa using hp'
            exact (JsNumber.natCast_inj (hn.symm.trans hk')).le
        · rw [if_neg (by simpa using hlt)]
          refine ⟨p, by simp [hp], L, rfl, hpL, fun p' hp' k hk' => ?_⟩
          rcases List.mem_append.1 hp' with hp' | hp'
          · exact hleast p' hp' k hk'
          · obtain rfl : p' = a := by simpa using hp'
            rw [← JsNumber.natCast_inj (hn.symm.trans hk')]
            omega
  intro ps hk hne
  obtain ⟨p, hp, L, hL, hrest⟩ := run ps hk hne
  refine ⟨p, hp, L, ?_, hrest⟩
  rw [countersignedThroughSeq, hL]
  rfl

section Accepted

variable {ext : Externals} {leaves : List RelaySealLeaf} {reported sid root : Bytes}
  {roster : Bytes × Bytes}
  (hok : verifySealLeafChain ext leaves reported sid roster = .ok root) (hnum : Numbered leaves)

include hok hnum

theorem lastSeenSeq_le {i : ℕ} {a : RelaySealLeaf} {v w : JsNumber} (ha : leaves[i]? = some a)
    (hd : decodeSignedLastSeenSeq ext a.structure1Cbor = some v) (hw : v.gt w = true) :
    ∃ q : ℚ, v = .fin q ∧ q ≤ i := by
  obtain ⟨hi, rfl⟩ := List.getElem?_eq_some_iff.1 ha
  have hsplit : leaves = leaves.take i ++ leaves[i] :: leaves.drop (i + 1) := by simp
  obtain ⟨s1, hadm⟩ := admitted_of_ok hok hsplit
  have hv : v = s1.lastSeenSeq := by
    rw [decodeSignedLastSeenSeq, hadm.decoded, Option.map_some] at hd
    exact (Option.some.inj hd).symm
  have hpre : Numbered (leaves.take i) := by
    intro j b hb
    have hj : j < i := by
      have := (List.getElem?_eq_some_iff.1 hb).1
      rw [List.length_take] at this
      omega
    refine hnum j b ?_
    rw [List.getElem?_take_of_lt hj] at hb
    exact hb
  obtain ⟨n, hle, hn⟩ := effectiveSeen_le leaves[i].s2.senderPubkey _ hpre
  have hcausal := hadm.causal
  rw [hn, ← hv] at hcausal
  have hni : n ≤ i := hle.trans (by simp)
  cases v with
  | nan => simp [JsNumber.gt] at hw
  | negInf => cases w <;> simp [JsNumber.gt] at hw
  | posInf => simp [JsNumber.gt] at hcausal
  | fin q =>
    rw [JsNumber.natCast_eq, JsNumber.gt_fin, decide_eq_false_iff_not, not_lt] at hcausal
    exact ⟨q, rfl, hcausal.trans (by exact_mod_cast hni)⟩

theorem reach_eq_last (overrides : Bytes → Option AttestationMode)
    {p : SealLegibilityParticipant} (hp : p ∈ participantsOf ext overrides leaves) :
    ∃ k : ℕ, 0 < k ∧ participantReach p = k ∧ IsLast leaves p.pubkey k := by
  obtain ⟨key, hkey, rfl⟩ := List.mem_map.1 hp
  obtain ⟨l, hl, hlk⟩ := (mem_order_iff ext key leaves).1 hkey
  obtain ⟨k, -, hval, hlast⟩ := lastAuthored_isLast ext key leaves hnum
  obtain ⟨i, hi, rfl⟩ := List.mem_iff_getElem.1 hl
  have hik : i < k := hlast.bound i _ (List.getElem?_eq_getElem hi) hlk
  refine ⟨k, by omega, ?_, hlast⟩
  simp only [participantReach, hval]
  rcases frontier_value ext key leaves with h0 | ⟨j, b, w, hb, hbk, hd, hw⟩
  · rw [h0, JsNumber.max, if_neg (by simp [JsNumber.natCast_eq]), JsNumber.gt_natCast,
      if_pos (decide_eq_true (by omega))]
  · obtain ⟨q, hq, hle⟩ := lastSeenSeq_le hok hnum hb hd hw
    have hjk : j < k := hlast.bound j b hb hbk
    have hlt : q < k := lt_of_le_of_lt hle (by exact_mod_cast hjk)
    rw [hq, JsNumber.max, if_neg (by simp [JsNumber.natCast_eq]), JsNumber.natCast_eq,
      JsNumber.gt_fin, if_pos (decide_eq_true hlt)]

theorem countersigned_eq_least (overrides : Bytes → Option AttestationMode) (hne : leaves ≠ []) :
    ∃ (L : ℕ) (p : SealLegibilityParticipant), p ∈ participantsOf ext overrides leaves ∧
      countersignedThroughSeq (participantsOf ext overrides leaves) = L ∧
      IsLast leaves p.pubkey L ∧
      ∀ p' ∈ participantsOf ext overrides leaves, ∃ k, L ≤ k ∧ 0 < k ∧ IsLast leaves p'.pubkey k := by
  have hreach := fun p hp => reach_eq_last hok hnum overrides (p := p) hp
  have hps : participantsOf ext overrides leaves ≠ [] := by
    obtain ⟨l, hl⟩ := List.exists_mem_of_ne_nil _ hne
    have hmem := (mem_order_iff ext l.s2.senderPubkey leaves).2 ⟨l, hl, rfl⟩
    intro he
    rw [participantsOf, List.map_eq_nil_iff] at he
    rw [he] at hmem
    simp at hmem
  obtain ⟨p, hp, L, hL, hleast⟩ := lowest_natCast _ (fun p hp => (hreach p hp).imp fun _ h => h.2.1) hps
  obtain ⟨k, -, hk, hlast⟩ := hreach p hp
  obtain rfl : L = k := JsNumber.natCast_inj (hleast.1.symm.trans hk)
  refine ⟨L, p, hp, hL, hlast, fun p' hp' => ?_⟩
  obtain ⟨k', hk0, hk', hlast'⟩ := hreach p' hp'
  exact ⟨k', hleast.2 p' hp' k' hk', hk0, hlast'⟩

end Accepted

/-! ### The result -/

/-- Every participant of the legibility object signed for every leaf up to the published bound:
by writing it, or by acknowledging it. -/
def CountersignedPrefix (ext : Externals) (overrides : Bytes → Option AttestationMode)
    (leaves : List RelaySealLeaf) : Prop :=
  ∀ legibility, buildSealLegibility ext overrides leaves = some legibility →
    ∀ leaf ∈ leaves, legibility.countersignedThroughSeq.ge leaf.s2.sequenceNumber = true →
      ∀ p ∈ legibility.participants, leaf.s2.senderPubkey = p.pubkey ∨
        Acknowledged ext leaves p.pubkey leaf.s2.sequenceNumber

theorem buildSealLegibility_some (ext : Externals) (overrides : Bytes → Option AttestationMode)
    {leaves : List RelaySealLeaf} (hne : leaves ≠ []) :
    ∃ legibility, buildSealLegibility ext overrides leaves = some legibility ∧
      legibility.participants = participantsOf ext overrides leaves ∧
      legibility.countersignedThroughSeq =
        countersignedThroughSeq (participantsOf ext overrides leaves) := by
  have hfinal : ∃ m, finalMessageOf leaves = some m := by
    rw [finalMessageOf]
    split
    · exact ⟨_, rfl⟩
    · obtain ⟨l, r, rfl⟩ := List.exists_cons_of_ne_nil hne
      cases highest (fun _ => true) (l :: r) with
      | none => exact ⟨_, rfl⟩
      | some b => exact ⟨_, rfl⟩
  obtain ⟨m, hm⟩ := hfinal
  rw [buildSealLegibility, hm]
  exact ⟨_, rfl, rfl, rfl⟩

theorem exists_participant (ext : Externals) (overrides : Bytes → Option AttestationMode)
    {leaves : List RelaySealLeaf} {l : RelaySealLeaf} (hl : l ∈ leaves) :
    ∃ q ∈ participantsOf ext overrides leaves, q.pubkey = l.s2.senderPubkey := by
  have hmem := (mem_order_iff ext l.s2.senderPubkey leaves).2 ⟨l, hl, rfl⟩
  exact ⟨_, List.mem_map_of_mem hmem, rfl⟩

theorem participant_author {ext : Externals} {overrides : Bytes → Option AttestationMode}
    {leaves : List RelaySealLeaf} {p : SealLegibilityParticipant}
    (hp : p ∈ participantsOf ext overrides leaves) : ∃ l ∈ leaves, l.s2.senderPubkey = p.pubkey := by
  obtain ⟨key, hkey, rfl⟩ := List.mem_map.1 hp
  exact (mem_order_iff ext key leaves).1 hkey

/-- Whoever writes after a leaf of the other participant acknowledges that leaf, there or
elsewhere. -/
def AcknowledgedByLater (ext : Externals) (leaves : List RelaySealLeaf) : Prop :=
  ∀ (i j : ℕ) (a b : RelaySealLeaf), i < j → leaves[i]? = some a → leaves[j]? = some b →
    a.s2.senderPubkey ≠ b.s2.senderPubkey →
    Acknowledged ext leaves b.s2.senderPubkey a.s2.sequenceNumber

/-- **When the published bound is the end of the mutually signed prefix.** -/
theorem countersigned_iff (ext : Externals) (overrides : Bytes → Option AttestationMode)
    (leaves : List RelaySealLeaf) (reported sid root : Bytes) (roster : Bytes × Bytes)
    (hok : verifySealLeafChain ext leaves reported sid roster = .ok root)
    (hnum : Numbered leaves) :
    CountersignedPrefix ext overrides leaves ↔ AcknowledgedByLater ext leaves := by
  constructor
  · intro hprefix i j a b hij ha hb hne
    have hmem : a ∈ leaves := List.mem_of_getElem? ha
    have hnil : leaves ≠ [] := List.ne_nil_of_mem hmem
    obtain ⟨L, p, hp, hL, hlast, -⟩ := countersigned_eq_least hok hnum overrides hnil
    obtain ⟨legibility, hbuild, hpart, hcount⟩ := buildSealLegibility_some ext overrides hnil
    have hb' : ∃ q ∈ participantsOf ext overrides leaves, q.pubkey = b.s2.senderPubkey :=
      exists_participant ext overrides (List.mem_of_getElem? hb)
    obtain ⟨q, hq, hqb⟩ := hb'
    rcases Nat.lt_or_ge i L with hiL | hiL
    · have hge : legibility.countersignedThroughSeq.ge a.s2.sequenceNumber = true := by
        rw [hcount, hL, hnum i a ha, JsNumber.ge_natCast]
        exact decide_eq_true (by omega)
      rcases hprefix legibility hbuild a hmem hge q (hpart ▸ hq) with he | hack
      · exact absurd (he.trans hqb) hne
      · rwa [hqb] at hack
    · -- past the bound the participant that stopped writing is a third one
      exfalso
      have hpa : a.s2.senderPubkey ≠ p.pubkey := fun he => by
        have := hlast.bound i a ha he
        omega
      have hpb : b.s2.senderPubkey ≠ p.pubkey := fun he => by
        have := hlast.bound j b hb he
        omega
      obtain ⟨l, hl, hlp⟩ := participant_author hp
      have h1 := sender_mem_roster_of_ok hok hmem
      have h2 := sender_mem_roster_of_ok hok (List.mem_of_getElem? hb)
      have h3 := sender_mem_roster_of_ok hok hl
      rw [hlp] at h3
      rcases h1 with h1 | h1 <;> rcases h2 with h2 | h2 <;> rcases h3 with h3 | h3 <;>
        simp_all
  · intro hack legibility hbuild leaf hleaf hge p hp
    have hnil : leaves ≠ [] := List.ne_nil_of_mem hleaf
    obtain ⟨L, -, -, hL, -, hleast⟩ := countersigned_eq_least hok hnum overrides hnil
    obtain ⟨legibility', hbuild', hpart, hcount⟩ := buildSealLegibility_some ext overrides hnil
    obtain rfl : legibility' = legibility := Option.some.inj (hbuild'.symm.trans hbuild)
    rw [hpart] at hp
    obtain ⟨k, hLk, hk0, hlast⟩ := hleast p hp
    obtain ⟨i, hi, rfl⟩ := List.mem_iff_getElem.1 hleaf
    have hseq := hnum i _ (List.getElem?_eq_getElem hi)
    rw [hcount, hL, hseq, JsNumber.ge_natCast, decide_eq_true_eq] at hge
    by_cases he : leaves[i].s2.senderPubkey = p.pubkey
    · exact Or.inl he
    · -- the participant's own last leaf comes later and is by somebody else
      obtain ⟨b, hb, hbp⟩ := hlast.reached hk0
      have hne : leaves[i].s2.senderPubkey ≠ b.s2.senderPubkey := fun h => he (h.trans hbp)
      have hik : i ≠ k - 1 := by
        rintro rfl
        rw [List.getElem?_eq_getElem hi] at hb
        exact hne (by rw [Option.some.inj hb])
      have := hack i (k - 1) _ b (by omega) (List.getElem?_eq_getElem hi) hb hne
      rw [hbp] at this
      exact Or.inr this

/-! ### Messages that cross, and messages that do not -/

/-- `sender 2` answers having seen the first message, and `sender 1` closes having seen the answer. -/
def answeredChain : List RelaySealLeaf :=
  Interfaces.Sample.chain 1 [] [] [(.msg, [1, 5, 0, 9, 1]), (.msg, [2, 6, 1, 9, 2]), (.ctrl, [1, 8, 2, 5, 3])]

/-- Two first messages, neither of which saw the other. -/
def crossedChain : List RelaySealLeaf :=
  Interfaces.Sample.chain 1 [] [] [(.msg, [1, 5, 0, 9, 1]), (.msg, [2, 6, 0, 9, 2])]

theorem numbered_of_all {leaves : List RelaySealLeaf}
    (h : (leaves.zipIdx.all fun e => decide (e.1.s2.sequenceNumber = ((e.2 + 1 : ℕ) : JsNumber))) =
      true) : Numbered leaves := by
  intro i a ha
  have hm : (a, i) ∈ leaves.zipIdx := List.mk_mem_zipIdx_iff_getElem?.2 ha
  exact of_decide_eq_true (List.all_eq_true.1 h (a, i) hm)

/-- Every acknowledgement is there when the answer saw the question. -/
theorem countersigned_answered :
    CountersignedPrefix Interfaces.Sample.externals (fun _ => none) answeredChain ↔
      AcknowledgedByLater Interfaces.Sample.externals answeredChain :=
  countersigned_iff Interfaces.Sample.externals (fun _ => none) answeredChain
    (List.replicate 32 5 ++ List.replicate 32 6 ++ List.replicate 32 8) Interfaces.Sample.sid
    (List.replicate 32 5 ++ List.replicate 32 6 ++ List.replicate 32 8)
    (Interfaces.Sample.key 1, Interfaces.Sample.key 2)
    (by decide +kernel) (numbered_of_all (by decide +kernel))

/-- **The bound counts a leaf nobody acknowledged.**  The chain of two crossing messages is
accepted, the bound is `1`, and `sender 2` neither wrote leaf `1` nor acknowledged it. -/
theorem crossed_not_countersigned :
    verifySealLeafChain Interfaces.Sample.externals crossedChain
        (List.replicate 32 5 ++ List.replicate 32 6) Interfaces.Sample.sid
        (Interfaces.Sample.key 1, Interfaces.Sample.key 2) =
        .ok (List.replicate 32 5 ++ List.replicate 32 6) ∧
      Numbered crossedChain ∧
      ¬ CountersignedPrefix Interfaces.Sample.externals (fun _ => none) crossedChain := by
  refine ⟨by decide, numbered_of_all (by decide), fun hprefix => ?_⟩
  obtain ⟨legibility, hbuild, hpart, hcount⟩ := buildSealLegibility_some Interfaces.Sample.externals
    (fun _ => none) (show crossedChain ≠ [] by simp [crossedChain, Interfaces.Sample.chain])
  have hge : legibility.countersignedThroughSeq.ge ((1 : ℕ) : JsNumber) = true := by
    rw [hcount]
    decide
  have hsecond : ∃ q ∈ participantsOf Interfaces.Sample.externals (fun _ => none) crossedChain,
      q.pubkey = Interfaces.Sample.key 2 := by decide
  obtain ⟨q, hq, hkey⟩ := hsecond
  have hfirst : ∃ l ∈ crossedChain, l.s2.senderPubkey = Interfaces.Sample.key 1 ∧
      l.s2.sequenceNumber = ((1 : ℕ) : JsNumber) := by decide
  obtain ⟨l, hl, hlkey, hseq⟩ := hfirst
  have h := hprefix legibility hbuild l hl (hseq ▸ hge) q (hpart ▸ hq)
  rw [hlkey, hkey, hseq] at h
  exact absurd h (by decide)

end Cello.Directory.Seal
