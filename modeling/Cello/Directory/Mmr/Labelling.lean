import Cello.Directory.Mmr.Inclusion

/-!
# A hash that labels the path of a leaf

For every leaf `i` there is a function with 64-character digests that gives the
trees over leaf `i` labels of their own, every other tree one label, and whatever
is not the hash of a tree a third one, `junk`, which absorbs what is hashed with
it.  `detects_labelSha` is the result: this hash notices wrong turns in the sense
of `Detects`.

Labels are strings over `a` to `d`.  A leaf's hash input contains a colon, so no
leaf is mistaken for a pair of labels, and two labels have the same length, so a
concatenation of two can be taken apart again (`Label.append_inj`).
-/

namespace Cello.Directory.Mmr

open Lib Lib.MountainRange

/-- The tree of height `h` over the leaf, any other tree, or nothing that is a tree. -/
inductive Label where
  | ancestor (h : ℕ)
  | other
  | junk

namespace Label

def counts : Label → ℕ × ℕ × ℕ × ℕ
  | ancestor h => (h, 64 - h, 0, 0)
  | other => (0, 0, 64, 0)
  | junk => (0, 0, 0, 64)

def chars (l : Label) : List Char :=
  List.replicate l.counts.1 'a' ++ List.replicate l.counts.2.1 'b' ++
    List.replicate l.counts.2.2.1 'c' ++ List.replicate l.counts.2.2.2 'd'

def str (l : Label) : String := String.ofList l.chars

def Ok : Label → Prop
  | ancestor h => h ≤ 64
  | _ => True

theorem ok_other : Ok other := trivial

theorem ok_junk : Ok junk := trivial

theorem length_str {l : Label} (hl : l.Ok) : l.str.length = 64 := by
  rw [str, String.length_ofList, chars]
  simp only [List.length_append, List.length_replicate]
  cases l with
  | ancestor h =>
    have : h ≤ 64 := hl
    simp only [counts]
    omega
  | other => rfl
  | junk => rfl

theorem colon_notMem (l : Label) : ':' ∉ l.str.toList := by
  rw [str, String.toList_ofList, chars]
  simp [List.mem_append, List.mem_replicate]

theorem count_chars (l : Label) : l.chars.count 'a' = l.counts.1 ∧
    l.chars.count 'c' = l.counts.2.2.1 ∧ l.chars.count 'd' = l.counts.2.2.2 := by
  simp [chars, List.count_append, List.count_replicate]

theorem str_inj {l m : Label} (he : l.str = m.str) : l = m := by
  -- how often each letter occurs tells the labels apart
  have hchars : l.chars = m.chars := String.ofList_injective he
  obtain ⟨la, lc, ld⟩ := l.count_chars
  obtain ⟨ma, mc, md⟩ := m.count_chars
  rw [hchars] at la lc ld
  have ha := la.symm.trans ma
  have hc := lc.symm.trans mc
  have hd := ld.symm.trans md
  cases l <;> cases m <;> simp only [counts] at ha hc hd <;> first | rfl | omega | rw [ha]

theorem append_inj {l m l' m' : Label} (hl : l.Ok) (hl' : l'.Ok)
    (he : l.str ++ m.str = l'.str ++ m'.str) : l = l' ∧ m = m' := by
  have ht := congrArg String.toList he
  rw [String.toList_append, String.toList_append] at ht
  have hlen : l.str.toList.length = l'.str.toList.length := by
    rw [String.length_toList, String.length_toList, length_str hl, length_str hl']
  obtain ⟨h1, h2⟩ := List.append_inj ht hlen
  exact ⟨str_inj (String.toList_inj.1 h1), str_inj (String.toList_inj.1 h2)⟩

/-- The label of the tree over two labelled ones, on the path of leaf `i` up to height `H`. -/
def merge (i H : ℕ) : Label → Label → Label
  | other, other => other
  | ancestor h, other => if h < H ∧ i / 2 ^ h % 2 = 0 then ancestor (h + 1) else junk
  | other, ancestor h => if h < H ∧ i / 2 ^ h % 2 = 1 then ancestor (h + 1) else junk
  | _, _ => junk

theorem ok_merge {i H : ℕ} (hH : H ≤ 64) (l m : Label) : (merge i H l m).Ok := by
  unfold merge
  split
  · trivial
  · split
    · show _ + 1 ≤ 64
      omega
    · trivial
  · split
    · show _ + 1 ≤ 64
      omega
    · trivial
  · trivial

end Label

section Sha

open Classical

variable (f : ℕ → String × String) (i H : ℕ)

/-- What `computeLeafHash` hashes. -/
def leafInput (n : ℕ) : String := toString n ++ ":" ++ (f n).1 ++ ":" ++ (f n).2

noncomputable def labelOf (s : String) : Label :=
  if s = leafInput f i then .ancestor 0
  else if ':' ∈ s.toList then .other
  else if h : ∃ p : Label × Label, p.1.Ok ∧ p.2.Ok ∧ s = p.1.str ++ p.2.str then
    Label.merge i H h.choose.1 h.choose.2
  else .junk

variable {H}

theorem ok_labelOf (hH : H ≤ 64) (s : String) : (labelOf f i H s).Ok := by
  unfold labelOf
  split
  · exact Nat.zero_le _
  · split
    · trivial
    · split
      · exact Label.ok_merge hH _ _
      · trivial

noncomputable def labelSha (hH : H ≤ 64) : Sha256 where
  hex s := (labelOf f i H s).str
  length_hex s := Label.length_str (ok_labelOf f i hH s)

variable (hH : H ≤ 64)

theorem colon_mem_leafInput (n : ℕ) : ':' ∈ (leafInput f n).toList := by
  simp [leafInput, String.toList_append]

theorem leafInput_inj {m n : ℕ} (h : leafInput f m = leafInput f n) : m = n := by
  have ht := congrArg String.toList h
  simp only [leafInput, String.toList_append, List.append_assoc] at ht
  exact Text.repr_toList_inj
    (Text.split_at_sep (Text.colon_notMem_repr m) (Text.colon_notMem_repr n) ht).1

theorem labelOf_append {l m : Label} (hl : l.Ok) (hm : m.Ok) :
    labelOf f i H (l.str ++ m.str) = Label.merge i H l m := by
  have hcolon : ':' ∉ (l.str ++ m.str).toList := by
    rw [String.toList_append, List.mem_append, not_or]
    exact ⟨l.colon_notMem, m.colon_notMem⟩
  have hleaf : l.str ++ m.str ≠ leafInput f i := fun he =>
    hcolon (he ▸ colon_mem_leafInput f i)
  have hex : ∃ p : Label × Label, p.1.Ok ∧ p.2.Ok ∧ l.str ++ m.str = p.1.str ++ p.2.str :=
    ⟨(l, m), hl, hm, rfl⟩
  rw [labelOf, if_neg hleaf, if_neg hcolon, dif_pos hex]
  obtain ⟨h1, -, he⟩ := hex.choose_spec
  obtain ⟨e1, e2⟩ := Label.append_inj hl h1 he
  rw [← e1, ← e2]

/-! ### The hashes of the trees -/

theorem treeHash_other : ∀ h j : ℕ, j ≠ i / 2 ^ h →
    treeHash (labelSha f i hH) f h j = Label.other.str := by
  intro h
  induction h with
  | zero =>
    intro j hj
    have hne : leafInput f j ≠ leafInput f i := fun he => hj (by simpa using leafInput_inj f he)
    show (labelOf f i H (leafInput f j)).str = _
    rw [labelOf, if_neg hne, if_pos (colon_mem_leafInput f j)]
  | succ h ih =>
    intro j hj
    rw [div_pow_succ] at hj
    rw [treeHash, ih (2 * j) (by omega), ih (2 * j + 1) (by omega)]
    show (labelOf f i H (Label.other.str ++ Label.other.str)).str = _
    rw [labelOf_append f i Label.ok_other Label.ok_other, Label.merge]

theorem treeHash_ancestor : ∀ h : ℕ, h ≤ H →
    treeHash (labelSha f i hH) f h (i / 2 ^ h) = (Label.ancestor h).str := by
  intro h
  induction h with
  | zero =>
    intro _
    rw [pow_zero, Nat.div_one]
    show (labelOf f i H (leafInput f i)).str = _
    rw [labelOf, if_pos rfl]
  | succ h ih =>
    intro hh
    have hok : (Label.ancestor h).Ok := show h ≤ 64 by omega
    have hi := ih (by omega)
    rw [treeHash]
    rcases Nat.mod_two_eq_zero_or_one (i / 2 ^ h) with heven | hodd
    · have hj : 2 * (i / 2 ^ (h + 1)) = i / 2 ^ h := by rw [div_pow_succ]; omega
      rw [hj, hi, treeHash_other f i hH h _ (by omega)]
      show (labelOf f i H ((Label.ancestor h).str ++ Label.other.str)).str = _
      rw [labelOf_append f i hok Label.ok_other, Label.merge, if_pos ⟨by omega, heven⟩]
    · have hj : 2 * (i / 2 ^ (h + 1)) + 1 = i / 2 ^ h := by rw [div_pow_succ]; omega
      rw [hj, hi, treeHash_other f i hH h _ (by omega)]
      show (labelOf f i H (Label.other.str ++ (Label.ancestor h).str)).str = _
      rw [labelOf_append f i Label.ok_other hok, Label.merge, if_pos ⟨by omega, hodd⟩]

theorem detects_labelSha : Detects (labelSha f i hH) f i H Label.junk.str where
  left t := by
    show (labelOf f i H (Label.junk.str ++ (labelOf f i H t).str)).str = _
    rw [labelOf_append f i Label.ok_junk (ok_labelOf f i hH t)]
    rfl
  right t := by
    show (labelOf f i H ((labelOf f i H t).str ++ Label.junk.str)).str = _
    rw [labelOf_append f i (ok_labelOf f i hH t) Label.ok_junk]
    cases labelOf f i H t <;> rfl
  wrong h h' j' hh heven hle := by
    have hok : (Label.ancestor h).Ok := show h ≤ 64 by omega
    have hne : j' ≠ i / 2 ^ h' := by
      intro he
      have := Nat.lt_mul_div_succ i (show 0 < 2 ^ h' by positivity)
      rw [← he, mul_comm] at this
      omega
    rw [treeHash_other f i hH h' j' hne, treeHash_ancestor f i hH h (by omega)]
    show (labelOf f i H (Label.other.str ++ (Label.ancestor h).str)).str = _
    rw [labelOf_append f i Label.ok_other hok, Label.merge, if_neg (by omega)]
  peak := by
    rw [treeHash_ancestor f i hH H le_rfl]
    intro he
    exact Label.noConfusion (Label.str_inj he)

end Sha

end Cello.Directory.Mmr
