import Mathlib.Data.Nat.Log
import Mathlib.Tactic.Ring

/-!
# The RFC 6962 tree head

The head of a list of two or more hashes splits it at the largest power of two below its
length.  Appending one hash at a time keeps a stack of heads of complete subtrees instead,
the topmost one the smallest, and merges equal heights as a binary counter carries
(`push`).  `Stacked` says which list a stack stands for; a push keeps it
(`stacked_push`) and the fold of the stack is the head of the list (`fold_eq_treeHead`).

A head determines the list it was taken over, once the length is known and no two of the
pairs that were hashed collide (`treeHead_inj`).
-/

namespace Lib.TreeHead

variable {α : Type*} (node : α → α → α) (d : α)

/-- The largest power of two below `n`. -/
def split (n : ℕ) : ℕ := 2 ^ (n - 1).log2

/-- The recursion of the tree head; `fuel` bounds its depth. -/
def headWithin : ℕ → List α → α
  | 0, _ => d
  | _ + 1, [] => d
  | _ + 1, [x] => x
  | fuel + 1, x :: y :: rest =>
    let k := split (x :: y :: rest).length
    node (headWithin fuel ((x :: y :: rest).take k)) (headWithin fuel ((x :: y :: rest).drop k))

/-- The tree head; `d` for the empty list. -/
def treeHead (l : List α) : α := headWithin node d l.length l

abbrev Stack (α : Type*) := List (α × ℕ)

def push (x : α) (height : ℕ) : Stack α → Stack α
  | [] => [(x, height)]
  | (top, h) :: rest =>
    if h = height then push (node top x) (height + 1) rest
    else (x, height) :: (top, h) :: rest

def foldOnto (x : α) (st : Stack α) : α := st.foldl (fun root e => node e.1 root) x

/-! ### The split -/

theorem split_pos (n : ℕ) : 0 < split n := Nat.two_pow_pos _

theorem split_lt {n : ℕ} (h : 2 ≤ n) : split n < n := by
  have := Nat.log2_self_le (show n - 1 ≠ 0 by omega)
  unfold split
  omega

theorem split_pow_add {h m : ℕ} (hpos : 0 < m) (hle : m ≤ 2 ^ h) : split (2 ^ h + m) = 2 ^ h := by
  have hpow : 0 < 2 ^ h := Nat.two_pow_pos h
  have hlog : (2 ^ h + m - 1).log2 = h := by
    rw [Nat.log2_eq_iff (by omega), pow_succ]
    omega
  rw [split, hlog]

/-! ### The head of a list -/

variable {node d}

theorem headWithin_of_length_le : ∀ {fuel fuel' : ℕ} {l : List α}, l.length ≤ fuel →
    l.length ≤ fuel' → headWithin node d fuel l = headWithin node d fuel' l := by
  intro fuel
  induction fuel with
  | zero =>
    intro fuel' l hl _
    obtain rfl := List.length_eq_zero_iff.1 (Nat.le_zero.1 hl)
    cases fuel' <;> rfl
  | succ fuel ih =>
    intro fuel' l hl hl'
    match l, fuel' with
    | [], 0 => rfl
    | [], _ + 1 => rfl
    | [_], _ + 1 => rfl
    | x :: y :: rest, fuel' + 1 =>
      have hlt := split_lt (n := (x :: y :: rest).length) (by simp)
      have hpos := split_pos (x :: y :: rest).length
      have hrec : ∀ m : List α, m.length ≤ fuel → m.length ≤ fuel' →
          headWithin node d fuel m = headWithin node d fuel' m := fun _ h h' => ih h h'
      simp only [headWithin]
      rw [hrec, hrec]
      all_goals simp only [List.length_take, List.length_drop] at *
      all_goals omega

theorem treeHead_split {l : List α} (h : 2 ≤ l.length) :
    treeHead node d l =
      node (treeHead node d (l.take (split l.length))) (treeHead node d (l.drop (split l.length))) := by
  match l with
  | x :: y :: rest =>
    have hlt := split_lt h
    have hpos := split_pos (x :: y :: rest).length
    unfold treeHead
    rw [show (x :: y :: rest).length = (rest.length + 1) + 1 from rfl, headWithin]
    simp only [List.length_cons] at *
    congr 1
    · refine headWithin_of_length_le ?_ le_rfl
      rw [List.length_take]
      omega
    · refine headWithin_of_length_le ?_ le_rfl
      simp only [List.length_drop, List.length_cons]
      omega

theorem treeHead_append {b s : List α} {h : ℕ} (hb : b.length = 2 ^ h) (hpos : s ≠ [])
    (hle : s.length ≤ 2 ^ h) :
    treeHead node d (b ++ s) = node (treeHead node d b) (treeHead node d s) := by
  have hs : 0 < s.length := List.length_pos_iff.2 hpos
  have hpow : 0 < 2 ^ h := Nat.two_pow_pos h
  have hlen : (b ++ s).length = 2 ^ h + s.length := by rw [List.length_append, hb]
  rw [treeHead_split (by omega), hlen, split_pow_add hs hle, ← hb, List.take_left, List.drop_left]

/-! ### The stack of a list -/

/-- The stack stands for the list: complete blocks, the highest first in the list and last on the
stack. -/
inductive Stacked (node : α → α → α) (d : α) : List α → Stack α → Prop
  | nil : Stacked node d [] []
  | push {l b : List α} {st : Stack α} {h : ℕ} (hst : Stacked node d l st) (hb : b.length = 2 ^ h)
      (hlow : ∀ e ∈ st.head?, h < e.2) :
      Stacked node d (l ++ b) ((treeHead node d b, h) :: st)

/-- **Pushing a complete block.** -/
theorem stacked_push : ∀ {st : Stack α} {l b : List α} {h : ℕ}, Stacked node d l st →
    b.length = 2 ^ h → (∀ e ∈ st.head?, h ≤ e.2) →
    Stacked node d (l ++ b) (push node (treeHead node d b) h st) := by
  intro st
  induction st with
  | nil =>
    intro l b h hst hb _
    exact hst.push hb (by simp)
  | cons e rest ih =>
    intro l b h hst hb hle
    obtain ⟨top, k⟩ := e
    cases hst with
    | push hst hb' hlow =>
      rename_i l' b'
      rw [push]
      split_ifs with hk
      · -- the carry: two blocks of one height make the next
        subst hk
        have hmerge : treeHead node d (b' ++ b) = node (treeHead node d b') (treeHead node d b) := by
          refine treeHead_append hb' ?_ hb.le
          rintro rfl
          exact absurd hb.symm (Nat.two_pow_pos k).ne'
        rw [← hmerge, List.append_assoc]
        refine ih hst ?_ fun e he => hlow e he
        rw [List.length_append, hb, hb', pow_succ]
        omega
      · have hlt : h < k := lt_of_le_of_ne (hle (_, k) rfl) (Ne.symm hk)
        refine (hst.push hb' hlow).push hb fun e he => ?_
        obtain rfl : _ = e := Option.some.inj he
        exact hlt

theorem stacked_concat {st : Stack α} {l : List α} (hst : Stacked node d l st) (x : α) :
    Stacked node d (l ++ [x]) (push node x 0 st) :=
  stacked_push (b := [x]) hst rfl fun _ _ => Nat.zero_le _

theorem foldOnto_eq : ∀ {st : Stack α} {l s : List α}, Stacked node d l st → s ≠ [] →
    (∀ e ∈ st.head?, s.length ≤ 2 ^ e.2) →
    foldOnto node (treeHead node d s) st = treeHead node d (l ++ s) := by
  intro st
  induction st with
  | nil =>
    intro l s hst _ _
    cases hst
    rfl
  | cons e rest ih =>
    intro l s hst hs hle
    cases hst with
    | push hst hb hlow =>
      rename_i l b h
      have hfit := hle (_, h) rfl
      have hjoin : treeHead node d (b ++ s) = node (treeHead node d b) (treeHead node d s) :=
        treeHead_append hb hs hfit
      rw [foldOnto, List.foldl_cons, ← hjoin, List.append_assoc]
      refine ih hst (by simp [hs]) fun e he => ?_
      have hpow : 2 ^ (h + 1) ≤ 2 ^ e.2 := Nat.pow_le_pow_right (by decide) (hlow e he)
      rw [List.length_append, hb]
      rw [pow_succ] at hpow
      have : s.length ≤ 2 ^ h := hfit
      omega

theorem fold_eq_treeHead {st : Stack α} {l : List α} {top : α} {h : ℕ}
    (hst : Stacked node d l ((top, h) :: st)) : foldOnto node top st = treeHead node d l := by
  cases hst with
  | push hst hb hlow =>
    refine foldOnto_eq hst ?_ fun e he => ?_
    · rintro rfl
      exact absurd hb.symm (Nat.two_pow_pos h).ne'
    · rw [hb]
      exact Nat.pow_le_pow_right (by decide) (hlow e he).le

theorem stacked_eq_nil {st : Stack α} {l : List α} (hst : Stacked node d l st) :
    st = [] ↔ l = [] := by
  cases hst with
  | nil => simp
  | push hst hb hlow =>
    rename_i l b st h
    have : b ≠ [] := by
      rintro rfl
      exact absurd hb.symm (Nat.two_pow_pos h).ne'
    simp [this]

theorem Stacked.dvd_length {st : Stack α} {l : List α} (hst : Stacked node d l st) :
    ∀ {m : ℕ}, (∀ e ∈ st.head?, m ≤ e.2) → 2 ^ m ∣ l.length := by
  induction hst with
  | nil => intro m _; simp
  | push hst hb hlow ih =>
    rename_i l b st h
    intro m hm
    have hmh : m ≤ h := hm (_, h) rfl
    rw [List.length_append, hb]
    refine Nat.dvd_add (ih fun e he => ?_) (Nat.pow_dvd_pow 2 hmh)
    exact hmh.trans (hlow e he).le

theorem height_unique {n n' h h' : ℕ} (hn : 2 ^ (h + 1) ∣ n) (hn' : 2 ^ (h' + 1) ∣ n')
    (he : n + 2 ^ h = n' + 2 ^ h') : h = h' := by
  have key : ∀ {n n' h h' : ℕ}, 2 ^ (h + 1) ∣ n → 2 ^ (h' + 1) ∣ n' →
      n + 2 ^ h = n' + 2 ^ h' → ¬h < h' := by
    intro n n' h h' hn hn' he hlt
    have hpow : 2 ^ (h + 1) ∣ n' + 2 ^ h' :=
      Nat.dvd_add ((Nat.pow_dvd_pow 2 (by omega)).trans hn') (Nat.pow_dvd_pow 2 hlt)
    rw [← he] at hpow
    have := Nat.le_of_dvd (Nat.two_pow_pos h) ((Nat.dvd_add_right hn).1 hpow)
    rw [pow_succ] at this
    have := Nat.two_pow_pos h
    omega
  rcases Nat.lt_trichotomy h h' with hlt | rfl | hlt
  · exact absurd hlt (key hn hn' he)
  · rfl
  · exact absurd hlt (key hn' hn he.symm)

theorem stacked_unique : ∀ {st st' : Stack α} {l : List α}, Stacked node d l st →
    Stacked node d l st' → st = st' := by
  intro st
  induction st with
  | nil =>
    intro st' l hst hst'
    cases hst
    exact ((stacked_eq_nil hst').2 rfl).symm
  | cons e rest ih =>
    intro st' l hst hst'
    cases hst with
    | push hst hb hlow =>
      rename_i l b h
      generalize hjoin : l ++ b = joined at hst'
      cases hst' with
      | nil =>
        obtain ⟨-, rfl⟩ := List.append_eq_nil_iff.1 hjoin
        exact absurd hb.symm (Nat.two_pow_pos h).ne'
      | push hst' hb' hlow' =>
        rename_i l' b' rest' h'
        have hlen : l.length + 2 ^ h = l'.length + 2 ^ h' := by
          rw [← hb, ← hb', ← List.length_append, hjoin, List.length_append]
        obtain rfl := height_unique (hst.dvd_length fun e he => hlow e he)
          (hst'.dvd_length fun e he => hlow' e he) hlen
        obtain ⟨rfl, rfl⟩ := List.append_inj hjoin (by omega)
        rw [ih hst hst']

/-! ### The head determines the list -/

variable (node d) in
/-- The pairs that are hashed for the head of a list, the topmost one first. -/
def pairsWithin : ℕ → List α → List (α × α)
  | 0, _ => []
  | _ + 1, [] => []
  | _ + 1, [_] => []
  | fuel + 1, x :: y :: rest =>
    let l := (x :: y :: rest).take (split (x :: y :: rest).length)
    let r := (x :: y :: rest).drop (split (x :: y :: rest).length)
    (headWithin node d fuel l, headWithin node d fuel r) :: (pairsWithin fuel l ++ pairsWithin fuel r)

variable (node d) in
/-- The pairs that are hashed for the head of a list. -/
def pairs (l : List α) : List (α × α) := pairsWithin node d l.length l

theorem headWithin_inj : ∀ {fuel : ℕ} {l l' : List α}, l.length ≤ fuel → l.length = l'.length →
    Set.InjOn (fun p : α × α => node p.1 p.2)
      {p | p ∈ pairsWithin node d fuel l ∨ p ∈ pairsWithin node d fuel l'} →
    headWithin node d fuel l = headWithin node d fuel l' → l = l' := by
  intro fuel
  induction fuel with
  | zero =>
    intro l l' hl hlen _ _
    rw [List.length_eq_zero_iff.1 (Nat.le_zero.1 hl)] at hlen ⊢
    exact (List.length_eq_zero_iff.1 hlen.symm).symm
  | succ fuel ih =>
    intro l l' hl hlen hfree h
    match l, l' with
    | [], [] => rfl
    | [x], [y] => rw [show x = y from h]
    | x :: y :: rest, x' :: y' :: rest' =>
      have hlt := split_lt (n := (x :: y :: rest).length) (by simp)
      have hpos := split_pos (x :: y :: rest).length
      simp only [headWithin, ← hlen] at h
      simp only [pairsWithin, ← hlen] at hfree
      -- the topmost pair is not hashed like another one, so both halves have the same head
      obtain ⟨hleft, hright⟩ := Prod.mk.inj
        (hfree (Or.inl List.mem_cons_self) (Or.inr List.mem_cons_self) h)
      have htake := ih (by simp only [List.length_take] at *; omega)
        (by rw [List.length_take, List.length_take, hlen])
        (hfree.mono fun p hp => hp.imp
          (fun h => List.mem_cons_of_mem _ (List.mem_append_left _ h))
          (fun h => List.mem_cons_of_mem _ (List.mem_append_left _ h))) hleft
      have hdrop := ih (by simp only [List.length_drop] at *; omega)
        (by rw [List.length_drop, List.length_drop, hlen])
        (hfree.mono fun p hp => hp.imp
          (fun h => List.mem_cons_of_mem _ (List.mem_append_right _ h))
          (fun h => List.mem_cons_of_mem _ (List.mem_append_right _ h))) hright
      rw [← List.take_append_drop (split (x :: y :: rest).length) (x :: y :: rest), htake, hdrop,
        List.take_append_drop]

theorem treeHead_inj {l l' : List α} (hlen : l.length = l'.length)
    (hfree : Set.InjOn (fun p : α × α => node p.1 p.2)
      {p | p ∈ pairs node d l ∨ p ∈ pairs node d l'})
    (h : treeHead node d l = treeHead node d l') : l = l' := by
  unfold treeHead pairs at *
  rw [← hlen] at hfree h
  exact headWithin_inj le_rfl hlen hfree h

end Lib.TreeHead
