import Mathlib.Data.Finset.Card

/-!
# Union-find with the least member as root

A parent map over ordered elements, where a root is its own parent.  `find` follows the parents up to the root and
then makes it the parent of all it has passed; `union` links the greater of two roots under the less.  Neither loop has
a bound of its own, so both take fuel, and as many steps as there are nodes are enough.

What a parent map says is a map to representatives (`Forest`).  `find` answers the representative and changes none
(`Forest.find`), and `union` merges two classes (`Forest.union`).  Behind the unions of some edges two elements have
the same representative exactly if the edges connect them, and it is the least element of its class (`classes_spec`).
-/

namespace Lib.UnionFind

variable {α : Type*} [LinearOrder α]

/-! ### The algorithm -/

def rootFrom (parent : α → α) : ℕ → α → Option α
  | 0, _ => none
  | fuel + 1, x => if parent x = x then some x else rootFrom parent fuel (parent x)

def compress (root : α) : ℕ → (α → α) → α → Option (α → α)
  | 0, _, _ => none
  | fuel + 1, parent, cur =>
    if cur = root then some parent else compress root fuel (Function.update parent cur root) (parent cur)

def find (fuel : ℕ) (parent : α → α) (x : α) : Option (α × (α → α)) := do
  let root ← rootFrom parent fuel x
  let parent ← compress root fuel parent x
  return (root, parent)

def union (fuel : ℕ) (parent : α → α) (a b : α) : Option (α → α) := do
  let (ra, parent) ← find fuel parent a
  let (rb, parent) ← find fuel parent b
  if ra = rb then return parent
  else if ra < rb then return Function.update parent rb ra
  else return Function.update parent ra rb

/-! ### Forests -/

/-- A parent map leads every element to its representative, over elements that get less. -/
structure Forest (nodes : Finset α) (parent rep : α → α) : Prop where
  le : ∀ x, parent x ≤ x
  mem : ∀ x, parent x ≠ x → parent x ∈ nodes
  rep_parent : ∀ x, rep (parent x) = rep x
  rep_root : ∀ x, parent x = x → rep x = x

variable {nodes : Finset α} {parent rep : α → α}

theorem forest_id (nodes : Finset α) : Forest nodes id id where
  le _ := le_rfl
  mem _ hx := absurd rfl hx
  rep_parent _ := rfl
  rep_root _ _ := rfl

def below (nodes : Finset α) (x : α) : Finset α := nodes.filter (· < x)

theorem below_lt {x y : α} (hy : y ∈ nodes) (h : y < x) : (below nodes y).card < (below nodes x).card := by
  refine Finset.card_lt_card ⟨fun z hz => ?_, fun hsub => ?_⟩
  · obtain ⟨hz, hlt⟩ := Finset.mem_filter.1 hz
    exact Finset.mem_filter.2 ⟨hz, hlt.trans h⟩
  · exact lt_irrefl y (Finset.mem_filter.1 (hsub (Finset.mem_filter.2 ⟨hy, h⟩))).2

section

variable (h : Forest nodes parent rep)

include h

theorem Forest.below_parent {x : α} (hx : parent x ≠ x) :
    (below nodes (parent x)).card < (below nodes x).card :=
  below_lt (h.mem x hx) (lt_of_le_of_ne (h.le x) hx)

theorem Forest.induction {p : α → Prop} (hroot : ∀ x, parent x = x → p x)
    (hstep : ∀ x, parent x ≠ x → p (parent x) → p x) (x : α) : p x := by
  induction hn : (below nodes x).card using Nat.strong_induction_on generalizing x with
  | _ n ih =>
    by_cases hx : parent x = x
    · exact hroot x hx
    · exact hstep x hx (ih _ (hn ▸ h.below_parent hx) (parent x) rfl)

theorem Forest.parent_rep (x : α) : parent (rep x) = rep x := by
  refine h.induction (p := fun x => parent (rep x) = rep x) (fun x hx => ?_) (fun x _ ih => ?_) x
  · rw [h.rep_root x hx, hx]
  · rwa [h.rep_parent x] at ih

theorem Forest.rep_rep (x : α) : rep (rep x) = rep x := h.rep_root _ (h.parent_rep x)

theorem Forest.rep_le (x : α) : rep x ≤ x := by
  refine h.induction (p := fun x => rep x ≤ x) (fun x hx => le_of_eq (h.rep_root x hx)) (fun x _ ih => ?_) x
  rw [h.rep_parent x] at ih
  exact ih.trans (h.le x)

theorem Forest.rep_mem (x : α) : rep x ≠ x → rep x ∈ nodes := by
  refine h.induction (p := fun x => rep x ≠ x → rep x ∈ nodes) (fun x hx hne => absurd (h.rep_root x hx) hne)
    (fun x hx ih _ => ?_) x
  by_cases hparent : rep x = parent x
  · exact hparent ▸ h.mem x hx
  · rw [h.rep_parent x] at ih
    exact ih hparent

theorem Forest.rootFrom {fuel : ℕ} {x : α} (hfuel : (below nodes x).card < fuel) :
    rootFrom parent fuel x = some (rep x) := by
  induction fuel generalizing x with
  | zero => cases hfuel
  | succ fuel ih =>
    rw [UnionFind.rootFrom]
    split
    · rename_i hx
      rw [h.rep_root x hx]
    · rename_i hx
      have hless := h.below_parent hx
      rw [ih (by omega), h.rep_parent]

theorem Forest.redirect {cur target : α} {rep' : α → α} (hne : target ≠ cur) (hle : target ≤ cur)
    (hmem : target ∈ nodes) (hself : rep' target = rep' cur) (hparent : ∀ x, rep' (parent x) = rep' x)
    (hroot : ∀ x ≠ cur, parent x = x → rep' x = x) :
    Forest nodes (Function.update parent cur target) rep' := by
  refine ⟨fun x => ?_, fun x => ?_, fun x => ?_, fun x => ?_⟩ <;> by_cases hx : x = cur
  · rw [hx, Function.update_self]
    exact hle
  · rw [Function.update_of_ne hx]
    exact h.le x
  · rw [hx, Function.update_self]
    exact fun _ => hmem
  · rw [Function.update_of_ne hx]
    exact h.mem x
  · rw [hx, Function.update_self, hself]
  · rw [Function.update_of_ne hx, hparent]
  · rw [hx, Function.update_self]
    exact fun heq => absurd heq hne
  · rw [Function.update_of_ne hx]
    exact hroot x hx

theorem Forest.update_rep {cur : α} (hcur : rep cur ≠ cur) :
    Forest nodes (Function.update parent cur (rep cur)) rep :=
  h.redirect hcur (h.rep_le cur) (h.rep_mem cur hcur) (h.rep_rep cur) h.rep_parent fun x _ => h.rep_root x

end

theorem Forest.compress {root : α} {fuel : ℕ} (h : Forest nodes parent rep) {cur : α} (hroot : rep cur = root)
    (hfuel : (below nodes cur).card < fuel) :
    ∃ parent', compress root fuel parent cur = some parent' ∧ Forest nodes parent' rep := by
  induction fuel generalizing parent cur with
  | zero => cases hfuel
  | succ fuel ih =>
    subst hroot
    rw [UnionFind.compress]
    split
    · exact ⟨parent, rfl, h⟩
    · rename_i hcur
      have hmoves : parent cur ≠ cur := fun heq => hcur (h.rep_root cur heq).symm
      have hless := h.below_parent hmoves
      exact ih (h.update_rep (Ne.symm hcur)) (h.rep_parent cur) (by omega)

/-- **`find` answers the representative** and keeps all of them. -/
theorem Forest.find (h : Forest nodes parent rep) {fuel : ℕ} (hfuel : nodes.card < fuel) (x : α) :
    ∃ parent', find fuel parent x = some (rep x, parent') ∧ Forest nodes parent' rep := by
  have hbelow : (below nodes x).card < fuel := lt_of_le_of_lt (Finset.card_filter_le _ _) hfuel
  obtain ⟨parent', hcompress, hforest⟩ := h.compress rfl hbelow
  refine ⟨parent', ?_, hforest⟩
  rw [UnionFind.find, h.rootFrom hbelow, Option.bind_eq_bind, Option.bind_some, hcompress]
  rfl

theorem Forest.foldlM {σ β : Type*} {f : σ × (α → α) → β → Option (σ × (α → α))} {g : σ → β → σ} {l : List β}
    (hstep : ∀ b ∈ l, ∀ s parent, Forest nodes parent rep →
      ∃ parent', f (s, parent) b = some (g s b, parent') ∧ Forest nodes parent' rep)
    {s : σ} (h : Forest nodes parent rep) :
    ∃ parent', l.foldlM f (s, parent) = some (l.foldl g s, parent') ∧ Forest nodes parent' rep := by
  induction l generalizing s parent with
  | nil => exact ⟨parent, rfl, h⟩
  | cons b l ih =>
    obtain ⟨parent₁, hfirst, h₁⟩ := hstep b List.mem_cons_self s parent h
    obtain ⟨parent₂, hrest, h₂⟩ := ih (fun b hb => hstep b (List.mem_cons_of_mem _ hb)) (s := g s b) h₁
    refine ⟨parent₂, ?_, h₂⟩
    rw [List.foldlM_cons, hfirst, Option.bind_eq_bind, Option.bind_some, hrest]
    rfl

/-! ### Merging -/

def merge (rep : α → α) (a b : α) (x : α) : α :=
  if rep x = max (rep a) (rep b) then min (rep a) (rep b) else rep x

theorem Forest.link (h : Forest nodes parent rep) {lo hi : α} (hlo : parent lo = lo) (hhi : parent hi = hi)
    (hlt : lo < hi) (hmem : lo ∈ nodes) :
    Forest nodes (Function.update parent hi lo) fun x => if rep x = hi then lo else rep x := by
  have hreplo : rep lo ≠ hi := fun heq => ne_of_lt hlt ((h.rep_root lo hlo).symm.trans heq)
  refine h.redirect hlt.ne hlt.le hmem ?_ (fun x => by rw [h.rep_parent x]) fun x hx hroot => ?_
  · rw [if_neg hreplo, if_pos (h.rep_root hi hhi), h.rep_root lo hlo]
  · rw [h.rep_root x hroot, if_neg hx]

/-- **`union` merges two classes.** -/
theorem Forest.union (h : Forest nodes parent rep) {fuel : ℕ} (hfuel : nodes.card < fuel) {a b : α} (ha : a ∈ nodes)
    (hb : b ∈ nodes) : ∃ parent', union fuel parent a b = some parent' ∧ Forest nodes parent' (merge rep a b) := by
  have hmem : ∀ x ∈ nodes, rep x ∈ nodes := fun x hx => by
    by_cases hrep : rep x = x
    · rwa [hrep]
    · exact h.rep_mem x hrep
  obtain ⟨parent₁, hfind₁, h₁⟩ := h.find hfuel a
  obtain ⟨parent₂, hfind₂, h₂⟩ := h₁.find hfuel b
  rw [UnionFind.union, hfind₁, Option.bind_eq_bind, Option.bind_some]
  dsimp only
  rw [hfind₂, Option.bind_some]
  dsimp only
  rcases lt_trichotomy (rep a) (rep b) with hlt | heq | hgt
  · rw [if_neg hlt.ne, if_pos hlt]
    refine ⟨_, rfl, ?_⟩
    have hlink := h₂.link (h₂.parent_rep a) (h₂.parent_rep b) hlt (hmem a ha)
    unfold merge
    rwa [max_eq_right hlt.le, min_eq_left hlt.le]
  · rw [if_pos heq]
    refine ⟨_, rfl, ?_⟩
    have hsame : merge rep a b = rep := by
      funext x
      rw [merge, heq, max_self, min_self]
      split
      · rename_i hx
        exact hx.symm
      · rfl
    rwa [hsame]
  · rw [if_neg hgt.ne', if_neg hgt.asymm]
    refine ⟨_, rfl, ?_⟩
    have hlink := h₂.link (h₂.parent_rep b) (h₂.parent_rep a) hgt (hmem b hb)
    unfold merge
    rwa [max_eq_left hgt.le, min_eq_right hgt.le]

theorem Forest.unions {fuel : ℕ} (hfuel : nodes.card < fuel) {edges : List (α × α)}
    (hedges : ∀ e ∈ edges, e.1 ∈ nodes ∧ e.2 ∈ nodes) (h : Forest nodes parent rep) :
    ∃ parent', edges.foldlM (fun parent e => UnionFind.union fuel parent e.1 e.2) parent = some parent' ∧
      Forest nodes parent' (edges.foldl (fun rep e => merge rep e.1 e.2) rep) := by
  induction edges generalizing parent rep with
  | nil => exact ⟨parent, rfl, h⟩
  | cons e edges ih =>
    obtain ⟨ha, hb⟩ := hedges e List.mem_cons_self
    obtain ⟨parent₁, hunion, h₁⟩ := h.union hfuel ha hb
    obtain ⟨parent₂, hrest, h₂⟩ := ih (fun e he => hedges e (List.mem_cons_of_mem _ he)) h₁
    refine ⟨parent₂, ?_, h₂⟩
    rw [List.foldlM_cons, hunion, Option.bind_eq_bind, Option.bind_some, hrest]

/-! ### Classes -/

def classes (edges : List (α × α)) : α → α := edges.foldl (fun rep e => merge rep e.1 e.2) id

def Connected (edges : List (α × α)) : α → α → Prop := Relation.EqvGen fun x y => (x, y) ∈ edges

theorem merge_left (rep : α → α) (a b : α) : merge rep a b a = min (rep a) (rep b) := by
  rw [merge]
  split
  · rfl
  · rename_i h
    rcases le_total (rep a) (rep b) with hle | hle
    · rw [min_eq_left hle]
    · exact absurd (max_eq_left hle).symm h

theorem merge_right (rep : α → α) (a b : α) : merge rep a b b = min (rep a) (rep b) := by
  have hcomm : merge rep a b = merge rep b a := by
    funext x
    rw [merge, merge, max_comm, min_comm]
  rw [hcomm, merge_left, min_comm]

omit [LinearOrder α] in
theorem Connected.mono {edges edges' : List (α × α)} (hsub : edges ⊆ edges') {x y : α} (h : Connected edges x y) :
    Connected edges' x y := by
  induction h with
  | rel x y hmem => exact .rel x y (hsub hmem)
  | refl x => exact .refl x
  | symm x y _ ih => exact .symm x y ih
  | trans x y z _ _ ih₁ ih₂ => exact .trans x y z ih₁ ih₂

/-- **What the representatives are**: connected to their elements, the same for connected ones, and the least. -/
theorem classes_spec (edges : List (α × α)) : (∀ x, Connected edges x (classes edges x)) ∧
    (∀ x y, Connected edges x y → classes edges x = classes edges y) ∧ ∀ x, classes edges x ≤ x := by
  induction edges using List.reverseRecOn with
  | nil =>
    refine ⟨fun x => .refl x, fun x y h => ?_, fun _ => le_rfl⟩
    induction h with
    | rel _ _ hmem => cases hmem
    | refl _ => rfl
    | symm _ _ _ ih => exact ih.symm
    | trans _ _ _ _ _ ih₁ ih₂ => exact ih₁.trans ih₂
  | append_singleton edges e ih =>
    obtain ⟨hto, hsame, hle⟩ := ih
    have hclasses : classes (edges ++ [e]) = merge (classes edges) e.1 e.2 := by
      rw [classes, List.foldl_append]
      rfl
    have hsub : edges ⊆ edges ++ [e] := fun _ => List.mem_append_left _
    have hedge : Connected (edges ++ [e]) (classes edges e.1) (classes edges e.2) :=
      .trans _ _ _ (.symm _ _ ((hto e.1).mono hsub))
        (.trans _ _ _ (.rel _ _ (List.mem_append_right _ List.mem_cons_self)) ((hto e.2).mono hsub))
    rw [hclasses]
    refine ⟨fun x => ?_, fun x y h => ?_, fun x => ?_⟩
    · have hx := (hto x).mono hsub
      rw [merge]
      split
      · rename_i hmax
        refine .trans _ _ _ hx ?_
        rw [hmax]
        rcases le_total (classes edges e.1) (classes edges e.2) with hle' | hle'
        · rw [max_eq_right hle', min_eq_left hle']
          exact .symm _ _ hedge
        · rw [max_eq_left hle', min_eq_right hle']
          exact hedge
      · exact hx
    · induction h with
      | rel x y hmem =>
        rcases List.mem_append.1 hmem with hold | hnew
        · rw [merge, merge, hsame x y (.rel _ _ hold)]
        · obtain rfl := List.mem_singleton.1 hnew
          rw [merge_left, merge_right]
      | refl _ => rfl
      | symm _ _ _ ih => exact ih.symm
      | trans _ _ _ _ _ ih₁ ih₂ => exact ih₁.trans ih₂
    · rw [merge]
      split
      · rename_i hmax
        exact min_le_max.trans (hmax ▸ hle x)
      · exact hle x

theorem classes_eq_iff {edges : List (α × α)} {x y : α} :
    classes edges x = classes edges y ↔ Connected edges x y := by
  obtain ⟨hto, hsame, -⟩ := classes_spec edges
  refine ⟨fun h => ?_, hsame x y⟩
  exact .trans _ _ _ (hto x) (h ▸ .symm _ _ (hto y))

theorem classes_least {edges : List (α × α)} {x y : α} (h : Connected edges x y) : classes edges x ≤ y := by
  rw [classes_eq_iff.2 h]
  exact (classes_spec edges).2.2 y

theorem classes_congr {edges edges' : List (α × α)} (h : ∀ e, e ∈ edges ↔ e ∈ edges') :
    classes edges = classes edges' := by
  have hle : ∀ l m : List (α × α), l ⊆ m → ∀ x, classes m x ≤ classes l x := fun l m hsub x =>
    classes_least (((classes_spec l).1 x).mono hsub)
  funext x
  exact le_antisymm (hle edges' edges (fun e he => (h e).2 he) x) (hle edges edges' (fun e he => (h e).1 he) x)

end Lib.UnionFind
