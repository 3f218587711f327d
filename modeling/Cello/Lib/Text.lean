import Mathlib.Data.List.Lex
import Mathlib.Data.List.Sort

/-!
# Separated text

Keys and hash inputs are often written as fields joined by a separator, with the
fields before the last separator free of it.  `split_at_sep` takes such a text
apart; `repr_toList_inj` and `colon_notMem_repr` are what it needs for a field
that is a decimal number.  Pieces of one width need no separator (`concat_inj`).

`unitLe` is the order in which JavaScript compares strings, and `sortBy` its stable sort.
-/

namespace Lib.Text

variable {α : Type*}

theorem split_at_sep {c : α} {x y : List α} : ∀ {d e : List α}, c ∉ d → c ∉ e →
    d ++ c :: x = e ++ c :: y → d = e ∧ x = y := by
  intro d
  induction d with
  | nil =>
    intro e _ he h
    cases e with
    | nil => exact ⟨rfl, (List.cons.inj h).2⟩
    | cons b e => exact absurd ((List.cons.inj h).1 ▸ List.mem_cons_self) he
  | cons a d ih =>
    intro e hd he h
    cases e with
    | nil => exact absurd ((List.cons.inj h).1 ▸ List.mem_cons_self) hd
    | cons b e =>
      obtain ⟨rfl, ht⟩ := List.cons.inj h
      obtain ⟨rfl, hx⟩ := ih (fun hm => hd (List.mem_cons_of_mem _ hm))
        (fun hm => he (List.mem_cons_of_mem _ hm)) ht
      exact ⟨rfl, hx⟩

theorem repr_toList_inj {m n : ℕ} (h : m.repr.toList = n.repr.toList) : m = n := by
  rw [Nat.toList_repr, Nat.toList_repr] at h
  have hm := Nat.ofDigitChars_toDigits (b := 10) (n := m) (by decide) (by decide)
  have hn := Nat.ofDigitChars_toDigits (b := 10) (n := n) (by decide) (by decide)
  rw [← hm, ← hn, h]

theorem colon_notMem_repr (n : ℕ) : ':' ∉ n.repr.toList := by
  intro h
  rw [Nat.toList_repr] at h
  have := Nat.isDigit_of_mem_toDigits (by decide) (by decide) h
  exact absurd this (by decide)

/-! ### Pieces of one width -/

/-- `pieces.join("")`. -/
def concat (pieces : List String) : String := String.ofList (pieces.flatMap String.toList)

theorem flatMap_toList_inj {w : ℕ} (hw : 0 < w) : ∀ {l m : List String},
    (∀ s ∈ l, s.length = w) → (∀ s ∈ m, s.length = w) →
    l.flatMap String.toList = m.flatMap String.toList → l = m := by
  intro l
  induction l with
  | nil =>
    intro m _ hm h
    cases m with
    | nil => rfl
    | cons t m =>
      have ht := hm t List.mem_cons_self
      have hlen := congrArg List.length h
      rw [List.flatMap_cons, List.length_append, String.length_toList, ht] at hlen
      simp only [List.flatMap_nil, List.length_nil] at hlen
      omega
  | cons s l ih =>
    intro m hl hm h
    have hs := hl s List.mem_cons_self
    cases m with
    | nil =>
      have hlen := congrArg List.length h
      rw [List.flatMap_cons, List.length_append, String.length_toList, hs] at hlen
      simp only [List.flatMap_nil, List.length_nil] at hlen
      omega
    | cons t m =>
      have ht := hm t List.mem_cons_self
      rw [List.flatMap_cons, List.flatMap_cons] at h
      obtain ⟨hst, hrest⟩ := List.append_inj h
        (by rw [String.length_toList, String.length_toList, hs, ht])
      rw [String.toList_injective hst, ih (fun x hx => hl x (List.mem_cons_of_mem _ hx))
        (fun x hx => hm x (List.mem_cons_of_mem _ hx)) hrest]

theorem concat_inj {w : ℕ} (hw : 0 < w) {l m : List String} (hl : ∀ s ∈ l, s.length = w)
    (hm : ∀ s ∈ m, s.length = w) (h : concat l = concat m) : l = m :=
  flatMap_toList_inj hw hl hm (String.ofList_injective h)

theorem flatMap_eq_flatMap_iff {β : Type*} {f g : α → List β}
    (hlen : ∀ x, (f x).length = (g x).length) : ∀ {l : List α},
    l.flatMap f = l.flatMap g ↔ ∀ x ∈ l, f x = g x := by
  intro l
  induction l with
  | nil => simp
  | cons x l ih =>
    rw [List.flatMap_cons, List.flatMap_cons, List.forall_mem_cons, ← ih]
    constructor
    · exact fun h => List.append_inj h (hlen x)
    · rintro ⟨hx, hl⟩
      rw [hx, hl]

/-! ### The order of strings -/

def charUnits (c : Char) : List ℕ :=
  if c.toNat < 0x10000 then [c.toNat]
  else [0xD800 + (c.toNat - 0x10000) / 0x400, 0xDC00 + (c.toNat - 0x10000) % 0x400]

def codeUnits (s : String) : List ℕ := s.toList.flatMap charUnits

/-- `a <= b` on strings. -/
def unitLe (a b : String) : Bool := decide (codeUnits a ≤ codeUnits b)

def sortBy (key : α → String) (l : List α) : List α :=
  l.insertionSort fun a b => unitLe (key a) (key b) = true

@[simp] theorem mem_sortBy (key : α → String) {l : List α} {x : α} : x ∈ sortBy key l ↔ x ∈ l :=
  List.mem_insertionSort _

theorem charUnits_append_inj {c d : Char} {x y : List ℕ}
    (h : charUnits c ++ x = charUnits d ++ y) : c = d ∧ x = y := by
  have hvalid : ∀ e : Char, e.toNat < 0xD800 ∨ (0xDFFF < e.toNat ∧ e.toNat < 0x110000) := fun e =>
    e.valid
  have hc := hvalid c
  have hd := hvalid d
  have hchar : c.toNat = d.toNat → c = d := fun heq => by
    rw [← Char.ofNat_toNat c, ← Char.ofNat_toNat d, heq]
  unfold charUnits at h
  -- the first unit of a pair is no character of its own
  split_ifs at h with h1 h2 h2
  · obtain ⟨hunit, hrest⟩ := List.cons.inj h
    exact ⟨hchar hunit, hrest⟩
  · obtain ⟨hunit, -⟩ := List.cons.inj h
    omega
  · obtain ⟨hunit, -⟩ := List.cons.inj h
    omega
  · obtain ⟨hunit, hrest⟩ := List.cons.inj h
    obtain ⟨hunit', hrest⟩ := List.cons.inj hrest
    exact ⟨hchar (by omega), hrest⟩

theorem codeUnits_injective : Function.Injective codeUnits := by
  have hlist : ∀ l m : List Char, l.flatMap charUnits = m.flatMap charUnits → l = m := by
    have hne : ∀ c, charUnits c ≠ [] := by
      intro c
      unfold charUnits
      split_ifs
      · exact List.cons_ne_nil _ _
      · exact List.cons_ne_nil _ _
    intro l
    induction l with
    | nil =>
      intro m h
      cases m with
      | nil => rfl
      | cons d m => exact absurd (List.append_eq_nil_iff.1 h.symm).1 (hne d)
    | cons c l ih =>
      intro m h
      cases m with
      | nil => exact absurd (List.append_eq_nil_iff.1 h).1 (hne c)
      | cons d m =>
        obtain ⟨rfl, hrest⟩ := charUnits_append_inj h
        rw [ih m hrest]
  intro a b h
  exact String.toList_injective (hlist _ _ h)

theorem unitLe_total (a b : String) : unitLe a b = true ∨ unitLe b a = true := by
  simpa [unitLe] using le_total (codeUnits a) (codeUnits b)

theorem unitLe_trans {a b c : String} : unitLe a b = true → unitLe b c = true →
    unitLe a c = true := by
  simpa [unitLe] using le_trans

theorem unitLe_antisymm {a b : String} (hab : unitLe a b = true) (hba : unitLe b a = true) :
    a = b := by
  simp only [unitLe, decide_eq_true_eq] at hab hba
  exact codeUnits_injective (le_antisymm hab hba)

theorem pairwise_sortBy (l : List String) :
    (sortBy id l).Pairwise fun a b => unitLe a b = true := by
  have : Std.Total fun a b : String => unitLe (id a) (id b) = true := ⟨unitLe_total⟩
  have : IsTrans String fun a b : String => unitLe (id a) (id b) = true :=
    ⟨fun _ _ _ => unitLe_trans⟩
  exact List.pairwise_insertionSort (fun a b => unitLe (id a) (id b) = true) l

theorem sortBy_perm {l m : List String} (h : l.Perm m) : sortBy id l = sortBy id m :=
  List.Perm.eq_of_pairwise (fun _ _ _ _ hab hba => unitLe_antisymm hab hba) (pairwise_sortBy l)
    (pairwise_sortBy m)
    ((List.perm_insertionSort _ l).trans (h.trans (List.perm_insertionSort _ m).symm))

theorem head?_sortBy {l : List String} {m : String} :
    (sortBy id l).head? = some m ↔ m ∈ l ∧ ∀ x ∈ l, unitLe m x = true := by
  have hsorted := pairwise_sortBy l
  have hmem : ∀ x, x ∈ sortBy id l ↔ x ∈ l := fun x => mem_sortBy id
  cases hl : sortBy id l with
  | nil =>
    rw [hl] at hmem
    constructor
    · intro h
      cases h
    · exact fun h => absurd ((hmem m).2 h.1) List.not_mem_nil
  | cons first rest =>
    rw [hl] at hsorted hmem
    have hfirst : ∀ x ∈ l, unitLe first x = true := by
      intro x hx
      rcases List.mem_cons.1 ((hmem x).2 hx) with rfl | hx
      · exact (unitLe_total x x).elim id id
      · exact (List.pairwise_cons.1 hsorted).1 x hx
    have hin : first ∈ l := (hmem first).1 List.mem_cons_self
    rw [List.head?_cons, Option.some.injEq]
    constructor
    · rintro rfl
      exact ⟨hin, hfirst⟩
    · rintro ⟨hm, hle⟩
      exact unitLe_antisymm (hfirst m hm) (hle first hin)

/-! ### Hex digits -/

def isHexDigit (c : Char) : Bool :=
  (decide ('0' ≤ c) && decide (c ≤ '9')) || (decide ('a' ≤ c) && decide (c ≤ 'f'))

def hexValue (c : Char) : ℕ := if c.isDigit then c.toNat - 48 else c.toNat - 87

theorem hexValue_lt {c : Char} (h : isHexDigit c = true) : hexValue c < 16 := by
  have hle : ∀ {x y : Char}, x ≤ y → x.toNat ≤ y.toNat := fun h => h
  simp only [isHexDigit, Bool.or_eq_true, Bool.and_eq_true, decide_eq_true_eq] at h
  have h9 : '9'.toNat = 57 := rfl
  have hf : 'f'.toNat = 102 := rfl
  unfold hexValue
  rcases h with ⟨-, h⟩ | ⟨-, h⟩
  · have := hle h
    split_ifs <;> omega
  · have := hle h
    split_ifs with hd
    · simp only [Char.isDigit, Bool.and_eq_true, decide_eq_true_eq] at hd
      have : c.toNat ≤ '9'.toNat := hd.2
      omega
    · omega

end Lib.Text
