import Cello.Lib.Text

/-!
# Canonical JSON text

`JSON.stringify` on values built from `null`, booleans, strings, arrays and objects whose
members stand in a given order.  Every such text ends where its value ends: it can be cut
off the front of a longer text in one way only (`render_append_inj`).  In particular the
text determines the value, which is what makes a hash of the text a hash of the value.
-/

namespace Lib

/-- A JSON value; an object lists its members in the order they are written. -/
inductive Json where
  | null
  | bool (b : Bool)
  | str (s : String)
  | arr (items : List Json)
  | obj (members : List (String × Json))

namespace Json

open Text

/-! ### Strings -/

def quote : Char := Char.ofNat 34

def backslash : Char := Char.ofNat 92

/-- One character inside a quoted string. -/
def escapeChar (c : Char) : List Char :=
  if c = quote then [backslash, quote]
  else if c = backslash then [backslash, backslash]
  else if c.toNat = 8 then [backslash, 'b']
  else if c.toNat = 9 then [backslash, 't']
  else if c.toNat = 10 then [backslash, 'n']
  else if c.toNat = 12 then [backslash, 'f']
  else if c.toNat = 13 then [backslash, 'r']
  else if c.toNat < 32 then
    [backslash, 'u', '0', '0', Nat.digitChar (c.toNat / 16), Nat.digitChar (c.toNat % 16)]
  else [c]

def quoted (s : String) : List Char := quote :: s.toList.flatMap escapeChar ++ [quote]

/-- The first character behind an escape, and what follows it. -/
def unescapeChar : List Char → Option (Char × List Char)
  | [] => none
  | c :: r =>
    if c = backslash then
      match r with
      | 'u' :: '0' :: '0' :: x :: y :: r =>
        some (Char.ofNat (16 * hexValue x + hexValue y), r)
      | 'b' :: r => some (Char.ofNat 8, r)
      | 't' :: r => some (Char.ofNat 9, r)
      | 'n' :: r => some (Char.ofNat 10, r)
      | 'f' :: r => some (Char.ofNat 12, r)
      | 'r' :: r => some (Char.ofNat 13, r)
      | c :: r => some (c, r)
      | [] => none
    else some (c, r)

theorem control_digits : ∀ n < 32,
    16 * hexValue (Nat.digitChar (n / 16)) + hexValue (Nat.digitChar (n % 16)) = n := by
  decide

theorem unescapeChar_escapeChar (c : Char) (r : List Char) :
    unescapeChar (escapeChar c ++ r) = some (c, r) := by
  have hc : ∀ n, c.toNat = n → Char.ofNat n = c := fun n h => by rw [← h, Char.ofNat_toNat]
  unfold escapeChar
  split_ifs with h1 h2 h3 h4 h5 h6 h7 h8
  · subst h1; rfl
  · subst h2; rfl
  · rw [← hc 8 h3]; rfl
  · rw [← hc 9 h4]; rfl
  · rw [← hc 10 h5]; rfl
  · rw [← hc 12 h6]; rfl
  · rw [← hc 13 h7]; rfl
  · simp only [List.cons_append, List.nil_append, unescapeChar, if_true, control_digits _ h8,
      Char.ofNat_toNat]
  · simp [unescapeChar, h2]

theorem escapeChar_append_inj {c d : Char} {r r' : List Char}
    (h : escapeChar c ++ r = escapeChar d ++ r') : c = d ∧ r = r' := by
  have hu := congrArg unescapeChar h
  rw [unescapeChar_escapeChar, unescapeChar_escapeChar] at hu
  exact Prod.mk.inj (Option.some.inj hu)

theorem escapeChar_append_ne_quote (c : Char) (r r' : List Char) :
    escapeChar c ++ r ≠ quote :: r' := by
  intro h
  have hb : backslash ≠ quote := by decide
  by_cases hc : c = quote
  · rw [escapeChar, if_pos hc] at h
    exact hb (List.cons.inj h).1
  · unfold escapeChar at h
    split_ifs at h <;> simp_all

theorem flatMap_escape_inj {r r' : List Char} : ∀ {s t : List Char},
    s.flatMap escapeChar ++ quote :: r = t.flatMap escapeChar ++ quote :: r' →
    s = t ∧ r = r' := by
  intro s
  induction s with
  | nil =>
    intro t h
    cases t with
    | nil => exact ⟨rfl, (List.cons.inj h).2⟩
    | cons d t =>
      rw [List.flatMap_cons, List.append_assoc] at h
      exact absurd h.symm (escapeChar_append_ne_quote d _ _)
  | cons c s ih =>
    intro t h
    rw [List.flatMap_cons, List.append_assoc] at h
    cases t with
    | nil => exact absurd h (escapeChar_append_ne_quote c _ _)
    | cons d t =>
      rw [List.flatMap_cons, List.append_assoc] at h
      obtain ⟨rfl, hr⟩ := escapeChar_append_inj h
      obtain ⟨rfl, hr'⟩ := ih hr
      exact ⟨rfl, hr'⟩

theorem quoted_append_inj {s t : String} {r r' : List Char}
    (h : quoted s ++ r = quoted t ++ r') : s = t ∧ r = r' := by
  simp only [quoted, List.cons_append, List.append_assoc, List.nil_append] at h
  obtain ⟨hs, hr⟩ := flatMap_escape_inj (List.cons.inj h).2
  exact ⟨String.toList_injective hs, hr⟩

/-! ### Values -/

mutual

/-- `JSON.stringify(value)`. -/
def render : Json → List Char
  | .null => ['n', 'u', 'l', 'l']
  | .bool true => ['t', 'r', 'u', 'e']
  | .bool false => ['f', 'a', 'l', 's', 'e']
  | .str s => quoted s
  | .arr items => '[' :: renderItems items
  | .obj members => '\x7b' :: renderMembers members

def renderItems : List Json → List Char
  | [] => [']']
  | [j] => render j ++ [']']
  | j :: k :: r => render j ++ ',' :: renderItems (k :: r)

def renderMembers : List (String × Json) → List Char
  | [] => ['\x7d']
  | [(n, j)] => quoted n ++ ':' :: (render j ++ ['\x7d'])
  | (n, j) :: m :: r => quoted n ++ ':' :: (render j ++ ',' :: renderMembers (m :: r))

end

/-- The first character of a text tells what kind of value it is. -/
def tag : Json → Char
  | .null => 'n'
  | .bool true => 't'
  | .bool false => 'f'
  | .str _ => quote
  | .arr _ => '['
  | .obj _ => '\x7b'

theorem render_eq_cons (a : Json) : ∃ t, render a = tag a :: t := by
  rcases a with _ | (_ | _) | s | l | l <;> exact ⟨_, by rw [render]; rfl⟩

theorem tag_ne_bracket (a : Json) : tag a ≠ ']' := by
  rcases a with _ | (_ | _) | s | l | l <;> simp only [tag] <;> decide

theorem tag_eq_of_append {a b : Json} {r r' : List Char} (h : render a ++ r = render b ++ r') :
    tag a = tag b := by
  obtain ⟨s, hs⟩ := render_eq_cons a
  obtain ⟨t, ht⟩ := render_eq_cons b
  rw [hs, ht] at h
  exact (List.cons.inj h).1

theorem renderItems_cons (a : Json) (l : List Json) :
    renderItems (a :: l) = render a ++ if l.isEmpty then [']'] else ',' :: renderItems l := by
  cases l <;> rw [renderItems] <;> rfl

theorem renderMembers_cons (n : String) (a : Json) (l : List (String × Json)) :
    renderMembers ((n, a) :: l) =
      quoted n ++ ':' :: (render a ++ if l.isEmpty then ['\x7d'] else ',' :: renderMembers l) := by
  cases l <;> rw [renderMembers] <;> rfl

theorem renderItems_cons_ne (a : Json) (l : List Json) (r r' : List Char) :
    renderItems (a :: l) ++ r ≠ ']' :: r' := by
  intro h
  obtain ⟨t, ht⟩ := render_eq_cons a
  rw [renderItems_cons, ht] at h
  exact tag_ne_bracket a (List.cons.inj h).1

theorem renderMembers_cons_ne (e : String × Json) (l : List (String × Json)) (r r' : List Char) :
    renderMembers (e :: l) ++ r ≠ '\x7d' :: r' := by
  have hq : quote ≠ '\x7d' := by decide
  intro h
  rw [renderMembers_cons, quoted] at h
  exact hq (List.cons.inj h).1

mutual

/-- **A text can be cut off the front of a longer one in one way only.** -/
theorem render_append_inj : ∀ {a b : Json} {r r' : List Char},
    render a ++ r = render b ++ r' → a = b ∧ r = r' := by
  intro a b r r' h
  -- two values of one kind are compared, two of different kinds differ in the first character
  have htag := tag_eq_of_append h
  match a with
  | .null =>
    rcases b with _ | (_ | _) | t | m | m
    case null => exact ⟨rfl, List.append_cancel_left h⟩
    all_goals exact absurd htag (by simp only [tag]; decide)
  | .bool c =>
    rcases b with _ | d | t | m | m
    case bool =>
      rcases c with _ | _ <;> rcases d with _ | _
      any_goals exact ⟨rfl, List.append_cancel_left h⟩
      all_goals exact absurd htag (by simp only [tag]; decide)
    all_goals exact absurd htag (by rcases c with _ | _ <;> simp only [tag] <;> decide)
  | .str s =>
    rcases b with _ | (_ | _) | t | m | m
    case str =>
      rw [render, render] at h
      obtain ⟨rfl, hr⟩ := quoted_append_inj h
      exact ⟨rfl, hr⟩
    all_goals exact absurd htag (by simp only [tag]; decide)
  | .arr l =>
    rcases b with _ | (_ | _) | t | m | m
    case arr =>
      rw [render, render] at h
      obtain ⟨rfl, hr⟩ := renderItems_append_inj (List.cons.inj h).2
      exact ⟨rfl, hr⟩
    all_goals exact absurd htag (by simp only [tag]; decide)
  | .obj l =>
    rcases b with _ | (_ | _) | t | m | m
    case obj =>
      rw [render, render] at h
      obtain ⟨rfl, hr⟩ := renderMembers_append_inj (List.cons.inj h).2
      exact ⟨rfl, hr⟩
    all_goals exact absurd htag (by simp only [tag]; decide)

theorem renderItems_append_inj : ∀ {l m : List Json} {r r' : List Char},
    renderItems l ++ r = renderItems m ++ r' → l = m ∧ r = r' := by
  intro l m r r' h
  match l, m with
  | [], [] => exact ⟨rfl, List.append_cancel_left h⟩
  | [], b :: m => exact absurd h.symm (renderItems_cons_ne b m _ _)
  | a :: l, [] => exact absurd h (renderItems_cons_ne a l _ _)
  | a :: l, b :: m =>
    rw [renderItems_cons, renderItems_cons, List.append_assoc, List.append_assoc] at h
    obtain ⟨rfl, hr⟩ := render_append_inj h
    match l, m with
    | [], [] => exact ⟨rfl, (List.cons.inj hr).2⟩
    | [], _ :: _ => exact absurd (List.cons.inj hr).1 (by decide)
    | _ :: _, [] => exact absurd (List.cons.inj hr).1 (by decide)
    | c :: l, d :: m =>
      obtain ⟨hl, hr'⟩ := renderItems_append_inj (List.cons.inj hr).2
      exact ⟨by rw [hl], hr'⟩

theorem renderMembers_append_inj : ∀ {l m : List (String × Json)} {r r' : List Char},
    renderMembers l ++ r = renderMembers m ++ r' → l = m ∧ r = r' := by
  intro l m r r' h
  match l, m with
  | [], [] => exact ⟨rfl, List.append_cancel_left h⟩
  | [], f :: m => exact absurd h.symm (renderMembers_cons_ne f m _ _)
  | e :: l, [] => exact absurd h (renderMembers_cons_ne e l _ _)
  | (n, a) :: l, (k, b) :: m =>
    rw [renderMembers_cons, renderMembers_cons] at h
    simp only [List.append_assoc, List.cons_append] at h
    obtain ⟨rfl, hv⟩ := quoted_append_inj h
    obtain ⟨rfl, hr⟩ := render_append_inj (List.cons.inj hv).2
    match l, m with
    | [], [] => exact ⟨rfl, (List.cons.inj hr).2⟩
    | [], _ :: _ => exact absurd (List.cons.inj hr).1 (by decide)
    | _ :: _, [] => exact absurd (List.cons.inj hr).1 (by decide)
    | e :: l, f :: m =>
      obtain ⟨hl, hr'⟩ := renderMembers_append_inj (List.cons.inj hr).2
      exact ⟨by rw [hl], hr'⟩

end

/-- `JSON.stringify(value)` as a string. -/
def stringify (a : Json) : String := String.ofList (render a)

theorem stringify_inj {a b : Json} (h : stringify a = stringify b) : a = b :=
  (render_append_inj (congrArg (· ++ []) (String.ofList_injective h))).1

end Json

end Lib
