import Cello.Lib.Json
import Cello.Lib.JsValue
import Cello.Lib.NumberText

/-!
# The text of a flat object

`JSON.stringify` of an object whose members are scalars or buffers.  A number has no closing
character of its own: it ends where a character comes that no number has, and a comma or a brace is
one.  With that, the text determines the members and their order (`renderObject_append_inj`).
-/

namespace Lib.FlatJson

open Text Json

/-- A finite double. -/
def Finite := {q : ℚ // Number.IsDouble q}

deriving instance DecidableEq for Finite

/-- A member's value; a buffer is written as an object with the list of its bytes. -/
inductive Leaf where
  | null
  | bool (b : Bool)
  | num (x : Finite)
  | str (s : List Char)
  | buffer (b : Bytes)
deriving DecidableEq

def byteItems : Bytes → List Char
  | [] => []
  | [x] => Nat.toDigits 10 x.toNat
  | x :: y :: r => Nat.toDigits 10 x.toNat ++ ',' :: byteItems (y :: r)

def bufferOpening : List Char := "\x7b\"type\":\"Buffer\",\"data\":[".toList

def quotedText (s : List Char) : List Char := quoted (String.ofList s)

theorem quotedText_plain {s : List Char} (h : s.flatMap escapeChar = s) : quotedText s = quote :: (s ++ [quote]) := by
  rw [quotedText, quoted, String.toList_ofList, h]
  rfl

def renderLeaf : Leaf → List Char
  | .null => ['n', 'u', 'l', 'l']
  | .bool true => ['t', 'r', 'u', 'e']
  | .bool false => ['f', 'a', 'l', 's', 'e']
  | .num x => Number.text x.1
  | .str s => quotedText s
  | .buffer b => bufferOpening ++ (byteItems b ++ [']', '\x7d'])

def renderMembers : List (String × Leaf) → List Char
  | [] => ['\x7d']
  | [(n, v)] => quoted n ++ ':' :: (renderLeaf v ++ ['\x7d'])
  | (n, v) :: m :: r => quoted n ++ ':' :: (renderLeaf v ++ ',' :: renderMembers (m :: r))

def renderObject (members : List (String × Leaf)) : List Char := '\x7b' :: renderMembers members

example : renderObject [("a", .str ['x']), ("b", .buffer [1, 20]), ("c", .null)] =
    "\x7b\"a\":\"x\",\"b\":\x7b\"type\":\"Buffer\",\"data\":[1,20]\x7d,\"c\":null\x7d".toList := by
  decide

/-! ### Where a value ends -/

theorem split_at_kind {α : Type*} {p : α → Bool} {a b : α} {x y : List α} (ha : p a = false)
    (hb : p b = false) : ∀ {d e : List α}, (∀ c ∈ d, p c = true) → (∀ c ∈ e, p c = true) →
      d ++ a :: x = e ++ b :: y → d = e ∧ a = b ∧ x = y := by
  intro d
  induction d with
  | nil =>
    intro e _ he h
    cases e with
    | nil => exact ⟨rfl, (List.cons.inj h).1, (List.cons.inj h).2⟩
    | cons c e =>
      have hc := he c List.mem_cons_self
      rw [← (List.cons.inj h).1, ha] at hc
      cases hc
  | cons c d ih =>
    intro e hd he h
    cases e with
    | nil =>
      have hc := hd c List.mem_cons_self
      rw [(List.cons.inj h).1, hb] at hc
      cases hc
    | cons c' e =>
      obtain ⟨rfl, ht⟩ := List.cons.inj h
      obtain ⟨rfl, hab, hxy⟩ := ih (fun c hc => hd c (List.mem_cons_of_mem _ hc))
        (fun c hc => he c (List.mem_cons_of_mem _ hc)) ht
      exact ⟨rfl, hab, hxy⟩

theorem byteItems_inj : ∀ {b c : Bytes}, byteItems b = byteItems c → b = c := by
  have hcomma : ∀ x : UInt8, ',' ∉ Nat.toDigits 10 x.toNat :=
    fun x => Double.notMem_toDigits (by decide) _
  have hne : ∀ x : UInt8, Nat.toDigits 10 x.toNat ≠ [] := fun x => Nat.toDigits_ne_nil
  have hbyte : ∀ {x y : UInt8}, Nat.toDigits 10 x.toNat = Nat.toDigits 10 y.toNat → x = y :=
    fun h => UInt8.toNat_inj.1 (Double.toDigits_inj h)
  intro b
  induction b with
  | nil =>
    intro c h
    match c with
    | [] => rfl
    | [y] => exact absurd h.symm (hne y)
    | y :: z :: r => simp [byteItems] at h
  | cons x b ih =>
    intro c h
    match b, c with
    | [], [] => exact absurd h (hne x)
    | [], [y] => rw [hbyte h]
    | [], y :: z :: r =>
      have hmem : ',' ∈ byteItems [x] := by
        rw [h, byteItems]
        simp
      exact absurd hmem (hcomma x)
    | x' :: b, [] => simp [byteItems] at h
    | x' :: b, [y] =>
      have hmem : ',' ∈ byteItems [y] := by
        rw [← h, byteItems]
        simp
      exact absurd hmem (hcomma y)
    | x' :: b, y :: z :: r =>
      rw [byteItems, byteItems] at h
      obtain ⟨hx, hrest⟩ := split_at_sep (hcomma x) (hcomma y) h
      rw [hbyte hx, ih hrest]

theorem bracket_notMem_byteItems (b : Bytes) : ']' ∉ byteItems b := by
  have hdigits : ∀ x : UInt8, ']' ∉ Nat.toDigits 10 x.toNat :=
    fun x => Double.notMem_toDigits (by decide) _
  induction b with
  | nil => exact List.not_mem_nil
  | cons x b ih =>
    cases b with
    | nil => exact hdigits x
    | cons y r =>
      rw [byteItems, List.mem_append, List.mem_cons]
      rintro (h | h | h)
      · exact hdigits x h
      · exact absurd h (by decide)
      · exact ih h

/-- The first character of a leaf. -/
def tag : Leaf → Char
  | .null => 'n'
  | .bool true => 't'
  | .bool false => 'f'
  | .num x => (Number.text x.1).headD '0'
  | .str _ => quote
  | .buffer _ => '\x7b'

def ends (c : Char) : Bool := decide (c = ',') || decide (c = '\x7d')

theorem not_isNumberChar_of_ends {c : Char} (h : ends c = true) : Number.isNumberChar c = false := by
  simp only [ends, Bool.or_eq_true, decide_eq_true_eq] at h
  rcases h with rfl | rfl <;> decide

theorem text_head (x : Finite) : ∃ (d : Char) (r : List Char), Number.text x.1 = d :: r ∧
    Number.isNumberChar d = true ∧ d ≠ 'e' := by
  by_cases h0 : x.1 = 0
  · exact ⟨'0', [], by rw [Number.text, if_pos h0], by decide, by decide⟩
  · obtain ⟨c, j, -, -, htext⟩ := Number.text_eq x.2 h0
    obtain ⟨d, r, hdr, hd⟩ := Number.decimal_head c j
    rw [htext]
    split_ifs
    · exact ⟨'-', _, rfl, by decide, by decide⟩
    · refine ⟨d, r, hdr, by rw [Number.isNumberChar, hd, Bool.true_or], ?_⟩
      rintro rfl
      exact absurd hd (by decide)

theorem renderLeaf_eq_cons (a : Leaf) : ∃ r, renderLeaf a = tag a :: r := by
  cases a with
  | null => exact ⟨_, rfl⟩
  | bool b => cases b <;> exact ⟨_, rfl⟩
  | num x =>
    obtain ⟨d, r, hdr, -⟩ := text_head x
    exact ⟨r, by rw [renderLeaf, tag, hdr, List.headD_cons]⟩
  | str s => exact ⟨_, rfl⟩
  | buffer b => exact ⟨_, rfl⟩

theorem isNumberChar_tag (a : Leaf) :
    Number.isNumberChar (tag a) = true ↔ ∃ x, a = .num x := by
  cases a with
  | num x =>
    obtain ⟨d, r, hdr, hd, -⟩ := text_head x
    simp [tag, hdr, hd]
  | bool b => cases b <;> simp [tag, Number.isNumberChar]
  | null => simp [tag, Number.isNumberChar]
  | str s => simp [tag, Number.isNumberChar, quote]
  | buffer b => simp [tag, Number.isNumberChar]

theorem tag_eq_of_append {a b : Leaf} {r r' : List Char}
    (h : renderLeaf a ++ r = renderLeaf b ++ r') : tag a = tag b := by
  obtain ⟨s, hs⟩ := renderLeaf_eq_cons a
  obtain ⟨t, ht⟩ := renderLeaf_eq_cons b
  rw [hs, ht] at h
  exact (List.cons.inj h).1

/-- **A value and the character behind it can be cut off a text in one way only.** -/
theorem renderLeaf_append_inj {a b : Leaf} {c d : Char} {r r' : List Char} (hc : ends c = true)
    (hd : ends d = true) (h : renderLeaf a ++ c :: r = renderLeaf b ++ d :: r') :
    a = b ∧ c = d ∧ r = r' := by
  have htag := tag_eq_of_append h
  by_cases hnum : ∃ x, a = .num x
  · have hnum' := (isNumberChar_tag b).1 (htag ▸ (isNumberChar_tag a).2 hnum)
    obtain ⟨x, rfl⟩ := hnum
    obtain ⟨y, rfl⟩ := hnum'
    obtain ⟨htext, hcd, hr⟩ := split_at_kind (not_isNumberChar_of_ends hc)
      (not_isNumberChar_of_ends hd) (fun _ => Number.isNumberChar_of_mem_text x.2)
      (fun _ => Number.isNumberChar_of_mem_text y.2) h
    exact ⟨by rw [Subtype.ext (Number.text_inj x.2 y.2 htext)], hcd, hr⟩
  · have hnum' : ¬∃ x, b = .num x := fun hb =>
      hnum ((isNumberChar_tag a).1 (htag ▸ (isNumberChar_tag b).2 hb))
    have hsame : ∀ {t : List Char}, t ++ c :: r = t ++ d :: r' → c = d ∧ r = r' :=
      fun h => List.cons.inj (List.append_cancel_left h)
    match a with
    | .num x => exact absurd ⟨x, rfl⟩ hnum
    | .null =>
      rcases b with _ | (_ | _) | y | t | y
      case num => exact absurd ⟨y, rfl⟩ hnum'
      case null => exact ⟨rfl, hsame h⟩
      all_goals exact absurd htag (by simp only [tag]; decide)
    | .bool b' =>
      rcases b with _ | b'' | y | t | y
      case num => exact absurd ⟨y, rfl⟩ hnum'
      case bool =>
        rcases b' with _ | _ <;> rcases b'' with _ | _
        any_goals exact ⟨rfl, hsame h⟩
        all_goals exact absurd htag (by simp only [tag]; decide)
      all_goals exact absurd htag (by rcases b' with _ | _ <;> simp only [tag] <;> decide)
    | .str s =>
      rcases b with _ | (_ | _) | y | t | y
      case num => exact absurd ⟨y, rfl⟩ hnum'
      case str =>
        obtain ⟨hs, hr⟩ := quoted_append_inj h
        exact ⟨by rw [String.ofList_injective hs], List.cons.inj hr⟩
      all_goals exact absurd htag (by simp only [tag]; decide)
    | .buffer x =>
      rcases b with _ | (_ | _) | y | t | y
      case num => exact absurd ⟨y, rfl⟩ hnum'
      case buffer =>
        simp only [renderLeaf, List.append_assoc] at h
        obtain ⟨hxy, hrest⟩ := split_at_sep (bracket_notMem_byteItems x)
          (bracket_notMem_byteItems y) (List.append_cancel_left h)
        exact ⟨by rw [byteItems_inj hxy], List.cons.inj (List.cons.inj hrest).2⟩
      all_goals exact absurd htag (by simp only [tag]; decide)

/-! ### Objects -/

theorem renderMembers_cons (n : String) (v : Leaf) (l : List (String × Leaf)) :
    renderMembers ((n, v) :: l) = quoted n ++ ':' :: (renderLeaf v ++
      (if l.isEmpty then '\x7d' else ',') :: if l.isEmpty then [] else renderMembers l) := by
  cases l <;> rfl

theorem renderMembers_cons_ne (e : String × Leaf) (l : List (String × Leaf)) (r r' : List Char) :
    renderMembers (e :: l) ++ r ≠ '\x7d' :: r' := by
  have hq : quote ≠ '\x7d' := by decide
  intro h
  cases l with
  | nil => exact hq (List.cons.inj h).1
  | cons f l => exact hq (List.cons.inj h).1

theorem renderMembers_append_inj : ∀ {l m : List (String × Leaf)} {r r' : List Char},
    renderMembers l ++ r = renderMembers m ++ r' → l = m ∧ r = r' := by
  intro l
  induction l with
  | nil =>
    intro m r r' h
    cases m with
    | nil => exact ⟨rfl, (List.cons.inj h).2⟩
    | cons f m => exact absurd h.symm (renderMembers_cons_ne f m _ _)
  | cons e l ih =>
    intro m r r' h
    obtain ⟨n, v⟩ := e
    cases m with
    | nil => exact absurd h (renderMembers_cons_ne (n, v) l _ _)
    | cons f m =>
      obtain ⟨k, w⟩ := f
      rw [renderMembers_cons, renderMembers_cons] at h
      simp only [List.append_assoc, List.cons_append] at h
      obtain ⟨rfl, hv⟩ := quoted_append_inj h
      obtain ⟨rfl, hend, hr⟩ := renderLeaf_append_inj (by split <;> rfl) (by split <;> rfl) (List.cons.inj hv).2
      match l, m with
      | [], [] => exact ⟨rfl, hr⟩
      | [], _ :: _ => exact absurd hend (by simp)
      | _ :: _, [] => exact absurd hend (by simp)
      | g :: l, g' :: m =>
        obtain ⟨hl, hr'⟩ := ih hr
        exact ⟨by rw [hl], hr'⟩

theorem renderObject_append_inj {l m : List (String × Leaf)} {r r' : List Char}
    (h : renderObject l ++ r = renderObject m ++ r') : l = m ∧ r = r' :=
  renderMembers_append_inj (List.cons.inj h).2

end Lib.FlatJson
