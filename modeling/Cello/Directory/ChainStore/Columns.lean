import Cello.Directory.HashChain
import Mathlib.Data.List.TakeWhile

/-!
# What a column gives back

A value that is written to a column goes to the database as text, or as bytes, is read there as the
column's type, and comes back as the driver types it: an `integer` as a number, a `bigint` as a text
of digits, a `uuid` in its canonical form.  `store` is this round trip, and `normalizeValue_store`
says when the chain does not see it: the value has to be settled for its type (`Settled`).
-/

namespace Cello.Directory.ChainStore

open Lib HashChain FlatJson

/-! ### UUIDs -/

def withoutHyphen : List Char → List Char
  | '-' :: rest => rest
  | l => l

/-- Groups of four hex digits, with or without a hyphen between two of them. -/
def hexGroups : ℕ → List Char → Option (List Char)
  | 0, [] => some []
  | n + 1, a :: b :: c :: d :: rest =>
    if [a, b, c, d].all Bytes.isHexDigit then
      (hexGroups n (if n = 0 then rest else withoutHyphen rest)).map
        ([a, b, c, d].map Char.toLower ++ ·)
    else none
  | _, _ => none

def withoutBraces : List Char → Option (List Char)
  | '\x7b' :: rest => if rest.getLast? = some '\x7d' then some rest.dropLast else none
  | l => some l

/-- The dashes of `canonicalUuid`. -/
def dashed (bare : List Char) : String :=
  String.ofList (bare.take 8 ++ '-' :: ((bare.drop 8).take 4 ++ '-' :: ((bare.drop 12).take 4 ++
    '-' :: ((bare.drop 16).take 4 ++ '-' :: bare.drop 20))))

/-- A text as a `uuid` column takes it and gives it back. -/
def uuidIn (s : String) : Option String :=
  ((withoutBraces s.toList).bind (hexGroups 8)).map dashed

/-- What a `uuid` column holds. -/
def Uuid := {u : String // ∃ s, uuidIn s = some u}

instance : DecidableEq Uuid := inferInstanceAs (DecidableEq {u : String // ∃ s, uuidIn s = some u})

def Uuid.ofText (s : String) : Option Uuid :=
  match h : uuidIn s with
  | none => none
  | some u => some ⟨u, s, h⟩

/-- What `canonicalUuid` keeps of a text: all but hyphens and braces, in lower case. -/
def kept (l : List Char) : List Char :=
  (l.filter fun c => !decide (c ∈ ['-', '\x7b', '\x7d'])).map Char.toLower

/-- `value.replace(/[-{}]/g, "").toLowerCase()`. -/
def bareUuid (value : String) : List Char := kept value.toList

/-- `/^[0-9a-f]{32}$/`. -/
def isBareUuid (bare : List Char) : Bool := decide (bare.length = 32) && bare.all Text.isHexDigit

def canonicalUuid (value : String) : String :=
  if isBareUuid (bareUuid value) then dashed (bareUuid value) else value

example : uuidIn "\x7bA0EEBC999C0B4EF8-BB6D6BB9BD380A11\x7d" =
    some "a0eebc99-9c0b-4ef8-bb6d-6bb9bd380a11" := by decide

theorem of_ascii {p : Char → Prop} (h : ∀ n < 128, p (Char.ofNat n)) {c : Char}
    (hc : c.toNat < 128) : p c := by
  rw [← Char.ofNat_toNat c]
  exact h c.toNat hc

theorem toLower_hexDigit {c : Char} (h : Bytes.isHexDigit c = true) :
    Text.isHexDigit c.toLower = true ∧ c ∉ ['-', '\x7b', '\x7d'] := by
  have hle : ∀ {x y : Char}, x ≤ y → x.toNat ≤ y.toNat := fun h => h
  have hascii : c.toNat < 128 := by
    simp only [Bytes.isHexDigit, Bool.or_eq_true, Bool.and_eq_true, decide_eq_true_eq] at h
    rcases h with (⟨-, h⟩ | ⟨-, h⟩) | ⟨-, h⟩
    · exact (hle h).trans_lt (by decide)
    · exact (hle h).trans_lt (by decide)
    · exact (hle h).trans_lt (by decide)
  revert h
  exact of_ascii (p := fun c => Bytes.isHexDigit c = true →
    Text.isHexDigit c.toLower = true ∧ c ∉ ['-', '\x7b', '\x7d']) (by decide) hascii

theorem lower_hexDigit {c : Char} (h : Text.isHexDigit c = true) :
    c.toLower = c ∧ c ∉ ['-', '\x7b', '\x7d'] := by
  have hle : ∀ {x y : Char}, x ≤ y → x.toNat ≤ y.toNat := fun h => h
  have hascii : c.toNat < 128 := by
    simp only [Text.isHexDigit, Bool.or_eq_true, Bool.and_eq_true, decide_eq_true_eq] at h
    rcases h with ⟨-, h⟩ | ⟨-, h⟩
    · exact (hle h).trans_lt (by decide)
    · exact (hle h).trans_lt (by decide)
  revert h
  exact of_ascii (p := fun c => Text.isHexDigit c = true →
    c.toLower = c ∧ c ∉ ['-', '\x7b', '\x7d']) (by decide) hascii

theorem kept_append (l m : List Char) : kept (l ++ m) = kept l ++ kept m := by
  rw [kept, List.filter_append, List.map_append]
  rfl

theorem kept_of_hexDigits {l : List Char} (h : ∀ c ∈ l, Text.isHexDigit c = true) : kept l = l := by
  induction l with
  | nil => rfl
  | cons c l ih =>
    obtain ⟨hlower, hmem⟩ := lower_hexDigit (h c List.mem_cons_self)
    rw [kept, List.filter_cons_of_pos (by simpa using hmem), List.map_cons, hlower]
    exact congrArg (c :: ·) (ih fun d hd => h d (List.mem_cons_of_mem c hd))

theorem kept_withoutHyphen (l : List Char) : kept (withoutHyphen l) = kept l := by
  unfold withoutHyphen
  split <;> rfl

theorem hexGroups_some : ∀ {n : ℕ} {l h : List Char}, hexGroups n l = some h →
    h = kept l ∧ h.length = 4 * n ∧ ∀ c ∈ h, Text.isHexDigit c = true := by
  intro n
  induction n with
  | zero =>
    intro l h hl
    cases l with
    | nil =>
      cases hl
      exact ⟨rfl, rfl, fun c hc => absurd hc List.not_mem_nil⟩
    | cons => cases hl
  | succ n ih =>
    intro l h hl
    match l, hl with
    | a :: b :: c :: d :: rest, hl =>
      simp only [hexGroups, Option.ite_none_right_eq_some, Option.map_eq_some_iff] at hl
      obtain ⟨hdigits, r, hr, rfl⟩ := hl
      obtain ⟨hkept, hlength, hhex⟩ := ih hr
      have hrest : kept (if n = 0 then rest else withoutHyphen rest) = kept rest := by
        split_ifs
        · rfl
        · exact kept_withoutHyphen rest
      have hgroup : kept [a, b, c, d] = [a, b, c, d].map Char.toLower := by
        rw [kept, List.filter_eq_self.2]
        intro x hx
        simpa using (toLower_hexDigit (List.all_eq_true.1 hdigits x hx)).2
      refine ⟨?_, ?_, ?_⟩
      · rw [hkept, hrest, show a :: b :: c :: d :: rest = [a, b, c, d] ++ rest from rfl, kept_append,
          hgroup]
      · rw [List.length_append, hlength, List.length_map]
        simp only [List.length_cons, List.length_nil]
        omega
      · intro x hx
        rcases List.mem_append.1 hx with hx | hx
        · obtain ⟨y, hy, rfl⟩ := List.mem_map.1 hx
          exact (toLower_hexDigit (List.all_eq_true.1 hdigits y hy)).1
        · exact hhex x hx

theorem kept_withoutBraces {l m : List Char} (h : withoutBraces l = some m) : kept l = kept m := by
  unfold withoutBraces at h
  split at h
  · next rest =>
    obtain ⟨hlast, hm⟩ := Option.ite_none_right_eq_some.1 h
    obtain rfl := Option.some.inj hm
    obtain ⟨init, rfl⟩ := List.getLast?_eq_some_iff.1 hlast
    rw [List.dropLast_concat, show '\x7b' :: (init ++ ['\x7d']) = ['\x7b'] ++ (init ++ ['\x7d']) from rfl,
      kept_append, kept_append, show kept ['\x7b'] = [] from rfl, show kept ['\x7d'] = [] from rfl,
      List.nil_append, List.append_nil]
  · cases h
    rfl

theorem canonicalUuid_of_uuidIn {s u : String} (h : uuidIn s = some u) : canonicalUuid s = u := by
  obtain ⟨digits, hdigits, rfl⟩ := Option.map_eq_some_iff.1 h
  obtain ⟨inner, hinner, hgroups⟩ := Option.bind_eq_some_iff.1 hdigits
  obtain ⟨hkept, hlength, hhex⟩ := hexGroups_some hgroups
  have hbare : bareUuid s = digits := by
    rw [hkept]
    exact kept_withoutBraces hinner
  rw [canonicalUuid, hbare, if_pos]
  rw [isBareUuid, hlength]
  simpa using hhex

theorem bareUuid_dashed {bare : List Char} (h : ∀ c ∈ bare, Text.isHexDigit c = true) :
    bareUuid (dashed bare) = bare := by
  have hdash : ∀ l : List Char, kept ('-' :: l) = kept l := fun l => rfl
  have hpart : ∀ i j, kept ((bare.drop i).take j) = (bare.drop i).take j := fun i j =>
    kept_of_hexDigits fun c hc => h c (List.mem_of_mem_drop (List.mem_of_mem_take hc))
  have hlast : kept (bare.drop 20) = bare.drop 20 :=
    kept_of_hexDigits fun c hc => h c (List.mem_of_mem_drop hc)
  change kept (dashed bare).toList = bare
  rw [dashed, String.toList_ofList, kept_append, hdash, kept_append, hdash, kept_append, hdash,
    kept_append, hdash, hpart, hpart, hpart, hlast, show bare.take 8 = (bare.drop 0).take 8 from rfl,
    hpart]
  have hjoin : ∀ i j, (bare.drop i).take j ++ bare.drop (i + j) = bare.drop i := by
    intro i j
    rw [← List.drop_drop, List.take_append_drop]
  rw [hjoin 16 4, hjoin 12 4, hjoin 8 4, hjoin 0 8, List.drop_zero]

theorem canonicalUuid_dashed {bare : List Char} (h : isBareUuid bare = true) :
    canonicalUuid (dashed bare) = dashed bare := by
  have hhex : ∀ c ∈ bare, Text.isHexDigit c = true := by
    rw [isBareUuid, Bool.and_eq_true] at h
    exact List.all_eq_true.1 h.2
  rw [canonicalUuid, bareUuid_dashed hhex, if_pos h]

theorem canonicalUuid_canonicalUuid (s : String) :
    canonicalUuid (canonicalUuid s) = canonicalUuid s := by
  by_cases h : isBareUuid (bareUuid s) = true
  · have hs : canonicalUuid s = dashed (bareUuid s) := if_pos h
    rw [hs, canonicalUuid_dashed h]
  · have hs : canonicalUuid s = s := if_neg h
    rw [hs, hs]

/-! ### Numbers -/

/-- `String(n)`. -/
def numberText (n : Float64) : String :=
  match n.1 with
  | .nan => "NaN"
  | .posInf => "Infinity"
  | .negInf => "-Infinity"
  | .fin q => String.ofList (Number.text q)

def integerText (m : ℤ) : String :=
  String.ofList (if m < 0 then '-' :: Nat.toDigits 10 m.natAbs else Nat.toDigits 10 m.natAbs)

/-- White space and line ends, as `parseInt` skips them. -/
def isSpace (c : Char) : Bool :=
  decide (c.toNat ∈ [9, 10, 11, 12, 13, 32, 160, 0x1680, 0x2028, 0x2029, 0x202F, 0x205F, 0x3000,
    0xFEFF]) || (decide (0x2000 ≤ c.toNat) && decide (c.toNat ≤ 0x200A))

/-- The sign of a number's text, and what follows it. -/
def signed : List Char → Bool × List Char
  | '-' :: rest => (true, rest)
  | '+' :: rest => (false, rest)
  | l => (false, l)

def notANumber : Float64 := ⟨.nan, fun _ h => by cases h⟩

/-- `parseInt(s, 10)`. -/
def parseInt (s : String) : Float64 :=
  let (negative, rest) := signed (s.toList.dropWhile isSpace)
  let digits := rest.takeWhile Char.isDigit
  let m : ℤ := (Nat.ofDigitChars 10 digits 0 : ℕ)
  if digits = [] then notANumber else .ofInteger (if negative then -m else m)

theorem isIntegerText_cases {s : String} (h : isIntegerText s = true) :
    ∃ digits : List Char, digits ≠ [] ∧ (∀ c ∈ digits, c.isDigit = true) ∧
      ((s.toList = '-' :: digits ∧ integerOf s = -(Nat.ofDigitChars 10 digits 0 : ℕ)) ∨
        (s.toList = digits ∧ integerOf s = (Nat.ofDigitChars 10 digits 0 : ℕ))) := by
  unfold isIntegerText at h
  unfold integerOf
  split at h
  · next digits heq =>
    simp only [Bool.and_eq_true, Bool.not_eq_true', List.isEmpty_eq_false_iff, List.all_eq_true] at h
    exact ⟨digits, h.1, h.2, Or.inl ⟨heq, rfl⟩⟩
  · simp only [Bool.and_eq_true, Bool.not_eq_true', List.isEmpty_eq_false_iff, List.all_eq_true] at h
    exact ⟨s.toList, h.1, h.2, Or.inr ⟨rfl, rfl⟩⟩

theorem not_isDigit_dash : Char.isDigit '-' = false := by decide

theorem isIntegerText_integerText (m : ℤ) :
    isIntegerText (integerText m) = true ∧ integerOf (integerText m) = m := by
  have hdigits : ∀ c ∈ Nat.toDigits 10 m.natAbs, c.isDigit = true := fun c hc =>
    Nat.isDigit_of_mem_toDigits (by decide) (by decide) hc
  have hne : Nat.toDigits 10 m.natAbs ≠ [] := Nat.toDigits_ne_nil
  unfold integerText isIntegerText integerOf
  simp only [String.toList_ofList]
  split_ifs with hneg
  · simp only [Bool.and_eq_true, Bool.not_eq_true', List.isEmpty_eq_false_iff, List.all_eq_true,
      Nat.ofDigitChars_ten_toDigits]
    exact ⟨⟨hne, hdigits⟩, by omega⟩
  · split
    · next rest heq =>
      have := hdigits '-' (heq ▸ List.mem_cons_self)
      rw [not_isDigit_dash] at this
      cases this
    · simp only [Bool.and_eq_true, Bool.not_eq_true', List.isEmpty_eq_false_iff, List.all_eq_true,
        Nat.ofDigitChars_ten_toDigits]
      exact ⟨⟨hne, hdigits⟩, by omega⟩

theorem parseInt_eq_numberOf {s : String} (h : isIntegerText s = true) : parseInt s = numberOf s := by
  obtain ⟨digits, hne, hdigits, hs⟩ := isIntegerText_cases h
  have htake : digits.takeWhile Char.isDigit = digits := List.takeWhile_eq_self_iff.2 hdigits
  have hdigit : ∀ c : Char, c.isDigit = true → isSpace c = false ∧ c ≠ '-' ∧ c ≠ '+' := by
    intro c hc
    have hascii : c.toNat < 128 := by
      simp only [Char.isDigit, Bool.and_eq_true, decide_eq_true_eq] at hc
      exact lt_of_le_of_lt (show c.toNat ≤ 57 from hc.2) (by decide)
    revert hc
    exact of_ascii (p := fun c => c.isDigit = true → isSpace c = false ∧ c ≠ '-' ∧ c ≠ '+')
      (by decide) hascii
  unfold parseInt
  rcases hs with ⟨hs, hof⟩ | ⟨hs, hof⟩
  · have hdash : isSpace '-' = false := by decide
    simp only [hs, List.dropWhile_cons, hdash, Bool.false_eq_true, if_false, signed, htake, if_true,
      numberOf, hof]
    rw [if_neg hne]
  · obtain ⟨d, rest, rfl⟩ := List.exists_cons_of_ne_nil hne
    obtain ⟨hspace, hminus, hplus⟩ := hdigit d (hdigits d List.mem_cons_self)
    have hsigned : signed (d :: rest) = (false, d :: rest) := by
      unfold signed
      split
      · next heq => exact absurd (List.cons.inj heq).1 hminus
      · next heq => exact absurd (List.cons.inj heq).1 hplus
      · rfl
    simp only [hs, List.dropWhile_cons, hspace, Bool.false_eq_true, if_false, hsigned, htake,
      numberOf, hof]
    rw [if_neg hne]

theorem signedValue_toList {s : String} (h : isIntegerText s = true) :
    Number.signedValue s.toList = integerOf s := by
  obtain ⟨digits, -, hdigits, hs⟩ := isIntegerText_cases h
  have hnot : ∀ c : Char, c.isDigit = false → c ∉ digits := by
    intro c hc hmem
    rw [hdigits c hmem] at hc
    cases hc
  have hvalue : Number.value digits = Nat.ofDigitChars 10 digits 0 := by
    rw [Number.value_plain (hnot 'e' (by decide)), Number.plainValue_digits (hnot '.' (by decide))]
  rcases hs with ⟨hs, hof⟩ | ⟨hs, hof⟩
  · rw [hs, hof, Number.signedValue, hvalue]
    push_cast
    rfl
  · rw [hs, hof, Number.signedValue, hvalue]
    · push_cast
      rfl
    · intro rest heq
      exact hnot '-' (by decide) (heq ▸ List.mem_cons_self)

theorem numberOf_numberText {n : Float64} (h : isIntegerText (numberText n) = true) :
    numberOf (numberText n) = n := by
  obtain ⟨n, hn⟩ := n
  cases n with
  | nan => exact absurd h (show ¬ isIntegerText "NaN" = true by decide)
  | negInf => exact absurd h (show ¬ isIntegerText "-Infinity" = true by decide)
  | posInf => exact absurd h (show ¬ isIntegerText "Infinity" = true by decide)
  | fin q =>
    have hq := hn q rfl
    have htext : Number.signedValue (Number.text q) =
        (integerOf (String.ofList (Number.text q)) : ℤ) := by
      have hdigits := signedValue_toList (s := String.ofList (Number.text q)) h
      rwa [String.toList_ofList] at hdigits
    have hround := Number.ofInt_of_text hq htext
    apply Subtype.ext
    change JsNumber.ofBigint (integerOf (String.ofList (Number.text q))) = .fin q
    generalize integerOf (String.ofList (Number.text q)) = m at hround
    have hlt := hq.2
    rw [← hround, ← Int.cast_abs, ← Int.cast_ofNat, ← Int.cast_pow, Int.cast_lt, abs_lt] at hlt
    rw [JsNumber.ofBigint, if_neg (by omega), if_neg (by omega), ← hround]

/-! ### The round trip -/

inductive PgType where
  | text
  | integer
  | bigint
  | boolean
  | uuid
  | bytea
  | date
  | timestamptz
deriving DecidableEq, Repr

/-- How the database reads what the chain does not depend on in detail.  A text of digits is the
integer it says; `true`, `false` and the text of a number that has a fraction, an exponent or no
digits are no integers. -/
structure Postgres where
  integerIn : String → Option ℤ
  integerIn_digits : ∀ s, isIntegerText s = true → integerIn s = some (integerOf s)
  integerIn_number : ∀ n, isIntegerText (numberText n) = false → integerIn (numberText n) = none
  integerIn_bool : integerIn "true" = none ∧ integerIn "false" = none
  /-- The columns and values that no chained column of a call site has. -/
  otherIn : PgType → ColumnValue → Option ColumnValue

/-- `prepareValue`: the text of a parameter; `none` for what is not sent as such a text. -/
def parameterText : ColumnValue → Option String
  | .bool b => some (if b then "true" else "false")
  | .number n => some (numberText n)
  | .text s => some s
  | _ => none

def fits (bits : ℕ) (m : ℤ) : Bool := decide (-2 ^ (bits - 1) ≤ m) && decide (m < 2 ^ (bits - 1))

/-- What the driver gives back for a value that is sent as a text; `none` where the database refuses
it. -/
def Postgres.storeText (pg : Postgres) (type : PgType) (v : ColumnValue) (s : String) :
    Option ColumnValue :=
  match type with
  | .text => if '\x00' ∈ s.toList then none else some (.text s)
  | .uuid => (uuidIn s).map .text
  | .integer => ((pg.integerIn s).filter (fits 32)).map fun m => .number (parseInt (integerText m))
  | .bigint => ((pg.integerIn s).filter (fits 64)).map fun m => .text (integerText m)
  | type => pg.otherIn type v

/-- What the driver gives back for a value that is written to a column. -/
def Postgres.store (pg : Postgres) (type : PgType) (v : ColumnValue) : Option ColumnValue :=
  match v, parameterText v with
  | .null, _ => some .null
  | .buffer b, _ => if type = .bytea then some (.buffer b) else pg.otherIn type (.buffer b)
  | v, some s => pg.storeText type v s
  | v, none => pg.otherIn type v

/-- What `deserializeRow` makes of a value, in a column that is declared as a `bigint` or not. -/
def deserializeValue (declared : Bool) : ColumnValue → ColumnValue
  | .text s => if declared then .number (parseInt s) else .text s
  | v => v

/-- A value whose column gives back what the chain has of it: a UUID in its canonical form, a text of
digits in an integer column, bytes in a `bytea` column.  What the database refuses does no harm. -/
def Settled (pg : Postgres) : PgType → ColumnValue → Prop
  | _, .null => True
  | .text, .text _ => True
  | .bytea, .buffer _ => True
  | .uuid, .text s => ∀ u, uuidIn s = some u → u = s
  | .uuid, .bool _ => True
  | .integer, .text s => pg.integerIn s ≠ none → isIntegerText s = true
  | .integer, .number _ => True
  | .integer, .bool _ => True
  | .bigint, .text s => pg.integerIn s ≠ none → isIntegerText s = true
  | .bigint, .number _ => True
  | .bigint, .bool _ => True
  | _, _ => False

theorem normalizeValue_digits {s : String} (h : isIntegerText s = true) :
    normalizeValue (.text s) = some (numberLeaf (numberOf s)) := by
  rw [normalizeValue, if_pos h]

theorem normalizeValue_of_integerIn {pg : Postgres} {v : ColumnValue} {s : String} {m : ℤ}
    (hv : Settled pg .bigint v) (hs : parameterText v = some s) (hm : pg.integerIn s = some m) :
    normalizeValue v = some (numberLeaf (.ofInteger m)) := by
  cases v with
  | null => cases hs
  | bool b =>
    obtain ⟨htrue, hfalse⟩ := pg.integerIn_bool
    cases b <;> cases hs
    · rw [if_neg Bool.false_ne_true, hfalse] at hm
      cases hm
    · rw [if_pos rfl, htrue] at hm
      cases hm
  | number n =>
    cases hs
    cases hdigits : isIntegerText (numberText n) with
    | false =>
      rw [pg.integerIn_number n hdigits] at hm
      cases hm
    | true =>
      rw [pg.integerIn_digits _ hdigits] at hm
      obtain rfl := Option.some.inj hm
      rw [normalizeValue]
      exact congrArg (fun n => some (numberLeaf n)) (numberOf_numberText hdigits).symm
  | text t =>
    cases hs
    have hdigits : isIntegerText s = true := hv (by rw [hm]; exact Option.some_ne_none m)
    rw [pg.integerIn_digits _ hdigits] at hm
    obtain rfl := Option.some.inj hm
    exact normalizeValue_digits hdigits
  | date d => cases hs
  | buffer b => cases hs

theorem normalizeValue_integerText (declared : Bool) (m : ℤ) :
    normalizeValue (deserializeValue declared (.text (integerText m))) =
      some (numberLeaf (.ofInteger m)) := by
  obtain ⟨hdigits, hof⟩ := isIntegerText_integerText m
  cases declared with
  | false =>
    rw [deserializeValue, if_neg Bool.false_ne_true, normalizeValue_digits hdigits, numberOf, hof]
  | true =>
    rw [deserializeValue, if_pos rfl, normalizeValue, parseInt_eq_numberOf hdigits, numberOf, hof]

theorem normalizeValue_storeText {pg : Postgres} {type : PgType} {v w : ColumnValue} {s : String}
    {declared : Bool} (hv : Settled pg type v) (hs : parameterText v = some s)
    (hdeclared : declared = true → type = .bigint) (h : pg.storeText type v s = some w) :
    normalizeValue (deserializeValue declared w) = normalizeValue v := by
  have hplain : type ≠ .bigint → deserializeValue declared w = w := by
    intro htype
    have hd : declared = false := by
      cases declared with
      | false => rfl
      | true => exact absurd (hdeclared rfl) htype
    rw [hd]
    cases w <;> rfl
  cases type with
  | text =>
    rw [hplain (by decide)]
    obtain ⟨-, hw⟩ := Option.ite_none_left_eq_some.1 h
    obtain rfl := Option.some.inj hw
    cases v with
    | text t => rw [Option.some.inj hs]
    | null => cases hs
    | _ => exact hv.elim
  | uuid =>
    rw [hplain (by decide)]
    obtain ⟨u, hu, rfl⟩ := Option.map_eq_some_iff.1 h
    cases v with
    | text t =>
      obtain rfl := Option.some.inj hs
      rw [hv u hu]
    | bool b =>
      obtain rfl := Option.some.inj hs
      have hrefused : uuidIn (if b then "true" else "false") = none := by
        cases b <;> decide
      rw [hrefused] at hu
      cases hu
    | null => cases hs
    | _ => exact hv.elim
  | integer =>
    rw [hplain (by decide)]
    have hv' : Settled pg .bigint v := by cases v <;> exact hv
    obtain ⟨m, hm, rfl⟩ := Option.map_eq_some_iff.1 h
    obtain ⟨hdigits, hof⟩ := isIntegerText_integerText m
    rw [normalizeValue_of_integerIn hv' hs (Option.filter_eq_some_iff.1 hm).1, normalizeValue,
      parseInt_eq_numberOf hdigits, numberOf, hof]
  | bigint =>
    obtain ⟨m, hm, rfl⟩ := Option.map_eq_some_iff.1 h
    rw [normalizeValue_of_integerIn hv hs (Option.filter_eq_some_iff.1 hm).1,
      normalizeValue_integerText]
  | _ =>
    cases v with
    | null => cases hs
    | buffer b => cases hs
    | _ => exact hv.elim

theorem normalizeValue_store {pg : Postgres} {type : PgType} {v w : ColumnValue} {declared : Bool}
    (hv : Settled pg type v) (hdeclared : declared = true → type = .bigint)
    (h : pg.store type v = some w) :
    normalizeValue (deserializeValue declared w) = normalizeValue v := by
  cases v with
  | null =>
    obtain rfl := Option.some.inj h
    rfl
  | buffer b =>
    cases type with
    | bytea =>
      obtain rfl := Option.some.inj h
      rfl
    | _ => exact hv.elim
  | date d => cases type <;> exact hv.elim
  | bool b => exact normalizeValue_storeText hv rfl hdeclared h
  | number n => exact normalizeValue_storeText hv rfl hdeclared h
  | text s => exact normalizeValue_storeText hv rfl hdeclared h

end Cello.Directory.ChainStore
