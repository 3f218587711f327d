import Cello.Lib.JsValue
import Cello.Lib.NumberText
import Mathlib.Data.List.TakeWhile

/-!
# The number that a text says

`Number(s)` of a string: blanks at both ends are dropped, nothing is zero, `0x`, `0o` and `0b` begin an
integer in another base, and anything else is a decimal literal with an optional sign, or not a number.
What is read is rounded to a double, and so is a product.
-/

namespace Lib.Number

/-- A blank or a line end, as `trim` sees it. -/
def isBlank (c : Char) : Bool :=
  c.toNat ∈ [9, 10, 11, 12, 13, 32, 160, 5760, 8232, 8233, 8239, 8287, 12288, 65279] ||
    (decide (8192 ≤ c.toNat) && decide (c.toNat ≤ 8202))

def trim (l : List Char) : List Char := ((l.dropWhile isBlank).reverse.dropWhile isBlank).reverse

/-- The double nearest to `q`, which is infinite from `2 ^ 1024` on. -/
def round (q : ℚ) : JsNumber :=
  if 2 ^ 1024 ≤ nearest |q| then if q < 0 then .negInf else .posInf
  else .fin (if q < 0 then -nearest |q| else nearest |q|)

/-- `a * b`. -/
def mul : JsNumber → JsNumber → JsNumber
  | .fin a, .fin b => round (a * b)
  | .nan, _ => .nan
  | _, .nan => .nan
  | a, b => if a = .fin 0 ∨ b = .fin 0 then .nan
    else if (a.gt (.fin 0)) = (b.gt (.fin 0)) then .posInf else .negInf

/-- `Math.floor(a)`. -/
def floor : JsNumber → JsNumber
  | .fin q => .fin q.floor
  | a => a

def digitValue (c : Char) : Option ℕ :=
  if '0' ≤ c ∧ c ≤ '9' then some (c.toNat - 48)
  else if 'a' ≤ c ∧ c ≤ 'f' then some (c.toNat - 87)
  else if 'A' ≤ c ∧ c ≤ 'F' then some (c.toNat - 55)
  else none

def readDigits (base : ℕ) : ℕ → List Char → Option ℕ
  | n, [] => some n
  | n, c :: rest => do
    let d ← digitValue c
    if d < base then readDigits base (base * n + d) rest else none

/-- The digits after `0x`, `0o` or `0b`. -/
def readInteger (base : ℕ) (l : List Char) : JsNumber :=
  match l, readDigits base 0 l with
  | [], _ => .nan
  | _, none => .nan
  | _, some n => round n

/-- What follows the letter of an exponent. -/
def readExponent (l : List Char) : Option ℤ :=
  let digits := match l with
    | '+' :: rest => rest
    | '-' :: rest => rest
    | _ => l
  if digits = [] then none
  else (readDigits 10 0 digits).map fun n => if l.head? = some '-' then -(n : ℤ) else n

/-- A decimal literal without a sign. -/
def readDecimal (l : List Char) : Option ℚ :=
  let whole := l.takeWhile Char.isDigit
  let rest := l.dropWhile Char.isDigit
  let fraction := if rest.head? = some '.' then rest.tail.takeWhile Char.isDigit else []
  let rest := if rest.head? = some '.' then rest.tail.dropWhile Char.isDigit else rest
  if whole = [] ∧ fraction = [] then none
  else
    let digits : ℚ := Nat.ofDigitChars 10 (whole ++ fraction) 0 / (10 ^ fraction.length : ℕ)
    match rest with
    | [] => some digits
    | c :: rest =>
      if c = 'e' ∨ c = 'E' then (readExponent rest).map fun e => digits * power 10 e else none

/-- A literal without a sign, or `Infinity`. -/
def readUnsigned (negative : Bool) (l : List Char) : JsNumber :=
  if l = "Infinity".toList then if negative then .negInf else .posInf
  else
    match readDecimal l with
    | none => .nan
    | some q => round (if negative then -q else q)

/-- `Number(s)`. -/
def ofString (s : String) : JsNumber :=
  match trim s.toList with
  | [] => .fin 0
  | '0' :: 'x' :: digits => readInteger 16 digits
  | '0' :: 'X' :: digits => readInteger 16 digits
  | '0' :: 'o' :: digits => readInteger 8 digits
  | '0' :: 'O' :: digits => readInteger 8 digits
  | '0' :: 'b' :: digits => readInteger 2 digits
  | '0' :: 'B' :: digits => readInteger 2 digits
  | '+' :: rest => readUnsigned false rest
  | '-' :: rest => readUnsigned true rest
  | l => readUnsigned false l

/-! ### What integers are read from their texts -/

theorem trim_of_forall {l : List Char} (h : ∀ c ∈ l, isBlank c = false) : trim l = l := by
  have hdrop : ∀ l : List Char, (∀ c ∈ l, isBlank c = false) → l.dropWhile isBlank = l := by
    intro l h
    cases l with
    | nil => rfl
    | cons c rest => rw [List.dropWhile_cons_of_neg (by rw [h c List.mem_cons_self]; exact Bool.false_ne_true)]
  rw [trim, hdrop l h, hdrop _ fun c hc => h c (List.mem_reverse.1 hc), List.reverse_reverse]

theorem isBlank_of_isDigit {c : Char} (h : c.isDigit = true) : isBlank c = false := by
  have hrange : 48 ≤ c.toNat ∧ c.toNat ≤ 57 := by
    have hdigit := Char.isDigit_iff_toNat.1 h
    simpa using hdigit
  simp only [isBlank, List.mem_cons, List.not_mem_nil, Bool.or_eq_false_iff, Bool.and_eq_false_iff,
    decide_eq_false_iff_not, or_false, not_or]
  omega

theorem readDecimal_digits {l : List Char} (hne : l ≠ []) (h : ∀ c ∈ l, c.isDigit = true) :
    readDecimal l = some (Nat.ofDigitChars 10 l 0 : ℚ) := by
  have htake : l.takeWhile Char.isDigit = l := List.takeWhile_eq_self_iff.2 h
  have hdrop : l.dropWhile Char.isDigit = [] := List.dropWhile_eq_nil_iff.2 h
  simp [readDecimal, htake, hdrop, hne]

theorem round_natCast {n : ℕ} (hn : n < 2 ^ 53) : round (n : ℚ) = .fin n := by
  have hfix : Double.ofNat n = n := by
    have hlog : Nat.log2 n - 52 = 0 := by
      rcases Nat.eq_zero_or_pos n with rfl | hpos
      · rfl
      · have := (Nat.log2_lt hpos.ne').2 hn
        omega
    rw [Double.ofNat, Double.ulp, hlog, pow_zero, Double.roundTo_of_dvd Nat.one_pos (one_dvd n)]
  have hpos : ¬ (n : ℚ) < 0 := not_lt.2 (Nat.cast_nonneg n)
  have hsmall : ¬ (2 : ℚ) ^ 1024 ≤ n := by
    have hlt : (n : ℚ) < 2 ^ 53 := by exact_mod_cast hn
    have hpow : (2 : ℚ) ^ 53 ≤ 2 ^ 1024 := pow_le_pow_right₀ (by norm_num) (by norm_num)
    exact not_le.2 (hlt.trans_le hpow)
  rw [round, Nat.abs_cast, nearest_natCast, hfix, if_neg hsmall, if_neg hpos]

theorem ofString_toString {n : ℕ} (hn : n < 2 ^ 53) : ofString (toString n) = .fin n := by
  have hdigits : ∀ c ∈ Nat.toDigits 10 n, c.isDigit = true := fun c hc =>
    Nat.isDigit_of_mem_toDigits (by decide) (by decide) hc
  have htext : (toString n).toList = Nat.toDigits 10 n := Nat.toList_repr
  have hread : readUnsigned false (Nat.toDigits 10 n) = .fin n := by
    have hno : Nat.toDigits 10 n ≠ "Infinity".toList := by
      intro h
      have hi := hdigits 'I' (by rw [h]; decide)
      cases hi
    rw [readUnsigned, if_neg hno, readDecimal_digits Nat.toDigits_ne_nil hdigits]
    simpa using round_natCast hn
  have hfirst : ∀ {a rest}, Nat.toDigits 10 n = a :: rest → a.isDigit = true := fun h =>
    hdigits _ (by rw [h]; exact List.mem_cons_self)
  have hsecond : ∀ {a b rest}, Nat.toDigits 10 n = a :: b :: rest → b.isDigit = true := fun h =>
    hdigits _ (by rw [h]; exact List.mem_cons_of_mem _ List.mem_cons_self)
  unfold ofString
  rw [htext, trim_of_forall fun c hc => isBlank_of_isDigit (hdigits c hc)]
  split
  next h => exact absurd h Nat.toDigits_ne_nil
  all_goals first
    | exact hread
    | next h => exact absurd (hsecond h) (by decide)
    | next h => exact absurd (hfirst h) (by decide)

example : ofString " 1.5e3 " = .fin 1500 ∧ ofString "-0x10" = .nan ∧ ofString "0x10" = .fin 16 := by
  decide +kernel

end Lib.Number
