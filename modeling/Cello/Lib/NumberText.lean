import Cello.Lib.Decimal
import Mathlib.Data.Rat.Floor

/-!
# The text of a number

`String(x)` for every finite double, fractions included.  A double is a rational that rounding to 53
bits leaves alone (`IsDouble`).  Its text is the decimal with the fewest digits that rounds back to
it, written plainly while the decimal point stands near the digits and with an exponent elsewhere.

A text has one value (`value_decimal`), and that value rounds to the number it is the text of, so no
two doubles share a text (`text_inj`).
-/

namespace Lib.Number

open Lib.Double (mantissa)

/-! ### Rounding to 53 bits -/

/-- `b ^ e`, in integers as long as it can be. -/
def power (b : ℕ) (e : ℤ) : ℚ :=
  if 0 ≤ e then ((b ^ e.toNat : ℕ) : ℚ) else 1 / ((b ^ (-e).toNat : ℕ) : ℚ)

/-- The greatest `e` with `2 ^ e ≤ q`, for a positive `q`. -/
def log2 (q : ℚ) : ℤ :=
  let e : ℤ := (Nat.log2 q.num.natAbs : ℤ) - (Nat.log2 q.den : ℤ)
  if q < power 2 e then e - 1 else e

def halfEven (q : ℚ) : ℤ :=
  if 2 * (q - ⌊q⌋) < 1 then ⌊q⌋
  else if 1 < 2 * (q - ⌊q⌋) then ⌊q⌋ + 1
  else if ⌊q⌋ % 2 = 0 then ⌊q⌋ else ⌊q⌋ + 1

/-- The place of the last of 53 bits; no double has a bit below `2 ^ -1074`. -/
def lastPlace (q : ℚ) : ℤ := max (log2 q - 52) (-1074)

def nearest (q : ℚ) : ℚ := halfEven (q / power 2 (lastPlace q)) * power 2 (lastPlace q)

def IsDouble (q : ℚ) : Prop := nearest |q| = |q| ∧ |q| < 2 ^ 1024

instance (q : ℚ) : Decidable (IsDouble q) := inferInstanceAs (Decidable (_ ∧ _))

theorem power_eq_zpow (b : ℕ) (e : ℤ) : power b e = (b : ℚ) ^ e := by
  unfold power
  split
  next he =>
    obtain ⟨n, rfl⟩ := Int.eq_ofNat_of_zero_le he
    simp
  next he =>
    obtain ⟨n, hn⟩ := Int.eq_ofNat_of_zero_le (by omega : 0 ≤ -e)
    obtain rfl : e = -(n : ℤ) := by omega
    simp [zpow_neg]

theorem power_pos {b : ℕ} (hb : b ≠ 0) (e : ℤ) : 0 < power b e := by
  rw [power_eq_zpow]
  exact zpow_pos (by exact_mod_cast Nat.pos_of_ne_zero hb) e

theorem halfEven_intCast (n : ℤ) : halfEven n = n := by
  simp [halfEven]

theorem nearest_of_multiple {q : ℚ} {m : ℤ} (h : q = m * power 2 (lastPlace q)) : nearest q = q := by
  have hdiv : q / power 2 (lastPlace q) = m := by
    rw [div_eq_iff (power_pos (by decide) _).ne']
    exact h
  rw [nearest, hdiv, halfEven_intCast]
  exact h.symm

/-! ### The shortest decimal -/

/-- The multiple of `10 ^ j` nearest to `x` among those that round to `x`. -/
def candidate (x : ℚ) (j : ℤ) : Option ℕ :=
  let lo := ⌊x / power 10 j⌋.toNat
  let reads := fun c : ℕ => decide (0 < c) && decide (nearest (c * power 10 j) = x)
  let below := decide (2 * (x - lo * power 10 j) < power 10 j) ||
    (decide (2 * (x - lo * power 10 j) = power 10 j) && decide (lo % 2 = 0))
  if reads lo && (!reads (lo + 1) || below) then some lo
  else if reads (lo + 1) then some (lo + 1)
  else none

/-- The fewest digits that round to `x`, and the power of ten they count. -/
def shortest (x : ℚ) : Option (ℕ × ℤ) :=
  let places := (Nat.toDigits 10 ⌊x⌋.toNat).length
  (List.range (places + 1075)).findSome? fun i : ℕ =>
    (candidate x (places - i)).map fun c => (c, (places : ℤ) - i)

/-- `e+21`, `e-7`, without the letter. -/
def exponentText (e : ℤ) : List Char := (if 0 ≤ e then '+' else '-') :: Nat.toDigits 10 e.natAbs

/-- The decimal `c * 10 ^ j`. -/
def decimal (c : ℕ) (j : ℤ) : List Char :=
  let digits := Nat.toDigits 10 c
  let n := digits.length + j
  if -5 ≤ n ∧ n ≤ 21 then
    if digits.length ≤ n then digits ++ List.replicate j.toNat '0'
    else if 0 < n then digits.take n.toNat ++ '.' :: digits.drop n.toNat
    else '0' :: '.' :: (List.replicate (-n).toNat '0' ++ digits)
  else mantissa digits ++ 'e' :: exponentText (n - 1)

/-- `String(x)` of a positive number. -/
def magnitude (x : ℚ) : List Char :=
  match shortest x with
  | some (c, j) => decimal c j
  | none => []

/-- `String(x)`. -/
def text (x : ℚ) : List Char :=
  if x = 0 then ['0'] else if x < 0 then '-' :: magnitude (-x) else magnitude x

/-! ### The value of a text -/

def plainValue (l : List Char) : ℚ :=
  let whole := l.takeWhile (· ≠ '.')
  let fraction := (l.dropWhile (· ≠ '.')).tail
  Nat.ofDigitChars 10 (whole ++ fraction) 0 * (10 : ℚ) ^ (-(fraction.length : ℤ))

def exponentValue : List Char → ℤ
  | '+' :: digits => Nat.ofDigitChars 10 digits 0
  | '-' :: digits => -Nat.ofDigitChars 10 digits 0
  | _ => 0

def value (l : List Char) : ℚ :=
  plainValue (l.takeWhile (· ≠ 'e')) * (10 : ℚ) ^ exponentValue (l.dropWhile (· ≠ 'e')).tail

theorem takeWhile_sep {c : Char} {l : List Char} (hl : c ∉ l) (r : List Char) :
    (l ++ c :: r).takeWhile (· ≠ c) = l ∧ (l ++ c :: r).dropWhile (· ≠ c) = c :: r := by
  induction l with
  | nil => simp
  | cons d l ih =>
    have hd : d ≠ c := fun h => hl (h ▸ List.mem_cons_self)
    obtain ⟨h1, h2⟩ := ih fun h => hl (List.mem_cons_of_mem _ h)
    simp only [ne_eq, decide_not] at h1 h2 ⊢
    simp [hd, h1, h2]

theorem takeWhile_none {c : Char} {l : List Char} (hl : c ∉ l) :
    l.takeWhile (· ≠ c) = l ∧ l.dropWhile (· ≠ c) = [] := by
  induction l with
  | nil => simp
  | cons d l ih =>
    have hd : d ≠ c := fun h => hl (h ▸ List.mem_cons_self)
    obtain ⟨h1, h2⟩ := ih fun h => hl (List.mem_cons_of_mem _ h)
    simp only [ne_eq, decide_not] at h1 h2 ⊢
    simp [hd, h1, h2]

theorem plainValue_digits {l : List Char} (hl : '.' ∉ l) :
    plainValue l = Nat.ofDigitChars 10 l 0 := by
  obtain ⟨h1, h2⟩ := takeWhile_none hl
  simp only [plainValue, h1, h2, List.tail_nil, List.append_nil, List.length_nil, Nat.cast_zero,
    neg_zero, zpow_zero, mul_one]

theorem plainValue_dot {l : List Char} (hl : '.' ∉ l) (r : List Char) :
    plainValue (l ++ '.' :: r) =
      Nat.ofDigitChars 10 (l ++ r) 0 * (10 : ℚ) ^ (-(r.length : ℤ)) := by
  obtain ⟨h1, h2⟩ := takeWhile_sep hl r
  simp only [plainValue, h1, h2, List.tail_cons]

theorem value_plain {l : List Char} (hl : 'e' ∉ l) : value l = plainValue l := by
  obtain ⟨h1, h2⟩ := takeWhile_none hl
  simp only [value, h1, h2, List.tail_nil, exponentValue, zpow_zero, mul_one]

theorem value_exponent {l : List Char} (hl : 'e' ∉ l) (e : ℤ) :
    value (l ++ 'e' :: exponentText e) = plainValue l * (10 : ℚ) ^ e := by
  obtain ⟨h1, h2⟩ := takeWhile_sep hl (exponentText e)
  have hexp : exponentValue (exponentText e) = e := by
    unfold exponentText
    split
    next he => 
      simp only [exponentValue, Nat.ofDigitChars_ten_toDigits]
      omega
    next he =>
      simp only [exponentValue, Nat.ofDigitChars_ten_toDigits]
      omega
  simp only [value, h1, h2, List.tail_cons, hexp]

theorem plainValue_mantissa {l : List Char} (hl : '.' ∉ l) (hne : l ≠ []) :
    plainValue (mantissa l) = Nat.ofDigitChars 10 l 0 * (10 : ℚ) ^ (1 - (l.length : ℤ)) := by
  match l with
  | [] => exact absurd rfl hne
  | [d] =>
    rw [mantissa, plainValue_digits hl]
    simp
  | d :: d' :: r =>
    have hd : '.' ∉ [d] := fun h => hl (by rw [List.mem_singleton.1 h]; exact List.mem_cons_self)
    have hdot := plainValue_dot hd (d' :: r)
    rw [List.singleton_append, List.singleton_append] at hdot
    rw [mantissa, hdot]
    congr 2

/-- **A decimal is the text of its value.** -/
theorem value_decimal (c : ℕ) (j : ℤ) : value (decimal c j) = c * (10 : ℚ) ^ j := by
  have hdot : ∀ {c : ℕ}, '.' ∉ Nat.toDigits 10 c := Double.notMem_toDigits (by decide) _
  have he : ∀ {c : ℕ}, 'e' ∉ Nat.toDigits 10 c := Double.notMem_toDigits (by decide) _
  have hval : Nat.ofDigitChars 10 (Nat.toDigits 10 c) 0 = c := Nat.ofDigitChars_ten_toDigits
  unfold decimal
  dsimp only
  split_ifs with hn hwhole hmixed
  · -- the digits and zeros
    have hj : 0 ≤ j := by omega
    obtain ⟨z, rfl⟩ := Int.eq_ofNat_of_zero_le hj
    rw [value_plain (by simp [he]), plainValue_digits (by simp [hdot]), Nat.ofDigitChars_append,
      hval, Int.toNat_natCast, Nat.ofDigitChars_replicate_zero]
    push_cast
    rw [zpow_natCast]
    ring
  · -- a dot between the digits
    have htake : ∀ {d : Char}, d ∉ Nat.toDigits 10 c →
        d ∉ (Nat.toDigits 10 c).take (↑(Nat.toDigits 10 c).length + j).toNat :=
      fun hd h => hd (List.mem_of_mem_take h)
    have hnotE : 'e' ∉ (Nat.toDigits 10 c).take (↑(Nat.toDigits 10 c).length + j).toNat ++
        '.' :: (Nat.toDigits 10 c).drop (↑(Nat.toDigits 10 c).length + j).toNat := by
      rw [List.mem_append, List.mem_cons]
      rintro (h | h | h)
      · exact htake he h
      · exact absurd h (by decide)
      · exact he (List.mem_of_mem_drop h)
    rw [value_plain hnotE, plainValue_dot (htake hdot), List.take_append_drop, hval,
      List.length_drop]
    congr 2
    omega
  · -- zeros between the dot and the digits
    have hnotE : 'e' ∉ '0' :: '.' :: (List.replicate (-(↑(Nat.toDigits 10 c).length + j)).toNat '0' ++
        Nat.toDigits 10 c) := by
      simp [he]
    have hdots := plainValue_dot (l := ['0']) (by decide)
      (List.replicate (-(↑(Nat.toDigits 10 c).length + j)).toNat '0' ++ Nat.toDigits 10 c)
    rw [value_plain hnotE]
    rw [List.singleton_append] at hdots
    rw [hdots]
    have hzeros : Nat.ofDigitChars 10 (['0'] ++ (List.replicate
        (-(↑(Nat.toDigits 10 c).length + j)).toNat '0' ++ Nat.toDigits 10 c)) 0 = c := by
      rw [List.singleton_append, Nat.ofDigitChars_cons, Nat.ofDigitChars_append]
      simp [Nat.ofDigitChars_replicate_zero, hval]
    rw [hzeros, List.length_append, List.length_replicate]
    congr 2
    omega
  · -- an exponent
    rw [value_exponent ((Double.mem_mantissa (by decide)).not.2 he),
      plainValue_mantissa hdot Nat.toDigits_ne_nil, hval, mul_assoc, ← zpow_add₀ (by norm_num)]
    congr 2
    omega

/-! ### The text rounds back -/

theorem candidate_reads {x : ℚ} {j : ℤ} {c : ℕ} (h : candidate x j = some c) :
    0 < c ∧ nearest (c * power 10 j) = x := by
  unfold candidate at h
  dsimp only at h
  split_ifs at h with h1 h2
  · obtain rfl := Option.some.inj h
    simp only [Bool.and_eq_true, decide_eq_true_eq] at h1
    exact h1.1
  · obtain rfl := Option.some.inj h
    simp only [Bool.and_eq_true, decide_eq_true_eq] at h2
    exact h2

theorem candidate_isSome {x : ℚ} {j : ℤ} {c : ℕ} (hc : 0 < c) (hx : x = c * power 10 j)
    (hround : nearest x = x) : (candidate x j).isSome = true := by
  have hlo : ⌊x / power 10 j⌋.toNat = c := by
    rw [hx, mul_div_cancel_right₀ _ (power_pos (by decide) j).ne', Int.floor_natCast,
      Int.toNat_natCast]
  have hreads : (decide (0 < c) && decide (nearest (c * power 10 j) = x)) = true := by
    rw [← hx]
    simp [hc, hround]
  by_contra hnone
  rw [Option.not_isSome_iff_eq_none] at hnone
  unfold candidate at hnone
  dsimp only at hnone
  rw [hlo] at hnone
  split_ifs at hnone with h1 h2
  refine h1 ?_
  rw [Bool.and_eq_true]
  rw [Bool.not_eq_true] at h2
  exact ⟨hreads, by rw [h2]; rfl⟩

theorem exact_decimal {x : ℚ} (hx : 0 < x) (hround : nearest x = x) :
    ∃ (c : ℕ) (j : ℤ), 0 < c ∧ -1074 ≤ j ∧ j ≤ 0 ∧ x = c * power 10 j := by
  have hm : x = halfEven (x / power 2 (lastPlace x)) * power 2 (lastPlace x) := hround.symm
  have hplace : -1074 ≤ lastPlace x := le_max_right _ _
  generalize halfEven (x / power 2 (lastPlace x)) = m at hm
  generalize lastPlace x = e at hm hplace
  have hpos : 0 < m := by
    have hprod : 0 < (m : ℚ) * power 2 e := hm ▸ hx
    exact_mod_cast (pos_iff_pos_of_mul_pos hprod).2 (power_pos (by decide) e)
  obtain ⟨n, rfl⟩ := Int.eq_ofNat_of_zero_le hpos.le
  have hn : 0 < n := by exact_mod_cast hpos
  rw [power_eq_zpow] at hm
  by_cases he : 0 ≤ e
  · obtain ⟨k, rfl⟩ := Int.eq_ofNat_of_zero_le he
    refine ⟨n * 2 ^ k, 0, by positivity, by omega, le_refl 0, ?_⟩
    rw [hm, power_eq_zpow]
    push_cast
    simp
  · obtain ⟨k, hk⟩ := Int.eq_ofNat_of_zero_le (by omega : 0 ≤ -e)
    obtain rfl : e = -(k : ℤ) := by omega
    -- a half is five tenths
    refine ⟨n * 5 ^ k, -k, by positivity, hplace, by omega, ?_⟩
    rw [hm, power_eq_zpow]
    push_cast
    rw [zpow_neg, zpow_neg, zpow_natCast, zpow_natCast, mul_assoc]
    congr 1
    rw [show (10 : ℚ) = 5 * 2 by norm_num, mul_pow]
    field_simp

theorem shortest_isSome {x : ℚ} (hx : 0 < x) (hround : nearest x = x) :
    (shortest x).isSome = true := by
  obtain ⟨c, j, hc, hlow, hhigh, hexact⟩ := exact_decimal hx hround
  unfold shortest
  dsimp only
  rw [List.findSome?_isSome_iff]
  refine ⟨((Nat.toDigits 10 ⌊x⌋.toNat).length - j).toNat, List.mem_range.2 (by omega), ?_⟩
  have hj : ((Nat.toDigits 10 ⌊x⌋.toNat).length : ℤ) -
      (((Nat.toDigits 10 ⌊x⌋.toNat).length - j).toNat : ℕ) = j := by
    omega
  rw [hj, Option.isSome_map]
  exact candidate_isSome hc hexact hround

theorem shortest_reads {x : ℚ} {c : ℕ} {j : ℤ} (h : shortest x = some (c, j)) :
    0 < c ∧ nearest (c * power 10 j) = x := by
  unfold shortest at h
  obtain ⟨i, -, hi⟩ := List.exists_of_findSome?_eq_some h
  obtain ⟨c', hc', heq⟩ := Option.map_eq_some_iff.1 hi
  obtain ⟨rfl, rfl⟩ := Prod.mk.inj heq
  exact candidate_reads hc'

theorem magnitude_eq {x : ℚ} (hx : 0 < x) (hround : nearest x = x) :
    ∃ (c : ℕ) (j : ℤ), magnitude x = decimal c j ∧ 0 < c ∧ nearest (c * (10 : ℚ) ^ j) = x := by
  have hsome := shortest_isSome hx hround
  cases hcj : shortest x with
  | none => simp [hcj] at hsome
  | some p =>
    have hreads := shortest_reads hcj
    rw [power_eq_zpow, Nat.cast_ofNat] at hreads
    have hmag : magnitude x = decimal p.1 p.2 := by
      unfold magnitude
      rw [hcj]
    exact ⟨p.1, p.2, hmag, hreads⟩

/-! ### The characters of a text -/

def isNumberChar (c : Char) : Bool := c.isDigit || c ∈ ['.', 'e', '+', '-']

theorem isNumberChar_of_mem_toDigits {c : Char} {n : ℕ} (h : c ∈ Nat.toDigits 10 n) :
    isNumberChar c = true := by
  rw [isNumberChar, Nat.isDigit_of_mem_toDigits (by decide) (by decide) h, Bool.true_or]

theorem isNumberChar_of_mem_decimal {ch : Char} {c : ℕ} {j : ℤ} (h : ch ∈ decimal c j) :
    isNumberChar ch = true := by
  have hzero : ∀ {n : ℕ}, ch ∈ List.replicate n '0' → isNumberChar ch = true := by
    intro n h
    rw [List.eq_of_mem_replicate h]
    decide
  have hdot : ch = '.' → isNumberChar ch = true := by
    rintro rfl
    decide
  unfold decimal at h
  dsimp only at h
  split_ifs at h
  · rcases List.mem_append.1 h with h | h
    · exact isNumberChar_of_mem_toDigits h
    · exact hzero h
  · rcases List.mem_append.1 h with h | h
    · exact isNumberChar_of_mem_toDigits (List.mem_of_mem_take h)
    · rcases List.mem_cons.1 h with h | h
      · exact hdot h
      · exact isNumberChar_of_mem_toDigits (List.mem_of_mem_drop h)
  · rcases List.mem_cons.1 h with rfl | h
    · decide
    · rcases List.mem_cons.1 h with h | h
      · exact hdot h
      · rcases List.mem_append.1 h with h | h
        · exact hzero h
        · exact isNumberChar_of_mem_toDigits h
  · rcases List.mem_append.1 h with h | h
    · by_cases hd : ch = '.'
      · exact hdot hd
      · exact isNumberChar_of_mem_toDigits ((Double.mem_mantissa hd).1 h)
    · rcases List.mem_cons.1 h with rfl | h
      · decide
      · unfold exponentText at h
        rcases List.mem_cons.1 h with rfl | h
        · split <;> decide
        · exact isNumberChar_of_mem_toDigits h

theorem decimal_head (c : ℕ) (j : ℤ) :
    ∃ (d : Char) (r : List Char), decimal c j = d :: r ∧ d.isDigit = true := by
  obtain ⟨d, r, hdr⟩ := List.exists_cons_of_ne_nil (Nat.toDigits_ne_nil (n := c) (b := 10))
  have hd : d.isDigit = true :=
    Nat.isDigit_of_mem_toDigits (by decide) (by decide) (hdr ▸ List.mem_cons_self)
  unfold decimal
  dsimp only
  split_ifs with hn hwhole hmixed
  · exact ⟨d, _, by rw [hdr, List.cons_append], hd⟩
  · obtain ⟨k, hk⟩ : ∃ k, (↑(Nat.toDigits 10 c).length + j).toNat = k + 1 :=
      ⟨(↑(Nat.toDigits 10 c).length + j).toNat - 1, by omega⟩
    exact ⟨d, _, by rw [hk, hdr, List.take_succ_cons, List.cons_append], hd⟩
  · exact ⟨'0', _, rfl, by decide⟩
  · rw [hdr]
    cases r with
    | nil => exact ⟨d, _, rfl, hd⟩
    | cons e r => exact ⟨d, _, rfl, hd⟩

theorem text_eq {x : ℚ} (hx : IsDouble x) (h0 : x ≠ 0) :
    ∃ (c : ℕ) (j : ℤ), 0 < c ∧ nearest (c * (10 : ℚ) ^ j) = |x| ∧
      text x = if x < 0 then '-' :: decimal c j else decimal c j := by
  obtain ⟨c, j, htext, hc, hreads⟩ := magnitude_eq (abs_pos.2 h0) hx.1
  refine ⟨c, j, hc, hreads, ?_⟩
  rw [text, if_neg h0]
  split_ifs with hneg
  · rw [← htext, abs_of_neg hneg]
  · rw [← htext, abs_of_nonneg (not_lt.1 hneg)]

theorem isNumberChar_of_mem_text {c : Char} {x : ℚ} (hx : IsDouble x) (h : c ∈ text x) :
    isNumberChar c = true := by
  by_cases h0 : x = 0
  · rw [text, if_pos h0, List.mem_singleton] at h
    rw [h]
    decide
  · obtain ⟨n, j, -, -, htext⟩ := text_eq hx h0
    rw [htext] at h
    split_ifs at h
    · rcases List.mem_cons.1 h with rfl | h
      · decide
      · exact isNumberChar_of_mem_decimal h
    · exact isNumberChar_of_mem_decimal h

def signedValue : List Char → ℚ
  | '-' :: r => -value r
  | l => value l

theorem signedValue_decimal (c : ℕ) (j : ℤ) : signedValue (decimal c j) = c * (10 : ℚ) ^ j := by
  obtain ⟨d, r, hdr, hd⟩ := decimal_head c j
  rw [← value_decimal c j, hdr, signedValue]
  intro r' heq
  rw [(List.cons.inj heq).1] at hd
  exact absurd hd (by decide)

theorem signedValue_text {x : ℚ} (hx : IsDouble x) :
    nearest |signedValue (text x)| = |x| ∧ (signedValue (text x) < 0 ↔ x < 0) := by
  by_cases h0 : x = 0
  · subst h0
    decide +kernel
  · obtain ⟨c, j, hc, hreads, htext⟩ := text_eq hx h0
    have hpos : 0 < (c : ℚ) * (10 : ℚ) ^ j :=
      mul_pos (by exact_mod_cast hc) (zpow_pos (by norm_num) _)
    rw [htext]
    split_ifs with hneg
    · rw [signedValue, value_decimal, abs_neg, abs_of_pos hpos]
      exact ⟨hreads, by simp [hneg, hpos]⟩
    · rw [signedValue_decimal, abs_of_pos hpos]
      exact ⟨hreads, by simp [hneg, hpos.le]⟩

theorem text_inj {x y : ℚ} (hx : IsDouble x) (hy : IsDouble y) (h : text x = text y) : x = y := by
  obtain ⟨habs, hsign⟩ := signedValue_text hx
  obtain ⟨habs', hsign'⟩ := signedValue_text hy
  rw [h] at habs hsign
  have hmag : |x| = |y| := habs.symm.trans habs'
  rcases abs_eq_abs.1 hmag with heq | heq
  · exact heq
  · -- opposite numbers of one sign are zero
    have hxy : x < 0 ↔ y < 0 := hsign.symm.trans hsign'
    rcases lt_trichotomy y 0 with hy0 | hy0 | hy0
    · have := hxy.2 hy0
      linarith
    · linarith
    · have : x < 0 := by linarith
      have := hxy.1 this
      linarith

/-! ### Whole numbers -/

theorem halfEven_div (n : ℕ) {u : ℕ} (hu : 0 < u) :
    (halfEven ((n : ℚ) / u) : ℚ) * u = Double.roundTo u n := by
  have hu' : (0 : ℚ) < u := by exact_mod_cast hu
  have hfloor : ⌊(n : ℚ) / u⌋ = ((n / u : ℕ) : ℤ) := by
    rw [Rat.floor_natCast_div_natCast, Int.natCast_div]
  have hrest : (n : ℚ) / u - ((n / u : ℕ) : ℚ) = ((n % u : ℕ) : ℚ) / u := by
    rw [eq_div_iff hu'.ne', sub_mul, div_mul_cancel₀ _ hu'.ne', sub_eq_iff_eq_add]
    exact_mod_cast (Nat.mod_add_div' n u).symm
  have hlt : 2 * (((n % u : ℕ) : ℚ) / u) < 1 ↔ 2 * (n % u) < u := by
    rw [← mul_div_assoc, div_lt_one hu']
    exact_mod_cast Iff.rfl
  have hgt : 1 < 2 * (((n % u : ℕ) : ℚ) / u) ↔ u < 2 * (n % u) := by
    rw [← mul_div_assoc, one_lt_div hu']
    exact_mod_cast Iff.rfl
  unfold halfEven Double.roundTo
  dsimp only
  rw [hfloor, Int.cast_natCast, hrest]
  simp only [hlt, hgt]
  generalize n / u = q
  split_ifs <;> first | omega | (push_cast; ring)

/-- **An integer is rounded as doubles round integers.** -/
theorem nearest_natCast (n : ℕ) : nearest (n : ℚ) = Double.ofNat n := by
  rcases Nat.eq_zero_or_pos n with rfl | hpos
  · decide +kernel
  have hlog : log2 (n : ℚ) = Nat.log2 n := by
    have hle : 2 ^ Nat.log2 n ≤ n := Nat.log2_self_le hpos.ne'
    have hexp : (Nat.log2 (n : ℚ).num.natAbs : ℤ) - (Nat.log2 (n : ℚ).den : ℤ) = Nat.log2 n := by
      simp [show Nat.log2 1 = 0 from rfl]
    unfold log2
    dsimp only
    rw [hexp, if_neg]
    rw [power_eq_zpow, zpow_natCast, not_lt]
    exact_mod_cast hle
  have hplace : lastPlace (n : ℚ) = (Nat.log2 n : ℤ) - 52 := by
    rw [lastPlace, hlog]
    omega
  by_cases hbits : 52 ≤ Nat.log2 n
  · have hunit : power 2 ((Nat.log2 n : ℤ) - 52) = ((Double.ulp n : ℕ) : ℚ) := by
      rw [power_eq_zpow, show (Nat.log2 n : ℤ) - 52 = ((Nat.log2 n - 52 : ℕ) : ℤ) by omega,
        zpow_natCast, Double.ulp]
      push_cast
      rfl
    rw [nearest, hplace, hunit, halfEven_div n (Double.ulp_pos n), Double.ofNat]
  · -- fewer than 53 bits are never rounded
    have hulp : Double.ulp n = 1 := by
      rw [Double.ulp, Nat.sub_eq_zero_of_le (by omega), pow_zero]
    rw [Double.ofNat, hulp, Double.roundTo_of_dvd Nat.one_pos (one_dvd n)]
    refine nearest_of_multiple (m := n * 2 ^ (52 - Nat.log2 n)) ?_
    have hunit : (Nat.log2 n : ℤ) - 52 = -((52 - Nat.log2 n : ℕ) : ℤ) := by omega
    rw [hplace, power_eq_zpow, hunit, zpow_neg, zpow_natCast]
    push_cast
    field_simp

theorem ofInt_of_text {x : ℚ} (hx : IsDouble x) {m : ℤ} (h : signedValue (text x) = m) :
    (Double.ofInt m : ℚ) = x := by
  obtain ⟨hround, hsign⟩ := signedValue_text hx
  have habs : |(m : ℚ)| = (m.natAbs : ℕ) := by
    rw [← Int.cast_abs, Int.abs_eq_natAbs, Int.cast_natCast]
  rw [h, habs, nearest_natCast] at hround
  rw [h, Int.cast_lt_zero] at hsign
  cases m with
  | ofNat n =>
    rw [abs_of_nonneg (not_lt.1 fun hneg => absurd (hsign.2 hneg) (by simp))] at hround
    rw [← hround]
    simp [Double.ofInt]
  | negSucc n =>
    rw [abs_of_neg (hsign.1 (Int.negSucc_lt_zero n))] at hround
    rw [← neg_eq_iff_eq_neg.2 hround.symm.symm]
    simp [Double.ofInt]

theorem isDouble_ofInt {n : ℤ} (hn : Double.ofInt n = n) (hlt : |n| < 2 ^ 1024) :
    IsDouble (n : ℚ) := by
  have habs : |(n : ℚ)| = (n.natAbs : ℕ) := by
    rw [← Int.cast_abs, Int.abs_eq_natAbs, Int.cast_natCast]
  have hfix : Double.ofNat n.natAbs = n.natAbs := Double.Whole.ofNat_natAbs ⟨n, hn⟩
  refine ⟨by rw [habs, nearest_natCast, hfix], ?_⟩
  have hcast := (Int.cast_lt (R := ℚ)).2 hlt
  rwa [Int.cast_pow, Int.cast_ofNat, Int.cast_abs] at hcast

example : text (1 / 2 ^ 24) = "5.960464477539063e-8".toList := by decide +kernel
example : text (nearest (1 / 10)) = "0.1".toList := by decide +kernel

end Lib.Number
