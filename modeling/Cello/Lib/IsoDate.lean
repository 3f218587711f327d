import Cello.Lib.Text
import Mathlib.Algebra.Order.Group.Abs
import Mathlib.Algebra.Order.Ring.Int

/-!
# Dates as ISO texts

A `Date` is a count of milliseconds.  `toISOString` writes the date of that instant in the Gregorian
calendar and its time of day, in UTC.  The calendar is counted in years that start with March, so
that a leap day is the last day of its year; a day has one date (`daysOf_civil`), and so no two
instants share a text (`isoText_inj`).
-/

namespace Lib.IsoDate

/-! ### The calendar -/

/-- A date: year, month and day of the month. -/
@[ext] structure Civil where
  year : ℤ
  month : ℤ
  day : ℤ
deriving DecidableEq, Repr

def yearOfCycle (day : ℤ) : ℤ :=
  let century := min (day / 36524) 3
  let inCentury := day - 36524 * century
  100 * century + 4 * (inCentury / 1461) + min (inCentury % 1461 / 365) 3

def startOfYear (year : ℤ) : ℤ := 365 * year + year / 4 - year / 100

def monthOf (fromMarch : ℤ) : ℤ := if fromMarch < 10 then fromMarch + 3 else fromMarch - 9

def dateOf (cycle year dayOfYear : ℤ) : Civil where
  year := cycle * 400 + year + if monthOf ((5 * dayOfYear + 2) / 153) ≤ 2 then 1 else 0
  month := monthOf ((5 * dayOfYear + 2) / 153)
  day := dayOfYear - (153 * ((5 * dayOfYear + 2) / 153) + 2) / 5 + 1

def civil (days : ℤ) : Civil :=
  -- 719468 days after the first of March of the year zero
  let z := days + 719468
  let year := yearOfCycle (z % 146097)
  dateOf (z / 146097) year (z % 146097 - startOfYear year)

def daysOf (c : Civil) : ℤ :=
  let year := if c.month ≤ 2 then c.year - 1 else c.year
  let dayOfYear := (153 * ((c.month + 9) % 12) + 2) / 5 + c.day - 1
  year / 400 * 146097 + startOfYear (year % 400) + dayOfYear - 719468

example : civil 19782 = ⟨2024, 2, 29⟩ := by decide

theorem startOfYear_eq {c q y : ℤ} (hq : 0 ≤ q ∧ q ≤ 24) (hy : 0 ≤ y ∧ y ≤ 3) :
    startOfYear (100 * c + 4 * q + y) = 36524 * c + 1461 * q + 365 * y := by
  have h4 : (100 * c + 4 * q + y) / 4 = 25 * c + q := by omega
  have h100 : (100 * c + 4 * q + y) / 100 = c := by omega
  rw [startOfYear, h4, h100]
  omega

theorem yearOfCycle_bounds (day : ℤ) (h0 : 0 ≤ day) (h : day < 146097) :
    0 ≤ yearOfCycle day ∧ yearOfCycle day ≤ 399 ∧ startOfYear (yearOfCycle day) ≤ day ∧
      day - startOfYear (yearOfCycle day) ≤ 365 := by
  obtain ⟨c, hc⟩ : ∃ c, c = min (day / 36524) 3 := ⟨_, rfl⟩
  obtain ⟨r, hr⟩ : ∃ r, r = day - 36524 * c := ⟨_, rfl⟩
  obtain ⟨q, hq⟩ : ∃ q, q = r / 1461 := ⟨_, rfl⟩
  obtain ⟨y, hy⟩ : ∃ y, y = min (r % 1461 / 365) 3 := ⟨_, rfl⟩
  have hyear : yearOfCycle day = 100 * c + 4 * q + y := by
    rw [hy, hq, hr, hc]
    rfl
  have hc3 : 0 ≤ c ∧ c ≤ 3 := by omega
  have hr3 : 0 ≤ r ∧ r ≤ 36524 := by omega
  have hq24 : 0 ≤ q ∧ q ≤ 24 := by omega
  have hy3 : 0 ≤ y ∧ y ≤ 3 := by omega
  rw [hyear, startOfYear_eq hq24 hy3]
  refine ⟨by omega, by omega, by omega, by omega⟩

section

variable {cycle y d : ℤ}

theorem dateOf_bounds (cycle : ℤ) (hy : 0 ≤ y ∧ y ≤ 399) (hd : 0 ≤ d ∧ d ≤ 365) :
    (1 ≤ (dateOf cycle y d).month ∧ (dateOf cycle y d).month ≤ 12) ∧
      (1 ≤ (dateOf cycle y d).day ∧ (dateOf cycle y d).day ≤ 31) ∧
      cycle * 400 ≤ (dateOf cycle y d).year ∧ (dateOf cycle y d).year ≤ cycle * 400 + 400 := by
  unfold dateOf monthOf
  dsimp only
  generalize cycle * 400 = c
  refine ⟨by omega, by omega, ?_⟩
  split_ifs <;> omega

theorem daysOf_dateOf (hy : 0 ≤ y ∧ y ≤ 399) (hd : 0 ≤ d ∧ d ≤ 365) :
    daysOf (dateOf cycle y d) = cycle * 146097 + startOfYear y + d - 719468 := by
  unfold daysOf dateOf
  dsimp only
  generalize hm : (5 * d + 2) / 153 = m
  have hm12 : 0 ≤ m ∧ m ≤ 11 := by omega
  have hmonth : (monthOf m + 9) % 12 = m := by
    unfold monthOf
    split <;> omega
  have hyear : (if monthOf m ≤ 2 then cycle * 400 + y + (if monthOf m ≤ 2 then 1 else 0) - 1
      else cycle * 400 + y + (if monthOf m ≤ 2 then 1 else 0)) = cycle * 400 + y := by
    split <;> omega
  rw [hyear, hmonth]
  have hdiv : (cycle * 400 + y) / 400 = cycle := by omega
  have hmod : (cycle * 400 + y) % 400 = y := by omega
  rw [hdiv, hmod]
  omega

end

theorem daysOf_civil (days : ℤ) : daysOf (civil days) = days := by
  obtain ⟨hy0, hy, hd0, hd⟩ := yearOfCycle_bounds ((days + 719468) % 146097)
    (by omega) (by omega)
  rw [civil, daysOf_dateOf ⟨hy0, hy⟩ ⟨by omega, hd⟩]
  omega

theorem civil_bounds {days : ℤ} (h : |days| ≤ 100000000) :
    (1 ≤ (civil days).month ∧ (civil days).month ≤ 12) ∧
      (1 ≤ (civil days).day ∧ (civil days).day ≤ 31) ∧ (civil days).year.natAbs < 10 ^ 6 := by
  obtain ⟨hy0, hy, hd0, hd⟩ := yearOfCycle_bounds ((days + 719468) % 146097)
    (by omega) (by omega)
  obtain ⟨hmonth, hday, hlow, hhigh⟩ := dateOf_bounds ((days + 719468) / 146097) ⟨hy0, hy⟩
    ⟨by omega, hd⟩
  have hdays := abs_le.1 h
  refine ⟨hmonth, hday, ?_⟩
  unfold civil
  dsimp only
  omega

/-! ### Digits of a fixed width -/

/-- The last `w` decimal digits of a number. -/
def padded : ℕ → ℕ → List Char
  | 0, _ => []
  | w + 1, n => padded w (n / 10) ++ [Nat.digitChar (n % 10)]

theorem length_padded : ∀ w n, (padded w n).length = w
  | 0, _ => rfl
  | w + 1, n => by rw [padded, List.length_append, length_padded w, List.length_singleton]

theorem isDigit_of_mem_padded {c : Char} : ∀ {w n}, c ∈ padded w n → c.isDigit = true
  | 0, _, h => absurd h List.not_mem_nil
  | w + 1, n, h => by
    have hdigit : ∀ d < 10, (Nat.digitChar d).isDigit = true := by decide
    rcases List.mem_append.1 h with h | h
    · exact isDigit_of_mem_padded h
    · rw [List.mem_singleton.1 h]
      exact hdigit _ (Nat.mod_lt _ (by decide))

theorem padded_inj : ∀ {w m n}, m < 10 ^ w → n < 10 ^ w → padded w m = padded w n → m = n
  | 0, m, n, hm, hn, _ => by omega
  | w + 1, m, n, hm, hn, h => by
    have hdigit : ∀ d < 10, ∀ e < 10, Nat.digitChar d = Nat.digitChar e → d = e := by decide
    rw [pow_succ, ← Nat.div_lt_iff_lt_mul (by decide)] at hm hn
    obtain ⟨hinit, hlast⟩ := List.append_inj h (by rw [length_padded, length_padded])
    have hdiv := padded_inj hm hn hinit
    have hmod := hdigit _ (Nat.mod_lt m (by decide)) _ (Nat.mod_lt n (by decide))
      (List.singleton_inj.1 hlast)
    omega

theorem padded_append_inj {w m n : ℕ} {c : Char} {r r' : List Char} (hm : m < 10 ^ w)
    (hn : n < 10 ^ w) (h : padded w m ++ c :: r = padded w n ++ c :: r') : m = n ∧ r = r' := by
  obtain ⟨hp, hr⟩ := List.append_inj h (by rw [length_padded, length_padded])
  exact ⟨padded_inj hm hn hp, (List.cons.inj hr).2⟩

/-! ### The text -/

def sign (y : ℤ) : Char := if 0 ≤ y then '+' else '-'

/-- The year, with a sign and six digits outside of `0000`–`9999`. -/
def yearText (y : ℤ) : List Char :=
  if 0 ≤ y ∧ y ≤ 9999 then padded 4 y.natAbs
  else sign y :: padded 6 y.natAbs

/-- `date.toISOString()`. -/
def isoText (t : ℤ) : List Char :=
  let c := civil (t / 86400000)
  let ms := (t % 86400000).toNat
  yearText c.year ++ '-' :: (padded 2 c.month.toNat ++ '-' :: (padded 2 c.day.toNat ++ 'T' ::
    (padded 2 (ms / 3600000) ++ ':' :: (padded 2 (ms / 60000 % 60) ++ ':' ::
      (padded 2 (ms / 1000 % 60) ++ '.' :: (padded 3 (ms % 1000) ++ ['Z']))))))

def InRange (t : ℤ) : Prop := |t| ≤ 8640000000000000

instance (t : ℤ) : Decidable (InRange t) := inferInstanceAs (Decidable (_ ≤ _))

example : isoText 1709210096789 = "2024-02-29T12:34:56.789Z".toList := by decide

theorem yearText_append_inj {y z : ℤ} {r r' : List Char} (hy : y.natAbs < 10 ^ 6)
    (hz : z.natAbs < 10 ^ 6) (h : yearText y ++ '-' :: r = yearText z ++ '-' :: r') :
    y = z ∧ r = r' := by
  have hne : ∀ (c : Char) (w n : ℕ) (l l' : List Char), c.isDigit = false → 0 < w →
      padded w n ++ l ≠ c :: l' := by
    intro c w n l l' hc hw heq
    cases hp : padded w n with
    | nil =>
      have hlen := length_padded w n
      rw [hp] at hlen
      simp at hlen
      omega
    | cons d p =>
      have hd := isDigit_of_mem_padded (hp ▸ List.mem_cons_self : d ∈ padded w n)
      rw [hp] at heq
      rw [(List.cons.inj heq).1, hc] at hd
      cases hd
  have hsign : ∀ v : ℤ, (sign v).isDigit = false := by
    intro v
    unfold sign
    split <;> rfl
  unfold yearText at h
  split_ifs at h with h1 h2 h2
  · obtain ⟨heq, hr⟩ := padded_append_inj (by omega) (by omega) h
    exact ⟨by omega, hr⟩
  · exact absurd h (hne _ 4 _ _ _ (hsign z) (by decide))
  · exact absurd h.symm (hne _ 4 _ _ _ (hsign y) (by decide))
  · rw [List.cons_append, List.cons_append] at h
    obtain ⟨hhead, h⟩ := List.cons.inj h
    obtain ⟨heq, hr⟩ := padded_append_inj hy hz h
    refine ⟨?_, hr⟩
    unfold sign at hhead
    split_ifs at hhead with h3 h4 h4
    · omega
    · exact absurd hhead (by decide)
    · exact absurd hhead (by decide)
    · omega

theorem isoText_inj {t u : ℤ} (ht : InRange t) (hu : InRange u) (h : isoText t = isoText u) :
    t = u := by
  have hdays : ∀ {v : ℤ}, InRange v → |v / 86400000| ≤ 100000000 := by
    intro v hv
    have := abs_le.1 hv
    exact abs_le.2 ⟨by omega, by omega⟩
  obtain ⟨hmt, hdt, hyt⟩ := civil_bounds (hdays ht)
  obtain ⟨hmu, hdu, hyu⟩ := civil_bounds (hdays hu)
  unfold isoText at h
  dsimp only at h
  obtain ⟨hyear, h⟩ := yearText_append_inj hyt hyu h
  obtain ⟨hmonth, h⟩ := padded_append_inj (by omega) (by omega) h
  obtain ⟨hday, h⟩ := padded_append_inj (by omega) (by omega) h
  obtain ⟨hhour, h⟩ := padded_append_inj (by omega) (by omega) h
  obtain ⟨hminute, h⟩ := padded_append_inj (by omega) (by omega) h
  obtain ⟨hsecond, h⟩ := padded_append_inj (by omega) (by omega) h
  obtain ⟨hms, -⟩ := padded_append_inj (by omega) (by omega) h
  have hcivil : civil (t / 86400000) = civil (u / 86400000) :=
    Civil.ext hyear (by omega) (by omega)
  have hday := congrArg daysOf hcivil
  rw [daysOf_civil, daysOf_civil] at hday
  omega

/-! ### Bare dates -/

/-- `/^\d{4}-\d{2}-\d{2}$/`. -/
def isBareDate : List Char → Bool
  | [y0, y1, y2, y3, d0, m0, m1, d1, a0, a1] =>
    [y0, y1, y2, y3, m0, m1, a0, a1].all Char.isDigit && decide (d0 = '-') && decide (d1 = '-')
  | _ => false

/-- `new Date(`${text}T00:00:00.000Z`)` of a bare date; `none` is an invalid date.  A day of the month
runs on into the next one, and days from the thirty-second on are refused. -/
def midnight (l : List Char) : Option ℤ :=
  let month := Nat.ofDigitChars 10 ((l.drop 5).take 2) 0
  let day := Nat.ofDigitChars 10 (l.drop 8) 0
  if 1 ≤ month ∧ month ≤ 12 ∧ 1 ≤ day ∧ day ≤ 31 then
    some (daysOf ⟨Nat.ofDigitChars 10 (l.take 4) 0, month, day⟩ * 86400000)
  else none

theorem ofDigitChars_lt {l : List Char} (hl : ∀ c ∈ l, c.isDigit = true) :
    Nat.ofDigitChars 10 l 0 < 10 ^ l.length := by
  induction l with
  | nil => exact Nat.one_pos
  | cons c l ih =>
    have hrest := ih fun d hd => hl d (List.mem_cons_of_mem c hd)
    have hc := hl c List.mem_cons_self
    simp only [Char.isDigit, Bool.and_eq_true, decide_eq_true_eq, UInt32.le_iff_toNat_le] at hc
    have hdigit : c.toNat - '0'.toNat ≤ 9 := by
      have h9 : c.toNat ≤ 57 := hc.2
      have h0 : '0'.toNat = 48 := rfl
      omega
    rw [Nat.ofDigitChars_cons, Nat.ofDigitChars_eq_ofDigitChars_zero, List.length_cons, pow_succ]
    have hscaled := Nat.mul_le_mul_left (10 ^ l.length) hdigit
    simp only [Nat.mul_zero, Nat.zero_add]
    omega

theorem midnight_inRange {l : List Char} {t : ℤ} (hl : isBareDate l = true)
    (h : midnight l = some t) : InRange t := by
  have hyear : Nat.ofDigitChars 10 (l.take 4) 0 < 10 ^ 4 := by
    unfold isBareDate at hl
    split at hl
    · refine ofDigitChars_lt fun c hc => ?_
      simp only [Bool.and_eq_true, List.all_eq_true] at hl
      refine hl.1.1 c ?_
      simp only [List.take_succ_cons, List.take_zero, List.mem_cons, List.not_mem_nil] at hc ⊢
      tauto
    · cases hl
  unfold midnight at h
  simp only [Option.ite_none_right_eq_some, Option.some.injEq] at h
  obtain ⟨⟨hm0, hm, hd0, hd⟩, rfl⟩ := h
  generalize Nat.ofDigitChars 10 (l.take 4) 0 = year at hyear ⊢
  unfold InRange daysOf startOfYear
  rw [abs_le]
  dsimp only
  split_ifs <;> omega

example : midnight "2023-02-30".toList = some 1677715200000 := by decide

end Lib.IsoDate
