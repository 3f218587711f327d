import Mathlib.Data.Nat.Log
import Mathlib.Tactic.Linarith
import Mathlib.Tactic.Ring

/-!
# Integers as doubles

`Number(n)` of a big integer keeps 53 significant bits and rounds the rest to the
nearest multiple, ties to even.  Rounding never exchanges the order of two numbers
(`ofInt_mono`) and rounding twice changes nothing more (`ofInt_ofInt`), so the integers
a double holds are the fixed points of `ofInt`: the type `Whole`.
-/

namespace Lib.Double

/-- Round `n` to a multiple of `u`, ties to the even multiple. -/
def roundTo (u n : ℕ) : ℕ :=
  let q := n / u
  let r := n % u
  if 2 * r < u then q * u
  else if u < 2 * r then (q + 1) * u
  else if q % 2 = 0 then q * u else (q + 1) * u

/-- The unit in the last place of the 53-bit representation of `n`. -/
def ulp (n : ℕ) : ℕ := 2 ^ (Nat.log2 n - 52)

/-- `Number(n)` for a non-negative integer. -/
def ofNat (n : ℕ) : ℕ := roundTo (ulp n) n

/-- `Number(n)`. -/
def ofInt : ℤ → ℤ
  | .ofNat n => ofNat n
  | .negSucc n => -(ofNat (n + 1) : ℕ)

/-! ### Rounding to a multiple -/

section

variable {u : ℕ}

theorem roundTo_bounds (n : ℕ) : n / u * u ≤ roundTo u n ∧ roundTo u n ≤ (n / u + 1) * u := by
  have hstep : n / u * u ≤ (n / u + 1) * u := Nat.mul_le_mul_right u (Nat.le_succ _)
  unfold roundTo
  dsimp only
  split_ifs <;> exact ⟨by omega, by omega⟩

theorem dvd_roundTo (n : ℕ) : u ∣ roundTo u n := by
  unfold roundTo
  dsimp only
  split_ifs <;> exact Dvd.intro_left _ rfl

theorem roundTo_of_dvd (hu : 0 < u) {n : ℕ} (h : u ∣ n) : roundTo u n = n := by
  have hr : n % u = 0 := Nat.mod_eq_zero_of_dvd h
  unfold roundTo
  dsimp only
  rw [hr, if_pos (by omega)]
  exact Nat.div_mul_cancel h

theorem roundTo_mono {m n : ℕ} (h : m ≤ n) : roundTo u m ≤ roundTo u n := by
  have hq : m / u ≤ n / u := Nat.div_le_div_right h
  rcases Nat.eq_or_lt_of_le hq with he | hl
  · -- the same multiple below both, so only the remainders are compared
    have hm := Nat.div_add_mod m u
    have hn := Nat.div_add_mod n u
    have hr : m % u ≤ n % u := by rw [he] at hm; omega
    have hstep : n / u * u ≤ (n / u + 1) * u := Nat.mul_le_mul_right u (Nat.le_succ _)
    unfold roundTo
    dsimp only
    rw [he]
    split_ifs <;> omega
  · calc roundTo u m ≤ (m / u + 1) * u := (roundTo_bounds m).2
      _ ≤ n / u * u := Nat.mul_le_mul_right u hl
      _ ≤ roundTo u n := (roundTo_bounds n).1

end

/-! ### Rounding to 53 bits -/

theorem ulp_pos (n : ℕ) : 0 < ulp n := Nat.two_pow_pos _

theorem ulp_dvd_pow (n e : ℕ) (h : Nat.log2 n - 52 ≤ e) : ulp n ∣ 2 ^ e :=
  Nat.pow_dvd_pow 2 h

theorem pow_log2_le_ofNat {n : ℕ} (hn : n ≠ 0) : 2 ^ Nat.log2 n ≤ ofNat n := by
  have hle : 2 ^ Nat.log2 n ≤ n := Nat.log2_self_le hn
  have hfix : roundTo (ulp n) (2 ^ Nat.log2 n) = 2 ^ Nat.log2 n :=
    roundTo_of_dvd (ulp_pos n) (ulp_dvd_pow n _ (Nat.sub_le _ _))
  calc 2 ^ Nat.log2 n = roundTo (ulp n) (2 ^ Nat.log2 n) := hfix.symm
    _ ≤ ofNat n := roundTo_mono hle

theorem ofNat_le_pow (n : ℕ) : ofNat n ≤ 2 ^ (Nat.log2 n + 1) := by
  have hle : n ≤ 2 ^ (Nat.log2 n + 1) := Nat.le_of_lt Nat.lt_log2_self
  have hfix : roundTo (ulp n) (2 ^ (Nat.log2 n + 1)) = 2 ^ (Nat.log2 n + 1) :=
    roundTo_of_dvd (ulp_pos n) (ulp_dvd_pow n _ (by omega))
  calc ofNat n ≤ roundTo (ulp n) (2 ^ (Nat.log2 n + 1)) := roundTo_mono hle
    _ = 2 ^ (Nat.log2 n + 1) := hfix

@[simp] theorem ofNat_zero : ofNat 0 = 0 := rfl

theorem ofNat_mono {m n : ℕ} (h : m ≤ n) : ofNat m ≤ ofNat n := by
  rcases Nat.eq_zero_or_pos m with rfl | hm
  · simp
  have hn : n ≠ 0 := by omega
  have hlog : Nat.log2 m ≤ Nat.log2 n := by
    rw [Nat.log2_eq_log_two, Nat.log2_eq_log_two]
    exact Nat.log_mono_right h
  rcases Nat.eq_or_lt_of_le hlog with he | hl
  · have hu : ulp m = ulp n := by rw [ulp, ulp, he]
    rw [ofNat, ofNat, hu]
    exact roundTo_mono h
  · calc ofNat m ≤ 2 ^ (Nat.log2 m + 1) := ofNat_le_pow m
      _ ≤ 2 ^ Nat.log2 n := Nat.pow_le_pow_right (by norm_num) hl
      _ ≤ ofNat n := pow_log2_le_ofNat hn

theorem ofNat_two_pow (e : ℕ) : ofNat (2 ^ e) = 2 ^ e :=
  roundTo_of_dvd (ulp_pos _) (ulp_dvd_pow _ _ (by rw [Nat.log2_two_pow]; exact Nat.sub_le _ _))

theorem ofNat_ofNat (n : ℕ) : ofNat (ofNat n) = ofNat n := by
  rcases Nat.eq_zero_or_pos n with rfl | hn
  · simp
  have hn0 : n ≠ 0 := by omega
  rcases Nat.eq_or_lt_of_le (ofNat_le_pow n) with he | hl
  · rw [he, ofNat_two_pow]
  · -- the rounded number has the same leading bit, hence the same unit
    have hne : ofNat n ≠ 0 := by
      have := pow_log2_le_ofNat hn0
      have := Nat.two_pow_pos (Nat.log2 n)
      omega
    have hlog : Nat.log2 (ofNat n) = Nat.log2 n := by
      rw [Nat.log2_eq_iff hne]
      exact ⟨pow_log2_le_ofNat hn0, hl⟩
    have hu : ulp (ofNat n) = ulp n := by rw [ulp, ulp, hlog]
    rw [show ofNat (ofNat n) = roundTo (ulp (ofNat n)) (ofNat n) from rfl, hu]
    exact roundTo_of_dvd (ulp_pos n) (dvd_roundTo n)

theorem ofInt_mono {m n : ℤ} (h : m ≤ n) : ofInt m ≤ ofInt n := by
  cases m with
  | ofNat m =>
    cases n with
    | ofNat n =>
      have hmn : m ≤ n := Int.ofNat_le.1 h
      exact Int.ofNat_le.2 (ofNat_mono hmn)
    | negSucc n =>
      have hpos : (0 : ℤ) ≤ Int.ofNat m := Int.natCast_nonneg m
      exact absurd h (by omega)
  | negSucc m =>
    cases n with
    | ofNat n =>
      simp only [ofInt]
      omega
    | negSucc n =>
      have hmn : n + 1 ≤ m + 1 := by omega
      have := ofNat_mono hmn
      simp only [ofInt]
      omega

theorem ofInt_neg_natCast (n : ℕ) : ofInt (-(n : ℤ)) = -(ofNat n : ℕ) := by
  cases n with
  | zero => rfl
  | succ n => rfl

theorem ofInt_ofInt (n : ℤ) : ofInt (ofInt n) = ofInt n := by
  cases n with
  | ofNat n => exact congrArg Int.ofNat (ofNat_ofNat n)
  | negSucc n =>
    rw [show ofInt (.negSucc n) = -(ofNat (n + 1) : ℕ) from rfl, ofInt_neg_natCast, ofNat_ofNat]

/-! ### The integers a double holds -/

def Whole := {n : ℤ // ofInt n = n}

deriving instance DecidableEq for Whole

instance : LinearOrder Whole := inferInstanceAs (LinearOrder {n : ℤ // ofInt n = n})

/-- `Number(n)`. -/
def number (n : ℤ) : Whole := ⟨ofInt n, ofInt_ofInt n⟩

theorem number_mono {m n : ℤ} (h : m ≤ n) : number m ≤ number n := ofInt_mono h

end Lib.Double
