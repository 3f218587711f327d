import Mathlib.Data.List.Basic
import Mathlib.Tactic.NormNum

/-!
# Base64

Three bytes as four characters of an alphabet of sixty-four, and a group that is not full padded with `=`.  Reading
stops at the padding; it takes the alphabet for file names too, and passes over what is of neither.
-/

namespace Lib.Base64

def alphabet : List Char := "ABCDEFGHIJKLMNOPQRSTUVWXYZabcdefghijklmnopqrstuvwxyz0123456789+/".toList

def digit (n : ℕ) : Char := alphabet.getD n 'A'

/-- `buffer.toString("base64")`. -/
def encode : List UInt8 → List Char
  | [] => []
  | [a] => [digit (a.toNat / 4), digit (a.toNat % 4 * 16), '=', '=']
  | [a, b] => [digit (a.toNat / 4), digit (a.toNat % 4 * 16 + b.toNat / 16), digit (b.toNat % 16 * 4), '=']
  | a :: b :: c :: rest =>
    digit (a.toNat / 4) :: digit (a.toNat % 4 * 16 + b.toNat / 16) :: digit (b.toNat % 16 * 4 + c.toNat / 64) ::
      digit (c.toNat % 64) :: encode rest

def value (c : Char) : Option ℕ :=
  if c = '-' then some 62 else if c = '_' then some 63 else alphabet.idxOf? c

/-- Four values are three bytes; of the last ones, the bits that fill bytes. -/
def group : List ℕ → List UInt8
  | a :: b :: c :: d :: rest =>
    .ofNat (a * 4 + b / 16) :: .ofNat (b % 16 * 16 + c / 4) :: .ofNat (c % 4 * 64 + d) :: group rest
  | [a, b, c] => [.ofNat (a * 4 + b / 16), .ofNat (b % 16 * 16 + c / 4)]
  | [a, b] => [.ofNat (a * 4 + b / 16)]
  | _ => []

/-- `Buffer.from(s, "base64")`. -/
def decode (s : List Char) : List UInt8 := group ((s.takeWhile fun c => decide (c ≠ '=')).filterMap value)

set_option maxRecDepth 4000 in
theorem value_digit {n : ℕ} (hn : n < 64) : digit n ≠ '=' ∧ value (digit n) = some n := by
  have hall : ∀ m < 64, digit m ≠ '=' ∧ value (digit m) = some m := by decide
  exact hall n hn

theorem values_cons {n : ℕ} (hn : n < 64) (s : List Char) :
    ((digit n :: s).takeWhile fun c => decide (c ≠ '=')).filterMap value =
      n :: (s.takeWhile fun c => decide (c ≠ '=')).filterMap value := by
  obtain ⟨hpad, hvalue⟩ := value_digit hn
  rw [List.takeWhile_cons, if_pos (decide_eq_true hpad), List.filterMap_cons_some hvalue]

theorem decode_encode (b : List UInt8) : decode (encode b) = b := by
  have hbyte : ∀ x : UInt8, ∀ n, n = x.toNat → UInt8.ofNat n = x := by
    rintro x n rfl
    exact UInt8.ofNat_toNat
  fun_induction encode b with
  | case1 => rfl
  | case2 a =>
    have ha := a.toNat_lt
    rw [decode, values_cons (by omega), values_cons (by omega)]
    simp only [ne_eq, not_true_eq_false, decide_false, Bool.false_eq_true, not_false_eq_true,
      List.takeWhile_cons_of_neg, List.filterMap_nil, group]
    rw [hbyte a _ (by omega)]
  | case3 a b =>
    have ha := a.toNat_lt
    have hb := b.toNat_lt
    rw [decode, values_cons (by omega), values_cons (by omega), values_cons (by omega)]
    simp only [ne_eq, not_true_eq_false, decide_false, Bool.false_eq_true, not_false_eq_true,
      List.takeWhile_cons_of_neg, List.filterMap_nil, group]
    rw [hbyte a _ (by omega), hbyte b _ (by omega)]
  | case4 a b c rest ih =>
    have ha := a.toNat_lt
    have hb := b.toNat_lt
    have hc := c.toNat_lt
    rw [decode, values_cons (by omega), values_cons (by omega), values_cons (by omega), values_cons (by omega), group]
    rw [hbyte a _ (by omega), hbyte b _ (by omega), hbyte c _ (by omega)]
    rw [decode] at ih
    rw [ih]

end Lib.Base64
