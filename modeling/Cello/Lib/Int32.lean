import Mathlib.Tactic.NormNum
import Mathlib.Tactic.Ring

/-!
# The 32-bit integer operators of JavaScript

`&`, `<<` and `>>` first send their operands through `ToInt32`, the signed
representative modulo `2 ^ 32`, so a number that looks like an integer of
arbitrary size wraps silently once it reaches `2 ^ 31`.  A shift count is taken
modulo `32`.

`toInt32_of_lt` says where the wrapping is invisible; `oneShl_of_le` is the same
for the powers of two that tree code builds with `1 << k`, and `oneShl_thirty_one`
and `oneShl_thirty_two` are the first two values where it is not.
-/

namespace Lib.Int32

/-- `ToInt32`: the representative of `n` modulo `2 ^ 32` in `[-2 ^ 31, 2 ^ 31)`. -/
def toInt32 (n : ℤ) : ℤ := n.bmod (2 ^ 32)

/-- `1 << k`. -/
def oneShl (k : ℕ) : ℤ := toInt32 (2 ^ (k % 32))

/-- `n & 1`. -/
def andOne (n : ℤ) : ℤ := toInt32 n % 2

/-- `n >> 1`, the arithmetic shift: it rounds towards `-∞`. -/
def shrOne (n : ℤ) : ℤ := toInt32 n / 2

theorem toInt32_of_lt {n : ℤ} (h0 : 0 ≤ n) (h : n < 2 ^ 31) : toInt32 n = n := by
  rw [toInt32, Int.bmod_eq_of_le] <;> norm_num <;> omega

theorem andOne_of_lt {n : ℤ} (h0 : 0 ≤ n) (h : n < 2 ^ 31) : andOne n = n % 2 := by
  rw [andOne, toInt32_of_lt h0 h]

theorem shrOne_of_lt {n : ℤ} (h0 : 0 ≤ n) (h : n < 2 ^ 31) : shrOne n = n / 2 := by
  rw [shrOne, toInt32_of_lt h0 h]

theorem oneShl_of_le {k : ℕ} (h : k ≤ 30) : oneShl k = 2 ^ k := by
  rw [oneShl, Nat.mod_eq_of_lt (by omega)]
  refine toInt32_of_lt (by positivity) ?_
  exact pow_lt_pow_right₀ (by norm_num) (by omega)

theorem oneShl_thirty_one : oneShl 31 = -2 ^ 31 := by decide

theorem oneShl_thirty_two : oneShl 32 = 1 := by decide

end Lib.Int32
