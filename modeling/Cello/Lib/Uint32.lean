import Mathlib.Data.List.Basic
import Mathlib.Tactic.NormNum

/-!
# Thirty-two bits on the wire

The four bytes of a number, the most significant first, and the number of four bytes.  Below `2 ^ 32` each gives the
other back.
-/

namespace Lib.Uint32

/-- `writeUInt32BE`. -/
def write (n : ℕ) : List UInt8 := [.ofNat (n / 2 ^ 24), .ofNat (n / 2 ^ 16), .ofNat (n / 2 ^ 8), .ofNat n]

/-- `readUInt32BE`, of the first four bytes. -/
def read : List UInt8 → ℕ
  | a :: b :: c :: d :: _ => ((a.toNat * 256 + b.toNat) * 256 + c.toNat) * 256 + d.toNat
  | _ => 0

theorem length_write (n : ℕ) : (write n).length = 4 := rfl

theorem read_lt (b : List UInt8) : read b < 2 ^ 32 := by
  unfold read
  split
  · rename_i a b c d _
    have := a.toNat_lt
    have := b.toNat_lt
    have := c.toNat_lt
    have := d.toNat_lt
    omega
  · exact Nat.two_pow_pos 32

theorem read_write {n : ℕ} (hn : n < 2 ^ 32) (rest : List UInt8) : read (write n ++ rest) = n := by
  simp only [write, read, List.cons_append, UInt8.toNat_ofNat']
  omega

theorem write_inj {m n : ℕ} (hm : m < 2 ^ 32) (hn : n < 2 ^ 32) (h : write m = write n) : m = n := by
  rw [← read_write hm [], ← read_write hn [], h]

theorem write_read {b : List UInt8} (hb : 4 ≤ b.length) : write (read b) = b.take 4 := by
  match b, hb with
  | a :: b :: c :: d :: rest, _ =>
    have ha := a.toNat_lt
    have hb := b.toNat_lt
    have hc := c.toNat_lt
    have hd := d.toNat_lt
    simp only [write, read, List.take_succ_cons, List.take_zero, List.cons.injEq, and_true]
    refine ⟨?_, ?_, ?_, ?_⟩
    all_goals
      rw [← UInt8.toNat_inj, UInt8.toNat_ofNat']
      omega

end Lib.Uint32
