import Cello.Lib.Double

/-!
# JavaScript values off a wire

Byte strings, numbers as JavaScript compares them, and the values a CBOR decoder
returns.  A number is a rational, an infinity or `NaN`; a comparison with `NaN` is
false both ways, so `¬ a > b` does not give `a ≤ b` and code that refuses on
`a > b` lets a `NaN` through.
-/

namespace Lib

/-- `Uint8Array`. -/
abbrev Bytes := List UInt8

instance : LawfulBEq Bytes := inferInstance

namespace Bytes

def hexDigit (n : ℕ) : Char :=
  if n < 10 then Char.ofNat (n + 48) else Char.ofNat (n + 87)

/-- `Buffer.from(b).toString("hex")`. -/
def toHex (b : Bytes) : String :=
  String.ofList (b.flatMap fun x => [hexDigit (x.toNat / 16), hexDigit (x.toNat % 16)])

def isHexDigit (c : Char) : Bool :=
  ('0' ≤ c && c ≤ '9') || ('a' ≤ c && c ≤ 'f') || ('A' ≤ c && c ≤ 'F')

/-- `/^[0-9a-fA-F]{64}$/`. -/
def isHex64 (s : String) : Bool := decide (s.length = 64) && s.toList.all isHexDigit

def lowerHexValue (c : Char) : ℕ := if '0' ≤ c ∧ c ≤ '9' then c.toNat - 48 else c.toNat - 87

def ofHexDigits : List Char → Bytes
  | a :: b :: rest => UInt8.ofNat (16 * lowerHexValue a + lowerHexValue b) :: ofHexDigits rest
  | _ => []

/-- `Buffer.from(s, "hex")` of hex digits in either case. -/
def ofHex (s : String) : Bytes := ofHexDigits s.toLower.toList

end Bytes

/-- `number`. -/
inductive JsNumber where
  | nan
  | negInf
  | fin (q : ℚ)
  | posInf
deriving DecidableEq, Repr

namespace JsNumber

instance : NatCast JsNumber := ⟨fun n => fin n⟩

theorem natCast_eq (n : ℕ) : (n : JsNumber) = fin n := rfl

theorem natCast_inj {m n : ℕ} (h : (m : JsNumber) = n) : m = n := by
  rw [natCast_eq, natCast_eq] at h
  exact Nat.cast_injective (JsNumber.fin.inj h)

/-- `a > b`. -/
def gt : JsNumber → JsNumber → Bool
  | fin a, fin b => decide (b < a)
  | posInf, fin _ => true
  | posInf, negInf => true
  | fin _, negInf => true
  | _, _ => false

/-- `a >= b`. -/
def ge : JsNumber → JsNumber → Bool
  | fin a, fin b => decide (b ≤ a)
  | posInf, posInf => true
  | posInf, fin _ => true
  | posInf, negInf => true
  | fin _, negInf => true
  | negInf, negInf => true
  | _, _ => false

/-- `Number.isInteger(a)`. -/
def isInteger : JsNumber → Bool
  | fin q => decide (q.den = 1)
  | _ => false

/-- `Number(n)` of a big integer. -/
def ofBigint (n : ℤ) : JsNumber :=
  if 2 ^ 1024 ≤ Double.ofInt n then posInf
  else if Double.ofInt n ≤ -2 ^ 1024 then negInf
  else fin (Double.ofInt n)

/-- `a >>> 0`: the integer part modulo `2 ^ 32`. -/
def toUint32 : JsNumber → ℕ
  | fin q => (q.num.tdiv q.den % 2 ^ 32).toNat
  | _ => 0

/-- `Math.max(a, b)`. -/
def max (a b : JsNumber) : JsNumber :=
  if a = nan ∨ b = nan then nan else if b.gt a then b else a

@[simp] theorem gt_fin (a b : ℚ) : (fin a).gt (fin b) = decide (b < a) := rfl

@[simp] theorem ge_fin (a b : ℚ) : (fin a).ge (fin b) = decide (b ≤ a) := rfl

theorem gt_natCast (a b : ℕ) : (a : JsNumber).gt b = decide (b < a) := by
  rw [natCast_eq, natCast_eq, gt_fin]
  exact decide_eq_decide.2 Nat.cast_lt

theorem ge_natCast (a b : ℕ) : (a : JsNumber).ge b = decide (b ≤ a) := by
  rw [natCast_eq, natCast_eq, ge_fin]
  exact decide_eq_decide.2 Nat.cast_le

theorem natCast_ge_iff {a : JsNumber} {m : ℕ} :
    (m : JsNumber).ge a = true ↔ a ≠ nan ∧ a.gt (m : JsNumber) = false := by
  cases a with
  | nan => simp [natCast_eq, ge]
  | negInf => simp [ge, gt]
  | posInf => simp [ge, gt]
  | fin q => simp [natCast_eq]

end JsNumber

/-- What a CBOR decoder returns, as far as its callers tell values apart. -/
inductive Cbor where
  | num (n : JsNumber)
  | bigint (n : ℤ)
  | bytes (b : Bytes)
  | arr (l : List Cbor)
  | other

end Lib
