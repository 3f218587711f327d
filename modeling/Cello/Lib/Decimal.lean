import Cello.Lib.Double
import Cello.Lib.Text

/-!
# The decimal text of a number

`String(n)` of an integer-valued number writes the shortest decimal that reads back as
`n`, in plain digits up to twenty-one places and with an exponent beyond.  Below `2 ^ 53`
that is the number's own decimal; above, the text may name a neighbour that rounds to the
same double (`String(2 ** 60)` ends in `7000`).

Two rules come out of it: the text reads back as the number (`number_integer`), so no two
numbers share a text (`text_inj`).
-/

namespace Lib.Double

/-- The multiple of `10 ^ j` nearest to `n` among those that read back as `n`. -/
def candidate (n j : ℕ) : Option ℕ :=
  let lo := n / 10 ^ j
  let reads := fun c => decide (0 < c) && decide (ofNat (c * 10 ^ j) = n)
  if reads lo && (!reads (lo + 1) || decide (2 * (n - lo * 10 ^ j) ≤ 10 ^ j)) then some lo
  else if reads (lo + 1) then some (lo + 1)
  else none

def shortest (n : ℕ) : ℕ × ℕ :=
  ((List.range ((Nat.toDigits 10 n).length + 1)).reverse.findSome?
    fun j => (candidate n j).map (·, j)).getD (n, 0)

/-- The integer that the shortest decimal of `n` writes. -/
def integerNat (n : ℕ) : ℕ := (shortest n).1 * 10 ^ (shortest n).2

def mantissa : List Char → List Char
  | [] => []
  | [d] => [d]
  | d :: e :: r => d :: '.' :: e :: r

/-- `String(n)` for a non-negative `n`. -/
def magnitude (n : ℕ) : List Char :=
  let digits := Nat.toDigits 10 (shortest n).1
  let places := digits.length + (shortest n).2
  if places ≤ 21 then Nat.toDigits 10 (integerNat n)
  else mantissa digits ++ 'e' :: '+' :: Nat.toDigits 10 (places - 1)

/-- `String(d)`. -/
def text (d : Whole) : String :=
  String.ofList (if d.1 < 0 then '-' :: magnitude d.1.natAbs else magnitude d.1.natAbs)

/-- The integer that `String(d)` writes. -/
def integer (d : Whole) : ℤ :=
  if d.1 < 0 then -(integerNat d.1.natAbs : ℤ) else integerNat d.1.natAbs

/-! ### The text reads back -/

theorem candidate_reads {n j c : ℕ} (h : candidate n j = some c) : ofNat (c * 10 ^ j) = n := by
  unfold candidate at h
  dsimp only at h
  split_ifs at h with h1 h2
  · obtain rfl := Option.some.inj h
    simp only [Bool.and_eq_true, decide_eq_true_eq] at h1
    exact h1.1.2
  · obtain rfl := Option.some.inj h
    simp only [Bool.and_eq_true, decide_eq_true_eq] at h2
    exact h2.2

theorem ofNat_integerNat {n : ℕ} (hn : ofNat n = n) : ofNat (integerNat n) = n := by
  unfold integerNat shortest
  cases hf : (List.range ((Nat.toDigits 10 n).length + 1)).reverse.findSome?
      fun j => (candidate n j).map (·, j) with
  | none => simpa using hn
  | some p =>
    obtain ⟨j, -, hj⟩ := List.exists_of_findSome?_eq_some hf
    obtain ⟨c, hc, rfl⟩ := Option.map_eq_some_iff.1 hj
    exact candidate_reads hc

theorem Whole.ofNat_natAbs (d : Whole) : ofNat d.1.natAbs = d.1.natAbs := by
  obtain ⟨n, hn⟩ := d
  cases n with
  | ofNat n => exact Int.ofNat.inj hn
  | negSucc n =>
    simp only [ofInt] at hn
    simp only [Int.natAbs_negSucc, Nat.succ_eq_add_one]
    omega

theorem number_integer (d : Whole) : number (integer d) = d := by
  have habs := ofNat_integerNat d.ofNat_natAbs
  apply Subtype.ext
  change ofInt (integer d) = d.1
  unfold integer
  split_ifs with hneg
  · rw [ofInt_neg_natCast, habs]
    omega
  · change ((ofNat (integerNat d.1.natAbs) : ℕ) : ℤ) = d.1
    rw [habs]
    omega

/-! ### No two numbers share a text -/

theorem toDigits_inj {m n : ℕ} (h : Nat.toDigits 10 m = Nat.toDigits 10 n) : m = n :=
  Text.repr_toList_inj (by rw [Nat.toList_repr, Nat.toList_repr, h])

theorem notMem_toDigits {c : Char} (hc : c.isDigit = false) (n : ℕ) : c ∉ Nat.toDigits 10 n := by
  intro h
  have := Nat.isDigit_of_mem_toDigits (by decide) (by decide) h
  rw [hc] at this
  exact absurd this (by decide)

theorem mantissa_inj {l r : List Char} (h : mantissa l = mantissa r) : l = r := by
  match l, r with
  | [], [] => rfl
  | [], [_] => simp [mantissa] at h
  | [], _ :: _ :: _ => simp [mantissa] at h
  | [_], [] => simp [mantissa] at h
  | [_], [_] => simpa [mantissa] using h
  | [_], _ :: _ :: _ => simp [mantissa] at h
  | _ :: _ :: _, [] => simp [mantissa] at h
  | _ :: _ :: _, [_] => simp [mantissa] at h
  | _ :: _ :: _, _ :: _ :: _ => simpa [mantissa] using h

theorem mem_mantissa {c : Char} (hc : c ≠ '.') {l : List Char} : c ∈ mantissa l ↔ c ∈ l := by
  match l with
  | [] => simp [mantissa]
  | [_] => simp [mantissa]
  | _ :: _ :: _ => simp [mantissa, hc]

theorem magnitude_inj {m n : ℕ} (hm : ofNat m = m) (hn : ofNat n = n)
    (h : magnitude m = magnitude n) : m = n := by
  have hval : integerNat m = integerNat n := by
    have hno : ∀ k, 'e' ∉ mantissa (Nat.toDigits 10 k) := fun k =>
      (mem_mantissa (by decide)).not.2 (notMem_toDigits (by decide) k)
    unfold magnitude at h
    dsimp only at h
    split_ifs at h with h1 h2 h2
    · exact toDigits_inj h
    · exact absurd (h ▸ List.mem_append_right _ List.mem_cons_self)
        (notMem_toDigits (c := 'e') (by decide) _)
    · exact absurd (h ▸ List.mem_append_right _ List.mem_cons_self)
        (notMem_toDigits (c := 'e') (by decide) _)
    · obtain ⟨hds, hexp⟩ := Text.split_at_sep (hno _) (hno _) h
      have hs := mantissa_inj hds
      have hj := toDigits_inj (List.cons.inj hexp).2
      rw [hs] at hj h1
      have hj' : (shortest m).2 = (shortest n).2 := by omega
      rw [integerNat, integerNat, toDigits_inj hs, hj']
  rw [← ofNat_integerNat hm, ← ofNat_integerNat hn, hval]

theorem dash_notMem_magnitude (n : ℕ) : '-' ∉ magnitude n := by
  unfold magnitude
  dsimp only
  split_ifs
  · exact notMem_toDigits (by decide) _
  · rw [List.mem_append, mem_mantissa (by decide)]
    simp [notMem_toDigits]

theorem text_inj {d e : Whole} (h : text d = text e) : d = e := by
  have hl := String.ofList_injective h
  have hd := d.ofNat_natAbs
  have he := e.ofNat_natAbs
  apply Subtype.ext
  split_ifs at hl with h1 h2 h2
  · have := magnitude_inj hd he (List.cons.inj hl).2
    omega
  · exact absurd (hl ▸ List.mem_cons_self) (dash_notMem_magnitude _)
  · exact absurd (hl ▸ List.mem_cons_self) (dash_notMem_magnitude _)
  · have := magnitude_inj hd he hl
    omega

/-! ### The text is ASCII -/

theorem toNat_lt_of_mem_toDigits {c : Char} {n : ℕ} (h : c ∈ Nat.toDigits 10 n) :
    c.toNat < 128 := by
  have hd := Nat.isDigit_of_mem_toDigits (by decide) (by decide) h
  simp only [Char.isDigit, Bool.and_eq_true, decide_eq_true_eq] at hd
  have h9 : c.toNat ≤ '9'.toNat := hd.2
  have : '9'.toNat = 57 := rfl
  omega

theorem toNat_lt_of_mem_magnitude {c : Char} {n : ℕ} (h : c ∈ magnitude n) : c.toNat < 128 := by
  unfold magnitude at h
  dsimp only at h
  split_ifs at h
  · exact toNat_lt_of_mem_toDigits h
  · rw [List.mem_append, List.mem_cons, List.mem_cons] at h
    rcases h with h | rfl | rfl | h
    · by_cases hc : c = '.'
      · subst hc; decide
      · exact toNat_lt_of_mem_toDigits ((mem_mantissa hc).1 h)
    · decide
    · decide
    · exact toNat_lt_of_mem_toDigits h

theorem text_ascii (d : Whole) : ∀ c ∈ (text d).toList, c.toNat < 128 := by
  intro c hc
  rw [text, String.toList_ofList] at hc
  split_ifs at hc
  · rcases List.mem_cons.1 hc with rfl | h
    · decide
    · exact toNat_lt_of_mem_magnitude h
  · exact toNat_lt_of_mem_magnitude hc

/-! ### Texts in plain digits -/

theorem shortest_pos_or (n : ℕ) : 0 < (shortest n).1 ∨ (shortest n).2 = 0 := by
  unfold shortest
  cases hf : (List.range ((Nat.toDigits 10 n).length + 1)).reverse.findSome?
      fun j => (candidate n j).map (·, j) with
  | none => exact Or.inr rfl
  | some p =>
    obtain ⟨j, -, hj⟩ := List.exists_of_findSome?_eq_some hf
    obtain ⟨c, hc, rfl⟩ := Option.map_eq_some_iff.1 hj
    refine Or.inl ?_
    unfold candidate at hc
    dsimp only at hc
    split_ifs at hc with h1 h2
    · obtain rfl := Option.some.inj hc
      simp only [Bool.and_eq_true, decide_eq_true_eq] at h1
      exact h1.1.1
    · obtain rfl := Option.some.inj hc
      exact Nat.succ_pos _

theorem magnitude_of_lt {n : ℕ} (h : integerNat n < 10 ^ 21) :
    magnitude n = Nat.toDigits 10 (integerNat n) := by
  unfold magnitude
  dsimp only
  refine if_pos ?_
  rcases shortest_pos_or n with hpos | hzero
  · by_contra hlong
    -- so many digits and zeros make a number from `10 ^ 21` on
    have hdigits : 10 ^ ((Nat.toDigits 10 (shortest n).1).length - 1) ≤ (shortest n).1 := by
      rcases Nat.eq_zero_or_pos ((Nat.toDigits 10 (shortest n).1).length - 1) with h0 | h0
      · rw [h0]
        exact hpos
      · by_contra hlt
        have hle := (Nat.length_toDigits_le_iff (b := 10) (by decide) h0).2 (not_le.1 hlt)
        omega
    have hlength : 0 < (Nat.toDigits 10 (shortest n).1).length := Nat.length_toDigits_pos
    have hpow : 10 ^ 21 ≤ integerNat n := by
      calc 10 ^ 21 ≤ 10 ^ ((Nat.toDigits 10 (shortest n).1).length - 1 + (shortest n).2) :=
            Nat.pow_le_pow_right (by decide) (by omega)
        _ = 10 ^ ((Nat.toDigits 10 (shortest n).1).length - 1) * 10 ^ (shortest n).2 := Nat.pow_add ..
        _ ≤ integerNat n := Nat.mul_le_mul_right _ hdigits
    omega
  · have hn : integerNat n = (shortest n).1 := by rw [integerNat, hzero, Nat.pow_zero, Nat.mul_one]
    rw [hzero, Nat.add_zero]
    exact (Nat.length_toDigits_le_iff (by decide) (by decide)).2 (hn ▸ h)

theorem integerNat_lt {n e : ℕ} (hn : ofNat n = n) (h : n < 2 ^ e) : integerNat n < 2 ^ e := by
  by_contra hle
  have hmono := ofNat_mono (not_lt.1 hle)
  rw [ofNat_two_pow, ofNat_integerNat hn] at hmono
  omega

theorem text_eq_toString {d : Whole} (h : d.1.natAbs < 2 ^ 64) : text d = toString (integer d) := by
  have hlt := integerNat_lt d.ofNat_natAbs h
  have hmagnitude := magnitude_of_lt (n := d.1.natAbs) (hlt.trans (by decide))
  apply String.toList_injective
  rw [text, String.toList_ofList, hmagnitude, integer]
  split_ifs with hneg
  · cases hm : integerNat d.1.natAbs with
    | zero =>
      have hzero := ofNat_integerNat d.ofNat_natAbs
      rw [hm, ofNat_zero] at hzero
      omega
    | succ m =>
      change _ = ("-" ++ (m + 1).repr).toList
      rw [String.toList_append, Nat.toList_repr]
      rfl
  · exact Nat.toList_repr.symm

theorem toString_int_inj {m n : ℤ} (h : toString m = toString n) : m = n := by
  have hlist := congrArg String.toList h
  have hdash : ∀ a b : ℕ, a.repr.toList ≠ ("-" ++ b.repr).toList := by
    intro a b heq
    have hmem : '-' ∈ a.repr.toList := by
      rw [heq, String.toList_append]
      exact List.mem_append_left _ (by decide)
    rw [Nat.toList_repr] at hmem
    exact notMem_toDigits (by decide) a hmem
  cases m with
  | ofNat m =>
    cases n with
    | ofNat n => exact congrArg Int.ofNat (Text.repr_toList_inj hlist)
    | negSucc n => exact absurd hlist (hdash _ _)
  | negSucc m =>
    cases n with
    | ofNat n => exact absurd hlist.symm (hdash _ _)
    | negSucc n =>
      change ("-" ++ (m + 1).repr).toList = ("-" ++ (n + 1).repr).toList at hlist
      rw [String.toList_append, String.toList_append] at hlist
      have := Text.repr_toList_inj (List.append_cancel_left hlist)
      rw [Nat.succ.inj this]

theorem ofNat_of_lt {n : ℕ} (h : n < 2 ^ 53) : ofNat n = n := by
  have hlog : Nat.log2 n ≤ 52 := by
    rcases Nat.eq_zero_or_pos n with rfl | hn
    · exact Nat.zero_le _
    · exact Nat.lt_succ_iff.1 ((Nat.log2_lt (by omega)).2 h)
  have hulp : ulp n = 1 := by rw [ulp, Nat.sub_eq_zero_of_le hlog, Nat.pow_zero]
  rw [ofNat, hulp]
  exact roundTo_of_dvd Nat.one_pos (one_dvd n)

theorem integer_number_of_lt {n : ℤ} (h : n.natAbs < 2 ^ 53) : integer (number n) = n := by
  have hread : ∀ m : ℕ, m < 2 ^ 53 → integerNat m = m := by
    intro m hm
    have hdouble := ofNat_of_lt hm
    have hreads := ofNat_integerNat hdouble
    rwa [ofNat_of_lt (integerNat_lt hdouble hm)] at hreads
  have hnumber : (number n).1 = n := by
    change ofInt n = n
    cases n with
    | ofNat n => exact congrArg Int.ofNat (ofNat_of_lt h)
    | negSucc n =>
      have habs : ofNat (n + 1) = n + 1 := ofNat_of_lt h
      rw [ofInt, habs]
      rfl
  rw [integer, hnumber, hread _ h]
  split_ifs <;> omega

theorem natAbs_number_le {n : ℤ} {e : ℕ} (h : n.natAbs ≤ 2 ^ e) : (number n).1.natAbs ≤ 2 ^ e := by
  have hle := ofNat_mono h
  rw [ofNat_two_pow] at hle
  cases n with
  | ofNat n => exact hle
  | negSucc n =>
    change (-(ofNat (n + 1) : ℕ) : ℤ).natAbs ≤ 2 ^ e
    rwa [Int.natAbs_neg, Int.natAbs_natCast]

example : integer (number (2 ^ 60)) = 1152921504606847000 := by decide

end Lib.Double
