import Cello.Lib.Text
import Mathlib.Data.String.Basic

/-!
# Hex digests

A hash is only used through `createHash("sha256").update(s).digest("hex")`: a
function from strings to strings of sixty-four characters.  Nothing else about it
is assumed; where a result needs two inputs to have different digests it says so.
-/

namespace Lib

/-- A hash function with hex digests. -/
structure Sha256 where
  hex : String → String
  length_hex : ∀ s, (hex s).length = 64

/-- A hash function whose digests are written in lower-case hex digits. -/
structure HexSha256 extends Sha256 where
  hex_digits : ∀ s, ∀ c ∈ (hex s).toList, Text.isHexDigit c = true

namespace Sha256

variable (sha : Sha256)

theorem hex_ne_empty (s : String) : sha.hex s ≠ "" := by
  intro h
  have hl := sha.length_hex s
  rw [h] at hl
  simp at hl

end Sha256

/-! ### A hash given by a table -/

/-- The last `w` hex digits of a number. -/
def hexDigits : ℕ → ℕ → List Char
  | 0, _ => []
  | w + 1, n => hexDigits w (n / 16) ++ [Nat.digitChar (n % 16)]

theorem length_hexDigits : ∀ w n, (hexDigits w n).length = w
  | 0, _ => rfl
  | w + 1, n => by rw [hexDigits, List.length_append, length_hexDigits w, List.length_singleton]

theorem isHexDigit_of_mem_hexDigits {c : Char} : ∀ {w n}, c ∈ hexDigits w n →
    Text.isHexDigit c = true
  | 0, _, h => absurd h List.not_mem_nil
  | w + 1, n, h => by
    have hdigit : ∀ d < 16, Text.isHexDigit (Nat.digitChar d) = true := by decide
    rcases List.mem_append.1 h with h | h
    · exact isHexDigit_of_mem_hexDigits h
    · rw [List.mem_singleton.1 h]
      exact hdigit _ (Nat.mod_lt _ (by decide))

theorem hexDigits_inj : ∀ {w m n}, m < 16 ^ w → n < 16 ^ w → hexDigits w m = hexDigits w n → m = n
  | 0, m, n, hm, hn, _ => by omega
  | w + 1, m, n, hm, hn, h => by
    have hdigit : ∀ d < 16, ∀ e < 16, Nat.digitChar d = Nat.digitChar e → d = e := by decide
    rw [pow_succ, ← Nat.div_lt_iff_lt_mul (by decide)] at hm hn
    obtain ⟨hinit, hlast⟩ := List.append_inj h (by rw [length_hexDigits, length_hexDigits])
    have hdiv := hexDigits_inj hm hn hinit
    have hmod := hdigit _ (Nat.mod_lt m (by decide)) _ (Nat.mod_lt n (by decide))
      (List.singleton_inj.1 hlast)
    omega

/-- The text of a digest. -/
def hexText (d : BitVec 256) : String := String.ofList (hexDigits 64 d.toNat)

theorem hexText_inj {d e : BitVec 256} (h : hexText d = hexText e) : d = e := by
  refine BitVec.eq_of_toNat_eq (hexDigits_inj (w := 64) d.isLt e.isLt ?_)
  simpa [hexText] using congrArg String.toList h

namespace HexSha256

/-- The hash with the given digests, and one fixed digest for every other input. -/
def ofTable (table : List (String × BitVec 256)) (other : BitVec 256) : HexSha256 where
  hex s := hexText ((table.lookup s).getD other)
  length_hex s := by rw [hexText, String.length_ofList, length_hexDigits]
  hex_digits s c hc := by
    rw [hexText, String.toList_ofList] at hc
    exact isHexDigit_of_mem_hexDigits hc

theorem hex_ofTable (table : List (String × BitVec 256)) (other : BitVec 256) (s : String) :
    (ofTable table other).hex s = hexText ((table.lookup s).getD other) := rfl

theorem ofTable_injOn {table : List (String × BitVec 256)} {other : BitVec 256}
    (hnodup : (table.map Prod.snd).Nodup) :
    Set.InjOn (ofTable table other).hex {s | s ∈ table.map Prod.fst} := by
  have hentry : ∀ s ∈ table.map Prod.fst, (s, (table.lookup s).getD other) ∈ table := by
    intro s hs
    obtain ⟨e, he, rfl⟩ := List.mem_map.1 hs
    cases hl : table.lookup e.1 with
    | none => exact absurd (List.lookup_eq_none_iff.1 hl e he) (by simp)
    | some d =>
      obtain ⟨l, r, hlr, -⟩ := List.lookup_eq_some_iff.1 hl
      rw [hlr]
      simp
  intro s hs t ht hst
  have heq := List.inj_on_of_nodup_map hnodup (hentry s hs) (hentry t ht) (hexText_inj hst)
  exact congrArg Prod.fst heq

end HexSha256

end Lib
