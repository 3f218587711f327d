import Cello.Lib.Decimal
import Cello.Lib.JsValue

/-!
# The names of entry files

`packages/relay/src/adapters/file-content-store.ts`: a file is named after the content hash, the time of the
deposit and the number of bytes, so that a listing of the directory tells all that the index holds.

A number of a name is read in decimals, as the store writes it.
-/

namespace Cello.Relay.ContentStore

open Lib

/-- What a name says. -/
structure EntryName where
  cHex : String
  depositedAt : ℤ
  bytes : ℕ
deriving DecidableEq, Repr

/-! ### Writing and reading a name -/

def natText (n : ℕ) : List Char := Nat.toDigits 10 n

def intText : ℤ → List Char
  | .ofNat n => natText n
  | .negSucc n => '-' :: natText (n + 1)

def entrySuffix : List Char := ".entry".toList

/-- `entryFileName`. -/
def entryFileName (cHex : String) (depositedAt : ℤ) (bytes : ℕ) : String :=
  String.ofList
    (cHex.toList ++ '_' :: '_' :: (intText depositedAt ++ '_' :: '_' :: (natText bytes ++ entrySuffix)))

/-- `stem.split("__")`. -/
def splitStem : List Char → List (List Char)
  | [] => [[]]
  | '_' :: '_' :: rest => [] :: splitStem rest
  | c :: rest =>
    match splitStem rest with
    | part :: parts => (c :: part) :: parts
    | [] => [[c]]

def readNat (l : List Char) : Option ℕ :=
  if l ≠ [] ∧ l.all Char.isDigit = true then some (Nat.ofDigitChars 10 l 0) else none

def readInt : List Char → Option ℤ
  | '-' :: l => (readNat l).map fun n => -(n : ℤ)
  | l => (readNat l).map fun n => (n : ℤ)

/-- `parseEntryFileName`: nothing where the name is not one of ours. -/
def parseEntryFileName (fileName : String) : Option EntryName :=
  if entrySuffix <:+ fileName.toList then
    match splitStem (fileName.toList.take (fileName.toList.length - entrySuffix.length)) with
    | [c, at', bytes] =>
      if c = [] then none
      else
        match readInt at', readNat bytes with
        | some depositedAt, some n => some ⟨String.ofList c, depositedAt, n⟩
        | _, _ => none
    | _ => none
  else none

/-! ### A name reads back -/

theorem underscore_notMem_natText (n : ℕ) : '_' ∉ natText n := Double.notMem_toDigits (by decide) n

theorem underscore_notMem_intText (n : ℤ) : '_' ∉ intText n := by
  cases n with
  | ofNat n => exact underscore_notMem_natText n
  | negSucc n => simpa [intText] using underscore_notMem_natText (n + 1)

theorem splitStem_cons {c : Char} (hc : '_' ≠ c) {l part : List Char} {parts : List (List Char)}
    (h : splitStem l = part :: parts) : splitStem (c :: l) = (c :: part) :: parts := by
  rw [splitStem]
  · rw [h]
  · exact fun _ hc' _ => hc hc'.symm

theorem splitStem_of_notMem {l : List Char} (h : '_' ∉ l) : splitStem l = [l] := by
  induction l with
  | nil => rfl
  | cons c rest ih =>
    rw [List.mem_cons, not_or] at h
    exact splitStem_cons h.1 (ih h.2)

theorem splitStem_append (r : List Char) {l : List Char} (h : '_' ∉ l) :
    splitStem (l ++ '_' :: '_' :: r) = l :: splitStem r := by
  induction l with
  | nil => rw [List.nil_append, splitStem]
  | cons c rest ih =>
    rw [List.mem_cons, not_or] at h
    exact splitStem_cons h.1 (ih h.2)

theorem readNat_natText (n : ℕ) : readNat (natText n) = some n := by
  have hne : natText n ≠ [] := List.ne_nil_of_length_pos Nat.length_toDigits_pos
  have hdigits : (natText n).all Char.isDigit = true :=
    List.all_eq_true.2 fun c hc => Nat.isDigit_of_mem_toDigits (by decide) (by decide) hc
  rw [readNat, if_pos ⟨hne, hdigits⟩, natText, Nat.ofDigitChars_toDigits (by decide) (by decide)]

theorem readInt_intText (n : ℤ) : readInt (intText n) = some n := by
  cases n with
  | ofNat n =>
    have hdash : ∀ l, intText (.ofNat n) ≠ '-' :: l := by
      intro l hl
      have hmem : '-' ∈ natText n := by
        rw [show natText n = '-' :: l from hl]
        exact List.mem_cons_self
      exact Double.notMem_toDigits (by decide) n hmem
    unfold readInt
    split
    next l hl => exact absurd hl (hdash l)
    · rw [intText, readNat_natText]
      rfl
  | negSucc n =>
    rw [intText, readInt, readNat_natText]
    rfl

theorem parse_entryFileName {cHex : String} (hne : cHex ≠ "") (hplain : '_' ∉ cHex.toList)
    (depositedAt : ℤ) (bytes : ℕ) :
    parseEntryFileName (entryFileName cHex depositedAt bytes) = some ⟨cHex, depositedAt, bytes⟩ := by
  have hlist : (entryFileName cHex depositedAt bytes).toList =
      (cHex.toList ++ '_' :: '_' :: (intText depositedAt ++ '_' :: '_' :: natText bytes)) ++
        entrySuffix := by
    simp [entryFileName]
  have hc : cHex.toList ≠ [] := fun h => hne (by rwa [String.toList_eq_nil_iff] at h)
  rw [parseEntryFileName, hlist, if_pos ⟨_, rfl⟩, List.length_append, Nat.add_sub_cancel,
    List.take_left' rfl, splitStem_append _ hplain,
    splitStem_append _ (underscore_notMem_intText depositedAt),
    splitStem_of_notMem (underscore_notMem_natText bytes)]
  dsimp only
  rw [if_neg hc, readInt_intText, readNat_natText]
  dsimp only
  rw [String.ofList_toList]

theorem parse_entryFileName_empty (depositedAt : ℤ) (bytes : ℕ) :
    parseEntryFileName (entryFileName "" depositedAt bytes) = none := by
  have hlist : (entryFileName "" depositedAt bytes).toList =
      ([] ++ '_' :: '_' :: (intText depositedAt ++ '_' :: '_' :: natText bytes)) ++ entrySuffix := by
    simp [entryFileName]
  rw [parseEntryFileName, hlist, if_pos ⟨_, rfl⟩, List.length_append, Nat.add_sub_cancel,
    List.take_left' rfl, splitStem_append _ List.not_mem_nil,
    splitStem_append _ (underscore_notMem_intText depositedAt),
    splitStem_of_notMem (underscore_notMem_natText bytes)]
  rfl

theorem underscore_notMem_toHex (b : Bytes) : '_' ∉ b.toHex.toList := by
  rw [Bytes.toHex, String.toList_ofList, List.mem_flatMap]
  rintro ⟨x, -, hx⟩
  have hdigit : ∀ n < 16, '_' ≠ Bytes.hexDigit n := by decide
  have hlt : x.toNat < 256 := x.toNat_lt
  rcases List.mem_pair.1 hx with h | h
  · exact hdigit _ (by omega) h
  · exact hdigit _ (by omega) h

example : entryFileName "ab01" 1700000000000 5 = "ab01__1700000000000__5.entry" := by decide

end Cello.Relay.ContentStore
