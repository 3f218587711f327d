import Cello.Lib.Json
import Cello.Lib.OrdMap
import Cello.Lib.Sha256

/-!
# Record hashes

`packages/directory/src/record-hash.ts` and the encoders over it in
`ae-table-encoders.ts` and `ae-mutable-version.ts`.  A record is hashed as the canonical
JSON of its domain, its columns and its table.

The text that is hashed is a definition of its own (`recordText`), because everything the
anti-entropy round knows about a record it knows through that text: two rows have one text
exactly when their columns agree after Unicode normalization
(`recordText_eq_iff`).
-/

namespace Cello.Directory.AntiEntropy

open Lib

/-- `value.normalize("NFC")`.  ASCII text is in normal form. -/
structure Nfc where
  normalize : String → String
  normalize_ascii : ∀ s, (∀ c ∈ s.toList, c.toNat < 128) → normalize s = s

theorem normalize_ascii_id (s : String) (_ : ∀ c ∈ s.toList, c.toNat < 128) : id s = s := rfl

/-- A field value that takes part in a record hash. -/
inductive CanonicalValue where
  | str (s : String)
  | bool (b : Bool)
  | null
deriving DecidableEq, Repr

/-- `String(value)`. -/
def CanonicalValue.toText : CanonicalValue → String
  | .str s => s
  | .bool b => if b then "true" else "false"
  | .null => "null"

def recordHashDomain : String := "cello-ae-record-v1"

section

variable (nfc : Nfc)

/-- `sortedReplacer` on a scalar. -/
def replaced : CanonicalValue → Json
  | .str s => .str (nfc.normalize s)
  | .bool b => .bool b
  | .null => .null

/-- `sortedReplacer` on an object of scalars. -/
def sortedFields (fields : List (String × CanonicalValue)) : List (String × Json) :=
  Text.sortBy Prod.fst (fields.map fun e => (e.1, replaced nfc e.2))

/-- The text `recordHash` hashes. -/
def recordText (table : String) (fields : List (String × CanonicalValue)) : String :=
  Json.stringify (.obj
    [("d", .str (nfc.normalize recordHashDomain)),
     ("f", .obj (sortedFields nfc fields)),
     ("t", .str (nfc.normalize table))])

def recordHash (sha : Sha256) (table : String) (fields : List (String × CanonicalValue)) :
    String :=
  sha.hex (recordText nfc table fields)

variable {nfc}

theorem mem_sortedFields {fields : List (String × CanonicalValue)} {e : String × Json} :
    e ∈ sortedFields nfc fields ↔ ∃ f ∈ fields, (f.1, replaced nfc f.2) = e := by
  rw [sortedFields, Text.mem_sortBy, List.mem_map]

theorem recordText_eq_iff {table : String} {columns : List String}
    {f g : String → CanonicalValue} :
    recordText nfc table (columns.map fun c => (c, f c)) =
        recordText nfc table (columns.map fun c => (c, g c)) ↔
      ∀ c ∈ columns, replaced nfc (f c) = replaced nfc (g c) := by
  constructor
  · intro h c hc
    have hobj := Json.stringify_inj h
    simp only [Json.obj.injEq, List.cons.injEq, Prod.mk.injEq, true_and, and_true] at hobj
    have hmem : (c, replaced nfc (f c)) ∈ sortedFields nfc (columns.map fun c => (c, f c)) :=
      mem_sortedFields.2 ⟨(c, f c), List.mem_map.2 ⟨c, hc, rfl⟩, rfl⟩
    rw [hobj, mem_sortedFields] at hmem
    obtain ⟨e, he, heq⟩ := hmem
    obtain ⟨d, -, rfl⟩ := List.mem_map.1 he
    obtain ⟨rfl, hv⟩ := Prod.mk.inj heq
    exact hv.symm
  · intro h
    have hmap : (columns.map fun c => (c, f c)).map (fun e => (e.1, replaced nfc e.2)) =
        (columns.map fun c => (c, g c)).map (fun e => (e.1, replaced nfc e.2)) := by
      rw [List.map_map, List.map_map]
      exact List.map_congr_left fun c hc => Prod.ext rfl (h c hc)
    rw [recordText, recordText, sortedFields, sortedFields, hmap]

end

/-! ### Append-only rows -/

/-- A row as the query layer yields it; a column may be missing. -/
abbrev TableRow := String → Option CanonicalValue

structure TierATableSpec where
  table : String
  naturalKey : List String
  immutableColumns : List String
deriving DecidableEq, Repr

def column (row : TableRow) (c : String) : CanonicalValue := (row c).getD .null

/-- `encodeTierARecord(spec, row).hash`. -/
def tierAHash (nfc : Nfc) (sha : Sha256) (spec : TierATableSpec) (row : TableRow) : String :=
  recordHash nfc sha spec.table (spec.immutableColumns.map fun c => (c, column row c))

def naturalKeyOf (spec : TierATableSpec) (row : TableRow) : List (Option CanonicalValue) :=
  spec.naturalKey.map row

/-! ### Mutable rows -/

/-- A column as the driver types it, before normalization. -/
inductive ColumnValue where
  | canonical (v : CanonicalValue)
  | date (millis : ℤ)
deriving DecidableEq, Repr

/-- A raw mutable row; a column may be missing. -/
abbrev MutableRow := String → Option ColumnValue

/-- `normalize(v)`: booleans and dates become text. -/
def normalizeColumn : Option ColumnValue → CanonicalValue
  | none => .null
  | some (.canonical (.bool b)) => .str (if b then "true" else "false")
  | some (.date t) => .str (toString t)
  | some (.canonical v) => v

structure TierBVersionSpec where
  table : String
  key : List String
  versionColumns : List String
deriving DecidableEq, Repr

def tierBText (nfc : Nfc) (spec : TierBVersionSpec) (row : MutableRow) : String :=
  recordText nfc spec.table (spec.versionColumns.map fun c => (c, normalizeColumn (row c)))

/-- `encodeTierBVersion(spec, row)`: the natural key and the version hash. -/
def encodeTierBVersion (nfc : Nfc) (sha : Sha256) (spec : TierBVersionSpec) (row : MutableRow) :
    String × String :=
  (String.intercalate (String.singleton (Char.ofNat 0))
      (spec.key.map fun k => (normalizeColumn (row k)).toText),
    sha.hex (tierBText nfc spec row))

end Cello.Directory.AntiEntropy
