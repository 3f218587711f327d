import Cello.Directory.AntiEntropy.Engine

/-!
# A store of records

The store the anti-entropy round runs on: append-only tables with one row for each natural
key, and the suspension table with one record for each agent.  Reads, serves and applies
follow `PgAeStore`; an append-only apply recomputes each record's hash and inserts if
absent, and a suspension apply merges.
-/

namespace Cello.Directory.AntiEntropy

open Lib

/-- The append-only tables a node syncs, in order. -/
structure Registry where
  specs : List TierATableSpec
  nodup : (specs.map TierATableSpec.table).Nodup

namespace Registry

variable (reg : Registry)

def tables : List String := reg.specs.map TierATableSpec.table

/-- `tierA(table)`. -/
def find (table : String) : Option TierATableSpec := reg.specs.find? fun s => s.table = table

variable {reg}

theorem mem_tables {spec : TierATableSpec} (h : spec ∈ reg.specs) : spec.table ∈ reg.tables :=
  List.mem_map.2 ⟨spec, h, rfl⟩

theorem mem_of_find {table : String} {spec : TierATableSpec} (h : reg.find table = some spec) :
    spec ∈ reg.specs ∧ spec.table = table :=
  ⟨List.mem_of_find?_eq_some h, by simpa using List.find?_some h⟩

theorem eq_of_table {s t : TierATableSpec} (hs : s ∈ reg.specs) (ht : t ∈ reg.specs)
    (h : s.table = t.table) : s = t :=
  List.inj_on_of_nodup_map reg.nodup hs ht h

theorem find_of_mem {spec : TierATableSpec} (h : spec ∈ reg.specs) :
    reg.find spec.table = some spec := by
  cases hf : reg.find spec.table with
  | none =>
    have := List.find?_eq_none.1 hf spec h
    simp at this
  | some s =>
    obtain ⟨hs, hst⟩ := mem_of_find hf
    rw [eq_of_table hs h hst]

end Registry

/-! ### Append-only rows -/

section

variable (nfc : Nfc) (sha : Sha256) (spec : TierATableSpec)

def hashMismatch (claimed actual : String) : AeError :=
  .store ("pg-ae-store: " ++ spec.table ++
    " record content does not match its claimed hash (claimed " ++ (claimed.take 16).toString ++
    "…, actual " ++ (actual.take 16).toString ++ "…) — refusing to apply")

instance : LawfulBEq (List (Option CanonicalValue)) := List.instLawfulBEq

/-- The loop of `applyTierA`: recompute the hash, then insert unless the natural key is taken. -/
def insertRecords : List TableRow → ℕ → List (TierARecord TableRow) →
    List TableRow × Except AeError ℕ
  | rows, inserted, [] => (rows, .ok inserted)
  | rows, inserted, rec :: rest =>
    let recomputed := tierAHash nfc sha spec rec.body
    if recomputed ≠ rec.hash then (rows, .error (hashMismatch spec rec.hash recomputed))
    else if naturalKeyOf spec rec.body ∈ rows.map (naturalKeyOf spec) then
      insertRecords rows inserted rest
    else insertRecords (rows ++ [rec.body]) (inserted + 1) rest

variable {nfc sha spec}

theorem nodup_append_row {rows : List TableRow} {row : TableRow}
    (h : (rows.map (naturalKeyOf spec)).Nodup)
    (hrow : naturalKeyOf spec row ∉ rows.map (naturalKeyOf spec)) :
    ((rows ++ [row]).map (naturalKeyOf spec)).Nodup := by
  rw [List.map_append, List.map_singleton, ← List.concat_eq_append]
  exact h.concat hrow

theorem nodup_insertRecords : ∀ (records : List (TierARecord TableRow)) (rows : List TableRow)
    (n : ℕ), (rows.map (naturalKeyOf spec)).Nodup →
    ((insertRecords nfc sha spec rows n records).1.map (naturalKeyOf spec)).Nodup := by
  intro records
  induction records with
  | nil => intro rows n h; exact h
  | cons rec rest ih =>
    intro rows n h
    rw [insertRecords]
    split_ifs with hhash hkey
    · exact h
    · exact ih _ _ h
    · exact ih _ _ (nodup_append_row h hkey)

theorem insertRecords_of_fresh : ∀ (records : List (TierARecord TableRow)) (rows : List TableRow)
    (n : ℕ), (∀ rec ∈ records, rec.hash = tierAHash nfc sha spec rec.body) →
    ((rows ++ records.map TierARecord.body).map (naturalKeyOf spec)).Nodup →
    insertRecords nfc sha spec rows n records =
      (rows ++ records.map TierARecord.body, .ok (n + records.length)) := by
  intro records
  induction records with
  | nil => intro rows n _ _; simp [insertRecords]
  | cons rec rest ih =>
    intro rows n hhash hnodup
    have hsplit : rows ++ (rec :: rest).map TierARecord.body =
        (rows ++ [rec.body]) ++ rest.map TierARecord.body := by simp
    have hkey : naturalKeyOf spec rec.body ∉ rows.map (naturalKeyOf spec) := by
      intro hmem
      rw [List.map_append, List.nodup_append] at hnodup
      exact hnodup.2.2 _ hmem _ (by simp) rfl
    rw [insertRecords]
    rw [if_neg (not_not.2 (hhash rec List.mem_cons_self).symm), if_neg hkey,
      ih _ _ (fun r hr => hhash r (List.mem_cons_of_mem _ hr)) (hsplit ▸ hnodup), hsplit,
      List.length_cons, Nat.add_right_comm, Nat.add_assoc]

end

/-! ### Suspension records -/

/-- The suspension table over records: what `SUSPENSIONS` is over rows. -/
def suspensionRecords (nfc : Nfc) (sha : Sha256) :
    TierBTable SuspensionRecord SuspensionRecord where
  table := "agent_suspensions"
  keyColumn := "agent_id"
  bodyKey := SuspensionRecord.agentId
  merge := mergeSuspension nfc sha
  rowToBody := fun _ row => row
  versionHash := versionHash nfc sha
  validateBody := fun _ => none
  insert := .ok
  update := fun _ body => .ok body
  witnessDisagrees := none

theorem agentId_of_applied {nfc : Nfc} {sha : Sha256} (existing : Option SuspensionRecord)
    (rec : TierBRecord SuspensionRecord) (one : Applied SuspensionRecord)
    (hex : ∀ row, existing = some row → row.agentId = rec.key)
    (h : applyOneTierB (suspensionRecords nfc sha) existing rec = .ok one) :
    one.row.agentId = rec.key := by
  have hkey : rec.body.agentId = rec.key := bodyKey_of_ok h
  obtain ⟨-, -, hi⟩ | ⟨row, hrow, -, hone, -⟩ | ⟨row, hrow, -, hu⟩ := applyOne_cases h
  · rw [← Except.ok.inj hi, hkey]
  · rw [hone, hex row hrow]
  · rw [← Except.ok.inj hu]
    exact (mergeSuspension_agentId ((hex row hrow).trans hkey.symm)).trans (hex row hrow)

theorem applyOne_of_unmoved {nfc : Nfc} {sha : Sha256} {k : String} {x y : SuspensionRecord}
    (hy : y.agentId = k)
    (h : versionHash nfc sha (mergeSuspension nfc sha x y) = versionHash nfc sha x) :
    applyOneTierB (suspensionRecords nfc sha) (some x) ⟨k, y⟩ = .ok ⟨x, false, false⟩ := by
  simp only [applyOneTierB, suspensionRecords, hy, ne_eq, not_true_eq_false, if_false, mergeRow, h]
  rfl

theorem applyOne_records (nfc : Nfc) (sha : Sha256) (existing : Option SuspensionRecord)
    {k : String} {y : SuspensionRecord} (hy : y.agentId = k) :
    ∃ one, applyOneTierB (suspensionRecords nfc sha) existing ⟨k, y⟩ = .ok one := by
  simp only [applyOneTierB, suspensionRecords, hy, ne_eq, not_true_eq_false, if_false]
  cases existing with
  | none => exact ⟨_, rfl⟩
  | some x =>
    simp only [mergeRow]
    split_ifs
    · exact ⟨_, rfl⟩
    · exact ⟨_, rfl⟩

/-! ### The store -/

structure Store (reg : Registry) where
  tierA : String → List TableRow
  tierB : OrdMap String SuspensionRecord
  distinct : ∀ spec ∈ reg.specs, ((tierA spec.table).map (naturalKeyOf spec)).Nodup
  keyed : ∀ k r, tierB.get k = some r → r.agentId = k

def suspensionTable : String := "agent_suspensions"

def unknownTable (tier table : String) : AeError :=
  .store ("pg-ae-store: unknown Tier-" ++ tier ++ " table '" ++ table ++ "'")

namespace Store

variable {reg : Registry} (nfc : Nfc) (sha : Sha256)

/-- The record hashes of a table. -/
def hashes (s : Store reg) (spec : TierATableSpec) : List String :=
  (s.tierA spec.table).map (tierAHash nfc sha spec)

/-- The version of each agent's record. -/
def versions (s : Store reg) : OrdMap String String := s.tierB.mapValues (versionHash nfc sha)

def tierARecordHashes (s : Store reg) (table : String) : Except AeError (List String) :=
  match reg.find table with
  | none => .error (unknownTable "A" table)
  | some spec => .ok (s.hashes nfc sha spec)

def tierBVersions (s : Store reg) (table : String) : Except AeError (OrdMap String String) :=
  if table = suspensionTable then .ok (s.versions nfc sha) else .error (unknownTable "B" table)

def serveTierA (s : Store reg) (table : String) (wanted : List String) :
    Except AeError (List (TierARecord TableRow)) :=
  match reg.find table with
  | none => .error (unknownTable "A" table)
  | some spec =>
    .ok (((s.tierA table).map fun row => ⟨tierAHash nfc sha spec row, row⟩).filter
      fun rec => rec.hash ∈ wanted)

def records (s : Store reg) (keys : List String) : List (TierBRecord SuspensionRecord) :=
  keys.filterMap fun k => (s.tierB.get k).map fun r => ⟨k, r⟩

def serveTierB (s : Store reg) (table : String) (keys : List String) :
    Except AeError (List (TierBRecord SuspensionRecord)) :=
  if table = suspensionTable then .ok (s.records keys) else .error (unknownTable "B" table)

/-- The store with the rows of one table replaced. -/
def withRows (s : Store reg) (spec : TierATableSpec) (hspec : spec ∈ reg.specs)
    (rows : List TableRow) (h : (rows.map (naturalKeyOf spec)).Nodup) : Store reg where
  tierA := Function.update s.tierA spec.table rows
  tierB := s.tierB
  distinct := by
    intro t ht
    by_cases htab : t.table = spec.table
    · rw [Registry.eq_of_table ht hspec htab, Function.update_self]
      exact h
    · rw [Function.update_of_ne htab]
      exact s.distinct t ht
  keyed := s.keyed

def applyTierA (s : Store reg) (table : String) (records : List (TierARecord TableRow)) :
    Store reg × Except AeError ℕ :=
  if records.length = 0 then (s, .ok 0)
  else
    match h : reg.find table with
    | none => (s, .error (unknownTable "A" table))
    | some spec =>
      let out := insertRecords nfc sha spec (s.tierA spec.table) 0 records
      (s.withRows spec (Registry.mem_of_find h).1 out.1
        (nodup_insertRecords records _ _ (s.distinct spec (Registry.mem_of_find h).1)), out.2)

def applyTierB (s : Store reg) (table : String) (records : List (TierBRecord SuspensionRecord)) :
    Store reg × Except AeError TierBApplyResult :=
  if table = suspensionTable then
    let out := AntiEntropy.applyTierB (suspensionRecords nfc sha) s.tierB records
    ({ tierA := s.tierA
       tierB := out.1
       distinct := s.distinct
       keyed := applyTierB_keeps agentId_of_applied s.keyed records }, out.2)
  else (s, .error (unknownTable "B" table))

variable {nfc sha}

theorem mem_records {s : Store reg} {keys : List String} {rec : TierBRecord SuspensionRecord} :
    rec ∈ s.records keys ↔ rec.key ∈ keys ∧ s.tierB.get rec.key = some rec.body := by
  simp only [records, List.mem_filterMap, Option.map_eq_some_iff]
  constructor
  · rintro ⟨k, hk, r, hr, rfl⟩
    exact ⟨hk, hr⟩
  · rintro ⟨hk, hr⟩
    exact ⟨rec.key, hk, rec.body, hr, rfl⟩

theorem nodup_records {s : Store reg} {keys : List String} (h : keys.Nodup) :
    ((s.records keys).map TierBRecord.key).Nodup := by
  rw [records, List.map_filterMap]
  refine h.filterMap fun a b k ha hb => ?_
  have hkey : ∀ {c : String}, k ∈ ((s.tierB.get c).map fun r =>
      (⟨c, r⟩ : TierBRecord SuspensionRecord)).map TierBRecord.key → c = k := by
    intro c hc
    simp only [Option.map_map, Option.mem_map] at hc
    obtain ⟨r, -, rfl⟩ := hc
    rfl
  rw [hkey ha, hkey hb]

theorem applyTierA_of_fresh {s : Store reg} {spec : TierATableSpec} (hspec : spec ∈ reg.specs)
    (records : List (TierARecord TableRow))
    (hhash : ∀ rec ∈ records, rec.hash = tierAHash nfc sha spec rec.body)
    (hfresh : ((s.tierA spec.table ++ records.map TierARecord.body).map (naturalKeyOf spec)).Nodup) :
    ∃ s' n, s.applyTierA nfc sha spec.table records = (s', .ok n) ∧
      s'.tierA = Function.update s.tierA spec.table
        (s.tierA spec.table ++ records.map TierARecord.body) ∧ s'.tierB = s.tierB := by
  unfold applyTierA
  split_ifs with hlen
  · rw [List.length_eq_zero_iff.1 hlen]
    refine ⟨s, 0, rfl, ?_, rfl⟩
    rw [List.map_nil, List.append_nil, Function.update_eq_self]
  · split
    · rename_i hfind
      rw [Registry.find_of_mem hspec] at hfind
      cases hfind
    · rename_i found hfind
      obtain rfl := Option.some.inj ((Registry.find_of_mem hspec).symm.trans hfind)
      have hins := insertRecords_of_fresh records (s.tierA spec.table) 0 hhash hfresh
      refine ⟨_, 0 + records.length, Prod.ext rfl ?_, ?_, rfl⟩
      · change (insertRecords nfc sha spec (s.tierA spec.table) 0 records).2 =
          .ok (0 + records.length)
        rw [hins]
      · change Function.update s.tierA spec.table
          (insertRecords nfc sha spec (s.tierA spec.table) 0 records).1 = _
        rw [hins]

variable (nfc sha) in
theorem applyTierB_of_ok (s : Store reg) {records : List (TierBRecord SuspensionRecord)}
    (hnodup : (records.map TierBRecord.key).Nodup)
    (hkeyed : ∀ rec ∈ records, rec.body.agentId = rec.key) :
    ∃ s' out, s.applyTierB nfc sha suspensionTable records = (s', .ok out) ∧
      (0 < out.divergent → out.verdict ≠ none) ∧ s'.tierA = s.tierA ∧
      (∀ rec ∈ records, ∀ one,
        applyOneTierB (suspensionRecords nfc sha) (s.tierB.get rec.key) rec = .ok one →
        s'.tierB.get rec.key = some one.row) ∧
      ∀ k ∉ records.map TierBRecord.key, s'.tierB.get k = s.tierB.get k := by
  obtain ⟨⟨tally, htally⟩, hrows, hkeep⟩ := applyRecords_of_ok (t := suspensionRecords nfc sha)
    records s.tierB {} hnodup fun rec hrec => applyOne_records nfc sha _ (hkeyed rec hrec)
  rw [applyTierB, if_pos rfl]
  by_cases hlen : records.length = 0
  · obtain rfl := List.length_eq_zero_iff.1 hlen
    exact ⟨_, _, rfl, fun h => absurd h (by decide), rfl,
      fun rec hrec => absurd hrec List.not_mem_nil, fun k _ => rfl⟩
  · have hout : AntiEntropy.applyTierB (suspensionRecords nfc sha) s.tierB records =
        ((applyRecords (suspensionRecords nfc sha) s.tierB {} records).1,
          .ok (Tally.result (suspensionRecords nfc sha) records tally)) := by
      unfold AntiEntropy.applyTierB
      simp only [hlen, if_false, htally]
      rfl
    refine ⟨_, Tally.result (suspensionRecords nfc sha) records tally, Prod.ext rfl ?_,
      verdict_of_divergent records tally, rfl, ?_, ?_⟩
    · change (AntiEntropy.applyTierB (suspensionRecords nfc sha) s.tierB records).2 =
        .ok (Tally.result (suspensionRecords nfc sha) records tally)
      rw [hout]
    · intro rec hrec one hone
      change (AntiEntropy.applyTierB (suspensionRecords nfc sha) s.tierB records).1.get rec.key = _
      rw [hout]
      exact hrows rec hrec one hone
    · intro k hk
      change (AntiEntropy.applyTierB (suspensionRecords nfc sha) s.tierB records).1.get k = _
      rw [hout]
      exact hkeep k hk

theorem applyTierB_of_unmoved {s : Store reg} {records : List (TierBRecord SuspensionRecord)}
    (h : ∀ rec ∈ records, ∃ one,
      applyOneTierB (suspensionRecords nfc sha) (s.tierB.get rec.key) rec = .ok one ∧
        one.moved = false) :
    (s.applyTierB nfc sha suspensionTable records).1 = s := by
  have hrows : (AntiEntropy.applyTierB (suspensionRecords nfc sha) s.tierB records).1 = s.tierB := by
    unfold AntiEntropy.applyTierB
    split_ifs
    · rfl
    · exact applyRecords_of_unmoved records {} h
  rw [applyTierB, if_pos rfl]
  cases s
  simp only [Store.mk.injEq, true_and]
  exact hrows

variable (nfc sha)

/-- The view of a store that the engine works on. -/
def view (reg : Registry) : AeStoreView (Store reg) TableRow SuspensionRecord where
  tierATables := fun _ => reg.tables
  tierBTables := fun _ => [suspensionTable]
  tierATableDigest := fun s t => (s.tierARecordHashes nfc sha t).bind (computeTableDigest sha)
  tierARecordHashes := tierARecordHashes nfc sha
  tierBTableDigest := fun s t => (s.tierBVersions nfc sha t).map (tierBTableDigest sha)
  tierBVersions := tierBVersions nfc sha
  serveTierA := serveTierA nfc sha
  serveTierB := serveTierB
  applyTierA := applyTierA nfc sha
  applyTierB := applyTierB nfc sha

end Store

end Cello.Directory.AntiEntropy
