import Cello.Directory.AntiEntropy.Suspension
import Cello.Directory.ChainStore.Columns

/-!
# Applying mutable records

`PgAeStore.applyTierB` and `#applyOneTierB` of `packages/directory/src/pg-ae-store.ts`,
over a table description as the source has it (`TierBPg`).  One record is applied in one
transaction: read the row under its lock, merge, and write only when the version hash
moved.  A unique violation on the insert is a lost race; the retry then reads the row and
is the transaction modelled here.

`applyOne_cases` says everything an apply can do to a row.
-/

namespace Cello.Directory.AntiEntropy

open Lib

/-- What a store or the wire throws.  `unknownKey` is the `TierBUnknownKeyError` that
`applyTierB` contains; `wire` is an `AeProtocolError`, and `unsent` the plain error of a `send`. -/
inductive AeError where
  | store (message : String)
  | unknownKey (message : String)
  | wire (message : String)
  | unsent (message : String)
deriving DecidableEq, Repr

def AeError.message : AeError → String
  | .store m => m
  | .unknownKey m => m
  | .wire m => m
  | .unsent m => m

/-- `isWireError(err)`. -/
def AeError.isWireError : AeError → Bool
  | .wire _ => true
  | _ => false

/-- It comes from the exchange with the peer, and not from a store. -/
def AeError.ofExchange : AeError → Bool
  | .wire _ => true
  | .unsent _ => true
  | _ => false

theorem AeError.ofExchange_of_isWireError {e : AeError} (h : e.isWireError = true) : e.ofExchange = true := by
  cases e with
  | wire message => rfl
  | store message => cases h
  | unknownKey message => cases h
  | unsent message => cases h

/-- A mutable record body addressed by its natural key. -/
structure TierBRecord (β : Type) where
  key : String
  body : β

inductive Verdict where
  | contentFork
  | peerBehind
deriving DecidableEq, Repr

structure TierBApplyResult where
  applied : ℕ
  divergent : ℕ
  divergentKeys : List String
  verdict : Option Verdict := none
deriving DecidableEq, Repr

/-- `TierBPg`: a table whose rows are `ρ` and whose bodies on the wire are `β`.  A statement
the database refuses returns its error. -/
structure TierBTable (ρ β : Type) where
  table : String
  keyColumn : String
  bodyKey : β → String
  merge : β → β → β
  rowToBody : String → ρ → β
  versionHash : β → String
  validateBody : β → Option String
  insert : β → Except AeError ρ
  update : ρ → β → Except AeError ρ
  witnessDisagrees : Option (β → β → Bool)

/-- The row after one apply, whether its version moved, and whether the witness disagrees. -/
structure Applied (ρ : Type) where
  row : ρ
  moved : Bool
  witnessDisagrees : Bool

section

variable {ρ β : Type} (t : TierBTable ρ β)

def keyMismatch (rec : TierBRecord β) : AeError :=
  .store ("pg-ae-store: " ++ t.table ++ " record key '" ++ rec.key ++ "' does not match its body " ++
    t.keyColumn ++ " '" ++ t.bodyKey rec.body ++ "' — refusing to apply")

def bodyRefused (rec : TierBRecord β) (typeError : String) : AeError :=
  .store ("pg-ae-store: " ++ t.table ++ " record '" ++ rec.key ++ "' body " ++ typeError ++
    " — refusing to apply")

/-- The part of `#applyOneTierB` after the body was accepted. -/
def mergeRow (existing : Option ρ) (rec : TierBRecord β) : Except AeError (Applied ρ) :=
  match existing with
  | some row =>
    let local' := t.rowToBody rec.key row
    let merged := t.merge local' rec.body
    let witness := t.witnessDisagrees.any fun w => w local' rec.body
    if t.versionHash merged ≠ t.versionHash local' then
      (t.update row merged).map fun row' => ⟨row', true, witness⟩
    else .ok ⟨row, false, witness⟩
  | none => (t.insert rec.body).map fun row => ⟨row, true, false⟩

def applyOneTierB (existing : Option ρ) (rec : TierBRecord β) : Except AeError (Applied ρ) :=
  if t.bodyKey rec.body ≠ rec.key then .error (keyMismatch t rec)
  else
    match t.validateBody rec.body with
    | some typeError => .error (bodyRefused t rec typeError)
    | none => mergeRow t existing rec

/-- The counters of the `applyTierB` loop. -/
structure Tally where
  changed : ℕ := 0
  witnessDisagreements : ℕ := 0
  divergentKeys : List String := []
  unmovedKeys : List String := []

def Tally.add (tally : Tally) (key : String) (one : Applied ρ) : Tally where
  changed := tally.changed + (if one.moved then 1 else 0)
  witnessDisagreements := tally.witnessDisagreements + (if one.witnessDisagrees then 1 else 0)
  divergentKeys := if one.witnessDisagrees then tally.divergentKeys ++ [key] else tally.divergentKeys
  unmovedKeys := if one.moved then tally.unmovedKeys else tally.unmovedKeys ++ [key]

/-- The loop of `applyTierB`: each record is committed before the next, and only the
unknown-key error is contained. -/
def applyRecords : OrdMap String ρ → Tally → List (TierBRecord β) →
    OrdMap String ρ × Except AeError Tally
  | rows, tally, [] => (rows, .ok tally)
  | rows, tally, rec :: rest =>
    match applyOneTierB t (rows.get rec.key) rec with
    | .ok one =>
      applyRecords (if one.moved then rows.set rec.key one.row else rows) (tally.add rec.key one) rest
    | .error (.unknownKey _) => applyRecords rows tally rest
    | .error e => (rows, .error e)

/-- The verdict of a batch: per record with a witness, per table without one. -/
def Tally.result (records : List (TierBRecord β)) (tally : Tally) : TierBApplyResult :=
  if t.witnessDisagrees.isSome then
    { applied := tally.changed
      divergent := tally.witnessDisagreements
      divergentKeys := tally.divergentKeys.take 5
      verdict := if 0 < tally.witnessDisagreements then some .contentFork else none }
  else
    let divergent := if tally.changed = 0 then records.length else 0
    { applied := tally.changed
      divergent
      divergentKeys := if 0 < divergent then tally.unmovedKeys.take 5 else []
      verdict := if 0 < divergent then some .peerBehind else none }

def applyTierB (rows : OrdMap String ρ) (records : List (TierBRecord β)) :
    OrdMap String ρ × Except AeError TierBApplyResult :=
  if records.length = 0 then (rows, .ok { applied := 0, divergent := 0, divergentKeys := [] })
  else
    let out := applyRecords t rows {} records
    (out.1, out.2.map (Tally.result t records))

variable {t}

theorem exists_of_map_ok {α γ : Type} {f : α → γ} {x : Except AeError α} {c : γ}
    (h : x.map f = .ok c) : ∃ a, x = .ok a ∧ f a = c := by
  cases x with
  | error e => cases h
  | ok a => exact ⟨a, rfl, Except.ok.inj h⟩

theorem mapError_ok {ε δ γ : Type} {f : ε → δ} {r : Except ε γ} {x : γ}
    (h : r.mapError f = .ok x) : r = .ok x := by
  cases r with
  | error e => cases h
  | ok y =>
    cases h
    rfl

theorem bind_ok {ε γ δ : Type} {x : Except ε γ} {f : γ → Except ε δ} {r : δ}
    (h : x >>= f = .ok r) : ∃ a, x = .ok a ∧ f a = .ok r := by
  cases x with
  | error e => cases h
  | ok a => exact ⟨a, rfl, h⟩

theorem bodyKey_of_ok {existing : Option ρ} {rec : TierBRecord β} {one : Applied ρ}
    (h : applyOneTierB t existing rec = .ok one) : t.bodyKey rec.body = rec.key := by
  unfold applyOneTierB at h
  split_ifs at h with hk
  exact not_not.1 hk

theorem applyOne_cases {existing : Option ρ} {rec : TierBRecord β} {one : Applied ρ}
    (h : applyOneTierB t existing rec = .ok one) :
    (existing = none ∧ one.moved = true ∧ t.insert rec.body = .ok one.row) ∨
    (∃ row, existing = some row ∧ one.moved = false ∧ one.row = row ∧
      t.versionHash (t.merge (t.rowToBody rec.key row) rec.body) =
        t.versionHash (t.rowToBody rec.key row)) ∨
    (∃ row, existing = some row ∧ one.moved = true ∧
      t.update row (t.merge (t.rowToBody rec.key row) rec.body) = .ok one.row) := by
  unfold applyOneTierB at h
  split_ifs at h with hk
  cases hv : t.validateBody rec.body with
  | some e => rw [hv] at h; cases h
  | none =>
    rw [hv] at h
    cases existing with
    | none =>
      simp only [mergeRow] at h
      obtain ⟨row, hi, rfl⟩ := exists_of_map_ok h
      exact Or.inl ⟨rfl, rfl, hi⟩
    | some row =>
      simp only [mergeRow] at h
      split_ifs at h with hver
      · obtain ⟨row', hu, rfl⟩ := exists_of_map_ok h
        exact Or.inr (Or.inr ⟨row, rfl, rfl, hu⟩)
      · cases h
        exact Or.inr (Or.inl ⟨row, rfl, rfl, rfl, not_not.1 hver⟩)

theorem applyRecords_keeps {I : String → ρ → Prop}
    (hone : ∀ existing rec one, (∀ row, existing = some row → I rec.key row) →
      applyOneTierB t existing rec = .ok one → I rec.key one.row) :
    ∀ (records : List (TierBRecord β)) (rows : OrdMap String ρ) (tally : Tally),
      (∀ k row, rows.get k = some row → I k row) →
      ∀ k row, (applyRecords t rows tally records).1.get k = some row → I k row := by
  intro records
  induction records with
  | nil => intro rows tally h; exact h
  | cons rec rest ih =>
    intro rows tally h
    rw [applyRecords]
    split
    · rename_i one hok
      refine ih _ _ ?_
      intro k row hk
      split_ifs at hk
      · rw [OrdMap.get_set] at hk
        split_ifs at hk with hkey
        · cases hk
          rw [hkey]
          exact hone _ rec one (fun r hr => h rec.key r hr) hok
        · exact h k row hk
      · exact h k row hk
    · exact ih rows tally h
    · exact h

theorem applyTierB_keeps {I : String → ρ → Prop}
    (hone : ∀ existing rec one, (∀ row, existing = some row → I rec.key row) →
      applyOneTierB t existing rec = .ok one → I rec.key one.row)
    {rows : OrdMap String ρ} (h : ∀ k row, rows.get k = some row → I k row)
    (records : List (TierBRecord β)) :
    ∀ k row, (applyTierB t rows records).1.get k = some row → I k row := by
  unfold applyTierB
  split_ifs
  · exact h
  · exact applyRecords_keeps hone records rows {} h

theorem applyRecords_of_ok : ∀ (records : List (TierBRecord β)) (rows : OrdMap String ρ)
    (tally : Tally), (records.map TierBRecord.key).Nodup →
    (∀ rec ∈ records, ∃ one, applyOneTierB t (rows.get rec.key) rec = .ok one) →
    (∃ tally', (applyRecords t rows tally records).2 = .ok tally') ∧
    (∀ rec ∈ records, ∀ one, applyOneTierB t (rows.get rec.key) rec = .ok one →
      (applyRecords t rows tally records).1.get rec.key = some one.row) ∧
    ∀ k ∉ records.map TierBRecord.key,
      (applyRecords t rows tally records).1.get k = rows.get k := by
  intro records
  induction records with
  | nil =>
    intro rows tally _ _
    exact ⟨⟨tally, rfl⟩, fun rec hrec => absurd hrec List.not_mem_nil, fun k _ => rfl⟩
  | cons rec rest ih =>
    intro rows tally hnodup hok
    rw [List.map_cons, List.nodup_cons] at hnodup
    obtain ⟨one, hone⟩ := hok rec List.mem_cons_self
    -- the rows after the first record, at its own key and at every other
    have hself : (if one.moved then rows.set rec.key one.row else rows).get rec.key =
        some one.row := by
      obtain ⟨-, hm, -⟩ | ⟨row, hrow, hm, hr, -⟩ | ⟨row, -, hm, -⟩ := applyOne_cases hone
      · rw [hm, if_pos rfl, OrdMap.get_set_self]
      · rw [hm, if_neg (by decide), hrow, hr]
      · rw [hm, if_pos rfl, OrdMap.get_set_self]
    have hother : ∀ k, k ≠ rec.key →
        (if one.moved then rows.set rec.key one.row else rows).get k = rows.get k := by
      intro k hk
      split_ifs
      · exact OrdMap.get_set_of_ne _ _ hk
      · rfl
    have hne : ∀ r ∈ rest, r.key ≠ rec.key := fun r hr h =>
      hnodup.1 (h ▸ List.mem_map.2 ⟨r, hr, rfl⟩)
    obtain ⟨htally, hrest, hkeep⟩ := ih _ (tally.add rec.key one) hnodup.2 (fun r hr => by
      rw [hother r.key (hne r hr)]
      exact hok r (List.mem_cons_of_mem _ hr))
    rw [applyRecords]
    simp only [hone]
    refine ⟨htally, ?_, ?_⟩
    · intro r hr o ho
      rcases List.mem_cons.1 hr with rfl | hr
      · obtain rfl := Except.ok.inj (hone.symm.trans ho)
        rw [hkeep _ hnodup.1, hself]
      · exact hrest r hr o (by rw [hother r.key (hne r hr)]; exact ho)
    · intro k hk
      rw [List.map_cons, List.mem_cons, not_or] at hk
      rw [hkeep k hk.2, hother k hk.1]

theorem applyRecords_of_unmoved {rows : OrdMap String ρ} : ∀ (records : List (TierBRecord β))
    (tally : Tally),
    (∀ rec ∈ records, ∃ one, applyOneTierB t (rows.get rec.key) rec = .ok one ∧
      one.moved = false) →
    (applyRecords t rows tally records).1 = rows := by
  intro records
  induction records with
  | nil => intro tally _; rfl
  | cons rec rest ih =>
    intro tally h
    obtain ⟨one, hone, hmoved⟩ := h rec List.mem_cons_self
    rw [applyRecords]
    simp only [hone, hmoved, Bool.false_eq_true, if_false]
    exact ih _ fun r hr => h r (List.mem_cons_of_mem _ hr)

theorem verdict_of_divergent (records : List (TierBRecord β)) (tally : Tally)
    (h : 0 < (Tally.result t records tally).divergent) :
    (Tally.result t records tally).verdict ≠ none := by
  unfold Tally.result at h ⊢
  by_cases hw : t.witnessDisagrees.isSome
  · simp only [hw, if_true] at h ⊢
    simp [h]
  · simp only [hw, Bool.false_eq_true, if_false] at h ⊢
    rw [if_pos h]
    exact Option.some_ne_none _

end

/-! ### The suspension table in Postgres -/

/-- A `BIGINT`. -/
structure Bigint where
  val : ℤ
  lower : -2 ^ 63 ≤ val
  upper : val < 2 ^ 63
deriving DecidableEq

def outOfRange : AeError := .store "value is out of range for type bigint"

def Bigint.ofInt (n : ℤ) : Except AeError Bigint :=
  if h : -2 ^ 63 ≤ n ∧ n < 2 ^ 63 then .ok ⟨n, h.1, h.2⟩ else .error outOfRange

theorem Bigint.val_of_ofInt {n : ℤ} {b : Bigint} (h : Bigint.ofInt n = .ok b) : b.val = n := by
  unfold Bigint.ofInt at h
  split_ifs at h
  cases h
  rfl

/-- A row of `agent_suspensions`; the primary key `agent_id` is the key it is stored under. -/
structure SuspensionRow where
  paused : Bool
  burned : Bool
  reason : Option String
  authorizedByAccount : ChainStore.Uuid
  suspensionSeq : Bigint
  originNode : Option String
deriving DecidableEq

/-- `SUSPENSIONS.rowToBody`: the counter becomes a number. -/
def SuspensionRow.toBody (agentId : String) (row : SuspensionRow) : SuspensionRecord where
  agentId
  paused := row.paused
  burned := row.burned
  reason := row.reason
  authorizedByAccount := some row.authorizedByAccount.1
  suspensionSeq := Double.number row.suspensionSeq.val
  originNode := row.originNode.getD ""

def notNull : AeError :=
  .store "null value in column authorized_by_account violates not-null constraint"

def invalidUuid (text : String) : AeError :=
  .store ("invalid input syntax for type uuid: \"" ++ text ++ "\"")

/-- The column `authorized_by_account`. -/
def accountColumn : Option String → Except AeError ChainStore.Uuid
  | none => .error notNull
  | some text =>
    match ChainStore.Uuid.ofText text with
    | none => .error (invalidUuid text)
    | some account => .ok account

/-- The columns the driver writes for a body: `String(n)` read as a `BIGINT`, and an account that
must not be null and is read as a `UUID`. -/
def SuspensionRow.ofBody (body : SuspensionRecord) : Except AeError SuspensionRow :=
  accountColumn body.authorizedByAccount >>= fun account =>
    (Bigint.ofInt (Double.integer body.suspensionSeq)).map fun seq =>
      { paused := body.paused
        burned := body.burned
        reason := body.reason
        authorizedByAccount := account
        suspensionSeq := seq
        originNode := some body.originNode }

/-- `SUSPENSIONS`.  `validateBody` only checks the types of the columns, which a
`SuspensionRecord` has. -/
def suspensions (nfc : Nfc) (sha : Sha256) : TierBTable SuspensionRow SuspensionRecord where
  table := "agent_suspensions"
  keyColumn := "agent_id"
  bodyKey := SuspensionRecord.agentId
  merge := mergeSuspension nfc sha
  rowToBody := SuspensionRow.toBody
  versionHash := versionHash nfc sha
  validateBody := fun _ => none
  insert := SuspensionRow.ofBody
  update := fun _ body => SuspensionRow.ofBody body
  witnessDisagrees := none

theorem SuspensionRow.ofBody_ok {body : SuspensionRecord} {row : SuspensionRow}
    (h : SuspensionRow.ofBody body = .ok row) :
    row.paused = body.paused ∧ row.burned = body.burned ∧
      Double.number row.suspensionSeq.val = body.suspensionSeq := by
  unfold SuspensionRow.ofBody at h
  cases ha : accountColumn body.authorizedByAccount with
  | error e => rw [ha] at h; cases h
  | ok account =>
    rw [ha] at h
    obtain ⟨seq, hb, rfl⟩ := exists_of_map_ok h
    refine ⟨rfl, rfl, ?_⟩
    rw [Bigint.val_of_ofInt hb, Double.number_integer]

end Cello.Directory.AntiEntropy
