import Cello.Directory.AntiEntropy.Standing
import Cello.Lib.JsText

/-!
# Mutable tables and the bodies that come off the wire

`TierBPg` of `packages/directory/src/pg-ae-store.ts` with everything it has: the projection that a row
is read through, the body that is served for it, the check of a body whose type is not known, and the
statements that write one.  A statement that the database refuses returns its error.

`TierB.lean` has the part of `#applyOneTierB` behind the check; here a body is any value.  What a directory serves
and sends is applied as there (`applyTierB_onWire`).
-/

namespace Cello.Directory.AntiEntropy

open Lib

/-- How `validateBody` fails: it says what is wrong, or it throws itself. -/
inductive BodyFault where
  | refused (typeError : String)
  | thrown (message : String)
deriving DecidableEq, Repr

/-- A table whose rows are `ρ`, read as `σ`, and whose bodies are `β`. -/
structure TierBPg (ρ σ β : Type) where
  spec : TierBVersionSpec
  keyColumn : String
  /-- The projection of the row stored under a key. -/
  select : String → ρ → Except AeError σ
  /-- The columns as the driver yields them. -/
  columns : σ → MutableRow
  rowToBody : σ → β
  merge : β → β → β
  toVersionRow : β → MutableRow
  /-- A body as the value that is sent. -/
  wire : β → JsAny
  validateBody : JsAny → Except BodyFault β
  insert : β → Except AeError ρ
  update : ρ → β → Except AeError ρ
  witnessDisagrees : Option (β → β → Bool)

namespace TierBPg

variable {ρ σ β : Type} (nfc : Nfc) (sha : Sha256) (t : TierBPg ρ σ β)

/-! ### Advertise and serve -/

/-- The text whose hash `tierBVersions` advertises for a row that was read. -/
def rowText (selected : σ) : String := tierBText nfc t.spec (t.columns selected)

def bodyText (body : β) : String := tierBText nfc t.spec (t.toVersionRow body)

/-- What `tierBVersions` advertises for a row. -/
def advertised (key : String) (row : ρ) : Except AeError String :=
  (t.select key row).map fun s => (encodeTierBVersion nfc sha t.spec (t.columns s)).2

/-- `encodeTierBVersion(spec, toVersionRow(body)).versionHash`. -/
def versionHash (body : β) : String := (encodeTierBVersion nfc sha t.spec (t.toVersionRow body)).2

/-- The body that `serveTierB` serves for a row. -/
def served (key : String) (row : ρ) : Except AeError β := (t.select key row).map t.rowToBody

/-! ### Apply -/

/-- A property of `null` or `undefined` cannot be read. -/
def nullBody (body : String) : AeError :=
  .store ("Cannot read properties of " ++ body ++ " (reading '" ++ t.keyColumn ++ "')")

def keyMismatch (rec : TierBRecord JsAny) : AeError :=
  .store ("pg-ae-store: " ++ t.spec.table ++ " record key '" ++ rec.key ++
    "' does not match its body " ++ t.keyColumn ++ " '" ++ (rec.body.prop t.keyColumn).toText ++
    "' — refusing to apply")

def bodyError (rec : TierBRecord JsAny) : BodyFault → AeError
  | .refused typeError => .store ("pg-ae-store: " ++ t.spec.table ++ " record '" ++ rec.key ++
      "' body " ++ typeError ++ " — refusing to apply")
  | .thrown message => .store message

/-- The checks of `#applyOneTierB`: the body says the record's key, and its columns have their
types. -/
def accept (rec : TierBRecord JsAny) : Except AeError β :=
  match rec.body with
  | .undefined => .error (t.nullBody "undefined")
  | .null => .error (t.nullBody "null")
  | _ =>
    match rec.body.prop t.keyColumn with
    | .str key =>
      if key ≠ rec.key then .error (t.keyMismatch rec)
      else (t.validateBody rec.body).mapError (t.bodyError rec)
    | _ => .error (t.keyMismatch rec)

/-- The transaction of `#applyOneTierB`. -/
def mergeRow (key : String) (existing : Option ρ) (incoming : β) : Except AeError (Applied ρ) :=
  match existing with
  | some row => do
    let selected ← t.select key row
    let local' := t.rowToBody selected
    let merged := t.merge local' incoming
    let witness := t.witnessDisagrees.any fun w => w local' incoming
    if t.versionHash nfc sha merged ≠ t.versionHash nfc sha local' then
      (t.update row merged).map fun row' => ⟨row', true, witness⟩
    else .ok ⟨row, false, witness⟩
  | none => (t.insert incoming).map fun row => ⟨row, true, false⟩

def applyOneTierB (existing : Option ρ) (rec : TierBRecord JsAny) : Except AeError (Applied ρ) :=
  (t.accept rec).bind (t.mergeRow nfc sha rec.key existing)

/-- The loop of `applyTierB`. -/
def applyRecords : OrdMap String ρ → Tally → List (TierBRecord JsAny) →
    OrdMap String ρ × Except AeError Tally
  | rows, tally, [] => (rows, .ok tally)
  | rows, tally, rec :: rest =>
    match t.applyOneTierB nfc sha (rows.get rec.key) rec with
    | .ok one =>
      applyRecords (if one.moved then rows.set rec.key one.row else rows) (tally.add rec.key one) rest
    | .error (.unknownKey _) => applyRecords rows tally rest
    | .error e => (rows, .error e)

/-- The verdict of a batch: per record with a witness, per table without one. -/
def result (records : List (TierBRecord JsAny)) (tally : Tally) : TierBApplyResult :=
  if t.witnessDisagrees.isSome then
    { applied := tally.changed
      divergent := tally.witnessDisagreements
      divergentKeys := tally.divergentKeys.take 5
      verdict := if 0 < tally.witnessDisagreements then some .contentFork else none }
  else
    let divergent := if tally.changed = 0 then records.length else 0
    { applied := tally.changed
      divergent
      divergentKeys := if 0 < divergent then tally.unmovedKeys.take 5 else []
      verdict := if 0 < divergent then some .peerBehind else none }

def applyTierB (rows : OrdMap String ρ) (records : List (TierBRecord JsAny)) :
    OrdMap String ρ × Except AeError TierBApplyResult :=
  if records.length = 0 then (rows, .ok { applied := 0, divergent := 0, divergentKeys := [] })
  else
    let out := t.applyRecords nfc sha rows {} records
    (out.1, out.2.map (t.result records))

variable {nfc sha t}

/-! ### What one apply can do -/

theorem accept_ok {rec : TierBRecord JsAny} {body : β} (h : t.accept rec = .ok body) :
    rec.body.prop t.keyColumn = .str rec.key ∧ t.validateBody rec.body = .ok body := by
  have hcheck : (∃ key, rec.body.prop t.keyColumn = .str key ∧ key = rec.key) ∧
      t.validateBody rec.body = .ok body := by
    unfold accept at h
    split at h
    · cases h
    · cases h
    · split at h
      · rename_i key hkey
        split_ifs at h with hne
        refine ⟨⟨key, hkey, not_not.1 hne⟩, ?_⟩
        cases hv : t.validateBody rec.body with
        | error fault => rw [hv] at h; cases h
        | ok body' => rw [hv] at h; cases h; rfl
      · cases h
  obtain ⟨⟨key, hkey, rfl⟩, hbody⟩ := hcheck
  exact ⟨hkey, hbody⟩

theorem accept_of_valid {key : String} {members : List (String × JsAny)} {body : β}
    (hkey : (JsAny.obj members).prop t.keyColumn = .str key)
    (hbody : t.validateBody (.obj members) = .ok body) : t.accept ⟨key, .obj members⟩ = .ok body := by
  unfold accept
  simp only [hkey, ne_eq, not_true_eq_false, if_false, hbody]
  rfl

theorem mergeRow_cases {key : String} {existing : Option ρ} {incoming : β} {one : Applied ρ}
    (h : t.mergeRow nfc sha key existing incoming = .ok one) :
    (existing = none ∧ one.moved = true ∧ t.insert incoming = .ok one.row) ∨
    (∃ row, existing = some row ∧ one.moved = false ∧ one.row = row) ∨
    (∃ row selected, existing = some row ∧ t.select key row = .ok selected ∧ one.moved = true ∧
      t.update row (t.merge (t.rowToBody selected) incoming) = .ok one.row) := by
  cases existing with
  | none =>
    obtain ⟨row, hrow, rfl⟩ := exists_of_map_ok h
    exact Or.inl ⟨rfl, rfl, hrow⟩
  | some row =>
    cases hselect : t.select key row with
    | error e =>
      simp only [mergeRow, hselect] at h
      cases h
    | ok selected =>
      simp only [mergeRow, hselect] at h
      change (if _ then _ else _) = _ at h
      split_ifs at h with hmoved
      · obtain ⟨row', hrow, rfl⟩ := exists_of_map_ok h
        exact Or.inr (Or.inr ⟨row, selected, rfl, hselect, rfl, hrow⟩)
      · cases h
        exact Or.inr (Or.inl ⟨row, rfl, rfl, rfl⟩)

theorem mergeRow_of_unmoved {key : String} {row : ρ} {selected : σ} {incoming : β}
    (hselect : t.select key row = .ok selected)
    (h : t.versionHash nfc sha (t.merge (t.rowToBody selected) incoming) =
      t.versionHash nfc sha (t.rowToBody selected)) :
    t.mergeRow nfc sha key (some row) incoming =
      .ok ⟨row, false, t.witnessDisagrees.any fun w => w (t.rowToBody selected) incoming⟩ := by
  simp only [mergeRow, hselect]
  change (if _ then _ else _) = _
  rw [if_neg (not_not.2 h)]

theorem applyRecords_keeps {I : OrdMap String ρ → Prop} (records : List (TierBRecord JsAny))
    (hone : ∀ rows, ∀ rec ∈ records, ∀ body one, I rows → t.accept rec = .ok body →
      t.mergeRow nfc sha rec.key (rows.get rec.key) body = .ok one → one.moved = true →
      I (rows.set rec.key one.row)) :
    ∀ (rows : OrdMap String ρ) (tally : Tally), I rows → I (t.applyRecords nfc sha rows tally records).1 := by
  induction records with
  | nil => intro rows tally h; exact h
  | cons rec rest ih =>
    intro rows tally h
    have ih' := ih fun rows r hr => hone rows r (List.mem_cons_of_mem _ hr)
    rw [applyRecords]
    split
    · rename_i one hok
      refine ih' _ _ ?_
      unfold applyOneTierB at hok
      cases hacc : t.accept rec with
      | error e => rw [hacc] at hok; cases hok
      | ok body =>
        rw [hacc] at hok
        split_ifs with hmoved
        · exact hone rows rec List.mem_cons_self body one h hacc hok hmoved
        · exact h
    · exact ih' _ _ h
    · exact h

theorem applyTierB_keeps {I : OrdMap String ρ → Prop} (records : List (TierBRecord JsAny))
    (hone : ∀ rows, ∀ rec ∈ records, ∀ body one, I rows → t.accept rec = .ok body →
      t.mergeRow nfc sha rec.key (rows.get rec.key) body = .ok one → one.moved = true →
      I (rows.set rec.key one.row))
    {rows : OrdMap String ρ} (h : I rows) : I (t.applyTierB nfc sha rows records).1 := by
  unfold applyTierB
  split_ifs
  · exact h
  · exact applyRecords_keeps records hone rows {} h

end TierBPg

/-! ### `SUSPENSIONS` -/

/-- A row as `SUSPENSIONS.select` yields it: with its key, and with an origin. -/
structure SelectedSuspension where
  agentId : String
  row : SuspensionRow
deriving DecidableEq

namespace SelectedSuspension

/-- The columns off the driver, which has a `BIGINT` as text. -/
def columns (s : SelectedSuspension) : MutableRow
  | "agent_id" => some (.canonical (.str s.agentId))
  | "paused" => some (.canonical (.bool s.row.paused))
  | "burned" => some (.canonical (.bool s.row.burned))
  | "reason" => some (.canonical (textOrNull s.row.reason))
  | "authorized_by_account" => some (.canonical (.str s.row.authorizedByAccount.1))
  | "suspension_seq" => some (.canonical (.str (toString s.row.suspensionSeq.val)))
  | "origin_node" => some (.canonical (.str (s.row.originNode.getD "")))
  | _ => none

end SelectedSuspension

/-- A `string | null` on the wire. -/
def wireText : Option String → JsAny
  | some s => .str s
  | none => .null

namespace SuspensionBody

def wire (b : SuspensionBody) : JsAny :=
  .obj [("agent_id", .str b.agentId), ("paused", .bool b.paused), ("burned", .bool b.burned),
    ("reason", wireText b.reason), ("authorized_by_account", wireText b.authorizedByAccount),
    ("suspension_seq", .num (.fin (b.suspensionSeq.1 : ℚ))), ("origin_node", wireText b.originNode)]

/-- A column that is a text or `null`. -/
def readText (body : JsAny) (column : String) : Except BodyFault (Option String) :=
  match body.prop column with
  | .str s => .ok (some s)
  | .null => .ok none
  | v => .error (.refused (column ++ " must be a string or null, got " ++ v.typeOf))

def readFlag (body : JsAny) (column : String) : Except BodyFault Bool :=
  match body.prop column with
  | .bool b => .ok b
  | v => .error (.refused (column ++ " must be a boolean, got " ++ v.typeOf))

def seqRefused (v : JsAny) : BodyFault :=
  match v.jsonText with
  | some text => .refused ("suspension_seq must be a finite integer, got " ++ text ++ " (" ++ v.typeOf ++ ")")
  | none => .thrown "Do not know how to serialize a BigInt"

def readSeq (body : JsAny) : Except BodyFault Double.Whole :=
  match body.prop "suspension_seq" with
  | .num (.fin q) => if q.den = 1 then .ok (Double.number q.num) else .error (seqRefused (.num (.fin q)))
  | v => .error (seqRefused v)

/-- `SUSPENSIONS.validateBody`. -/
def validateBody (body : JsAny) : Except BodyFault SuspensionBody :=
  match body.prop "agent_id" with
  | .str agentId => do
    let paused ← readFlag body "paused"
    let burned ← readFlag body "burned"
    let suspensionSeq ← readSeq body
    let reason ← readText body "reason"
    let authorizedByAccount ← readText body "authorized_by_account"
    let originNode ← readText body "origin_node"
    .ok { agentId, paused, burned, reason, authorizedByAccount, suspensionSeq, originNode }
  | _ => .error (.refused "agent_id must be a string")

end SuspensionBody

/-- `SUSPENSIONS`. -/
def agentSuspensions (nfc : Nfc) (sha : Sha256) :
    TierBPg SuspensionRow SelectedSuspension SuspensionBody where
  spec := suspensionVersionSpec
  keyColumn := "agent_id"
  select := fun agentId row => .ok ⟨agentId, row⟩
  columns := SelectedSuspension.columns
  rowToBody := fun s => (s.row.toBody s.agentId).accepted
  merge := SuspensionBody.merge nfc sha
  toVersionRow := SuspensionBody.toVersionRow
  wire := SuspensionBody.wire
  validateBody := SuspensionBody.validateBody
  insert := SuspensionBody.toRow
  update := fun _ body => body.toRow
  witnessDisagrees := none

section

variable {nfc : Nfc} {sha : Sha256}

theorem readText_wireText {members : List (String × JsAny)} {column : String} {v : Option String}
    (h : (JsAny.obj members).prop column = wireText v) :
    SuspensionBody.readText (.obj members) column = .ok v := by
  unfold SuspensionBody.readText
  rw [h]
  cases v <;> rfl

theorem validateBody_wire (b : SuspensionBody) : SuspensionBody.validateBody b.wire = .ok b := by
  have hseq : SuspensionBody.readSeq b.wire = .ok b.suspensionSeq := by
    have hprop : b.wire.prop "suspension_seq" = .num (.fin (b.suspensionSeq.1 : ℚ)) := rfl
    simp only [SuspensionBody.readSeq, hprop, Rat.den_intCast, if_true, Rat.num_intCast]
    exact congrArg Except.ok (Subtype.ext b.suspensionSeq.2)
  have hreason : SuspensionBody.readText b.wire "reason" = .ok b.reason :=
    readText_wireText rfl
  have haccount : SuspensionBody.readText b.wire "authorized_by_account" = .ok b.authorizedByAccount :=
    readText_wireText rfl
  have horigin : SuspensionBody.readText b.wire "origin_node" = .ok b.originNode :=
    readText_wireText rfl
  have hagent : b.wire.prop "agent_id" = .str b.agentId := rfl
  have hpaused : SuspensionBody.readFlag b.wire "paused" = .ok b.paused := rfl
  have hburned : SuspensionBody.readFlag b.wire "burned" = .ok b.burned := rfl
  simp only [SuspensionBody.validateBody, hagent, hpaused, hburned, hseq, hreason, haccount, horigin]
  rfl

theorem applyOneTierB_wire (existing : Option SuspensionRow) (key : String) (b : SuspensionBody) :
    (agentSuspensions nfc sha).applyOneTierB nfc sha existing ⟨key, b.wire⟩ =
      applyOneTierB (acceptedSuspensions nfc sha) existing ⟨key, b⟩ := by
  have hagent : b.wire.prop "agent_id" = .str b.agentId := rfl
  by_cases hkey : b.agentId = key
  · have haccept : (agentSuspensions nfc sha).accept ⟨key, b.wire⟩ = .ok b :=
      TierBPg.accept_of_valid (hagent.trans (congrArg _ hkey)) (validateBody_wire b)
    rw [TierBPg.applyOneTierB, haccept]
    simp only [applyOneTierB, acceptedSuspensions, hkey, ne_eq, not_true_eq_false, if_false]
    cases existing <;> rfl
  · have haccept : (agentSuspensions nfc sha).accept ⟨key, b.wire⟩ =
        .error (keyMismatch (acceptedSuspensions nfc sha) ⟨key, b⟩) := by
      change (if b.agentId ≠ key then _ else _) = _
      rw [if_pos hkey]
      rfl
    rw [TierBPg.applyOneTierB, haccept, applyOneTierB]
    simp only [acceptedSuspensions, ne_eq, hkey, not_false_eq_true, if_true]
    rfl

def onWire (rec : TierBRecord SuspensionRecord) : TierBRecord JsAny := ⟨rec.key, rec.body.accepted.wire⟩

theorem applyRecords_onWire (records : List (TierBRecord SuspensionRecord)) :
    ∀ (rows : OrdMap String SuspensionRow) (tally : Tally),
      (agentSuspensions nfc sha).applyRecords nfc sha rows tally (records.map onWire) =
        applyRecords (suspensions nfc sha) rows tally records := by
  induction records with
  | nil => exact fun rows tally => rfl
  | cons rec rest ih =>
    intro rows tally
    have hone : (agentSuspensions nfc sha).applyOneTierB nfc sha (rows.get rec.key) (onWire rec) =
        applyOneTierB (suspensions nfc sha) (rows.get rec.key) rec :=
      (applyOneTierB_wire _ rec.key rec.body.accepted).trans (applyOneTierB_accepted _ rec.key rec.body)
    rw [List.map_cons, TierBPg.applyRecords, applyRecords, show (onWire rec).key = rec.key from rfl, hone]
    cases applyOneTierB (suspensions nfc sha) (rows.get rec.key) rec with
    | ok one => exact ih _ _
    | error e =>
      cases e with
      | unknownKey message => exact ih rows tally
      | _ => rfl

theorem applyTierB_onWire (nfc : Nfc) (sha : Sha256) (rows : OrdMap String SuspensionRow)
    (records : List (TierBRecord SuspensionRecord)) :
    (agentSuspensions nfc sha).applyTierB nfc sha rows (records.map onWire) =
      applyTierB (suspensions nfc sha) rows records := by
  rw [TierBPg.applyTierB, applyTierB, List.length_map, applyRecords_onWire]
  have hresult : (agentSuspensions nfc sha).result (records.map onWire) =
      Tally.result (suspensions nfc sha) records := by
    funext tally
    rw [TierBPg.result, Tally.result, List.length_map]
    rfl
  rw [hresult]

end

end Cello.Directory.AntiEntropy
