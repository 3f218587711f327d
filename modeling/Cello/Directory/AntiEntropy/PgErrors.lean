import Cello.Directory.AntiEntropy.PgStore

/-!
# The errors of the store

What `PgAeStore` throws over a record, be it the record's fault or the database's, is never a protocol
error, so the round contains it.
-/

namespace Cello.Directory.AntiEntropy

open Lib

/-! ### Errors of a sequence -/

theorem bind_error {ε γ δ : Type} {x : Except ε γ} {f : γ → Except ε δ} {e : ε} (h : x >>= f = .error e) :
    x = .error e ∨ ∃ a, x = .ok a ∧ f a = .error e := by
  cases x with
  | error e' =>
    cases h
    exact Or.inl rfl
  | ok a => exact Or.inr ⟨a, rfl, h⟩

theorem map_error {ε γ δ : Type} {x : Except ε γ} {f : γ → δ} {e : ε} (h : x.map f = .error e) :
    x = .error e := by
  cases x with
  | error e' =>
    cases h
    rfl
  | ok a => cases h

theorem mapM_error {ε γ δ : Type} {f : γ → Except ε δ} {e : ε} :
    ∀ {l : List γ}, l.mapM f = .error e → ∃ x ∈ l, f x = .error e := by
  intro l
  induction l with
  | nil => intro h; cases h
  | cons x rest ih =>
    intro h
    rw [List.mapM_cons] at h
    rcases bind_error h with hx | ⟨y, -, h⟩
    · exact ⟨x, List.mem_cons_self, hx⟩
    · rcases bind_error h with hrest | ⟨ys, -, h⟩
      · obtain ⟨z, hz, hfail⟩ := ih hrest
        exact ⟨z, List.mem_cons_of_mem _ hz, hfail⟩
      · cases h

/-! ### Append-only applies -/

section

variable {pg : PgAeStore} {nfc : Nfc} {sha : Sha256} {e : AeError}

theorem ofExchange_property {body : JsAny} {c : String} (h : property body c = .error e) :
    e.ofExchange = false := by
  unfold property at h
  split at h
  · cases h
    rfl
  · cases h
    rfl
  · cases h

theorem ofExchange_fields {body : JsAny} {columns : List String}
    (h : (columns.mapM fun c => (property body c).map fun v => (c, orNull v)) = .error e) :
    e.ofExchange = false := by
  obtain ⟨c, -, hc⟩ := mapM_error h
  exact ofExchange_property (map_error hc)

theorem ofExchange_bodyHash {spec : TierATableSpec} {body : JsAny}
    (h : bodyHash nfc sha spec body = .error e) : e.ofExchange = false := by
  unfold bodyHash at h
  rcases bind_error h with hfields | ⟨fields, -, h⟩
  · exact ofExchange_fields hfields
  · dsimp only at h
    split at h
    · cases h
    · cases h
      rfl

theorem ofExchange_chainRecord {t : TierAPg} {body : JsAny} (h : chainRecord t body = .error e) :
    e.ofExchange = false := by
  obtain ⟨x, -, hx⟩ := mapM_error h
  split at hx
  · split_ifs at hx
    cases hx
    rfl
  · cases hx

theorem ofExchange_applyOneTierA {t : TierAPg} {tables : String → List TableRow}
    {rec : TierARecord JsAny} {db : Database} {chainWriter : Option ChainWriter}
    (h : applyOneTierA t nfc sha db chainWriter tables rec = .error e) : e.ofExchange = false := by
  unfold applyOneTierA at h
  rcases bind_error h with hmissing | ⟨missing, -, h⟩
  · rcases bind_error hmissing with hfields | ⟨values, -, hmissing⟩
    · exact ofExchange_fields hfields
    · cases hmissing
  · split_ifs at h
    · cases h
      rfl
    · rcases bind_error h with hhash | ⟨recomputed, -, h⟩
      · exact ofExchange_bodyHash hhash
      · split_ifs at h
        · cases h
          rfl
        · unfold insertRecord at h
          split_ifs at h
          · cases hwriter : chainWriter with
            | none =>
              rw [hwriter] at h
              cases h
              rfl
            | some insertWithChain =>
              rw [hwriter] at h
              exact ofExchange_chainRecord (map_error h)

theorem ofExchange_find {reg : TierARegistry} {table : String} (h : reg.find table = .error e) :
    e.ofExchange = false := by
  unfold TierARegistry.find at h
  split at h
  · cases h
  · cases h
    rfl

/-- **No error of an append-only apply is one of the wire.** -/
theorem ofExchange_applyTierA {s : LocalTables} {table : String}
    {records : List (TierARecord JsAny)} (h : (pg.applyTierA s table records).2 = .error e) :
    e.ofExchange = false := by
  have hloop : ∀ (t : TierAPg) (records : List (TierARecord JsAny)) (s : LocalTables) (n : ℕ),
      (applyTierARecords t pg.nfc pg.sha.toSha256 pg.db pg.chainWriter s n records).2 = .error e →
      e.ofExchange = false := by
    intro t records
    induction records with
    | nil => intro s n h; cases h
    | cons rec rest ih =>
      intro s n h
      rw [applyTierARecords] at h
      split at h
      · rename_i e' hone
        cases h
        exact ofExchange_applyOneTierA hone
      · exact ih s n h
      · exact ih _ _ h
  unfold PgAeStore.applyTierA at h
  split_ifs at h
  cases hfind : pg.registry.find table with
  | error e' =>
    rw [hfind] at h
    cases h
    exact ofExchange_find hfind
  | ok t =>
    rw [hfind] at h
    exact hloop t records s 0 h

end

/-! ### Mutable applies -/

namespace TierBPg

variable {ρ σ β : Type} {t : TierBPg ρ σ β} {db : Database} {keyOf : β → String} {nfc : Nfc}
  {sha : Sha256}

theorem ofExchange_accept {rec : TierBRecord JsAny} {e : AeError} (h : t.accept rec = .error e) :
    e.ofExchange = false := by
  unfold accept at h
  split at h
  · cases h
    rfl
  · cases h
    rfl
  · split at h
    · split_ifs at h
      · cases h
        rfl
      · cases hbody : t.validateBody rec.body with
        | ok body => rw [hbody] at h; cases h
        | error fault =>
          rw [hbody] at h
          cases h
          cases fault <;> rfl
    · cases h
      rfl

/-- The statements of a table give errors of the store. -/
structure LocalErrors (t : TierBPg ρ σ β) : Prop where
  select : ∀ key row e, t.select key row = .error e → e.ofExchange = false
  insert : ∀ body e, t.insert body = .error e → e.ofExchange = false
  update : ∀ row body e, t.update row body = .error e → e.ofExchange = false

theorem LocalErrors.over (h : t.LocalErrors) : (t.over db keyOf).LocalErrors where
  select := by
    intro key row e he
    dsimp only [TierBPg.over] at he
    split at he
    · cases he
      rfl
    · exact h.select key row e he
  insert := by
    intro body e he
    dsimp only [TierBPg.over] at he
    split at he
    · cases he
      rfl
    · exact h.insert body e he
  update := by
    intro row body e he
    dsimp only [TierBPg.over] at he
    split at he
    · cases he
      rfl
    · exact h.update row body e he

theorem LocalErrors.applyOneTierB (h : t.LocalErrors) {existing : Option ρ} {rec : TierBRecord JsAny}
    {e : AeError} (he : t.applyOneTierB nfc sha existing rec = .error e) : e.ofExchange = false := by
  rcases bind_error he with haccept | ⟨body, -, he⟩
  · exact ofExchange_accept haccept
  · cases existing with
    | none => exact h.insert body e (map_error he)
    | some row =>
      rcases bind_error he with hselect | ⟨selected, -, he⟩
      · exact h.select _ row e hselect
      · dsimp only at he
        split_ifs at he
        exact h.update row _ e (map_error he)

/-- **No error of a mutable apply is one of the wire.** -/
theorem LocalErrors.applyTierB (h : t.LocalErrors) {rows : OrdMap String ρ}
    {records : List (TierBRecord JsAny)} {e : AeError}
    (he : (t.applyTierB nfc sha rows records).2 = .error e) : e.ofExchange = false := by
  have hloop : ∀ (records : List (TierBRecord JsAny)) (rows : OrdMap String ρ) (tally : Tally),
      (t.applyRecords nfc sha rows tally records).2 = .error e → e.ofExchange = false := by
    intro records
    induction records with
    | nil => intro rows tally he; cases he
    | cons rec rest ih =>
      intro rows tally he
      rw [applyRecords] at he
      split at he
      · exact ih _ _ he
      · exact ih _ _ he
      · rename_i e' hone
        cases he
        exact h.applyOneTierB hone
  unfold TierBPg.applyTierB at he
  split_ifs at he
  exact hloop records rows {} (map_error he)

end TierBPg

namespace PgAeStore

variable {pg : PgAeStore}

theorem ofExchange_toRow {body : SuspensionBody} {e : AeError} (h : body.toRow = .error e) :
    e.ofExchange = false := by
  rcases bind_error h with haccount | ⟨account, -, h⟩
  · unfold accountColumn at haccount
    split at haccount
    · cases haccount
      rfl
    · split at haccount
      · cases haccount
        rfl
      · cases haccount
  · have hrange := map_error h
    unfold Bigint.ofInt at hrange
    split_ifs at hrange
    cases hrange
    rfl

theorem ofExchange_toTimestamp {text : String} {e : AeError} (h : pg.toTimestamp text = .error e) :
    e.ofExchange = false := by
  unfold toTimestamp at h
  cases htime : pg.db.toTimestamp text with
  | error message =>
    rw [htime] at h
    cases h
    rfl
  | ok time => rw [htime] at h; cases h

theorem ofExchange_epochMillis {time : Timestamp} {e : AeError} (h : epochMillis time = .error e) :
    e.ofExchange = false := by
  cases time with
  | micros t => cases h
  | infinity =>
    cases h
    rfl
  | negInfinity =>
    cases h
    rfl

theorem suspensionTable_local : pg.suspensionTable.LocalErrors :=
  TierBPg.LocalErrors.over
    { select := by
        intro key row e he
        cases he
      insert := fun _ _ he => ofExchange_toRow he
      update := fun _ _ _ he => ofExchange_toRow he }

theorem presenceTable_local : pg.presenceTable.LocalErrors := by
  have htoRow : ∀ (body : PresenceRecord) (e : AeError), body.toRow pg.toTimestamp = .error e →
      e.ofExchange = false := by
    intro body e he
    rcases bind_error he with hseen | ⟨lastSeenAt, -, he⟩
    · exact ofExchange_toTimestamp hseen
    · rcases bind_error he with hupdated | ⟨updatedAt, -, he⟩
      · exact ofExchange_toTimestamp hupdated
      · cases he
  refine TierBPg.LocalErrors.over ⟨?_, htoRow, fun _ => htoRow⟩
  intro key row e he
  rcases bind_error he with hseen | ⟨lastSeenAt, -, he⟩
  · exact ofExchange_epochMillis hseen
  · rcases bind_error he with hupdated | ⟨updatedAt, -, he⟩
    · exact ofExchange_epochMillis hupdated
    · cases he

theorem nodeTable_local : pg.nodeTable.LocalErrors := by
  refine TierBPg.LocalErrors.over ⟨?_, ?_, ?_⟩
  · intro key row e he
    exact ofExchange_epochMillis (map_error he)
  · intro body e he
    cases he
    rfl
  · intro row body e he
    exact ofExchange_toTimestamp (map_error he)

theorem ofExchange_applyTierB {s : LocalTables} {table : String} {records : List (TierBRecord JsAny)}
    {e : AeError} (h : (pg.applyTierB s table records).2 = .error e) : e.ofExchange = false := by
  unfold applyTierB at h
  split_ifs at h
  · exact suspensionTable_local.applyTierB h
  · exact presenceTable_local.applyTierB h
  · exact nodeTable_local.applyTierB h
  · cases h
    rfl

end PgAeStore

end Cello.Directory.AntiEntropy
