import Cello.Directory.AntiEntropy.Reconcile

/-!
# One anti-entropy round

`planRound` of `packages/directory/src/ae-round.ts` and `anti-entropy-engine.ts`, over an
arbitrary store view on each side.  A view's reads may fail; an apply may fail after it has
changed the store, so it returns the store together with its outcome.

The local node pulls: it reads its own tables, takes the peer's digests for the tables it
tracks, plans, and then serves and applies table by table in the order of its own registry.
A failing table is recorded and costs that table alone; a failure of the wire ends the
round.
-/

namespace Cello.Directory.AntiEntropy

open Lib

/-! ### The plan -/

structure LocalRoundState where
  tierA : OrdMap String (List String)
  tierB : OrdMap String (OrdMap String String)
  unreadableA : List String
  unreadableB : List String

/-- A table as the peer advertises it; the detail is only looked at when the digests differ. -/
structure Advertised (α : Type) where
  digest : String
  detail : Except AeError α

structure PeerRoundState where
  tierA : OrdMap String (Advertised (List String))
  tierB : OrdMap String (Advertised (OrdMap String String))

structure RoundPlan where
  tierA : OrdMap String (List String)
  tierB : OrdMap String (List String)

section

variable (sha : Sha256)

/-- What to pull of one append-only table. -/
def planTableA (basis : LocalRoundState) (table : String) (adv : Advertised (List String)) :
    Except AeError (List String) :=
  if table ∈ basis.unreadableA then .ok []
  else
    let localHashes := (basis.tierA.get table).getD []
    do
      let digest ← computeTableDigest sha localHashes
      if adv.digest = digest then .ok []
      else
        let recordHashes ← adv.detail
        .ok (missingLocally localHashes recordHashes)

/-- What to pull of one mutable table. -/
def planTableB (basis : LocalRoundState) (table : String)
    (adv : Advertised (OrdMap String String)) : Except AeError (List String) :=
  if table ∈ basis.unreadableB then .ok []
  else
    let localVersions := (basis.tierB.get table).getD OrdMap.empty
    if adv.digest = tierBTableDigest sha localVersions then .ok []
    else
      do
        let versions ← adv.detail
        .ok (versionKeysToPull localVersions versions)

/-- The loop over the advertised tables; an empty pull is not entered in the plan. -/
def planTables {α : Type} (planTable : String → α → Except AeError (List String)) :
    List (String × α) → OrdMap String (List String) → Except AeError (OrdMap String (List String))
  | [], plan => .ok plan
  | (table, adv) :: rest, plan => do
    let pull ← planTable table adv
    planTables planTable rest (if 0 < pull.length then plan.set table pull else plan)

def planRound (basis : LocalRoundState) (peer : PeerRoundState) : Except AeError RoundPlan := do
  let tierA ← planTables (planTableA sha basis) peer.tierA.entries OrdMap.empty
  let tierB ← planTables (planTableB sha basis) peer.tierB.entries OrdMap.empty
  .ok { tierA, tierB }

end

/-! ### Store views -/

/-- An append-only record body addressed by its record hash. -/
structure TierARecord (α : Type) where
  hash : String
  body : α

/-- `AeStoreView`, over a store `σ` with bodies `α` and `β`. -/
structure AeStoreView (σ α β : Type) where
  tierATables : σ → List String
  tierBTables : σ → List String
  tierATableDigest : σ → String → Except AeError String
  tierARecordHashes : σ → String → Except AeError (List String)
  tierBTableDigest : σ → String → Except AeError String
  tierBVersions : σ → String → Except AeError (OrdMap String String)
  serveTierA : σ → String → List String → Except AeError (List (TierARecord α))
  serveTierB : σ → String → List String → Except AeError (List (TierBRecord β))
  applyTierA : σ → String → List (TierARecord α) → σ × Except AeError ℕ
  applyTierB : σ → String → List (TierBRecord β) → σ × Except AeError TierBApplyResult

inductive Tier where
  | A
  | B
deriving DecidableEq, Repr

structure Failure where
  tier : Tier
  table : String
  reason : String
deriving DecidableEq, Repr

structure Unconverged where
  tier : Tier
  table : String
  planned : ℕ
  pulled : ℕ
  applied : ℕ
  divergent : ℕ
  verdict : Verdict
  divergentKeys : List String
deriving DecidableEq, Repr

structure RoundResult where
  tierAPulled : ℕ := 0
  tierBPulled : ℕ := 0
  tierAApplied : ℕ := 0
  tierBApplied : ℕ := 0
  tierAPlanned : ℕ := 0
  tierBPlanned : ℕ := 0
  failures : List Failure := []
  unconverged : List Unconverged := []
deriving DecidableEq, Repr

section

variable {σ τ α β : Type}

/-- A read of every table of a registry: what was read, and the tables that failed. -/
def readTables {γ : Type} (tier : Tier) (read : String → Except AeError γ) :
    List String → OrdMap String γ × List String × List Failure →
    OrdMap String γ × List String × List Failure
  | [], out => out
  | t :: rest, (rows, unreadable, failures) =>
    match read t with
    | .ok v => readTables tier read rest (rows.set t v, unreadable, failures)
    | .error e =>
      readTables tier read rest
        (rows, unreadable ++ [t], failures ++ [{ tier, table := t, reason := e.message }])

def localState (L : AeStoreView σ α β) (store : σ) : LocalRoundState × List Failure :=
  let a := readTables .A (L.tierARecordHashes store) (L.tierATables store) (OrdMap.empty, [], [])
  let b := readTables .B (L.tierBVersions store) (L.tierBTables store) (OrdMap.empty, [], [])
  ({ tierA := a.1, tierB := b.1, unreadableA := a.2.1, unreadableB := b.2.1 }, a.2.2 ++ b.2.2)

/-- The advertised tables among those this node tracks. -/
def advertiseTables {γ : Type} (tracked : List String) (digest : String → Except AeError String)
    (detail : String → Except AeError γ) :
    List String → OrdMap String (Advertised γ) → Except AeError (OrdMap String (Advertised γ))
  | [], out => .ok out
  | t :: rest, out =>
    if t ∉ tracked then advertiseTables tracked digest detail rest out
    else do
      let d ← digest t
      advertiseTables tracked digest detail rest (out.set t { digest := d, detail := detail t })

def peerAdvertisement (P : AeStoreView τ α β) (peer : τ) (localTierA localTierB : List String) :
    Except AeError PeerRoundState := do
  let tierA ← advertiseTables localTierA (P.tierATableDigest peer) (P.tierARecordHashes peer)
    (P.tierATables peer) OrdMap.empty
  let tierB ← advertiseTables localTierB (P.tierBTableDigest peer) (P.tierBVersions peer)
    (P.tierBTables peer) OrdMap.empty
  .ok { tierA, tierB }

def contain (r : RoundResult) (tier : Tier) (table : String) (e : AeError) :
    Except AeError RoundResult :=
  if e.isWireError then .error e
  else .ok { r with failures := r.failures ++ [{ tier, table, reason := e.message }] }

/-- The round's counters after a Tier-A apply.  Every record that was not inserted is a
collision of content. -/
def RoundResult.landedA (r : RoundResult) (table : String) (planned pulled applied : ℕ) :
    RoundResult :=
  { r with
    tierAPulled := r.tierAPulled + pulled
    tierAApplied := r.tierAApplied + applied
    unconverged :=
      if applied < pulled then
        r.unconverged ++ [{ tier := .A, table, planned, pulled, applied,
                            divergent := pulled - applied, verdict := .contentFork,
                            divergentKeys := [] }]
      else r.unconverged }

/-- One table of the Tier-A loop. -/
def pullTierA (L : AeStoreView σ α β) (P : AeStoreView τ α β) (peer : τ)
    (plan : OrdMap String (List String)) (table : String) (store : σ) (r : RoundResult) :
    σ × Except AeError RoundResult :=
  match plan.get table with
  | none => (store, .ok r)
  | some hashes =>
    if hashes.length = 0 then (store, .ok r)
    else
      let r := { r with tierAPlanned := r.tierAPlanned + hashes.length }
      match P.serveTierA peer table hashes with
      | .error e => (store, contain r .A table e)
      | .ok records =>
        let out := L.applyTierA store table records
        match out.2 with
        | .error e => (out.1, contain r .A table e)
        | .ok applied => (out.1, .ok (r.landedA table hashes.length records.length applied))

def missingVerdict (table : String) : AeError :=
  .store ("anti-entropy: store reported divergence in Tier-B '" ++ table ++
    "' without a verdict — refusing to label it, because both labels send an operator to a " ++
    "different subsystem")

/-- The round's counters after a Tier-B apply.  The store decides what is divergent, and must say
which rule it used. -/
def RoundResult.landedB (r : RoundResult) (table : String) (planned pulled : ℕ)
    (out : TierBApplyResult) : Except AeError RoundResult :=
  let r := { r with
    tierBPulled := r.tierBPulled + pulled
    tierBApplied := r.tierBApplied + out.applied }
  if 0 < out.divergent then
    match out.verdict with
    | none => contain r .B table (missingVerdict table)
    | some verdict =>
      .ok { r with
        unconverged := r.unconverged ++ [{ tier := .B, table, planned, pulled,
                                           applied := out.applied, divergent := out.divergent,
                                           verdict, divergentKeys := out.divergentKeys }] }
  else .ok r

/-- One table of the Tier-B loop. -/
def pullTierB (L : AeStoreView σ α β) (P : AeStoreView τ α β) (peer : τ)
    (plan : OrdMap String (List String)) (table : String) (store : σ) (r : RoundResult) :
    σ × Except AeError RoundResult :=
  match plan.get table with
  | none => (store, .ok r)
  | some keys =>
    if keys.length = 0 then (store, .ok r)
    else
      let r := { r with tierBPlanned := r.tierBPlanned + keys.length }
      match P.serveTierB peer table keys with
      | .error e => (store, contain r .B table e)
      | .ok records =>
        let out := L.applyTierB store table records
        match out.2 with
        | .error e => (out.1, contain r .B table e)
        | .ok applied => (out.1, r.landedB table keys.length records.length applied)

/-- The loop over the local registry; what one table throws ends it. -/
def overTables (pull : String → σ → RoundResult → σ × Except AeError RoundResult) :
    List String → σ → RoundResult → σ × Except AeError RoundResult
  | [], store, r => (store, .ok r)
  | t :: rest, store, r =>
    let out := pull t store r
    match out.2 with
    | .error e => (out.1, .error e)
    | .ok r => overTables pull rest out.1 r

/-- `runAntiEntropyRound(local, peer)`: the local store after the round, and what the caller
gets. -/
def runAntiEntropyRound (sha : Sha256) (L : AeStoreView σ α β) (P : AeStoreView τ α β) (store : σ)
    (peer : τ) : σ × Except AeError RoundResult :=
  let basis := localState L store
  let planned : Except AeError RoundPlan := do
    let adv ← peerAdvertisement P peer (L.tierATables store) (L.tierBTables store)
    planRound sha basis.1 adv
  match planned with
  | .error e => (store, .error e)
  | .ok plan =>
    let a := overTables (pullTierA L P peer plan.tierA) (L.tierATables store) store
      { failures := basis.2 }
    match a.2 with
    | .error e => (a.1, .error e)
    | .ok r => overTables (pullTierB L P peer plan.tierB) (L.tierBTables store) a.1 r

/-! ### Rounds without failures -/

theorem readTables_of_ok {γ : Type} {tier : Tier} {read : String → Except AeError γ}
    {f : String → γ} : ∀ (tables : List String) (rows : OrdMap String γ),
    (∀ t ∈ tables, read t = .ok (f t)) →
    readTables tier read tables (rows, [], []) = (OrdMap.tabulate f tables rows, [], []) := by
  intro tables
  induction tables with
  | nil => intro rows _; rfl
  | cons t rest ih =>
    intro rows h
    rw [readTables]
    simp only [h t List.mem_cons_self]
    exact ih _ fun u hu => h u (List.mem_cons_of_mem _ hu)

theorem advertiseTables_of_ok {γ : Type} {tracked : List String}
    {digest : String → Except AeError String} {detail : String → Except AeError γ}
    {d : String → String} : ∀ (tables : List String) (out : OrdMap String (Advertised γ)),
    (∀ t ∈ tables, t ∈ tracked ∧ digest t = .ok (d t)) →
    advertiseTables tracked digest detail tables out =
      .ok (OrdMap.tabulate (fun t => { digest := d t, detail := detail t }) tables out) := by
  intro tables
  induction tables with
  | nil => intro out _; rfl
  | cons t rest ih =>
    intro out h
    obtain ⟨htracked, hdigest⟩ := h t List.mem_cons_self
    rw [advertiseTables, if_neg (not_not.2 htracked), hdigest]
    exact ih _ fun u hu => h u (List.mem_cons_of_mem _ hu)

section

variable {sha : Sha256} {basis : LocalRoundState} {table : String}

theorem planTableA_of_ok {adv : Advertised (List String)} {mine peer : List String} {d : String}
    (hread : table ∉ basis.unreadableA) (hmine : basis.tierA.get table = some mine)
    (hd : computeTableDigest sha mine = .ok d) (hpeer : adv.detail = .ok peer) :
    planTableA sha basis table adv =
      .ok (if adv.digest = d then [] else missingLocally mine peer) := by
  rw [planTableA, if_neg hread, hmine]
  simp only [Option.getD_some, hd, hpeer]
  change (if adv.digest = d then Except.ok [] else Except.ok (missingLocally mine peer)) = _
  split_ifs <;> rfl

theorem planTableB_of_ok {adv : Advertised (OrdMap String String)} {mine peer : OrdMap String String}
    (hread : table ∉ basis.unreadableB) (hmine : basis.tierB.get table = some mine)
    (hpeer : adv.detail = .ok peer) :
    planTableB sha basis table adv =
      .ok (if adv.digest = tierBTableDigest sha mine then [] else versionKeysToPull mine peer) := by
  rw [planTableB, if_neg hread, hmine]
  simp only [Option.getD_some, hpeer]
  change (if adv.digest = tierBTableDigest sha mine then Except.ok []
    else Except.ok (versionKeysToPull mine peer)) = _
  split_ifs <;> rfl

end

theorem planTables_of_ok {γ : Type} {planTable : String → γ → Except AeError (List String)}
    {f : String → List String} : ∀ (entries : List (String × γ)) (plan : OrdMap String (List String)),
    (∀ e ∈ entries, planTable e.1 e.2 = .ok (f e.1)) →
    ∃ out, planTables planTable entries plan = .ok out ∧
      ∀ t, out.get t = if t ∈ entries.map Prod.fst ∧ f t ≠ [] then some (f t) else plan.get t := by
  intro entries
  induction entries with
  | nil => intro plan _; exact ⟨plan, rfl, fun t => by simp⟩
  | cons e rest ih =>
    intro plan h
    obtain ⟨t, adv⟩ := e
    obtain ⟨out, hout, hget⟩ := ih (if 0 < (f t).length then plan.set t (f t) else plan)
      fun u hu => h u (List.mem_cons_of_mem _ hu)
    refine ⟨out, ?_, ?_⟩
    · rw [planTables, h (t, adv) List.mem_cons_self]
      exact hout
    · intro u
      rw [hget u, List.map_cons]
      by_cases hut : u = t
      · subst hut
        by_cases hf : f u = []
        · simp [hf]
        · simp [hf, List.length_pos_iff.2 hf]
      · have hmem : u ∈ t :: rest.map Prod.fst ↔ u ∈ rest.map Prod.fst := by
          rw [List.mem_cons, or_iff_right hut]
        simp only [hmem]
        split_ifs
        any_goals rfl
        exact OrdMap.get_set_of_ne _ _ hut

theorem overTables_of_ok (pull : String → σ → RoundResult → σ × Except AeError RoundResult)
    {I : List String → σ → Prop}
    (hpull : ∀ t rest store r, I (t :: rest) store →
      ∃ store' r', pull t store r = (store', .ok r') ∧ I rest store') :
    ∀ tables store r, I tables store →
      ∃ store' r', overTables pull tables store r = (store', .ok r') ∧ I [] store' := by
  intro tables
  induction tables with
  | nil => intro store r h; exact ⟨store, r, rfl, h⟩
  | cons t rest ih =>
    intro store r h
    obtain ⟨s₁, r₁, hp, hI⟩ := hpull t rest store r h
    obtain ⟨s₂, r₂, ho, hI'⟩ := ih s₁ r₁ hI
    exact ⟨s₂, r₂, by rw [overTables, hp]; exact ho, hI'⟩

theorem overTables_of_idle {pull : String → σ → RoundResult → σ × Except AeError RoundResult}
    {store : σ} {r : RoundResult} : ∀ tables : List String,
    (∀ t ∈ tables, pull t store r = (store, .ok r)) →
    overTables pull tables store r = (store, .ok r) := by
  intro tables
  induction tables with
  | nil => intro _; rfl
  | cons t rest ih =>
    intro h
    rw [overTables, h t List.mem_cons_self]
    exact ih fun u hu => h u (List.mem_cons_of_mem _ hu)

theorem overTables_singleton_fst
    {pull : String → σ → RoundResult → σ × Except AeError RoundResult} {t : String} {store : σ}
    {r : RoundResult} : (overTables pull [t] store r).1 = (pull t store r).1 := by
  simp only [overTables]
  split <;> rfl

section

variable {L : AeStoreView σ α β} {P : AeStoreView τ α β} {peer : τ}
  {plan : OrdMap String (List String)} {table : String} {store : σ} {r : RoundResult}

theorem pullTierA_of_nil (h : (plan.get table).getD [] = []) :
    pullTierA L P peer plan table store r = (store, .ok r) := by
  unfold pullTierA
  cases hp : plan.get table with
  | none => rfl
  | some hashes =>
    rw [hp] at h
    simp only [Option.getD_some] at h
    simp [h]

theorem pullTierB_of_nil (h : (plan.get table).getD [] = []) :
    pullTierB L P peer plan table store r = (store, .ok r) := by
  unfold pullTierB
  cases hp : plan.get table with
  | none => rfl
  | some keys =>
    rw [hp] at h
    simp only [Option.getD_some] at h
    simp [h]

theorem pullTierB_fst (h : ∀ keys records, P.serveTierB peer table keys = .ok records →
      (L.applyTierB store table records).1 = store) :
    (pullTierB L P peer plan table store r).1 = store := by
  unfold pullTierB
  cases plan.get table with
  | none => rfl
  | some keys =>
    dsimp only
    split_ifs
    · rfl
    · cases hs : P.serveTierB peer table keys with
      | error e => rfl
      | ok records =>
        have hstore := h keys records hs
        dsimp only
        split
        · exact hstore
        · exact hstore

theorem pullTierA_of_ok {hashes : List String} {records : List (TierARecord α)} {store' : σ}
    {applied : ℕ} (hplan : plan.get table = some hashes) (hne : hashes ≠ [])
    (hserve : P.serveTierA peer table hashes = .ok records)
    (happly : L.applyTierA store table records = (store', .ok applied)) :
    ∃ r', pullTierA L P peer plan table store r = (store', .ok r') := by
  unfold pullTierA
  rw [hplan]
  simp only [List.length_eq_zero_iff, hne, if_false, hserve, happly]
  exact ⟨_, rfl⟩

theorem pullTierB_of_ok {keys : List String} {records : List (TierBRecord β)} {store' : σ}
    {out : TierBApplyResult} (hplan : plan.get table = some keys) (hne : keys ≠ [])
    (hserve : P.serveTierB peer table keys = .ok records)
    (happly : L.applyTierB store table records = (store', .ok out))
    (hverdict : 0 < out.divergent → out.verdict ≠ none) :
    ∃ r', pullTierB L P peer plan table store r = (store', .ok r') := by
  unfold pullTierB
  rw [hplan]
  simp only [List.length_eq_zero_iff, hne, if_false, hserve, happly, RoundResult.landedB]
  split_ifs with hdiv
  · cases hv : out.verdict with
    | none => exact absurd hv (hverdict hdiv)
    | some v => exact ⟨_, rfl⟩
  · exact ⟨_, rfl⟩

end

end

end Cello.Directory.AntiEntropy
