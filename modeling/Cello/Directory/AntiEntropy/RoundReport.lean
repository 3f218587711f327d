import Cello.Directory.AntiEntropy.Engine

/-!
# What a round does with each table

`RoundResult` is a total over the tables of a round.  A report says what became of one of them:
whether both sides could read it, how much was planned and served, and how many of its records are
still in conflict.  The totals are those of the reports (`totals_of_ok`), and a round that is thrown
away has a table that failed, or has not come to any table (`failed_of_error`).
-/

namespace Cello.Directory.AntiEntropy

open Lib

/-! ### Reports -/

/-- A table as the round's results name it. -/
abbrev TableKey := Tier × String

inductive TableReport where
  /-- This node could not read the table. -/
  | unread
  /-- The peer does not advertise it. -/
  | unadvertised
  /-- Both sides have read it, and there is nothing to pull. -/
  | level
  /-- The serve or the apply has thrown. -/
  | failed (planned : ℕ)
  /-- What was served has been applied; `clean` is whether the store met no error over a record. -/
  | landed (planned pulled divergent : ℕ) (clean : Bool)
deriving DecidableEq, Repr

namespace TableReport

def planned : TableReport → ℕ
  | .failed planned => planned
  | .landed planned _ _ _ => planned
  | _ => 0

def pulled : TableReport → ℕ
  | .landed _ pulled _ _ => pulled
  | _ => 0

/-- The records that are still in conflict with what the peer holds. -/
def divergent : TableReport → ℕ
  | .landed _ _ divergent _ => divergent
  | _ => 0

def fails : TableReport → Bool
  | .unread => true
  | .failed _ => true
  | _ => false

def informative : TableReport → Bool
  | .level => true
  | .landed planned pulled _ clean => decide (planned ≤ pulled) && clean
  | _ => false

end TableReport

section

variable {σ τ α β : Type} (sha : Sha256) (L : AeStoreView σ α β) (P : AeStoreView τ α β)
  (cleanA : σ → String → List (TierARecord α) → Bool)
  (cleanB : σ → String → List (TierBRecord β) → Bool)

def idleReport (unreadable advertised : List String) (table : String) : TableReport :=
  if table ∈ unreadable then .unread else if table ∈ advertised then .level else .unadvertised

/-- What `pullTierA` does with a table. -/
def reportTierA (peer : τ) (unreadable : List String) (plan : OrdMap String (List String))
    (table : String) (store : σ) : TableReport :=
  match plan.get table with
  | none => idleReport unreadable (P.tierATables peer) table
  | some hashes =>
    if hashes.length = 0 then idleReport unreadable (P.tierATables peer) table
    else
      match P.serveTierA peer table hashes with
      | .error _ => .failed hashes.length
      | .ok records =>
        match (L.applyTierA store table records).2 with
        | .error _ => .failed hashes.length
        | .ok applied =>
          .landed hashes.length records.length (records.length - applied) (cleanA store table records)

/-- What `pullTierB` does with a table. -/
def reportTierB (peer : τ) (unreadable : List String) (plan : OrdMap String (List String))
    (table : String) (store : σ) : TableReport :=
  match plan.get table with
  | none => idleReport unreadable (P.tierBTables peer) table
  | some keys =>
    if keys.length = 0 then idleReport unreadable (P.tierBTables peer) table
    else
      match P.serveTierB peer table keys with
      | .error _ => .failed keys.length
      | .ok records =>
        match (L.applyTierB store table records).2 with
        | .error _ => .failed keys.length
        | .ok out =>
          if 0 < out.divergent ∧ out.verdict = none then .failed keys.length
          else .landed keys.length records.length out.divergent (cleanB store table records)

/-- The reports of a loop over the local registry, as far as the loop comes. -/
def overReports (tier : Tier) (pull : String → σ → RoundResult → σ × Except AeError RoundResult)
    (report : String → σ → TableReport) :
    List String → σ → RoundResult → List (TableKey × TableReport)
  | [], _, _ => []
  | t :: rest, store, r =>
    ((tier, t), report t store) ::
      match (pull t store r).2 with
      | .error _ => []
      | .ok r' => overReports tier pull report rest (pull t store r).1 r'

/-- The reports of a round; a round whose planning throws has none. -/
def roundReports (store : σ) (peer : τ) : List (TableKey × TableReport) :=
  let basis := localState L store
  let planned : Except AeError RoundPlan := do
    let adv ← peerAdvertisement P peer (L.tierATables store) (L.tierBTables store)
    planRound sha basis.1 adv
  match planned with
  | .error _ => []
  | .ok plan =>
    let a := overTables (pullTierA L P peer plan.tierA) (L.tierATables store) store
      { failures := basis.2 }
    overReports .A (pullTierA L P peer plan.tierA)
        (reportTierA L P cleanA peer basis.1.unreadableA plan.tierA) (L.tierATables store) store
        { failures := basis.2 } ++
      match a.2 with
      | .error _ => []
      | .ok r =>
        overReports .B (pullTierB L P peer plan.tierB)
          (reportTierB L P cleanB peer basis.1.unreadableB plan.tierB) (L.tierBTables store) a.1 r

/-! ### Totals -/

def divergentOf (key : TableKey) (unconverged : List Unconverged) : ℕ :=
  ((unconverged.filter fun u => (u.tier, u.table) = key).map Unconverged.divergent).sum

def RoundResult.planned (r : RoundResult) : ℕ := r.tierAPlanned + r.tierBPlanned

def RoundResult.pulled (r : RoundResult) : ℕ := r.tierAPulled + r.tierBPulled

/-- The totals of `r'` are those of `r` and of the reports. -/
structure Adds (r r' : RoundResult) (reports : List (TableKey × TableReport)) : Prop where
  failures : r'.failures = [] ↔ r.failures = [] ∧ ∀ x ∈ reports, ∀ planned, x.2 ≠ .failed planned
  planned : r'.planned = r.planned + (reports.map fun x => x.2.planned).sum
  pulled : r'.failures = [] → r'.pulled = r.pulled + (reports.map fun x => x.2.pulled).sum
  divergent : ∀ key, divergentOf key r'.unconverged = divergentOf key r.unconverged +
    ((reports.filter fun x => x.1 = key).map fun x => x.2.divergent).sum

theorem Adds.refl (r : RoundResult) : Adds r r [] where
  failures := by simp
  planned := by simp
  pulled := by simp
  divergent := by simp

theorem Adds.trans {r r' r'' : RoundResult} {reports reports' : List (TableKey × TableReport)}
    (h : Adds r r' reports) (h' : Adds r' r'' reports') : Adds r r'' (reports ++ reports') where
  failures := by
    rw [h'.failures, h.failures, and_assoc]
    simp only [List.mem_append, or_imp, forall_and]
  planned := by
    rw [h'.planned, h.planned, List.map_append, List.sum_append, Nat.add_assoc]
  pulled hnone := by
    rw [h'.pulled hnone, h.pulled (h'.failures.1 hnone).1, List.map_append, List.sum_append,
      Nat.add_assoc]
  divergent key := by
    rw [h'.divergent key, h.divergent key, List.filter_append, List.map_append, List.sum_append,
      Nat.add_assoc]

theorem Adds.idle (r : RoundResult) (key : TableKey) (unreadable advertised : List String) :
    Adds r r [(key, idleReport unreadable advertised key.2)] := by
  unfold idleReport
  split_ifs <;>
    exact ⟨by simp, by simp [TableReport.planned], by simp [TableReport.pulled],
      by intro other; by_cases h : key = other <;> simp [h, TableReport.divergent]⟩

theorem Adds.failed {r r₁ r' : RoundResult} {tier : Tier} {table : String} {e : AeError} {planned : ℕ}
    (hplanned : r₁.planned = r.planned + planned) (hunconverged : r₁.unconverged = r.unconverged)
    (h : contain r₁ tier table e = .ok r') : Adds r r' [((tier, table), .failed planned)] := by
  unfold contain at h
  split_ifs at h
  cases h
  refine ⟨by simp, ?_, by simp, ?_⟩
  · simpa [RoundResult.planned, TableReport.planned] using hplanned
  · intro key
    by_cases hkey : (tier, table) = key <;> simp [hkey, hunconverged, TableReport.divergent]

theorem Adds.landed {r r' : RoundResult} {key : TableKey} {planned pulled divergent : ℕ} {clean : Bool}
    (hfailures : r'.failures = r.failures) (hplanned : r'.planned = r.planned + planned)
    (hpulled : r'.pulled = r.pulled + pulled)
    (hdivergent : ∀ other, divergentOf other r'.unconverged =
      divergentOf other r.unconverged + if key = other then divergent else 0) :
    Adds r r' [(key, .landed planned pulled divergent clean)] := by
  refine ⟨by simp [hfailures], by simpa [TableReport.planned] using hplanned,
    fun _ => by simpa [TableReport.pulled] using hpulled, ?_⟩
  intro other
  rw [hdivergent]
  by_cases hkey : key = other <;> simp [hkey, TableReport.divergent]

theorem divergentOf_append (key : TableKey) (unconverged : List Unconverged) (u : Unconverged) :
    divergentOf key (unconverged ++ [u]) =
      divergentOf key unconverged + if (u.tier, u.table) = key then u.divergent else 0 := by
  by_cases h : (u.tier, u.table) = key <;> simp [divergentOf, List.filter_append, h]

theorem adds_landedA (r : RoundResult) (table : String) (planned pulled applied : ℕ) (clean : Bool) :
    Adds r
      (RoundResult.landedA { r with tierAPlanned := r.tierAPlanned + planned } table planned pulled
        applied)
      [((.A, table), .landed planned pulled (pulled - applied) clean)] := by
  refine Adds.landed rfl ?_ ?_ ?_
  · simp only [RoundResult.planned, RoundResult.landedA]
    omega
  · simp only [RoundResult.pulled, RoundResult.landedA]
    omega
  · intro other
    simp only [RoundResult.landedA]
    by_cases hlt : applied < pulled
    · rw [if_pos hlt, divergentOf_append]
    · rw [if_neg hlt, Nat.sub_eq_zero_of_le (not_lt.1 hlt), ite_self, Nat.add_zero]

theorem adds_landedB {r r' : RoundResult} {table : String} {planned pulled : ℕ} {out : TierBApplyResult}
    (clean : Bool)
    (h : RoundResult.landedB { r with tierBPlanned := r.tierBPlanned + planned } table planned pulled
      out = .ok r') :
    Adds r r' [((.B, table), if 0 < out.divergent ∧ out.verdict = none then .failed planned
      else .landed planned pulled out.divergent clean)] := by
  unfold RoundResult.landedB at h
  simp only at h
  by_cases hdivergent : 0 < out.divergent
  · rw [if_pos hdivergent] at h
    cases hverdict : out.verdict with
    | none =>
      rw [hverdict] at h
      rw [if_pos ⟨hdivergent, rfl⟩]
      refine Adds.failed ?_ ?_ h
      · simp only [RoundResult.planned]
        omega
      · rfl
    | some verdict =>
      rw [hverdict] at h
      cases h
      rw [if_neg (by simp)]
      refine Adds.landed rfl ?_ ?_ fun other => divergentOf_append _ _ _
      · simp only [RoundResult.planned]
        omega
      · simp only [RoundResult.pulled]
        omega
  · rw [if_neg hdivergent] at h
    cases h
    rw [if_neg fun hc => hdivergent hc.1]
    refine Adds.landed rfl ?_ ?_ ?_
    · simp only [RoundResult.planned]
      omega
    · simp only [RoundResult.pulled]
      omega
    · intro other
      rw [Nat.eq_zero_of_not_pos hdivergent, ite_self, Nat.add_zero]

theorem landedB_error {r : RoundResult} {table : String} {planned pulled : ℕ} {out : TierBApplyResult}
    {e : AeError} (h : r.landedB table planned pulled out = .error e) :
    0 < out.divergent ∧ out.verdict = none := by
  unfold RoundResult.landedB at h
  simp only at h
  split_ifs at h with hdivergent
  refine ⟨hdivergent, ?_⟩
  cases hverdict : out.verdict with
  | none => rfl
  | some verdict =>
    rw [hverdict] at h
    cases h

/-- **What one table does to the totals**, tier A: its report says so, also when the table ends the
round. -/
theorem adds_pullTierA (peer : τ) (unreadable : List String) (plan : OrdMap String (List String))
    (table : String) (store : σ) (r : RoundResult) :
    match (pullTierA L P peer plan table store r).2 with
    | .ok r' => Adds r r' [((.A, table), reportTierA L P cleanA peer unreadable plan table store)]
    | .error _ => ∃ planned, reportTierA L P cleanA peer unreadable plan table store = .failed planned := by
  have hthrown : ∀ (e : AeError) (planned : ℕ),
      match contain { r with tierAPlanned := r.tierAPlanned + planned } .A table e with
      | .ok r' => Adds r r' [((.A, table), TableReport.failed planned)]
      | .error _ => ∃ p, TableReport.failed planned = .failed p := by
    intro e planned
    split
    · rename_i r' h
      refine Adds.failed ?_ ?_ h
      · simp only [RoundResult.planned]
        omega
      · rfl
    · exact ⟨planned, rfl⟩
  unfold pullTierA reportTierA
  cases hplan : plan.get table with
  | none => exact Adds.idle r (.A, table) _ _
  | some hashes =>
    simp only
    split_ifs with hnone
    · exact Adds.idle r (.A, table) _ _
    · cases hserve : P.serveTierA peer table hashes with
      | error e => exact hthrown e hashes.length
      | ok records =>
        simp only
        cases happly : (L.applyTierA store table records).2 with
        | error e => exact hthrown e hashes.length
        | ok applied => exact adds_landedA r table _ _ _ _

/-- **What one table does to the totals**, tier B. -/
theorem adds_pullTierB (peer : τ) (unreadable : List String) (plan : OrdMap String (List String))
    (table : String) (store : σ) (r : RoundResult) :
    match (pullTierB L P peer plan table store r).2 with
    | .ok r' => Adds r r' [((.B, table), reportTierB L P cleanB peer unreadable plan table store)]
    | .error _ => ∃ planned, reportTierB L P cleanB peer unreadable plan table store = .failed planned := by
  have hthrown : ∀ (e : AeError) (planned : ℕ),
      match contain { r with tierBPlanned := r.tierBPlanned + planned } .B table e with
      | .ok r' => Adds r r' [((.B, table), TableReport.failed planned)]
      | .error _ => ∃ p, TableReport.failed planned = .failed p := by
    intro e planned
    split
    · rename_i r' h
      refine Adds.failed ?_ ?_ h
      · simp only [RoundResult.planned]
        omega
      · rfl
    · exact ⟨planned, rfl⟩
  unfold pullTierB reportTierB
  cases hplan : plan.get table with
  | none => exact Adds.idle r (.B, table) _ _
  | some keys =>
    simp only
    split_ifs with hnone
    · exact Adds.idle r (.B, table) _ _
    · cases hserve : P.serveTierB peer table keys with
      | error e => exact hthrown e keys.length
      | ok records =>
        simp only
        cases happly : (L.applyTierB store table records).2 with
        | error e => exact hthrown e keys.length
        | ok out =>
          simp only
          split
          · rename_i r' h
            exact adds_landedB _ h
          · rename_i e h
            have hthrows := landedB_error h
            exact ⟨keys.length, if_pos hthrows⟩

variable {sha L P cleanA cleanB}

/-- **What a loop does to the totals.** -/
theorem adds_overTables (tier : Tier)
    {pull : String → σ → RoundResult → σ × Except AeError RoundResult}
    {report : String → σ → TableReport}
    (hpull : ∀ t store r,
      match (pull t store r).2 with
      | .ok r' => Adds r r' [((tier, t), report t store)]
      | .error _ => ∃ planned, report t store = .failed planned) :
    ∀ tables store r,
      match (overTables pull tables store r).2 with
      | .ok r' => Adds r r' (overReports tier pull report tables store r) ∧
          ∀ t ∈ tables, ∃ s, ((tier, t), report t s) ∈ overReports tier pull report tables store r
      | .error _ => ∃ x ∈ overReports tier pull report tables store r, ∃ planned, x.2 = .failed planned := by
  intro tables
  induction tables with
  | nil =>
    intro store r
    exact ⟨Adds.refl r, by simp⟩
  | cons t rest ih =>
    intro store r
    have hstep := hpull t store r
    rw [overTables, overReports]
    cases hout : (pull t store r).2 with
    | error e =>
      rw [hout] at hstep
      obtain ⟨planned, hfailed⟩ := hstep
      exact ⟨_, List.mem_cons_self, planned, hfailed⟩
    | ok r' =>
      rw [hout] at hstep
      have hrest := ih (pull t store r).1 r'
      simp only
      cases hover : (overTables pull rest (pull t store r).1 r').2 with
      | error e =>
        rw [hover] at hrest
        obtain ⟨x, hx, hfailed⟩ := hrest
        exact ⟨x, List.mem_cons_of_mem _ hx, hfailed⟩
      | ok r'' =>
        rw [hover] at hrest
        refine ⟨hstep.trans hrest.1, ?_⟩
        intro u hu
        rcases List.mem_cons.1 hu with rfl | hu
        · exact ⟨store, List.mem_cons_self⟩
        · obtain ⟨s, hs⟩ := hrest.2 u hu
          exact ⟨s, List.mem_cons_of_mem _ hs⟩

/-! ### Tables that cannot be read -/

theorem readTables_failures {γ : Type} (tier : Tier) (read : String → Except AeError γ) :
    ∀ (tables : List String) (out : OrdMap String γ × List String × List Failure),
      (out.2.2 = [] ↔ out.2.1 = []) →
      ((readTables tier read tables out).2.2 = [] ↔ (readTables tier read tables out).2.1 = []) ∧
        ∀ t ∈ (readTables tier read tables out).2.1, t ∈ out.2.1 ∨ t ∈ tables := by
  intro tables
  induction tables with
  | nil => exact fun out h => ⟨h, fun t ht => Or.inl ht⟩
  | cons t rest ih =>
    intro out h
    obtain ⟨rows, unreadable, failures⟩ := out
    rw [readTables]
    cases read t with
    | ok v =>
      obtain ⟨hiff, hmem⟩ := ih (rows.set t v, unreadable, failures) h
      exact ⟨hiff, fun u hu => (hmem u hu).imp_right (List.mem_cons_of_mem _)⟩
    | error e =>
      obtain ⟨hiff, hmem⟩ := ih (rows, unreadable ++ [t],
        failures ++ [{ tier, table := t, reason := e.message }]) (by simp)
      refine ⟨hiff, ?_⟩
      intro u hu
      rcases hmem u hu with hold | hrest
      · rcases List.mem_append.1 hold with hold | hnew
        · exact Or.inl hold
        · rw [List.mem_singleton] at hnew
          exact Or.inr (hnew ▸ List.mem_cons_self)
      · exact Or.inr (List.mem_cons_of_mem _ hrest)

variable (L) in
theorem localState_failures (store : σ) :
    ((localState L store).2 = [] ↔
        (localState L store).1.unreadableA = [] ∧ (localState L store).1.unreadableB = []) ∧
      (∀ t ∈ (localState L store).1.unreadableA, t ∈ L.tierATables store) ∧
      ∀ t ∈ (localState L store).1.unreadableB, t ∈ L.tierBTables store := by
  obtain ⟨hA, hmemA⟩ := readTables_failures .A (L.tierARecordHashes store) (L.tierATables store)
    (OrdMap.empty, [], []) (by simp)
  obtain ⟨hB, hmemB⟩ := readTables_failures .B (L.tierBVersions store) (L.tierBTables store)
    (OrdMap.empty, [], []) (by simp)
  refine ⟨?_, fun t ht => (hmemA t ht).resolve_left (by simp),
    fun t ht => (hmemB t ht).resolve_left (by simp)⟩
  rw [localState, List.append_eq_nil_iff, hA, hB]

theorem get_planTables {γ : Type} {planTable : String → γ → Except AeError (List String)} {t : String}
    (hnone : ∀ adv, planTable t adv = .ok []) :
    ∀ (entries : List (String × γ)) (plan out : OrdMap String (List String)),
      planTables planTable entries plan = .ok out → out.get t = plan.get t := by
  intro entries
  induction entries with
  | nil =>
    intro plan out h
    cases h
    rfl
  | cons e rest ih =>
    obtain ⟨u, adv⟩ := e
    intro plan out h
    rw [planTables] at h
    cases hpull : planTable u adv with
    | error e =>
      rw [hpull] at h
      cases h
    | ok pull =>
      rw [hpull] at h
      rw [ih _ _ h]
      by_cases hu : u = t
      · subst hu
        rw [hnone adv] at hpull
        cases hpull
        rfl
      · split_ifs
        · exact OrdMap.get_set_of_ne _ _ (Ne.symm hu)
        · rfl

theorem planRound_unreadable {basis : LocalRoundState} {adv : PeerRoundState} {plan : RoundPlan}
    (h : planRound sha basis adv = .ok plan) :
    (∀ t ∈ basis.unreadableA, plan.tierA.get t = none) ∧
      ∀ t ∈ basis.unreadableB, plan.tierB.get t = none := by
  unfold planRound at h
  cases ha : planTables (planTableA sha basis) adv.tierA.entries OrdMap.empty with
  | error e =>
    rw [ha] at h
    cases h
  | ok a =>
    cases hb : planTables (planTableB sha basis) adv.tierB.entries OrdMap.empty with
    | error e =>
      rw [ha, hb] at h
      cases h
    | ok b =>
      rw [ha, hb] at h
      cases h
      constructor
      · intro t ht
        exact get_planTables (fun _ => by rw [planTableA, if_pos ht]) _ _ _ ha
      · intro t ht
        exact get_planTables (fun _ => by rw [planTableB, if_pos ht]) _ _ _ hb

/-! ### The round -/

def NoneFails (reports : List (TableKey × TableReport)) : Prop := ∀ x ∈ reports, x.2.fails = false

theorem noneFails_iff {reports : List (TableKey × TableReport)} :
    NoneFails reports ↔
      (∀ x ∈ reports, x.2 ≠ .unread) ∧ ∀ x ∈ reports, ∀ planned, x.2 ≠ .failed planned := by
  constructor
  · intro h
    refine ⟨fun x hx hunread => ?_, fun x hx planned hfailed => ?_⟩
    · have hfine := h x hx
      rw [hunread] at hfine
      cases hfine
    · have hfine := h x hx
      rw [hfailed] at hfine
      cases hfine
  · rintro ⟨hunread, hfailed⟩ x hx
    cases hreport : x.2 with
    | unread => exact absurd hreport (hunread x hx)
    | failed planned => exact absurd hreport (hfailed x hx planned)
    | _ => rfl

theorem mem_overReports {tier : Tier}
    {pull : String → σ → RoundResult → σ × Except AeError RoundResult}
    {report : String → σ → TableReport} : ∀ {tables store r} {x : TableKey × TableReport},
    x ∈ overReports tier pull report tables store r → ∃ t s, x = ((tier, t), report t s) := by
  intro tables
  induction tables with
  | nil => exact fun h => nomatch h
  | cons t rest ih =>
    intro store r x h
    rw [overReports] at h
    rcases List.mem_cons.1 h with rfl | h
    · exact ⟨t, store, rfl⟩
    · cases hout : (pull t store r).2 with
      | error e =>
        rw [hout] at h
        cases h
      | ok r' =>
        rw [hout] at h
        exact ih h

theorem idleReport_unread {unreadable advertised : List String} {table : String} :
    idleReport unreadable advertised table = .unread ↔ table ∈ unreadable := by
  unfold idleReport
  split_ifs with h <;> simp [h]

theorem reportTierA_unread {peer : τ} {unreadable : List String} {plan : OrdMap String (List String)}
    {table : String} {store : σ}
    (h : reportTierA L P cleanA peer unreadable plan table store = .unread) : table ∈ unreadable := by
  unfold reportTierA at h
  split at h
  · exact idleReport_unread.1 h
  · split_ifs at h
    · exact idleReport_unread.1 h
    · split at h
      · cases h
      · split at h <;> cases h

theorem reportTierB_unread {peer : τ} {unreadable : List String} {plan : OrdMap String (List String)}
    {table : String} {store : σ}
    (h : reportTierB L P cleanB peer unreadable plan table store = .unread) : table ∈ unreadable := by
  unfold reportTierB at h
  split at h
  · exact idleReport_unread.1 h
  · split_ifs at h
    · exact idleReport_unread.1 h
    · split at h
      · cases h
      · split at h
        · cases h
        · split_ifs at h

variable (sha L P cleanA cleanB) in
/-- **What a round does to the totals.** -/
theorem adds_round (store : σ) (peer : τ) :
    match (runAntiEntropyRound sha L P store peer).2 with
    | .ok r =>
      Adds { failures := (localState L store).2 } r (roundReports sha L P cleanA cleanB store peer) ∧
        ((localState L store).2 = [] ↔
          ∀ x ∈ roundReports sha L P cleanA cleanB store peer, x.2 ≠ .unread)
    | .error _ => roundReports sha L P cleanA cleanB store peer = [] ∨
        ∃ x ∈ roundReports sha L P cleanA cleanB store peer, ∃ planned, x.2 = .failed planned := by
  unfold runAntiEntropyRound roundReports
  simp only
  cases hplanned : (do
      let adv ← peerAdvertisement P peer (L.tierATables store) (L.tierBTables store)
      planRound sha (localState L store).1 adv : Except AeError RoundPlan) with
  | error e => exact Or.inl rfl
  | ok plan =>
    obtain ⟨hunreadA, hunreadB⟩ : (∀ t ∈ (localState L store).1.unreadableA, plan.tierA.get t = none) ∧
        ∀ t ∈ (localState L store).1.unreadableB, plan.tierB.get t = none := by
      cases hadv : peerAdvertisement P peer (L.tierATables store) (L.tierBTables store) with
      | error e =>
        rw [hadv] at hplanned
        cases hplanned
      | ok adv =>
        rw [hadv] at hplanned
        exact planRound_unreadable hplanned
    obtain ⟨hread, hinA, hinB⟩ := localState_failures L store
    have hA := adds_overTables .A (adds_pullTierA L P cleanA peer (localState L store).1.unreadableA
      plan.tierA) (L.tierATables store) store { failures := (localState L store).2 }
    simp only
    cases hloopA : (overTables (pullTierA L P peer plan.tierA) (L.tierATables store) store
        { failures := (localState L store).2 }).2 with
    | error e =>
      rw [hloopA] at hA
      obtain ⟨x, hx, hfailed⟩ := hA
      exact Or.inr ⟨x, List.mem_append_left _ hx, hfailed⟩
    | ok rA =>
      rw [hloopA] at hA
      obtain ⟨haddsA, hallA⟩ := hA
      have hB := adds_overTables .B (adds_pullTierB L P cleanB peer (localState L store).1.unreadableB
        plan.tierB) (L.tierBTables store)
        (overTables (pullTierA L P peer plan.tierA) (L.tierATables store) store
          { failures := (localState L store).2 }).1 rA
      simp only
      cases hloopB : (overTables (pullTierB L P peer plan.tierB) (L.tierBTables store)
          (overTables (pullTierA L P peer plan.tierA) (L.tierATables store) store
            { failures := (localState L store).2 }).1 rA).2 with
      | error e =>
        rw [hloopB] at hB
        obtain ⟨x, hx, hfailed⟩ := hB
        exact Or.inr ⟨x, List.mem_append_right _ hx, hfailed⟩
      | ok rB =>
        rw [hloopB] at hB
        obtain ⟨haddsB, hallB⟩ := hB
        refine ⟨haddsA.trans haddsB, ?_⟩
        rw [hread]
        constructor
        · -- a table is reported as unread only if it is
          rintro ⟨hnoneA, hnoneB⟩ x hx hunread
          rcases List.mem_append.1 hx with hx | hx
          · obtain ⟨t, s, rfl⟩ := mem_overReports hx
            have hmem := reportTierA_unread hunread
            rw [hnoneA] at hmem
            cases hmem
          · obtain ⟨t, s, rfl⟩ := mem_overReports hx
            have hmem := reportTierB_unread hunread
            rw [hnoneB] at hmem
            cases hmem
        · intro hnone
          constructor
          · refine List.eq_nil_iff_forall_not_mem.2 fun t ht => ?_
            obtain ⟨s, hs⟩ := hallA t (hinA t ht)
            refine hnone _ (List.mem_append_left _ hs) ?_
            simp only [reportTierA, hunreadA t ht]
            exact idleReport_unread.2 ht
          · refine List.eq_nil_iff_forall_not_mem.2 fun t ht => ?_
            obtain ⟨s, hs⟩ := hallB t (hinB t ht)
            refine hnone _ (List.mem_append_right _ hs) ?_
            simp only [reportTierB, hunreadB t ht]
            exact idleReport_unread.2 ht

variable (cleanA cleanB) in
theorem totals_of_ok {store : σ} {peer : τ} {r : RoundResult}
    (h : (runAntiEntropyRound sha L P store peer).2 = .ok r) :
    (r.failures = [] ↔ NoneFails (roundReports sha L P cleanA cleanB store peer)) ∧
      r.planned = ((roundReports sha L P cleanA cleanB store peer).map fun x => x.2.planned).sum ∧
      (r.failures = [] →
        r.pulled = ((roundReports sha L P cleanA cleanB store peer).map fun x => x.2.pulled).sum) ∧
      ∀ key, divergentOf key r.unconverged =
        (((roundReports sha L P cleanA cleanB store peer).filter fun x => x.1 = key).map
          fun x => x.2.divergent).sum := by
  have hround := adds_round sha L P cleanA cleanB store peer
  rw [h] at hround
  obtain ⟨hadds, hunread⟩ := hround
  refine ⟨?_, by simpa [RoundResult.planned] using hadds.planned,
    by simpa [RoundResult.pulled] using hadds.pulled, by simpa [divergentOf] using hadds.divergent⟩
  rw [hadds.failures, noneFails_iff]
  exact and_congr_left' hunread

variable (cleanA cleanB) in
theorem failed_of_error {store : σ} {peer : τ} {e : AeError}
    (h : (runAntiEntropyRound sha L P store peer).2 = .error e) :
    roundReports sha L P cleanA cleanB store peer = [] ∨
      ¬NoneFails (roundReports sha L P cleanA cleanB store peer) := by
  have hround := adds_round sha L P cleanA cleanB store peer
  rw [h] at hround
  refine hround.imp_right ?_
  rintro ⟨x, hx, planned, hfailed⟩ hnone
  exact (noneFails_iff.1 hnone).2 x hx planned hfailed

end

end Cello.Directory.AntiEntropy
