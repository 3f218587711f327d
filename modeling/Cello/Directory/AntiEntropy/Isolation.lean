import Cello.Directory.AntiEntropy.Engine

/-!
# A round, table by table

What a round does to the local store is a sequence of turns, one for each table of the local
registry.  A turn depends on the table's own first read, its own advertisement and what is served for
it; what fails for another table is not part of it.  A round that is neither thrown away with its plan
nor broken off by the wire has given every table its turn (`round_cases`).

Whatever each turn keeps, a round keeps, however it ends (`round_keeps`), and a round asks for nothing
outside the local registry (`round_congr`).
-/

namespace Cello.Directory.AntiEntropy

open Lib

/-! ### The first read of every table -/

theorem get_readTables {γ : Type} {tier : Tier} {read : String → Except AeError γ} {t : String} {v : γ} :
    ∀ (tables : List String) (out : OrdMap String γ × List String × List Failure),
      read t = .ok v → t ∈ tables →
      (readTables tier read tables out).1.get t = some v := by
  have hkeep : ∀ (tables : List String) (out : OrdMap String γ × List String × List Failure),
      read t = .ok v → out.1.get t = some v →
      (readTables tier read tables out).1.get t = some v := by
    intro tables
    induction tables with
    | nil => intro out _ h; exact h
    | cons u rest ih =>
      intro out hread h
      obtain ⟨rows, unreadable, failures⟩ := out
      rw [readTables]
      cases hu : read u with
      | error e => exact ih _ hread h
      | ok w =>
        refine ih _ hread ?_
        change (rows.set u w).get t = some v
        rw [OrdMap.get_set]
        split_ifs with htu
        · rw [← htu, hread] at hu
          cases hu
          rfl
        · exact h
  intro tables
  induction tables with
  | nil => intro out _ ht; cases ht
  | cons u rest ih =>
    intro out hread ht
    obtain ⟨rows, unreadable, failures⟩ := out
    rw [readTables]
    rcases List.mem_cons.1 ht with rfl | ht
    · rw [hread]
      exact hkeep rest _ hread (OrdMap.get_set_self _ _ _)
    · cases read u with
      | error e => exact ih _ hread ht
      | ok w => exact ih _ hread ht

theorem mem_unreadable {γ : Type} (tier : Tier) (read : String → Except AeError γ) {t : String} :
    ∀ (tables : List String) (out : OrdMap String γ × List String × List Failure),
      t ∈ (readTables tier read tables out).2.1 ↔
        t ∈ out.2.1 ∨ (t ∈ tables ∧ ∃ e, read t = .error e) := by
  intro tables
  induction tables with
  | nil => intro out; simp [readTables]
  | cons u rest ih =>
    intro out
    obtain ⟨rows, unreadable, failures⟩ := out
    rw [readTables]
    by_cases htu : t = u
    · subst htu
      cases hread : read t with
      | ok v => simp [ih, hread]
      | error e => simp [ih, hread]
    · cases hread : read u with
      | ok v => simp [ih, htu]
      | error e => simp [ih, htu]

theorem readTables_congr {γ : Type} {tier : Tier} {read read' : String → Except AeError γ} :
    ∀ (tables : List String) (out : OrdMap String γ × List String × List Failure),
      (∀ t ∈ tables, read' t = read t) →
      readTables tier read' tables out = readTables tier read tables out := by
  intro tables
  induction tables with
  | nil => intro out _; rfl
  | cons t rest ih =>
    intro out h
    obtain ⟨rows, unreadable, failures⟩ := out
    have hrest : ∀ u ∈ rest, read' u = read u := fun u hu => h u (List.mem_cons_of_mem _ hu)
    rw [readTables, readTables, h t List.mem_cons_self]
    cases read t with
    | ok v => exact ih _ hrest
    | error e => exact ih _ hrest

/-! ### The advertisement and the plan of one table -/

theorem get_advertiseTables {γ : Type} {tracked : List String}
    {digest : String → Except AeError String} {detail : String → Except AeError γ} {t : String} :
    ∀ (tables : List String) (out adv : OrdMap String (Advertised γ)),
      advertiseTables tracked digest detail tables out = .ok adv →
      (t ∈ tables → t ∈ tracked →
        ∃ d, digest t = .ok d ∧ adv.get t = some { digest := d, detail := detail t }) ∧
      (t ∉ tables → adv.get t = out.get t) := by
  have hkeep : ∀ (tables : List String) (out adv : OrdMap String (Advertised γ)) (d : String),
      advertiseTables tracked digest detail tables out = .ok adv → digest t = .ok d →
      out.get t = some { digest := d, detail := detail t } →
      adv.get t = some { digest := d, detail := detail t } := by
    intro tables
    induction tables with
    | nil =>
      intro out adv d h _ hget
      cases h
      exact hget
    | cons u rest ih =>
      intro out adv d h hd hget
      rw [advertiseTables] at h
      by_cases htracked : u ∈ tracked
      · rw [if_neg (not_not.2 htracked)] at h
        cases hu : digest u with
        | error e => rw [hu] at h; cases h
        | ok du =>
          rw [hu] at h
          refine ih _ adv d h hd ?_
          rw [OrdMap.get_set]
          split_ifs with htu
          · rw [← htu, hd] at hu
            cases hu
            rw [htu]
          · exact hget
      · rw [if_pos htracked] at h
        exact ih out adv d h hd hget
  intro tables
  induction tables with
  | nil =>
    intro out adv h
    cases h
    exact ⟨fun ht => absurd ht List.not_mem_nil, fun _ => rfl⟩
  | cons u rest ih =>
    intro out adv h
    rw [advertiseTables] at h
    by_cases htracked : u ∈ tracked
    · rw [if_neg (not_not.2 htracked)] at h
      cases hu : digest u with
      | error e => rw [hu] at h; cases h
      | ok du =>
        rw [hu] at h
        obtain ⟨hin, hout⟩ := ih _ adv h
        constructor
        · intro ht htr
          rcases List.mem_cons.1 ht with rfl | ht
          · exact ⟨du, hu, hkeep rest _ adv du h hu (OrdMap.get_set_self _ _ _)⟩
          · exact hin ht htr
        · intro ht
          rw [List.mem_cons, not_or] at ht
          exact (hout ht.2).trans (OrdMap.get_set_of_ne _ _ ht.1)
    · rw [if_pos htracked] at h
      obtain ⟨hin, hout⟩ := ih out adv h
      refine ⟨?_, fun ht => hout fun hmem => ht (List.mem_cons_of_mem _ hmem)⟩
      intro ht htr
      rcases List.mem_cons.1 ht with rfl | ht
      · exact absurd htr htracked
      · exact hin ht htr

theorem entries_advertiseTables {γ : Type} (tracked : List String) (d : String → String)
    (detail : String → Except AeError γ) :
    ∀ (tables : List String) (out : OrdMap String (Advertised γ)), tables.Nodup →
      (∀ t ∈ tables, t ∉ out.keys) →
      ∃ adv, advertiseTables tracked (fun t => .ok (d t)) detail tables out = .ok adv ∧
        adv.entries = out.entries ++ (tables.filter fun t => t ∈ tracked).map fun t =>
          (t, { digest := d t, detail := detail t }) := by
  intro tables
  induction tables with
  | nil => intro out _ _; exact ⟨out, rfl, (List.append_nil _).symm⟩
  | cons t rest ih =>
    intro out hnodup hout
    rw [List.nodup_cons] at hnodup
    rw [advertiseTables]
    by_cases htracked : t ∈ tracked
    · have hset := OrdMap.entries_set_of_notMem
        (⟨d t, detail t⟩ : Advertised γ) (hout t List.mem_cons_self)
      have hrest : ∀ u ∈ rest, u ∉ (out.set t ⟨d t, detail t⟩).keys := by
        intro u hu hmem
        rw [OrdMap.keys, hset, List.map_append, List.mem_append] at hmem
        rcases hmem with hmem | hmem
        · exact hout u (List.mem_cons_of_mem _ hu) hmem
        · obtain rfl : u = t := by simpa using hmem
          exact hnodup.1 hu
      obtain ⟨adv, hadv, hentries⟩ := ih _ hnodup.2 hrest
      refine ⟨adv, ?_, ?_⟩
      · rw [if_neg (not_not.2 htracked)]
        exact hadv
      · rw [hentries, hset, List.filter_cons_of_pos (by simpa using htracked), List.map_cons,
          List.append_assoc, List.singleton_append]
    · obtain ⟨adv, hadv, hentries⟩ :=
        ih out hnodup.2 fun u hu => hout u (List.mem_cons_of_mem _ hu)
      refine ⟨adv, ?_, ?_⟩
      · rw [if_pos htracked]
        exact hadv
      · rw [hentries, List.filter_cons_of_neg (by simpa using htracked)]

theorem advertiseTables_congr {γ : Type} {tracked : List String}
    {digest digest' : String → Except AeError String} {detail detail' : String → Except AeError γ} :
    ∀ (tables : List String) (out : OrdMap String (Advertised γ)),
      (∀ t ∈ tracked, digest' t = digest t ∧ detail' t = detail t) →
      advertiseTables tracked digest' detail' tables out =
        advertiseTables tracked digest detail tables out := by
  intro tables
  induction tables with
  | nil => intro out _; rfl
  | cons t rest ih =>
    intro out h
    rw [advertiseTables, advertiseTables]
    by_cases htracked : t ∈ tracked
    · obtain ⟨hdigest, hdetail⟩ := h t htracked
      rw [if_neg (not_not.2 htracked), if_neg (not_not.2 htracked), hdigest, hdetail]
      cases digest t with
      | error e => rfl
      | ok d => exact ih _ h
    · rw [if_pos htracked, if_pos htracked]
      exact ih out h

theorem planTables_ok {γ : Type} {planTable : String → γ → Except AeError (List String)} :
    ∀ (entries : List (String × γ)) (plan out : OrdMap String (List String)),
      planTables planTable entries plan = .ok out →
      ∀ e ∈ entries, ∃ pull, planTable e.1 e.2 = .ok pull := by
  intro entries
  induction entries with
  | nil => intro plan out _ e he; cases he
  | cons x rest ih =>
    intro plan out h e he
    obtain ⟨t, adv⟩ := x
    rw [planTables] at h
    cases hpull : planTable t adv with
    | error err => rw [hpull] at h; cases h
    | ok pull =>
      rw [hpull] at h
      rcases List.mem_cons.1 he with rfl | he
      · exact ⟨pull, hpull⟩
      · exact ih _ out h e he

theorem planTables_error {γ : Type} {planTable : String → γ → Except AeError (List String)} {e : AeError} :
    ∀ (entries : List (String × γ)) (plan : OrdMap String (List String)),
      planTables planTable entries plan = .error e →
      ∃ x ∈ entries, planTable x.1 x.2 = .error e := by
  intro entries
  induction entries with
  | nil => intro plan h; cases h
  | cons x rest ih =>
    intro plan h
    obtain ⟨t, adv⟩ := x
    rw [planTables] at h
    cases hpull : planTable t adv with
    | error err =>
      rw [hpull] at h
      cases h
      exact ⟨(t, adv), List.mem_cons_self, hpull⟩
    | ok pull =>
      rw [hpull] at h
      obtain ⟨y, hy, hfail⟩ := ih _ h
      exact ⟨y, List.mem_cons_of_mem _ hy, hfail⟩

/-- **The plan of a table is its own**: it is made of the table's advertisement alone. -/
theorem planTables_get {γ : Type} {planTable : String → γ → Except AeError (List String)}
    {adv : OrdMap String γ} {out : OrdMap String (List String)}
    (h : planTables planTable adv.entries OrdMap.empty = .ok out) (t : String) :
    (∀ a, adv.get t = some a → ∃ pull, planTable t a = .ok pull ∧
      out.get t = if pull = [] then none else some pull) ∧
    (adv.get t = none → out.get t = none) := by
  have hok := planTables_ok adv.entries OrdMap.empty out h
  -- what each table is to pull, as a function of its name
  let f : String → List String := fun u => (adv.get u).elim [] fun a => ((planTable u a).toOption).getD []
  have hf : ∀ e ∈ adv.entries, planTable e.1 e.2 = .ok (f e.1) := by
    intro e he
    obtain ⟨pull, hpull⟩ := hok e he
    have hget : adv.get e.1 = some e.2 := (OrdMap.get_eq_some_iff adv e.1 e.2).2 he
    simp only [f, hget, hpull, Option.elim_some]
    rfl
  obtain ⟨out', hout', hget⟩ := planTables_of_ok adv.entries OrdMap.empty hf
  obtain rfl : out' = out := Except.ok.inj (hout'.symm.trans h)
  constructor
  · intro a ha
    have hmem : (t, a) ∈ adv.entries := (OrdMap.get_eq_some_iff adv t a).1 ha
    refine ⟨f t, hf (t, a) hmem, ?_⟩
    have hkey : t ∈ adv.entries.map Prod.fst := List.mem_map.2 ⟨(t, a), hmem, rfl⟩
    rw [hget t]
    by_cases hnil : f t = []
    · rw [if_neg fun hne => hne.2 hnil, if_pos hnil, OrdMap.get_empty]
    · rw [if_pos ⟨hkey, hnil⟩, if_neg hnil]
  · intro hnone
    have hnil : f t = [] := by simp only [f, hnone, Option.elim_none]
    rw [hget t, if_neg fun hne => hne.2 hnil, OrdMap.get_empty]

/-! ### Planned, table by table -/

/-- What is to be pulled of one table: nothing, where this node could not read it or the peer does not
advertise it. -/
def planned {γ δ : Type} (read : String → Except AeError δ) (tables : List String)
    (digest : String → Except AeError String) (detail : String → Except AeError γ)
    (pull : δ → Advertised γ → Except AeError (List String)) (t : String) :
    Except AeError (List String) :=
  match read t with
  | .error _ => .ok []
  | .ok mine =>
    if t ∉ tables then .ok []
    else do
      let d ← digest t
      pull mine { digest := d, detail := detail t }

theorem planned_of_loop {γ δ : Type} {read : String → Except AeError δ} {tracked tables : List String}
    {digest : String → Except AeError String} {detail : String → Except AeError γ}
    {pull : δ → Advertised γ → Except AeError (List String)}
    {planTable : String → Advertised γ → Except AeError (List String)}
    {adv : OrdMap String (Advertised γ)} {out : OrdMap String (List String)}
    (hadv : advertiseTables tracked digest detail tables OrdMap.empty = .ok adv)
    (hplan : planTables planTable adv.entries OrdMap.empty = .ok out) {t : String} (ht : t ∈ tracked)
    (hskip : ∀ e, read t = .error e → ∀ a, planTable t a = .ok [])
    (hpull : ∀ mine, read t = .ok mine → ∀ a, planTable t a = pull mine a) :
    ∃ keys, planned read tables digest detail pull t = .ok keys ∧
      out.get t = if keys = [] then none else some keys := by
  obtain ⟨hin, hout⟩ := get_advertiseTables (t := t) _ _ _ hadv
  obtain ⟨hsome, hnone⟩ := planTables_get hplan t
  unfold planned
  by_cases hpeer : t ∈ tables
  · obtain ⟨d, hd, hget⟩ := hin hpeer ht
    obtain ⟨keys, hkeys, hentry⟩ := hsome _ hget
    refine ⟨keys, ?_, hentry⟩
    cases hread : read t with
    | error e =>
      rw [hskip e hread] at hkeys
      exact hkeys
    | ok mine =>
      rw [hpull mine hread] at hkeys
      simp only [hpeer, not_true_eq_false, if_false, hd]
      exact hkeys
  · refine ⟨[], ?_, (hnone (hout hpeer)).trans (if_pos rfl).symm⟩
    cases read t with
    | error e => rfl
    | ok mine => exact if_pos hpeer

/-- The turn of a table: what is to be pulled of it is served and applied. -/
def turn {σ ρ : Type} (planned : String → Except AeError (List String))
    (serve : String → List String → Except AeError ρ) (apply : σ → String → ρ → σ) (s : σ) (t : String) :
    σ :=
  match planned t with
  | .ok (key :: keys) =>
    match serve t (key :: keys) with
    | .ok records => apply s t records
    | .error _ => s
  | _ => s

section

variable {σ τ α β : Type} (sha : Sha256) (L : AeStoreView σ α β) (P : AeStoreView τ α β) (store : σ)
  (peer : τ)

def pullA (mine : List String) (adv : Advertised (List String)) : Except AeError (List String) := do
  let digest ← computeTableDigest sha mine
  if adv.digest = digest then .ok []
  else
    let recordHashes ← adv.detail
    .ok (missingLocally mine recordHashes)

def pullB (mine : OrdMap String String) (adv : Advertised (OrdMap String String)) :
    Except AeError (List String) :=
  if adv.digest = tierBTableDigest sha mine then .ok []
  else do
    let versions ← adv.detail
    .ok (versionKeysToPull mine versions)

def plannedA (t : String) : Except AeError (List String) :=
  planned (L.tierARecordHashes store) (P.tierATables peer) (P.tierATableDigest peer)
    (P.tierARecordHashes peer) (pullA sha) t

def plannedB (t : String) : Except AeError (List String) :=
  planned (L.tierBVersions store) (P.tierBTables peer) (P.tierBTableDigest peer) (P.tierBVersions peer)
    (pullB sha) t

def turnA : σ → String → σ :=
  turn (plannedA sha L P store peer) (P.serveTierA peer) fun s t records => (L.applyTierA s t records).1

def turnB : σ → String → σ :=
  turn (plannedB sha L P store peer) (P.serveTierB peer) fun s t records => (L.applyTierB s t records).1

def everyTurn : σ :=
  (L.tierBTables store).foldl (turnB sha L P store peer)
    ((L.tierATables store).foldl (turnA sha L P store peer) store)

/-- The plan of a round. -/
def roundPlan : Except AeError RoundPlan := do
  let adv ← peerAdvertisement P peer (L.tierATables store) (L.tierBTables store)
  planRound sha (localState L store).1 adv

variable {sha L P store peer}

theorem roundPlan_ok {plan : RoundPlan} (h : roundPlan sha L P store peer = .ok plan) :
    ∃ advA advB,
      advertiseTables (L.tierATables store) (P.tierATableDigest peer) (P.tierARecordHashes peer)
        (P.tierATables peer) OrdMap.empty = .ok advA ∧
      advertiseTables (L.tierBTables store) (P.tierBTableDigest peer) (P.tierBVersions peer)
        (P.tierBTables peer) OrdMap.empty = .ok advB ∧
      planTables (planTableA sha (localState L store).1) advA.entries OrdMap.empty = .ok plan.tierA ∧
      planTables (planTableB sha (localState L store).1) advB.entries OrdMap.empty = .ok plan.tierB := by
  obtain ⟨adv, hadv, hplan⟩ := bind_ok h
  obtain ⟨advA, hadvA, hadv⟩ := bind_ok hadv
  obtain ⟨advB, hadvB, hadv⟩ := bind_ok hadv
  cases hadv
  obtain ⟨a, ha, hplan⟩ := bind_ok hplan
  obtain ⟨b, hb, hplan⟩ := bind_ok hplan
  cases hplan
  exact ⟨advA, advB, hadvA, hadvB, ha, hb⟩

theorem roundPlan_of_advertised (sha : Sha256) {advA : OrdMap String (Advertised (List String))}
    {advB : OrdMap String (Advertised (OrdMap String String))}
    (hadvA : advertiseTables (L.tierATables store) (P.tierATableDigest peer) (P.tierARecordHashes peer)
      (P.tierATables peer) OrdMap.empty = .ok advA)
    (hadvB : advertiseTables (L.tierBTables store) (P.tierBTableDigest peer) (P.tierBVersions peer)
      (P.tierBTables peer) OrdMap.empty = .ok advB) :
    roundPlan sha L P store peer = planRound sha (localState L store).1 ⟨advA, advB⟩ := by
  unfold roundPlan peerAdvertisement
  rw [hadvA, hadvB]
  rfl

theorem planTableA_localState (sha : Sha256) {t : String} (ht : t ∈ L.tierATables store)
    (adv : Advertised (List String)) :
    planTableA sha (localState L store).1 t adv =
      match L.tierARecordHashes store t with
      | .error _ => .ok []
      | .ok mine => pullA sha mine adv := by
  have hunread := mem_unreadable .A (L.tierARecordHashes store) (t := t)
    (L.tierATables store) (OrdMap.empty, [], [])
  unfold planTableA
  cases hread : L.tierARecordHashes store t with
  | error e => exact if_pos (hunread.2 (Or.inr ⟨ht, e, hread⟩))
  | ok mine =>
    have hmine : (localState L store).1.tierA.get t = some mine := get_readTables _ _ hread ht
    have hnot : t ∉ (localState L store).1.unreadableA := by
      intro hmem
      obtain hmem | ⟨-, e, he⟩ := hunread.1 hmem
      · cases hmem
      · rw [hread] at he
        cases he
    rw [if_neg hnot, hmine]
    rfl

theorem planTableB_localState (sha : Sha256) {t : String} (ht : t ∈ L.tierBTables store)
    (adv : Advertised (OrdMap String String)) :
    planTableB sha (localState L store).1 t adv =
      match L.tierBVersions store t with
      | .error _ => .ok []
      | .ok mine => pullB sha mine adv := by
  have hunread := mem_unreadable .B (L.tierBVersions store) (t := t)
    (L.tierBTables store) (OrdMap.empty, [], [])
  unfold planTableB
  cases hread : L.tierBVersions store t with
  | error e => exact if_pos (hunread.2 (Or.inr ⟨ht, e, hread⟩))
  | ok mine =>
    have hmine : (localState L store).1.tierB.get t = some mine := get_readTables _ _ hread ht
    have hnot : t ∉ (localState L store).1.unreadableB := by
      intro hmem
      obtain hmem | ⟨-, e, he⟩ := hunread.1 hmem
      · cases hmem
      · rw [hread] at he
        cases he
    rw [if_neg hnot, hmine]
    rfl

theorem get_roundPlan {plan : RoundPlan} (h : roundPlan sha L P store peer = .ok plan) :
    (∀ t ∈ L.tierATables store, ∃ hashes, plannedA sha L P store peer t = .ok hashes ∧
      plan.tierA.get t = if hashes = [] then none else some hashes) ∧
    ∀ t ∈ L.tierBTables store, ∃ keys, plannedB sha L P store peer t = .ok keys ∧
      plan.tierB.get t = if keys = [] then none else some keys := by
  obtain ⟨advA, advB, hadvA, hadvB, ha, hb⟩ := roundPlan_ok h
  constructor
  · intro t ht
    refine planned_of_loop hadvA ha ht ?_ ?_
    · intro e hread adv
      rw [planTableA_localState sha ht, hread]
    · intro mine hread adv
      rw [planTableA_localState sha ht, hread]
  · intro t ht
    refine planned_of_loop hadvB hb ht ?_ ?_
    · intro e hread adv
      rw [planTableB_localState sha ht, hread]
    · intro mine hread adv
      rw [planTableB_localState sha ht, hread]

/-! ### The loops over the registry -/

section

variable {pull : String → σ → RoundResult → σ × Except AeError RoundResult}

theorem overTables_fst {turn : σ → String → σ} : ∀ {tables : List String} {s : σ} {r r' : RoundResult},
    (∀ t ∈ tables, ∀ s r, (pull t s r).1 = turn s t) → (overTables pull tables s r).2 = .ok r' →
    (overTables pull tables s r).1 = tables.foldl turn s := by
  intro tables
  induction tables with
  | nil => intro s r r' _ _; rfl
  | cons t rest ih =>
    intro s r r' hturn h
    rw [overTables] at h ⊢
    cases hpull : (pull t s r).2 with
    | error e =>
      simp only [hpull] at h
      cases h
    | ok r₁ =>
      simp only [hpull] at h ⊢
      rw [ih (fun u hu => hturn u (List.mem_cons_of_mem _ hu)) h, hturn t List.mem_cons_self s r,
        List.foldl_cons]

theorem overTables_keeps {I : σ → Prop} {turn : σ → String → σ} {tables : List String}
    (hturn : ∀ t ∈ tables, ∀ s r, (pull t s r).1 = turn s t)
    (hkeep : ∀ t ∈ tables, ∀ s, I s → I (turn s t)) :
    ∀ {s : σ} {r : RoundResult}, I s → I (overTables pull tables s r).1 := by
  induction tables with
  | nil => intro s r h; exact h
  | cons t rest ih =>
    intro s r h
    have hfirst : I (pull t s r).1 := by
      rw [hturn t List.mem_cons_self s r]
      exact hkeep t List.mem_cons_self s h
    rw [overTables]
    cases hpull : (pull t s r).2 with
    | error e => exact hfirst
    | ok r₁ =>
      exact ih (fun u hu => hturn u (List.mem_cons_of_mem _ hu))
        (fun u hu => hkeep u (List.mem_cons_of_mem _ hu)) hfirst

theorem overTables_error {Q : AeError → Prop} (hpull : ∀ t s r e, (pull t s r).2 = .error e → Q e) :
    ∀ {tables : List String} {s : σ} {r : RoundResult} {e : AeError},
      (overTables pull tables s r).2 = .error e → Q e := by
  intro tables
  induction tables with
  | nil => intro s r e h; cases h
  | cons t rest ih =>
    intro s r e h
    rw [overTables] at h
    cases hfirst : (pull t s r).2 with
    | error e' =>
      simp only [hfirst] at h
      cases h
      exact hpull t s r e hfirst
    | ok r₁ =>
      simp only [hfirst] at h
      exact ih h

theorem overTables_congr {pull' : String → σ → RoundResult → σ × Except AeError RoundResult} :
    ∀ {tables : List String} {s : σ} {r : RoundResult}, (∀ t ∈ tables, ∀ s r, pull' t s r = pull t s r) →
      overTables pull' tables s r = overTables pull tables s r := by
  intro tables
  induction tables with
  | nil => intro s r _; rfl
  | cons t rest ih =>
    intro s r h
    rw [overTables, overTables, h t List.mem_cons_self]
    cases (pull t s r).2 with
    | error e => rfl
    | ok r₁ => exact ih fun u hu => h u (List.mem_cons_of_mem _ hu)

end

theorem isWireError_of_contain {r : RoundResult} {tier : Tier} {table : String} {e e' : AeError}
    (h : contain r tier table e = .error e') : e'.isWireError = true := by
  unfold contain at h
  split_ifs at h with hwire
  cases h
  exact hwire

theorem isWireError_of_landedB {r : RoundResult} {table : String} {planned pulled : ℕ}
    {out : TierBApplyResult} {e : AeError} (h : r.landedB table planned pulled out = .error e) :
    e.isWireError = true := by
  unfold RoundResult.landedB at h
  dsimp only at h
  split_ifs at h
  cases hverdict : out.verdict with
  | none =>
    rw [hverdict] at h
    exact isWireError_of_contain h
  | some verdict =>
    rw [hverdict] at h
    cases h

theorem isWireError_of_pullTierA {plan : OrdMap String (List String)} {t : String} {s : σ}
    {r : RoundResult} {e : AeError} (h : (pullTierA L P peer plan t s r).2 = .error e) :
    e.isWireError = true := by
  unfold pullTierA at h
  cases hplan : plan.get t with
  | none => rw [hplan] at h; cases h
  | some hashes =>
    rw [hplan] at h
    dsimp only at h
    split_ifs at h
    cases hserve : P.serveTierA peer t hashes with
    | error e' =>
      rw [hserve] at h
      exact isWireError_of_contain h
    | ok records =>
      rw [hserve] at h
      dsimp only at h
      cases happly : (L.applyTierA s t records).2 with
      | error e' =>
        rw [happly] at h
        exact isWireError_of_contain h
      | ok applied =>
        rw [happly] at h
        cases h

theorem isWireError_of_pullTierB {plan : OrdMap String (List String)} {t : String} {s : σ}
    {r : RoundResult} {e : AeError} (h : (pullTierB L P peer plan t s r).2 = .error e) :
    e.isWireError = true := by
  unfold pullTierB at h
  cases hplan : plan.get t with
  | none => rw [hplan] at h; cases h
  | some keys =>
    rw [hplan] at h
    dsimp only at h
    split_ifs at h
    cases hserve : P.serveTierB peer t keys with
    | error e' =>
      rw [hserve] at h
      exact isWireError_of_contain h
    | ok records =>
      rw [hserve] at h
      dsimp only at h
      cases happly : (L.applyTierB s t records).2 with
      | error e' =>
        rw [happly] at h
        exact isWireError_of_contain h
      | ok applied =>
        rw [happly] at h
        exact isWireError_of_landedB h

theorem pullTierA_turn {plan : OrdMap String (List String)} {t : String} {hashes : List String}
    (hplanned : plannedA sha L P store peer t = .ok hashes)
    (hplan : plan.get t = if hashes = [] then none else some hashes) (s : σ) (r : RoundResult) :
    (pullTierA L P peer plan t s r).1 = turnA sha L P store peer s t := by
  unfold pullTierA turnA turn
  rw [hplan, hplanned]
  cases hashes with
  | nil => rfl
  | cons hash rest =>
    dsimp only
    rw [if_neg (List.cons_ne_nil _ _)]
    dsimp only
    rw [if_neg (by simp)]
    cases P.serveTierA peer t (hash :: rest) with
    | error e => rfl
    | ok records =>
      dsimp only
      cases (L.applyTierA s t records).2 with
      | error e => rfl
      | ok applied => rfl

theorem pullTierB_turn {plan : OrdMap String (List String)} {t : String} {keys : List String}
    (hplanned : plannedB sha L P store peer t = .ok keys)
    (hplan : plan.get t = if keys = [] then none else some keys) (s : σ) (r : RoundResult) :
    (pullTierB L P peer plan t s r).1 = turnB sha L P store peer s t := by
  unfold pullTierB turnB turn
  rw [hplan, hplanned]
  cases keys with
  | nil => rfl
  | cons key rest =>
    dsimp only
    rw [if_neg (List.cons_ne_nil _ _)]
    dsimp only
    rw [if_neg (by simp)]
    cases P.serveTierB peer t (key :: rest) with
    | error e => rfl
    | ok records =>
      dsimp only
      cases (L.applyTierB s t records).2 with
      | error e => rfl
      | ok applied => rfl

/-! ### The round -/

theorem turns_of_plan {plan : RoundPlan} (h : roundPlan sha L P store peer = .ok plan) :
    (∀ t ∈ L.tierATables store, ∀ s r,
      (pullTierA L P peer plan.tierA t s r).1 = turnA sha L P store peer s t) ∧
    ∀ t ∈ L.tierBTables store, ∀ s r,
      (pullTierB L P peer plan.tierB t s r).1 = turnB sha L P store peer s t := by
  obtain ⟨hplanA, hplanB⟩ := get_roundPlan h
  constructor
  · intro t ht s r
    obtain ⟨hashes, hplanned, hentry⟩ := hplanA t ht
    exact pullTierA_turn hplanned hentry s r
  · intro t ht s r
    obtain ⟨keys, hplanned, hentry⟩ := hplanB t ht
    exact pullTierB_turn hplanned hentry s r

theorem runAntiEntropyRound_eq (sha : Sha256) (L : AeStoreView σ α β) (P : AeStoreView τ α β) (store : σ)
    (peer : τ) :
    runAntiEntropyRound sha L P store peer =
      match roundPlan sha L P store peer with
      | .error e => (store, .error e)
      | .ok plan =>
        let a := overTables (pullTierA L P peer plan.tierA) (L.tierATables store) store
          { failures := (localState L store).2 }
        match a.2 with
        | .error e => (a.1, .error e)
        | .ok r => overTables (pullTierB L P peer plan.tierB) (L.tierBTables store) a.1 r := rfl

theorem round_cases (sha : Sha256) (L : AeStoreView σ α β) (P : AeStoreView τ α β) (store : σ) (peer : τ) :
    match roundPlan sha L P store peer with
    | .error e => runAntiEntropyRound sha L P store peer = (store, .error e)
    | .ok _ =>
      match (runAntiEntropyRound sha L P store peer).2 with
      | .error e => e.isWireError = true
      | .ok _ => (runAntiEntropyRound sha L P store peer).1 = everyTurn sha L P store peer := by
  rw [runAntiEntropyRound_eq]
  cases hplan : roundPlan sha L P store peer with
  | error e => rfl
  | ok plan =>
    obtain ⟨hturnA, hturnB⟩ := turns_of_plan hplan
    dsimp only
    cases ha : (overTables (pullTierA L P peer plan.tierA) (L.tierATables store) store
        { failures := (localState L store).2 }).2 with
    | error e => exact overTables_error (fun _ _ _ _ => isWireError_of_pullTierA) ha
    | ok r =>
      dsimp only
      cases hb : (overTables (pullTierB L P peer plan.tierB) (L.tierBTables store)
          (overTables (pullTierA L P peer plan.tierA) (L.tierATables store) store
            { failures := (localState L store).2 }).1 r).2 with
      | error e => exact overTables_error (fun _ _ _ _ => isWireError_of_pullTierB) hb
      | ok r' =>
        dsimp only
        rw [overTables_fst hturnB hb, overTables_fst hturnA ha]
        rfl

theorem round_keeps {I : σ → Prop} (hstart : I store)
    (hA : ∀ t ∈ L.tierATables store, ∀ s, I s → I (turnA sha L P store peer s t))
    (hB : ∀ t ∈ L.tierBTables store, ∀ s, I s → I (turnB sha L P store peer s t)) :
    I (runAntiEntropyRound sha L P store peer).1 := by
  rw [runAntiEntropyRound_eq]
  cases hplan : roundPlan sha L P store peer with
  | error e => exact hstart
  | ok plan =>
    obtain ⟨hturnA, hturnB⟩ := turns_of_plan hplan
    have hfirst : I (overTables (pullTierA L P peer plan.tierA) (L.tierATables store) store
        { failures := (localState L store).2 }).1 := overTables_keeps hturnA hA hstart
    dsimp only
    cases (overTables (pullTierA L P peer plan.tierA) (L.tierATables store) store
        { failures := (localState L store).2 }).2 with
    | error e => exact hfirst
    | ok r => exact overTables_keeps hturnB hB hfirst

theorem turn_keeps {ρ : Type} {I : σ → Prop} {planned : String → Except AeError (List String)}
    {serve : String → List String → Except AeError ρ} {apply : σ → String → ρ → σ} {s : σ} {t : String}
    (hs : I s)
    (happly : ∀ keys records, planned t = .ok keys → serve t keys = .ok records → I (apply s t records)) :
    I (turn planned serve apply s t) := by
  unfold turn
  split
  · rename_i key keys hplanned
    cases hserve : serve t (key :: keys) with
    | error e => exact hs
    | ok records => exact happly (key :: keys) records hplanned hserve
  · exact hs

/-! ### Outside the registry -/

/-- Two pairs of a local and a remote view that answer alike for the tables of the local registry. -/
structure Alike {τ' : Type} (L L' : AeStoreView σ α β) (P : AeStoreView τ α β) (P' : AeStoreView τ' α β)
    (store : σ) (peer : τ) (peer' : τ') : Prop where
  tierATables : L'.tierATables store = L.tierATables store
  tierBTables : L'.tierBTables store = L.tierBTables store
  peerTierATables : P'.tierATables peer' = P.tierATables peer
  peerTierBTables : P'.tierBTables peer' = P.tierBTables peer
  tierA : ∀ t ∈ L.tierATables store,
    L'.tierARecordHashes store t = L.tierARecordHashes store t ∧
    (∀ s records, L'.applyTierA s t records = L.applyTierA s t records) ∧
    P'.tierATableDigest peer' t = P.tierATableDigest peer t ∧
    P'.tierARecordHashes peer' t = P.tierARecordHashes peer t ∧
    ∀ hashes, P'.serveTierA peer' t hashes = P.serveTierA peer t hashes
  tierB : ∀ t ∈ L.tierBTables store,
    L'.tierBVersions store t = L.tierBVersions store t ∧
    (∀ s records, L'.applyTierB s t records = L.applyTierB s t records) ∧
    P'.tierBTableDigest peer' t = P.tierBTableDigest peer t ∧
    P'.tierBVersions peer' t = P.tierBVersions peer t ∧
    ∀ keys, P'.serveTierB peer' t keys = P.serveTierB peer t keys

/-- **A round asks for nothing outside the local registry**: what a view would answer for another table
does not show. -/
theorem round_congr {τ' : Type} {L' : AeStoreView σ α β} {P' : AeStoreView τ' α β} {peer' : τ'}
    (h : Alike L L' P P' store peer peer') :
    runAntiEntropyRound sha L' P' store peer' = runAntiEntropyRound sha L P store peer := by
  have hlocal : localState L' store = localState L store := by
    unfold localState
    rw [h.tierATables, h.tierBTables, readTables_congr _ _ fun t ht => (h.tierA t ht).1,
      readTables_congr _ _ fun t ht => (h.tierB t ht).1]
  have hplan : roundPlan sha L' P' store peer' = roundPlan sha L P store peer := by
    unfold roundPlan peerAdvertisement
    rw [hlocal, h.tierATables, h.tierBTables, h.peerTierATables, h.peerTierBTables]
    rw [advertiseTables_congr _ _ fun t ht =>
        ⟨(h.tierA t ht).2.2.1, (h.tierA t ht).2.2.2.1⟩,
      advertiseTables_congr _ _ fun t ht => ⟨(h.tierB t ht).2.2.1, (h.tierB t ht).2.2.2.1⟩]
  rw [runAntiEntropyRound_eq, runAntiEntropyRound_eq, hplan, hlocal, h.tierATables, h.tierBTables]
  cases roundPlan sha L P store peer with
  | error e => rfl
  | ok plan =>
    have hloopA : ∀ r, overTables (pullTierA L' P' peer' plan.tierA) (L.tierATables store) store r =
        overTables (pullTierA L P peer plan.tierA) (L.tierATables store) store r := by
      intro r
      refine overTables_congr fun t ht s r => ?_
      obtain ⟨-, happly, -, -, hserve⟩ := h.tierA t ht
      simp only [pullTierA, happly, hserve]
    have hloopB : ∀ s r, overTables (pullTierB L' P' peer' plan.tierB) (L.tierBTables store) s r =
        overTables (pullTierB L P peer plan.tierB) (L.tierBTables store) s r := by
      intro s r
      refine overTables_congr fun t ht s r => ?_
      obtain ⟨-, happly, -, -, hserve⟩ := h.tierB t ht
      simp only [pullTierB, happly, hserve]
    dsimp only
    rw [hloopA]
    simp only [hloopB]

end

end Cello.Directory.AntiEntropy
