import Cello.Directory.AntiEntropy.Store
import Cello.Lib.Join

/-!
# Two rounds converge

Two stores over one registry, a round in each direction, and nothing written in between.
First what one round does to a store (`round_spec`): every table gains the rows whose hash
it lacked, and every agent's record is joined with the peer's.  Then the two rounds
together, and that a round between stores that agree does nothing at all
(`round_of_agree`).
-/

namespace Cello.Directory.AntiEntropy

open Lib

section

variable {reg : Registry} (nfc : Nfc) (sha : HexSha256)

/-- `runAntiEntropyRound(X, Y)` between two stores. -/
def round (X Y : Store reg) : Store reg × Except AeError RoundResult :=
  runAntiEntropyRound sha.toSha256 (Store.view nfc sha.toSha256 reg)
    (Store.view nfc sha.toSha256 reg) X Y

/-! ### The plan -/

namespace Store

def hashesAt (s : Store reg) (table : String) : List String :=
  ((reg.find table).map (s.hashes nfc sha.toSha256)).getD []

def digestAt (s : Store reg) (table : String) : String :=
  tableDigest sha.toSha256 (bucketVector sha.toSha256 (s.hashesAt nfc sha table).eraseDups)

def pullAt (X Y : Store reg) (table : String) : List String :=
  if Y.digestAt nfc sha table = X.digestAt nfc sha table then []
  else missingLocally (X.hashesAt nfc sha table) (Y.hashesAt nfc sha table)

def pullKeys (X Y : Store reg) : List String :=
  if tierBTableDigest sha.toSha256 (Y.versions nfc sha.toSha256) =
      tierBTableDigest sha.toSha256 (X.versions nfc sha.toSha256) then []
  else versionKeysToPull (X.versions nfc sha.toSha256) (Y.versions nfc sha.toSha256)

/-- What a store reads of its own tables. -/
def basis (s : Store reg) : LocalRoundState where
  tierA := OrdMap.tabulate (s.hashesAt nfc sha) reg.tables OrdMap.empty
  tierB := OrdMap.tabulate (fun _ => s.versions nfc sha.toSha256) [suspensionTable] OrdMap.empty
  unreadableA := []
  unreadableB := []

/-- What a store advertises to a node with the same registry. -/
def advertised (s : Store reg) : PeerRoundState where
  tierA := OrdMap.tabulate (fun t =>
    { digest := s.digestAt nfc sha t, detail := s.tierARecordHashes nfc sha.toSha256 t })
    reg.tables OrdMap.empty
  tierB := OrdMap.tabulate (fun t =>
    { digest := tierBTableDigest sha.toSha256 (s.versions nfc sha.toSha256)
      detail := s.tierBVersions nfc sha.toSha256 t })
    [suspensionTable] OrdMap.empty

variable {nfc sha}

theorem hashesAt_table {s : Store reg} {spec : TierATableSpec} (h : spec ∈ reg.specs) :
    s.hashesAt nfc sha spec.table = s.hashes nfc sha.toSha256 spec := by
  rw [hashesAt, Registry.find_of_mem h]
  rfl

theorem recordHashes_ok {s : Store reg} {t : String} (h : t ∈ reg.tables) :
    s.tierARecordHashes nfc sha.toSha256 t = .ok (s.hashesAt nfc sha t) := by
  obtain ⟨spec, hspec, rfl⟩ := List.mem_map.1 h
  rw [tierARecordHashes, hashesAt_table hspec, Registry.find_of_mem hspec]

theorem isRecordHash_of_mem {s : Store reg} {t x : String} (hx : x ∈ s.hashesAt nfc sha t) :
    isRecordHash x = true := by
  unfold hashesAt at hx
  cases hf : reg.find t with
  | none =>
    rw [hf] at hx
    cases hx
  | some spec =>
    rw [hf] at hx
    obtain ⟨row, -, rfl⟩ := List.mem_map.1 hx
    exact isRecordHash_hex sha _

theorem pullAt_eq_nil {X Y : Store reg} {t : String}
    (h : ∀ x ∈ Y.hashesAt nfc sha t, x ∈ X.hashesAt nfc sha t) : X.pullAt nfc sha Y t = [] := by
  unfold pullAt
  split_ifs
  · rfl
  · exact missingLocally_eq_nil h

theorem digest_ok {s : Store reg} (t : String) :
    computeTableDigest sha.toSha256 (s.hashesAt nfc sha t) = .ok (s.digestAt nfc sha t) :=
  computeTableDigest_of_valid fun _ hx => isRecordHash_of_mem hx

end Store

variable {nfc sha}

theorem localState_store (X : Store reg) :
    localState (Store.view nfc sha.toSha256 reg) X = (X.basis nfc sha, []) := by
  unfold localState
  dsimp only [Store.view]
  rw [readTables_of_ok reg.tables OrdMap.empty fun t ht => Store.recordHashes_ok ht,
    readTables_of_ok (f := fun _ => X.versions nfc sha.toSha256) [suspensionTable] OrdMap.empty
      fun t ht => by rw [List.mem_singleton.1 ht, Store.tierBVersions, if_pos rfl]]
  rfl

theorem peerAdvertisement_store (Y : Store reg) :
    peerAdvertisement (Store.view nfc sha.toSha256 reg) Y reg.tables [suspensionTable] =
      .ok (Y.advertised nfc sha) := by
  unfold peerAdvertisement
  dsimp only [Store.view]
  rw [advertiseTables_of_ok (d := Y.digestAt nfc sha) reg.tables OrdMap.empty fun t ht =>
      ⟨ht, by rw [Store.recordHashes_ok ht]; exact Store.digest_ok t⟩,
    advertiseTables_of_ok
      (d := fun _ => tierBTableDigest sha.toSha256 (Y.versions nfc sha.toSha256))
      [suspensionTable] OrdMap.empty fun t ht =>
        ⟨ht, by rw [List.mem_singleton.1 ht, Store.tierBVersions, if_pos rfl]; rfl⟩]
  rfl

theorem planTableA_store {X Y : Store reg} {e : String × Advertised (List String)}
    (he : e ∈ (Y.advertised nfc sha).tierA.entries) :
    planTableA sha.toSha256 (X.basis nfc sha) e.1 e.2 = .ok (X.pullAt nfc sha Y e.1) := by
  obtain ⟨ht, hadv⟩ := OrdMap.mem_entries_tabulate he
  have hmine : (X.basis nfc sha).tierA.get e.1 = some (X.hashesAt nfc sha e.1) := by
    rw [Store.basis, OrdMap.get_tabulate, if_pos ht]
  rw [planTableA_of_ok List.not_mem_nil hmine (Store.digest_ok e.1)
    (by rw [hadv]; exact Store.recordHashes_ok ht), hadv]
  rfl

theorem planTableB_store {X Y : Store reg} {e : String × Advertised (OrdMap String String)}
    (he : e ∈ (Y.advertised nfc sha).tierB.entries) :
    planTableB sha.toSha256 (X.basis nfc sha) e.1 e.2 = .ok (X.pullKeys nfc sha Y) := by
  obtain ⟨ht, hadv⟩ := OrdMap.mem_entries_tabulate he
  have hmine : (X.basis nfc sha).tierB.get e.1 = some (X.versions nfc sha.toSha256) := by
    rw [Store.basis, OrdMap.get_tabulate, if_pos ht]
  have hpeer : e.2.detail = .ok (Y.versions nfc sha.toSha256) := by
    rw [hadv, List.mem_singleton.1 ht]
    rfl
  rw [planTableB_of_ok List.not_mem_nil hmine hpeer, hadv]
  rfl

variable (nfc sha) in
theorem planRound_store (X Y : Store reg) : ∃ plan : RoundPlan,
    planRound sha.toSha256 (X.basis nfc sha) (Y.advertised nfc sha) = .ok plan ∧
    (∀ t ∈ reg.tables, (plan.tierA.get t).getD [] = X.pullAt nfc sha Y t) ∧
    (plan.tierB.get suspensionTable).getD [] = X.pullKeys nfc sha Y := by
  obtain ⟨a, ha, hgetA⟩ := planTables_of_ok (f := X.pullAt nfc sha Y)
    (Y.advertised nfc sha).tierA.entries OrdMap.empty fun e he => planTableA_store (X := X) he
  obtain ⟨b, hb, hgetB⟩ := planTables_of_ok (f := fun _ => X.pullKeys nfc sha Y)
    (Y.advertised nfc sha).tierB.entries OrdMap.empty fun e he => planTableB_store (X := X) he
  refine ⟨{ tierA := a, tierB := b }, ?_, ?_, ?_⟩
  · rw [planRound, ha]
    change (planTables _ _ _ >>= _) = _
    rw [hb]
    rfl
  · intro t ht
    rw [hgetA t]
    by_cases hp : X.pullAt nfc sha Y t = []
    · simp [hp]
    · rw [if_pos ⟨OrdMap.mem_keys_tabulate.2 ht, hp⟩]
      rfl
  · rw [hgetB]
    by_cases hp : X.pullKeys nfc sha Y = []
    · simp [hp]
    · rw [if_pos ⟨OrdMap.mem_keys_tabulate.2 (List.mem_singleton_self _), hp⟩]
      rfl

/-! ### A round between stores that agree -/

variable (nfc sha) in
theorem round_eq (X Y : Store reg) : ∃ plan : RoundPlan,
    (∀ t ∈ reg.tables, (plan.tierA.get t).getD [] = X.pullAt nfc sha Y t) ∧
    (plan.tierB.get suspensionTable).getD [] = X.pullKeys nfc sha Y ∧
    round nfc sha X Y =
      let a := overTables (pullTierA (Store.view nfc sha.toSha256 reg)
        (Store.view nfc sha.toSha256 reg) Y plan.tierA) reg.tables X {}
      match a.2 with
      | .error e => (a.1, .error e)
      | .ok r => overTables (pullTierB (Store.view nfc sha.toSha256 reg)
          (Store.view nfc sha.toSha256 reg) Y plan.tierB) [suspensionTable] a.1 r := by
  obtain ⟨plan, hplan, hA, hB⟩ := planRound_store nfc sha X Y
  refine ⟨plan, hA, hB, ?_⟩
  have hadv : peerAdvertisement (Store.view nfc sha.toSha256 reg) Y
      ((Store.view nfc sha.toSha256 reg).tierATables X)
      ((Store.view nfc sha.toSha256 reg).tierBTables X) = .ok (Y.advertised nfc sha) :=
    peerAdvertisement_store Y
  have hplanned : (peerAdvertisement (Store.view nfc sha.toSha256 reg) Y
      ((Store.view nfc sha.toSha256 reg).tierATables X)
      ((Store.view nfc sha.toSha256 reg).tierBTables X) >>= fun adv =>
        planRound sha.toSha256 (X.basis nfc sha) adv) = .ok plan := by
    rw [hadv]
    exact hplan
  unfold round runAntiEntropyRound
  simp only [localState_store, hplanned]
  rfl

theorem round_of_agree {X Y : Store reg}
    (hA : ∀ t ∈ reg.tables, ∀ x ∈ Y.hashesAt nfc sha t, x ∈ X.hashesAt nfc sha t)
    (hB : ∀ k, (X.versions nfc sha.toSha256).get k = (Y.versions nfc sha.toSha256).get k) :
    round nfc sha X Y = (X, .ok {}) := by
  obtain ⟨plan, hplanA, hplanB, hround⟩ := round_eq nfc sha X Y
  have hnilA : ∀ t ∈ reg.tables, (plan.tierA.get t).getD [] = [] := by
    intro t ht
    rw [hplanA t ht]
    exact Store.pullAt_eq_nil (hA t ht)
  have hnilB : (plan.tierB.get suspensionTable).getD [] = [] := by
    rw [hplanB, Store.pullKeys]
    split_ifs
    · rfl
    · exact versionKeysToPull_eq_nil hB
  rw [hround, overTables_of_idle reg.tables fun t ht => pullTierA_of_nil (hnilA t ht)]
  exact overTables_of_idle [suspensionTable] fun t ht =>
    pullTierB_of_nil (by rw [List.mem_singleton.1 ht]; exact hnilB)

theorem round_of_behind {X Y : Store reg}
    (hA : ∀ t ∈ reg.tables, ∀ x ∈ Y.hashesAt nfc sha t, x ∈ X.hashesAt nfc sha t)
    (hB : ∀ k y, Y.tierB.get k = some y → ∃ x, X.tierB.get k = some x ∧
      versionHash nfc sha.toSha256 (mergeSuspension nfc sha.toSha256 x y) =
        versionHash nfc sha.toSha256 x) :
    (round nfc sha X Y).1 = X := by
  obtain ⟨plan, hplanA, hplanB, hround⟩ := round_eq nfc sha X Y
  have hnilA : ∀ t ∈ reg.tables, (plan.tierA.get t).getD [] = [] := by
    intro t ht
    rw [hplanA t ht]
    exact Store.pullAt_eq_nil (hA t ht)
  rw [hround, overTables_of_idle reg.tables fun t ht => pullTierA_of_nil (hnilA t ht)]
  dsimp only
  rw [overTables_singleton_fst]
  refine pullTierB_fst fun keys records hserve => Store.applyTierB_of_unmoved ?_
  obtain rfl : Y.records keys = records := Except.ok.inj hserve
  rintro ⟨k, y⟩ hrec
  obtain ⟨x, hx, hver⟩ := hB k y (Store.mem_records.1 hrec).2
  refine ⟨⟨x, false, false⟩, ?_, rfl⟩
  rw [hx]
  exact applyOne_of_unmoved (Y.keyed k y (Store.mem_records.1 hrec).2) hver

/-! ### The append-only tables after a round -/

variable (nfc sha) in
/-- No natural key is held with different content by both. -/
def NoFork (X Y : Store reg) : Prop :=
  ∀ spec ∈ reg.specs, ∀ x ∈ X.tierA spec.table, ∀ y ∈ Y.tierA spec.table,
    naturalKeyOf spec x = naturalKeyOf spec y →
    tierAHash nfc sha.toSha256 spec x = tierAHash nfc sha.toSha256 spec y

variable (nfc sha) in
def Store.newRows (X Y : Store reg) (spec : TierATableSpec) : List TableRow :=
  (Y.tierA spec.table).filter fun row =>
    tierAHash nfc sha.toSha256 spec row ∈ X.pullAt nfc sha Y spec.table

theorem Store.notMem_of_pullAt {X Y : Store reg} {t x : String} (h : x ∈ X.pullAt nfc sha Y t) :
    x ∉ X.hashesAt nfc sha t := by
  unfold Store.pullAt at h
  split_ifs at h
  · cases h
  · exact (mem_missingLocally.1 h).2

theorem Store.newRows_fresh {X Y : Store reg} (hfork : NoFork nfc sha X Y) {spec : TierATableSpec}
    (hspec : spec ∈ reg.specs) :
    ((X.tierA spec.table ++ X.newRows nfc sha Y spec).map (naturalKeyOf spec)).Nodup := by
  rw [List.map_append, List.nodup_append]
  refine ⟨X.distinct spec hspec, ?_, ?_⟩
  · exact (Y.distinct spec hspec).sublist (List.filter_sublist.map _)
  · intro k hk l hl hkl
    obtain ⟨x, hx, rfl⟩ := List.mem_map.1 hk
    obtain ⟨y, hy, rfl⟩ := List.mem_map.1 hl
    obtain ⟨hyY, hpull⟩ := List.mem_filter.1 hy
    have hhash := hfork spec hspec x hx y hyY hkl
    refine Store.notMem_of_pullAt (of_decide_eq_true hpull) ?_
    rw [Store.hashesAt_table hspec, ← hhash]
    exact List.mem_map.2 ⟨x, hx, rfl⟩

theorem eq_some_of_getD {o : Option (List String)} {l : List String} (h : o.getD [] = l)
    (hl : l ≠ []) : o = some l := by
  cases o with
  | none => exact absurd h.symm hl
  | some m => exact congrArg some h

theorem pullTierA_store {X Y s : Store reg} (hfork : NoFork nfc sha X Y) {spec : TierATableSpec}
    (hspec : spec ∈ reg.specs) (hs : s.tierA spec.table = X.tierA spec.table)
    {plan : OrdMap String (List String)}
    (hplan : (plan.get spec.table).getD [] = X.pullAt nfc sha Y spec.table) (r : RoundResult) :
    ∃ s' r', pullTierA (Store.view nfc sha.toSha256 reg) (Store.view nfc sha.toSha256 reg) Y plan
        spec.table s r = (s', .ok r') ∧
      s'.tierA = Function.update s.tierA spec.table
        (X.tierA spec.table ++ X.newRows nfc sha Y spec) ∧ s'.tierB = s.tierB := by
  by_cases hnil : X.pullAt nfc sha Y spec.table = []
  · refine ⟨s, r, pullTierA_of_nil (hplan.trans hnil), ?_, rfl⟩
    have hnew : X.newRows nfc sha Y spec = [] := by
      rw [Store.newRows, hnil]
      simp
    rw [hnew, List.append_nil, ← hs, Function.update_eq_self]
  · have hget := eq_some_of_getD hplan hnil
    -- what the peer serves: the planned rows under their hashes
    have hserve : Y.serveTierA nfc sha.toSha256 spec.table (X.pullAt nfc sha Y spec.table) =
        .ok ((X.newRows nfc sha Y spec).map fun row =>
          ⟨tierAHash nfc sha.toSha256 spec row, row⟩) := by
      simp only [Store.serveTierA, Registry.find_of_mem hspec, Store.newRows, List.filter_map]
      rfl
    have hbodies : ((X.newRows nfc sha Y spec).map fun row =>
        (⟨tierAHash nfc sha.toSha256 spec row, row⟩ : TierARecord TableRow)).map
          TierARecord.body = X.newRows nfc sha Y spec := by
      rw [List.map_map]
      exact List.map_id _
    obtain ⟨s', n, happly, hA, hB⟩ := Store.applyTierA_of_fresh (s := s) hspec
      ((X.newRows nfc sha Y spec).map fun row => ⟨tierAHash nfc sha.toSha256 spec row, row⟩)
      (fun rec hrec => by obtain ⟨row, -, rfl⟩ := List.mem_map.1 hrec; rfl)
      (by rw [hbodies, hs]; exact Store.newRows_fresh hfork hspec)
    obtain ⟨r', hpull⟩ := pullTierA_of_ok (L := Store.view nfc sha.toSha256 reg)
      (P := Store.view nfc sha.toSha256 reg) (r := r) hget hnil hserve happly
    exact ⟨s', r', hpull, by rw [hA, hbodies, hs], hB⟩

/-! ### The suspension records after a round -/

variable (nfc sha) in
def Store.digestTexts (s : Store reg) : List String :=
  reg.tables.flatMap (fun t => AntiEntropy.digestTexts sha.toSha256 (s.hashesAt nfc sha t).eraseDups) ++
    [versionsText (s.versions nfc sha.toSha256)]

variable (nfc sha) in
def recordTexts (x y : SuspensionRecord) : List String :=
  [versionText nfc x, versionText nfc y, versionText nfc (mergeSuspension nfc sha.toSha256 x y),
    tiebreakText nfc x, tiebreakText nfc y]

variable (nfc sha) in
/-- Between two stores, digests tell contents apart and versions tell records apart. -/
structure Tells (X Y : Store reg) : Prop where
  tableA : ∀ t ∈ reg.tables, Set.InjOn sha.hex
    {x | x ∈ AntiEntropy.digestTexts sha.toSha256 (Y.hashesAt nfc sha t).eraseDups ∨
      x ∈ AntiEntropy.digestTexts sha.toSha256 (X.hashesAt nfc sha t).eraseDups}
  tableB : sha.hex (versionsText (Y.versions nfc sha.toSha256)) =
      sha.hex (versionsText (X.versions nfc sha.toSha256)) →
    versionsText (Y.versions nfc sha.toSha256) = versionsText (X.versions nfc sha.toSha256)
  peer : ∀ k x y, X.tierB.get k = some x → Y.tierB.get k = some y →
    versionHash nfc sha.toSha256 x = versionHash nfc sha.toSha256 y → SameVersion nfc x y
  merged : ∀ k x y, X.tierB.get k = some x → Y.tierB.get k = some y →
    versionHash nfc sha.toSha256 (mergeSuspension nfc sha.toSha256 x y) =
      versionHash nfc sha.toSha256 x → SameVersion nfc (mergeSuspension nfc sha.toSha256 x y) x

theorem Store.get_versions (s : Store reg) (k : String) :
    (s.versions nfc sha.toSha256).get k = (s.tierB.get k).map (versionHash nfc sha.toSha256) :=
  OrdMap.get_mapValues _ _ _

theorem Store.nodup_pullKeys (X Y : Store reg) : (X.pullKeys nfc sha Y).Nodup := by
  unfold Store.pullKeys
  split_ifs
  · exact List.nodup_nil
  · exact nodup_versionKeysToPull _ _

theorem Store.exists_of_mem_pullKeys {X Y : Store reg} {k : String}
    (h : k ∈ X.pullKeys nfc sha Y) : ∃ y, Y.tierB.get k = some y := by
  unfold Store.pullKeys at h
  split_ifs at h
  · cases h
  · obtain ⟨v, hv, -⟩ := mem_versionKeysToPull.1 h
    rw [Store.get_versions] at hv
    obtain ⟨y, hy, -⟩ := Option.map_eq_some_iff.1 hv
    exact ⟨y, hy⟩

theorem joined_of_notMem {X Y : Store reg} (ht : Tells nfc sha X Y) {k : String}
    (hk : k ∉ X.pullKeys nfc sha Y) :
    Joined (SameVersion nfc) (mergeSuspension nfc sha.toSha256) (X.tierB.get k) (Y.tierB.get k)
      (X.tierB.get k) := by
  have hsame : ∀ y, Y.tierB.get k = some y → ∃ x, X.tierB.get k = some x ∧
      versionHash nfc sha.toSha256 x = versionHash nfc sha.toSha256 y := by
    intro y hy
    have hver : (X.versions nfc sha.toSha256).get k = some (versionHash nfc sha.toSha256 y) := by
      unfold Store.pullKeys at hk
      split_ifs at hk with hdigest
      · rw [← get_eq_of_tierBTableDigest ht.tableB hdigest k, Store.get_versions, hy]
        rfl
      · by_contra hne
        exact hk (mem_versionKeysToPull.2 ⟨_, by rw [Store.get_versions, hy]; rfl, hne⟩)
    rw [Store.get_versions] at hver
    exact Option.map_eq_some_iff.1 hver
  cases hy : Y.tierB.get k with
  | none =>
    cases hx : X.tierB.get k with
    | none => rfl
    | some x => exact ⟨x, rfl, SameVersion.refl x⟩
  | some y =>
    obtain ⟨x, hx, hver⟩ := hsame y hy
    rw [hx]
    exact ⟨x, rfl, (sameVersion_mergeSuspension (ht.peer k x y hx hy hver)).symm⟩

theorem joined_of_applied {X Y : Store reg} (ht : Tells nfc sha X Y) {k : String}
    {y : SuspensionRecord} (hy : Y.tierB.get k = some y) {one : Applied SuspensionRecord}
    (h : applyOneTierB (suspensionRecords nfc sha.toSha256) (X.tierB.get k) ⟨k, y⟩ = .ok one) :
    Joined (SameVersion nfc) (mergeSuspension nfc sha.toSha256) (X.tierB.get k) (Y.tierB.get k)
      (some one.row) := by
  rw [hy]
  obtain ⟨hx, -, hi⟩ | ⟨x, hx, -, hone, hver⟩ | ⟨x, hx, -, hu⟩ := applyOne_cases h
  · rw [hx]
    exact ⟨one.row, rfl, (Except.ok.inj hi) ▸ SameVersion.refl _⟩
  · rw [hx, hone]
    exact ⟨x, rfl, (ht.merged k x y hx hy hver).symm⟩
  · rw [hx]
    exact ⟨one.row, rfl, (Except.ok.inj hu) ▸ SameVersion.refl _⟩

theorem pullTierB_store {X Y s : Store reg} (ht : Tells nfc sha X Y) (hs : s.tierB = X.tierB)
    {plan : OrdMap String (List String)}
    (hplan : (plan.get suspensionTable).getD [] = X.pullKeys nfc sha Y) (r : RoundResult) :
    ∃ s' r', pullTierB (Store.view nfc sha.toSha256 reg) (Store.view nfc sha.toSha256 reg) Y plan
        suspensionTable s r = (s', .ok r') ∧ s'.tierA = s.tierA ∧
      ∀ k, Joined (SameVersion nfc) (mergeSuspension nfc sha.toSha256) (X.tierB.get k)
        (Y.tierB.get k) (s'.tierB.get k) := by
  by_cases hnil : X.pullKeys nfc sha Y = []
  · refine ⟨s, r, pullTierB_of_nil (hplan.trans hnil), rfl, fun k => ?_⟩
    rw [hs]
    exact joined_of_notMem ht (by rw [hnil]; exact List.not_mem_nil)
  · have hkeyed : ∀ rec ∈ Y.records (X.pullKeys nfc sha Y), rec.body.agentId = rec.key :=
      fun rec hrec => Y.keyed _ _ (Store.mem_records.1 hrec).2
    obtain ⟨s', out, happly, hverdict, hA, hjoin, hkeep⟩ := Store.applyTierB_of_ok nfc sha.toSha256 s
      (Store.nodup_records (Store.nodup_pullKeys X Y)) hkeyed
    have hserve : Y.serveTierB suspensionTable (X.pullKeys nfc sha Y) =
        .ok (Y.records (X.pullKeys nfc sha Y)) := if_pos rfl
    obtain ⟨r', hpull⟩ := pullTierB_of_ok (L := Store.view nfc sha.toSha256 reg)
      (P := Store.view nfc sha.toSha256 reg) (r := r) (eq_some_of_getD hplan hnil) hnil hserve
      happly hverdict
    refine ⟨s', r', hpull, hA, fun k => ?_⟩
    rw [hs] at hjoin hkeep
    by_cases hk : k ∈ X.pullKeys nfc sha Y
    · obtain ⟨y, hy⟩ := Store.exists_of_mem_pullKeys hk
      have hrec : (⟨k, y⟩ : TierBRecord SuspensionRecord) ∈ Y.records (X.pullKeys nfc sha Y) :=
        Store.mem_records.2 ⟨hk, hy⟩
      obtain ⟨one, hone⟩ := applyOne_records nfc sha.toSha256 (X.tierB.get k) (hkeyed _ hrec)
      rw [hjoin _ hrec one hone]
      exact joined_of_applied ht hy hone
    · rw [hkeep k fun hmem => hk ?_]
      · exact joined_of_notMem ht hk
      · obtain ⟨rec, hrec, rfl⟩ := List.mem_map.1 hmem
        exact (Store.mem_records.1 hrec).1

/-! ### One round -/

/-- **What one round does**: it returns, every append-only table gains the planned rows of the
peer, and every agent's record is joined with the peer's. -/
theorem round_spec {X Y : Store reg} (hfork : NoFork nfc sha X Y) (ht : Tells nfc sha X Y) :
    ∃ X' r, round nfc sha X Y = (X', .ok r) ∧
      (∀ spec ∈ reg.specs, X'.tierA spec.table =
        X.tierA spec.table ++ X.newRows nfc sha Y spec) ∧
      ∀ k, Joined (SameVersion nfc) (mergeSuspension nfc sha.toSha256) (X.tierB.get k)
        (Y.tierB.get k) (X'.tierB.get k) := by
  obtain ⟨plan, hplanA, hplanB, hround⟩ := round_eq nfc sha X Y
  -- tables still to do are as they were, the others have their new rows
  obtain ⟨s, r, hloop, -, hdone, hB⟩ := overTables_of_ok
    (pullTierA (Store.view nfc sha.toSha256 reg) (Store.view nfc sha.toSha256 reg) Y
      plan.tierA)
    (I := fun todo s => todo.Sublist reg.tables ∧
      (∀ spec ∈ reg.specs, s.tierA spec.table = if spec.table ∈ todo then X.tierA spec.table
        else X.tierA spec.table ++ X.newRows nfc sha Y spec) ∧ s.tierB = X.tierB)
    (by
      rintro t rest s r ⟨hsub, hrows, hB⟩
      obtain ⟨spec, hspec, rfl⟩ := List.mem_map.1 (hsub.subset List.mem_cons_self)
      have hs : s.tierA spec.table = X.tierA spec.table := by
        rw [hrows spec hspec, if_pos List.mem_cons_self]
      obtain ⟨s', r', hpull, hA', hB'⟩ := pullTierA_store hfork hspec hs
        (hplanA spec.table (hsub.subset List.mem_cons_self)) r
      refine ⟨s', r', hpull, (List.sublist_cons_self _ _).trans hsub, ?_, hB'.trans hB⟩
      intro u hu
      have hnot : spec.table ∉ rest := (List.nodup_cons.1 (reg.nodup.sublist hsub)).1
      by_cases hut : u.table = spec.table
      · obtain rfl := Registry.eq_of_table hu hspec hut
        rw [hA', Function.update_self, if_neg hnot]
      · rw [hA', Function.update_of_ne hut, hrows u hu]
        simp only [List.mem_cons, hut, false_or])
    reg.tables X {} ⟨List.Sublist.refl _, fun spec hspec => by
      rw [if_pos (Registry.mem_tables hspec)], rfl⟩
  obtain ⟨s', r', hpull, hA', hjoin⟩ := pullTierB_store ht hB hplanB r
  refine ⟨s', r', ?_, ?_, hjoin⟩
  · rw [hround, hloop]
    simp only [overTables, hpull]
  · intro spec hspec
    rw [hA', hdone spec hspec, if_neg List.not_mem_nil]

theorem mem_hashes_of_round {X Y X' : Store reg} (ht : Tells nfc sha X Y)
    (hrows : ∀ spec ∈ reg.specs, X'.tierA spec.table =
      X.tierA spec.table ++ X.newRows nfc sha Y spec)
    {spec : TierATableSpec} (hspec : spec ∈ reg.specs) (h : String) :
    h ∈ X'.hashes nfc sha.toSha256 spec ↔
      h ∈ X.hashes nfc sha.toSha256 spec ∨ h ∈ Y.hashes nfc sha.toSha256 spec := by
  have hX : X.hashesAt nfc sha spec.table = X.hashes nfc sha.toSha256 spec :=
    Store.hashesAt_table hspec
  have hY : Y.hashesAt nfc sha spec.table = Y.hashes nfc sha.toSha256 spec :=
    Store.hashesAt_table hspec
  have hsplit : X'.hashes nfc sha.toSha256 spec = X.hashes nfc sha.toSha256 spec ++
      (X.newRows nfc sha Y spec).map (tierAHash nfc sha.toSha256 spec) := by
    rw [Store.hashes, hrows spec hspec, List.map_append, Store.hashes]
  rw [hsplit, List.mem_append]
  constructor
  · rintro (hx | hx)
    · exact Or.inl hx
    · obtain ⟨row, hrow, rfl⟩ := List.mem_map.1 hx
      exact Or.inr (List.mem_map.2 ⟨row, (List.mem_filter.1 hrow).1, rfl⟩)
  · rintro (hx | hy)
    · exact Or.inl hx
    · by_cases hx : h ∈ X.hashes nfc sha.toSha256 spec
      · exact Or.inl hx
      -- the digests differ, since the peer has a hash this node lacks
      have hdigest : Y.digestAt nfc sha spec.table ≠ X.digestAt nfc sha spec.table := by
        intro heq
        have := mem_iff_of_tableDigest (fun x hx => Store.isRecordHash_of_mem
            (List.mem_eraseDups.1 hx)) (fun x hx => Store.isRecordHash_of_mem
            (List.mem_eraseDups.1 hx)) (ht.tableA spec.table (Registry.mem_tables hspec)) heq h
        rw [List.mem_eraseDups, List.mem_eraseDups, hX, hY] at this
        exact hx (this.1 hy)
      obtain ⟨row, hrow, rfl⟩ := List.mem_map.1 hy
      refine Or.inr (List.mem_map.2 ⟨row, List.mem_filter.2 ⟨hrow, ?_⟩, rfl⟩)
      rw [decide_eq_true_eq, Store.pullAt, if_neg hdigest, mem_missingLocally, hX, hY]
      exact ⟨hy, hx⟩

/-! ### Two rounds -/

variable (nfc sha) in
/-- The texts whose digests are compared in the two rounds: under the digests of the three
stores, and for every agent that both nodes know. -/
def values (A B : Store reg) : Set String :=
  {x | ∃ s, (s = A ∨ s = B ∨ s = (round nfc sha A B).1) ∧ x ∈ s.digestTexts nfc sha} ∪
  {x | ∃ k a b, A.tierB.get k = some a ∧ B.tierB.get k = some b ∧ x ∈ recordTexts nfc sha a b}

theorem Store.mem_digestTexts_of_table {s : Store reg} {t x : String} (ht : t ∈ reg.tables)
    (hx : x ∈ AntiEntropy.digestTexts sha.toSha256 (s.hashesAt nfc sha t).eraseDups) :
    x ∈ s.digestTexts nfc sha :=
  List.mem_append_left _ (List.mem_flatMap.2 ⟨t, ht, hx⟩)

theorem Store.versionsText_mem_digestTexts (s : Store reg) :
    versionsText (s.versions nfc sha.toSha256) ∈ s.digestTexts nfc sha :=
  List.mem_append_right _ (List.mem_singleton_self _)

theorem sameVersion_of_hash {S : Set String} (hfree : Set.InjOn sha.hex S) {x y : SuspensionRecord}
    (hx : versionText nfc x ∈ S) (hy : versionText nfc y ∈ S)
    (h : versionHash nfc sha.toSha256 x = versionHash nfc sha.toSha256 y) : SameVersion nfc x y :=
  versionText_eq_iff.1 (hfree hx hy h)

section

variable {A B : Store reg}

theorem mem_values_of_digest {s : Store reg} (hs : s = A ∨ s = B ∨ s = (round nfc sha A B).1)
    {x : String} (hx : x ∈ s.digestTexts nfc sha) : x ∈ values nfc sha A B :=
  Or.inl ⟨s, hs, hx⟩

theorem mem_values_of_record {k : String} {a b : SuspensionRecord} (ha : A.tierB.get k = some a)
    (hb : B.tierB.get k = some b) {x : String} (hx : x ∈ recordTexts nfc sha a b) :
    x ∈ values nfc sha A B :=
  Or.inr ⟨k, a, b, ha, hb, hx⟩

theorem tells_first (hfree : Set.InjOn sha.hex (values nfc sha A B)) : Tells nfc sha A B where
  tableA t ht := hfree.mono fun x hx => hx.elim
    (fun h => mem_values_of_digest (Or.inr (Or.inl rfl)) (Store.mem_digestTexts_of_table ht h))
    (fun h => mem_values_of_digest (Or.inl rfl) (Store.mem_digestTexts_of_table ht h))
  tableB := hfree (mem_values_of_digest (Or.inr (Or.inl rfl)) (Store.versionsText_mem_digestTexts B))
    (mem_values_of_digest (Or.inl rfl) (Store.versionsText_mem_digestTexts A))
  peer k x y hx hy := sameVersion_of_hash hfree
    (mem_values_of_record hx hy (by simp [recordTexts]))
    (mem_values_of_record hx hy (by simp [recordTexts]))
  merged k x y hx hy := sameVersion_of_hash hfree
    (mem_values_of_record hx hy (by simp [recordTexts]))
    (mem_values_of_record hx hy (by simp [recordTexts]))

theorem merge_back (hfree : Set.InjOn sha.hex (values nfc sha A B)) {k : String}
    {a b m : SuspensionRecord} (ha : A.tierB.get k = some a) (hb : B.tierB.get k = some b)
    (hm : SameVersion nfc m (mergeSuspension nfc sha.toSha256 a b)) :
    SameVersion nfc (mergeSuspension nfc sha.toSha256 b m) m := by
  refine sameVersion_absorb (fun htie => tiebreakText_eq_iff.1 (hfree ?_ ?_ htie)) hm
  · exact mem_values_of_record ha hb (by simp [recordTexts])
  · exact mem_values_of_record ha hb (by simp [recordTexts])

theorem tells_second (hfree : Set.InjOn sha.hex (values nfc sha A B)) {A' : Store reg}
    (hA' : A' = (round nfc sha A B).1)
    (hjoin : ∀ k, Joined (SameVersion nfc) (mergeSuspension nfc sha.toSha256) (A.tierB.get k)
      (B.tierB.get k) (A'.tierB.get k)) : Tells nfc sha B A' := by
  have hcases : ∀ k b m, B.tierB.get k = some b → A'.tierB.get k = some m → SameVersion nfc m b ∨
      ∃ a, A.tierB.get k = some a ∧ SameVersion nfc m (mergeSuspension nfc sha.toSha256 a b) := by
    intro k b m hb hm
    have hj := hjoin k
    rw [hb, hm] at hj
    exact hj.of_some
  constructor
  · intro t ht
    exact hfree.mono fun x hx => hx.elim
      (fun h => mem_values_of_digest (Or.inr (Or.inr hA')) (Store.mem_digestTexts_of_table ht h))
      (fun h => mem_values_of_digest (Or.inr (Or.inl rfl)) (Store.mem_digestTexts_of_table ht h))
  · exact hfree (mem_values_of_digest (Or.inr (Or.inr hA')) (Store.versionsText_mem_digestTexts A'))
      (mem_values_of_digest (Or.inr (Or.inl rfl)) (Store.versionsText_mem_digestTexts B))
  · intro k b m hb hm hver
    rcases hcases k b m hb hm with h | ⟨a, ha, h⟩
    · exact h.symm
    · refine sameVersion_of_hash hfree (mem_values_of_record ha hb (by simp [recordTexts])) ?_ hver
      rw [versionText_eq_iff.2 h]
      exact mem_values_of_record ha hb (by simp [recordTexts])
  · intro k b m hb hm hver
    rcases hcases k b m hb hm with h | ⟨a, ha, h⟩
    · exact sameVersion_mergeSuspension h.symm
    · have hback := merge_back hfree ha hb h
      refine sameVersion_of_hash hfree ?_ (mem_values_of_record ha hb (by simp [recordTexts])) hver
      rw [versionText_eq_iff.2 (hback.trans h)]
      exact mem_values_of_record ha hb (by simp [recordTexts])

theorem noFork_second (hfork : NoFork nfc sha A B) {A' : Store reg}
    (hrows : ∀ spec ∈ reg.specs, A'.tierA spec.table =
      A.tierA spec.table ++ A.newRows nfc sha B spec) : NoFork nfc sha B A' := by
  intro spec hspec b hb a ha hkey
  rw [hrows spec hspec] at ha
  rcases List.mem_append.1 ha with ha | ha
  · exact (hfork spec hspec a ha b hb hkey.symm).symm
  · rw [List.inj_on_of_nodup_map (B.distinct spec hspec) hb (List.mem_filter.1 ha).1 hkey]

variable (nfc sha) in
/-- The version of a key-wise merge. -/
def mergedVersion : Option SuspensionRecord → Option SuspensionRecord → Option String
  | some a, some b => some (versionHash nfc sha.toSha256 (mergeSuspension nfc sha.toSha256 a b))
  | some a, none => some (versionHash nfc sha.toSha256 a)
  | none, some b => some (versionHash nfc sha.toSha256 b)
  | none, none => none

theorem versionHash_congr {x y : SuspensionRecord} (h : SameVersion nfc x y) :
    versionHash nfc sha.toSha256 x = versionHash nfc sha.toSha256 y := by
  rw [versionHash_eq, versionHash_eq, versionText_eq_iff.2 h]

theorem version_of_joined {x y z : Option SuspensionRecord}
    (h : Joined (SameVersion nfc) (mergeSuspension nfc sha.toSha256) x y z) :
    z.map (versionHash nfc sha.toSha256) = mergedVersion nfc sha x y := by
  cases x <;> cases y
  · rw [show z = none from h]
    rfl
  all_goals
    obtain ⟨w, rfl, hw⟩ := h
    exact congrArg some (versionHash_congr hw)

theorem version_of_bothHold {x y : Option SuspensionRecord} (h : BothHold (SameVersion nfc) x y) :
    x.map (versionHash nfc sha.toSha256) = y.map (versionHash nfc sha.toSha256) := by
  cases x <;> cases y
  · rfl
  · exact h.elim
  · exact h.elim
  · exact congrArg some (versionHash_congr h)

variable (nfc sha) in
/-- A series of rounds between two nodes; `true` is a pull by the first. -/
def rounds : Store reg × Store reg → List Bool →
    (Store reg × Store reg) × List (Except AeError RoundResult)
  | p, [] => (p, [])
  | (X, Y), first :: rest =>
    let out := if first then round nfc sha X Y else round nfc sha Y X
    let later := rounds (if first then (out.1, Y) else (X, out.1)) rest
    (later.1, out.2 :: later.2)

theorem rounds_of_idle {X Y : Store reg} (hXY : round nfc sha X Y = (X, .ok {}))
    (hYX : round nfc sha Y X = (Y, .ok {})) : ∀ directions : List Bool,
    rounds nfc sha (X, Y) directions = ((X, Y), directions.map fun _ => .ok {}) := by
  intro directions
  induction directions with
  | nil => rfl
  | cons first rest ih =>
    cases first
    · simp only [rounds, Bool.false_eq_true, if_false, hYX, ih, List.map_cons]
    · simp only [rounds, if_true, hXY, ih, List.map_cons]

/-- **Two rounds converge.**  After a round in each direction both nodes hold the union of the
record hashes and the key-wise merge of the versions, and every further series of rounds
leaves both stores alone and reports nothing. -/
theorem two_rounds_converge {A B : Store reg} (hfork : NoFork nfc sha A B)
    (hfree : Set.InjOn sha.hex (values nfc sha A B)) :
    ∃ A' B' ra rb, round nfc sha A B = (A', .ok ra) ∧ round nfc sha B A' = (B', .ok rb) ∧
      (∀ spec ∈ reg.specs,
        {h | h ∈ A'.hashes nfc sha.toSha256 spec} =
          {h | h ∈ A.hashes nfc sha.toSha256 spec} ∪ {h | h ∈ B.hashes nfc sha.toSha256 spec} ∧
        {h | h ∈ B'.hashes nfc sha.toSha256 spec} =
          {h | h ∈ A.hashes nfc sha.toSha256 spec} ∪ {h | h ∈ B.hashes nfc sha.toSha256 spec}) ∧
      (∀ k, (A'.versions nfc sha.toSha256).get k =
          mergedVersion nfc sha (A.tierB.get k) (B.tierB.get k) ∧
        (B'.versions nfc sha.toSha256).get k =
          mergedVersion nfc sha (A.tierB.get k) (B.tierB.get k)) ∧
      ∀ directions : List Bool,
        rounds nfc sha (A', B') directions = ((A', B'), directions.map fun _ => .ok {}) := by
  have ht := tells_first hfree
  obtain ⟨A', ra, hroundA, hrowsA, hjoinA⟩ := round_spec hfork ht
  have ht' := tells_second hfree (congrArg Prod.fst hroundA).symm hjoinA
  obtain ⟨B', rb, hroundB, hrowsB, hjoinB⟩ := round_spec (noFork_second hfork hrowsA) ht'
  have hhashA := fun spec (hspec : spec ∈ reg.specs) h => mem_hashes_of_round ht hrowsA hspec h
  have hhashB : ∀ spec ∈ reg.specs, ∀ h, h ∈ B'.hashes nfc sha.toSha256 spec ↔
      h ∈ A.hashes nfc sha.toSha256 spec ∨ h ∈ B.hashes nfc sha.toSha256 spec := by
    intro spec hspec h
    rw [mem_hashes_of_round ht' hrowsB hspec h, hhashA spec hspec h]
    tauto
  have hverA : ∀ k, (A'.versions nfc sha.toSha256).get k =
      mergedVersion nfc sha (A.tierB.get k) (B.tierB.get k) := fun k => by
    rw [Store.get_versions, version_of_joined (hjoinA k)]
  have hverAB : ∀ k, (B'.versions nfc sha.toSha256).get k = (A'.versions nfc sha.toSha256).get k := by
    intro k
    rw [Store.get_versions, Store.get_versions]
    exact version_of_bothHold (Joined.settles SameVersion.trans
      (fun h => (sameVersion_mergeSuspension h.symm).trans h.symm)
      (fun ha hb hm => merge_back hfree ha hb hm) (hjoinA k) (hjoinB k))
  have hagree : ∀ t ∈ reg.tables, ∀ x, x ∈ A'.hashesAt nfc sha t ↔ x ∈ B'.hashesAt nfc sha t := by
    intro t ht x
    obtain ⟨spec, hspec, rfl⟩ := List.mem_map.1 ht
    rw [Store.hashesAt_table hspec, Store.hashesAt_table hspec, hhashA spec hspec, hhashB spec hspec]
  refine ⟨A', B', ra, rb, hroundA, hroundB, ?_, fun k => ⟨hverA k, (hverAB k).trans (hverA k)⟩, ?_⟩
  · intro spec hspec
    exact ⟨Set.ext (hhashA spec hspec), Set.ext (hhashB spec hspec)⟩
  · exact rounds_of_idle
      (round_of_agree (fun t ht x hx => (hagree t ht x).2 hx) fun k => (hverAB k).symm)
      (round_of_agree (fun t ht x hx => (hagree t ht x).1 hx) hverAB)

end

end

/-! ### Two nodes, one ahead -/

namespace Convergence.Sample

def nfc : Nfc := ⟨id, normalize_ascii_id⟩

def agentRevocationsSpec : TierATableSpec where
  table := "agent_revocations"
  naturalKey := ["agent_id"]
  immutableColumns := ["agent_id", "epoch_id", "reason", "signature", "revoked_at"]

def registry : Registry := ⟨[agentRevocationsSpec], by decide⟩

def revocation : TableRow
  | "agent_id" => some (.str "agent-2")
  | "epoch_id" => some (.str "epoch-1")
  | "reason" => some (.str "compromise")
  | "signature" => some (.str "abcd")
  | "revoked_at" => some (.str "1785200000000")
  | _ => none

/-- The first node paused the agent after the second had cleared it. -/
def paused : SuspensionRecord where
  agentId := "agent-1"
  paused := true
  burned := false
  reason := none
  authorizedByAccount := some "account-1"
  suspensionSeq := Double.number 3
  originNode := "node-a"

def cleared : SuspensionRecord where
  agentId := "agent-1"
  paused := false
  burned := false
  reason := none
  authorizedByAccount := some "account-1"
  suspensionSeq := Double.number 2
  originNode := "node-b"

/-- A map with one entry. -/
def single {ν : Type} (v : ν) : OrdMap String ν := ⟨[("agent-1", v)], List.nodup_singleton _⟩

def storeOf (rows : List TableRow) (r : SuspensionRecord) (hr : r.agentId = "agent-1")
    (hrows : (rows.map (naturalKeyOf agentRevocationsSpec)).Nodup) : Store registry where
  tierA := fun _ => rows
  tierB := single r
  distinct := fun spec hspec => by rw [List.mem_singleton.1 hspec]; exact hrows
  keyed := fun k s hs => by
    obtain ⟨rfl, rfl⟩ := Prod.mk.inj
      (List.mem_singleton.1 ((OrdMap.get_eq_some_iff (single r) k s).1 hs))
    exact hr

def ahead : Store registry := storeOf [revocation] paused rfl (List.nodup_singleton _)

def behind : Store registry := storeOf [] cleared rfl List.nodup_nil

def emptyDigest : BitVec 256 :=
  0xe3b0c44298fc1c149afbf4c8996fb92427ae41e4649b934ca495991b7852b855

def revocationHash : BitVec 256 :=
  0xe852e5ac77fa57f5b70f1959b9a83b4f4cd2fa129e1a6c63014c40d2788765b2

def revocationBucket : BitVec 256 :=
  0x548ef70bf02e36a009442c281d19870ec67301b5a5b5bf9bf1e17594a81f289e

def pausedHash : BitVec 256 :=
  0xf1066a59de9e2c372c7915b496e451fadaffb5590338105547e569d5a8de3943

def clearedHash : BitVec 256 :=
  0x39fb78a9a5d2be1136d76cb95685ecc54fbd01fd1bd47107d0ffb3ce7aef6ca0

/-- The text under the table digest of the node that is ahead. -/
def aheadBuckets : String :=
  Text.concat ((List.range bucketCount).map fun i =>
    hexText (if i = 232 then revocationBucket else emptyDigest))

/-- The text under the digest of an empty table. -/
def behindBuckets : String :=
  Text.concat ((List.range bucketCount).map fun _ => hexText emptyDigest)

/-- The digests of all texts of the two rounds. -/
def table : List (String × BitVec 256) :=
  [("", emptyDigest),
   (hexText revocationHash, revocationBucket),
   (recordText nfc "agent_revocations"
      (agentRevocationsSpec.immutableColumns.map fun c => (c, column revocation c)), revocationHash),
   (versionText nfc paused, pausedHash),
   (versionText nfc cleared, clearedHash),
   (tiebreakText nfc paused, 0x71266f5f1910df099c6febf89d42aeaf7811fda0c5212e1c63cbd52236ef1891),
   (tiebreakText nfc cleared, 0x91451659a87e4ffa8bfcdaaea132e24db70071b6835aae81efff37a9fca48e20),
   (versionsText (single (hexText pausedHash)),
     0x0bd27b25087593536c7ff1bcbf3edf0e509ea55db3218e42578a4deb14e916a3),
   (versionsText (single (hexText clearedHash)),
     0x566c3dae5f74a025c1e91b8afd2e579cd25378f761974d716f5c241e01c0bb4f),
   (behindBuckets, 0xb043621ad25433d75343f31616b71f9f0439021a5ff72de369e33e82bd8d7583),
   (aheadBuckets, 0xf304907fbf7445608de8898df9ed939c08e8a138bd3e38c1f806c5d5870371b8)]

def sha : HexSha256 := .ofTable table emptyDigest

theorem hex_empty : sha.hex "" = hexText emptyDigest := rfl

theorem hex_texts :
    sha.hex (hexText revocationHash) = hexText revocationBucket ∧
      tierAHash nfc sha.toSha256 agentRevocationsSpec revocation = hexText revocationHash ∧
      versionHash nfc sha.toSha256 paused = hexText pausedHash ∧
      versionHash nfc sha.toSha256 cleared = hexText clearedHash := by
  refine ⟨congrArg hexText ?_, congrArg hexText ?_, congrArg hexText ?_, congrArg hexText ?_⟩
  · decide
  · decide +kernel
  · decide +kernel
  · decide +kernel

theorem hex_bucket : sha.hex (hexText revocationHash) = hexText revocationBucket := hex_texts.1

theorem hex_revocation : tierAHash nfc sha.toSha256 agentRevocationsSpec revocation =
    hexText revocationHash := hex_texts.2.1

theorem hex_paused : versionHash nfc sha.toSha256 paused = hexText pausedHash := hex_texts.2.2.1

theorem hex_cleared : versionHash nfc sha.toSha256 cleared = hexText clearedHash := hex_texts.2.2.2

theorem hashesAt_ahead : ahead.hashesAt nfc sha agentRevocationsSpec.table = [hexText revocationHash] := by
  rw [← hex_revocation]
  rfl

theorem hashesAt_behind : behind.hashesAt nfc sha agentRevocationsSpec.table = [] := rfl

theorem versions_ahead : ahead.versions nfc sha.toSha256 = single (hexText pausedHash) := by
  rw [← hex_paused]
  rfl

theorem versions_behind : behind.versions nfc sha.toSha256 = single (hexText clearedHash) := by
  rw [← hex_cleared]
  rfl

theorem get_single {ν : Type} {v w : ν} {k : String} (h : (single v).get k = some w) : w = v :=
  (Prod.mk.inj (List.mem_singleton.1 ((OrdMap.get_eq_some_iff (single v) k w).1 h))).2

theorem bucketText_singleton (h : String) (i : ℕ) :
    bucketText [h] i = if bucketIndex h = i then h else "" := by
  unfold bucketText
  by_cases hi : bucketIndex h = i
  · simp [hi, Text.concat, Text.sortBy]
  · simp [hi, Text.concat, Text.sortBy]

theorem bucketIndex_revocation : bucketIndex (hexText revocationHash) = 232 := by
  decide

theorem digestTexts_ahead {x : String}
    (hx : x ∈ digestTexts sha.toSha256 [hexText revocationHash]) :
    x = aheadBuckets ∨ x = "" ∨ x = hexText revocationHash := by
  have hbucket := fun i => bucketText_singleton (hexText revocationHash) i
  rw [bucketIndex_revocation] at hbucket
  rcases List.mem_cons.1 hx with rfl | hx
  · left
    refine congrArg Text.concat (List.map_congr_left fun i _ => ?_)
    rw [hbucket]
    by_cases hi : i = 232
    · rw [if_pos hi, if_pos hi.symm, hex_bucket]
    · rw [if_neg hi, if_neg (Ne.symm hi), hex_empty]
  · obtain ⟨i, -, rfl⟩ := List.mem_map.1 hx
    rw [hbucket]
    split_ifs <;> simp

theorem digestTexts_behind {x : String} (hx : x ∈ digestTexts sha.toSha256 []) :
    x = behindBuckets ∨ x = "" := by
  rcases List.mem_cons.1 hx with rfl | hx
  · exact Or.inl rfl
  · obtain ⟨i, -, rfl⟩ := List.mem_map.1 hx
    exact Or.inr rfl

theorem merge_cleared : mergeSuspension nfc sha.toSha256 paused cleared = paused := by
  rw [mergeSuspension_of_gt (by decide)]
  rfl

theorem noFork : NoFork nfc sha ahead behind := by
  intro spec hspec x hx y hy
  cases hy

theorem round_ahead : (round nfc sha ahead behind).1 = ahead := by
  refine round_of_behind ?_ ?_
  · intro t ht x hx
    rw [List.mem_singleton.1 ht, hashesAt_behind] at hx
    cases hx
  · intro k y hy
    obtain ⟨rfl, rfl⟩ := Prod.mk.inj
      (List.mem_singleton.1 ((OrdMap.get_eq_some_iff (single cleared) k y).1 hy))
    exact ⟨paused, rfl, by rw [merge_cleared]⟩

theorem mem_table_of_digest {s : Store registry}
    (hA : ∀ x ∈ digestTexts sha.toSha256
      (s.hashesAt nfc sha agentRevocationsSpec.table).eraseDups, x ∈ table.map Prod.fst)
    (hB : versionsText (s.versions nfc sha.toSha256) ∈ table.map Prod.fst) :
    ∀ x ∈ s.digestTexts nfc sha, x ∈ table.map Prod.fst := by
  intro x hx
  rcases List.mem_append.1 hx with hx | hx
  · obtain ⟨t, ht, hx⟩ := List.mem_flatMap.1 hx
    rw [List.mem_singleton.1 ht] at hx
    exact hA x hx
  · rw [List.mem_singleton.1 hx]
    exact hB

theorem mem_table_of_ahead : ∀ x ∈ ahead.digestTexts nfc sha, x ∈ table.map Prod.fst := by
  refine mem_table_of_digest ?_ ?_
  · rw [hashesAt_ahead]
    intro x hx
    rcases digestTexts_ahead hx with rfl | rfl | rfl <;> simp [table]
  · rw [versions_ahead]
    simp [table]

theorem mem_table_of_behind : ∀ x ∈ behind.digestTexts nfc sha, x ∈ table.map Prod.fst := by
  refine mem_table_of_digest ?_ ?_
  · rw [hashesAt_behind]
    intro x hx
    rcases digestTexts_behind hx with rfl | rfl <;> simp [table]
  · rw [versions_behind]
    simp [table]

theorem collisionFree : Set.InjOn sha.hex (values nfc sha ahead behind) := by
  refine (HexSha256.ofTable_injOn (by decide)).mono ?_
  rintro x (⟨s, hs, hx⟩ | ⟨k, a, b, ha, hb, hx⟩)
  · rw [round_ahead] at hs
    rcases hs with rfl | rfl | rfl
    · exact mem_table_of_ahead x hx
    · exact mem_table_of_behind x hx
    · exact mem_table_of_ahead x hx
  · obtain rfl := get_single ha
    obtain rfl := get_single hb
    rw [recordTexts, merge_cleared] at hx
    simp only [List.mem_cons, List.not_mem_nil, or_false] at hx
    rcases hx with rfl | rfl | rfl | rfl | rfl <;> simp [table]

end Convergence.Sample

open Convergence.Sample in
/-- The second node ends with the revocation and with the pause. -/
theorem two_rounds_bring_the_second_node_up : ∃ B' rb,
    round nfc sha behind (round nfc sha ahead behind).1 = (B', .ok rb) ∧
      tierAHash nfc sha.toSha256 agentRevocationsSpec revocation ∈
        B'.hashes nfc sha.toSha256 agentRevocationsSpec ∧
      (B'.versions nfc sha.toSha256).get "agent-1" =
        some (versionHash nfc sha.toSha256 paused) ∧
      rounds nfc sha (ahead, B') [true, false, true] =
        ((ahead, B'), [.ok {}, .ok {}, .ok {}]) := by
  obtain ⟨A', B', ra, rb, hA, hB, hhash, hver, hidle⟩ :=
    two_rounds_converge (A := ahead) (B := behind) noFork collisionFree
  obtain rfl : A' = ahead := by rw [← round_ahead, hA]
  refine ⟨B', rb, by rw [round_ahead, hB], ?_, ?_, hidle _⟩
  · have hmem := (hhash agentRevocationsSpec (List.mem_singleton_self _)).2
    exact hmem.symm.subset (Or.inl (List.mem_singleton_self _))
  · rw [(hver "agent-1").2, ← merge_cleared]
    rfl

end Cello.Directory.AntiEntropy
