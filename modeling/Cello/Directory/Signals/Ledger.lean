import Cello.Directory.Signals.View
import Cello.Directory.Signals.Write

/-!
# What a request adds

One accepted request at one node, in terms of evidence.  A submission that is new notarizes its record and
marks the node's own row of the predecessor; a revocation adds who withdrew the signal.
-/

namespace Cello.Directory.Signals

open Lib

def AcceptedSubmit.notarization (a : AcceptedSubmit) : Notarization String String where
  hash := a.signalHash
  institutional := decide (a.envelope.issuerKind ≠ .agent)
  key := a.envelope.issuerPubkey
  supersedes := a.supersedes

namespace SignalTables

/-- **Tombstones and records are told apart by the name of their row**, and by their status. -/
structure Sound (t : SignalTables) : Prop where
  record : ∀ r ∈ t.records, ∀ id, r.acceptingNode = .node id → r.isTombstone = false ∧ r.status ≠ .revoked
  tombstone : ∀ r ∈ t.records, ∀ id, r.acceptingNode = .revoke id →
    r.isTombstone = true ∧ r.status = .revoked ∧ r.supersedesHash = none

variable {t t' : SignalTables} {hash : String} {node : String} {r : SignalRecord}

theorem Sound.node_of_real (h : t.Sound) (hr : r ∈ t.records) (hreal : r.isTombstone = false) :
    ∃ id, r.acceptingNode = .node id := by
  cases hnode : r.acceptingNode with
  | node id => exact ⟨id, rfl⟩
  | revoke id =>
    rw [(h.tombstone r hr id hnode).1] at hreal
    cases hreal

theorem Sound.revoke_of_tombstone (h : t.Sound) (hr : r ∈ t.records) (htomb : r.isTombstone = true) :
    ∃ id, r.acceptingNode = .revoke id := by
  cases hnode : r.acceptingNode with
  | node id =>
    rw [(h.record r hr id hnode).1] at htomb
    cases htomb
  | revoke id => exact ⟨id, rfl⟩

theorem Sound.regular (h : t.Sound) : t.Regular := by
  refine ⟨fun r hr hreal => ?_, fun r hr htomb => ?_⟩
  · obtain ⟨id, hnode⟩ := h.node_of_real hr hreal
    exact (h.record r hr id hnode).2
  · obtain ⟨id, hnode⟩ := h.revoke_of_tombstone hr htomb
    exact (h.tombstone r hr id hnode).2.2

theorem sound_empty : ({} : SignalTables).Sound :=
  ⟨fun _ hr => absurd hr List.not_mem_nil, fun _ hr => absurd hr List.not_mem_nil⟩

theorem hasRecord_iff {n : AcceptingNode} : t.hasRecord hash n = true ↔
    ∃ r ∈ t.records, r.signalHash = hash ∧ r.acceptingNode = n := by
  rw [hasRecord, List.any_eq_true]
  simp only [decide_eq_true_eq]

theorem hasRevocation_iff {revoker : String} : t.hasRevocation hash revoker = true ↔
    ∃ v ∈ t.revocations, v.signalHash = hash ∧ v.revokerPubkey = revoker := by
  rw [hasRevocation, List.any_eq_true]
  simp only [decide_eq_true_eq]

theorem insertRecord_of_hasRecord (h : t.hasRecord r.signalHash r.acceptingNode = true) :
    t.insertRecord r = (t, false) := if_pos h

theorem insertRecord_of_new (h : ¬t.hasRecord r.signalHash r.acceptingNode = true) :
    t.insertRecord r = ({ t with records := t.records ++ [r] }, true) := if_neg h

/-! ### The mark -/

theorem mem_markSuperseded {n : AcceptingNode} :
    r ∈ (t.markSuperseded hash n).records ↔ ∃ r₀ ∈ t.records,
      (if r₀.signalHash = hash ∧ r₀.acceptingNode = n ∧ r₀.status = .active then
        { r₀ with status := .superseded } else r₀) = r := by
  rw [markSuperseded, List.mem_map]

theorem markSuperseded_cases {n : AcceptingNode} (h : r ∈ (t.markSuperseded hash n).records) :
    ∃ r₀ ∈ t.records, r = { r₀ with status := r.status } ∧
      (r.status = r₀.status ∨
        (r.status = .superseded ∧ r₀.signalHash = hash ∧ r₀.acceptingNode = n ∧ r₀.status = .active)) := by
  obtain ⟨r₀, hr₀, rfl⟩ := mem_markSuperseded.1 h
  split
  next hif => exact ⟨r₀, hr₀, rfl, .inr ⟨rfl, hif⟩⟩
  · exact ⟨r₀, hr₀, rfl, .inl rfl⟩

theorem markSuperseded_of_mem {r₀ : SignalRecord} (n : AcceptingNode) (h : r₀ ∈ t.records) :
    ∃ r ∈ (t.markSuperseded hash n).records, r = { r₀ with status := r.status } ∧
      (r₀.status = .superseded → r.status = .superseded) ∧
      (r₀.signalHash = hash → r₀.acceptingNode = n → r₀.status ≠ .revoked → r.status = .superseded) := by
  refine ⟨_, mem_markSuperseded.2 ⟨r₀, h, rfl⟩, ?_⟩
  split
  · exact ⟨rfl, fun _ => rfl, fun _ _ _ => rfl⟩
  next hnot =>
    refine ⟨rfl, id, fun hhash hnode hrevoked => ?_⟩
    cases hstatus : r₀.status with
    | active => exact absurd ⟨hhash, hnode, hstatus⟩ hnot
    | revoked => exact absurd hstatus hrevoked
    | superseded => rfl

/-- **What the update does to the evidence**: it marks the node's own row. -/
theorem evidence_markSuperseded (h : t.Sound) : (t.markSuperseded hash (.node node)).evidence =
    { t.evidence with marked := t.evidence.marked ∪ {x | x = hash ∧ t.hasRecord hash (.node node) = true} } := by
  have hnotarized : (t.markSuperseded hash (.node node)).evidence.notarized = t.evidence.notarized := by
    refine Set.ext fun x => ⟨?_, ?_⟩
    · rintro ⟨r, hr, hreal, rfl⟩
      obtain ⟨r₀, hr₀, heq, -⟩ := markSuperseded_cases hr
      rw [heq] at hreal ⊢
      exact ⟨r₀, hr₀, hreal, rfl⟩
    · rintro ⟨r₀, hr₀, hreal, rfl⟩
      obtain ⟨r, hr, heq, -⟩ := markSuperseded_of_mem (.node node) hr₀
      refine ⟨r, hr, ?_, ?_⟩ <;> rw [heq]
      · exact hreal
      · rfl
  have hwithdrawals : (t.markSuperseded hash (.node node)).evidence.withdrawals = t.evidence.withdrawals := by
    refine Set.ext fun e => ?_
    show e ∈ (t.markSuperseded hash (.node node)).tomb ↔ e ∈ t.tomb
    rw [mem_tomb, mem_tomb]
    refine or_congr Iff.rfl ⟨?_, ?_⟩
    · rintro ⟨r, hr, htomb, rfl⟩
      obtain ⟨r₀, hr₀, heq, -⟩ := markSuperseded_cases hr
      rw [heq] at htomb ⊢
      exact ⟨r₀, hr₀, htomb, rfl⟩
    · rintro ⟨r₀, hr₀, htomb, rfl⟩
      obtain ⟨r, hr, heq, -⟩ := markSuperseded_of_mem (.node node) hr₀
      refine ⟨r, hr, ?_, ?_⟩ <;> rw [heq]
      exact htomb
  have hmarked : (t.markSuperseded hash (.node node)).evidence.marked =
      t.evidence.marked ∪ {x | x = hash ∧ t.hasRecord hash (.node node) = true} := by
    refine Set.ext fun x => ⟨?_, ?_⟩
    · rintro ⟨r, hr, rfl, hstatus⟩
      obtain ⟨r₀, hr₀, heq, hsame | ⟨-, hhash, hnode, -⟩⟩ := markSuperseded_cases hr
      · rw [heq]
        exact .inl ⟨r₀, hr₀, rfl, hsame ▸ hstatus⟩
      · rw [heq]
        exact .inr ⟨hhash, hasRecord_iff.2 ⟨r₀, hr₀, hhash, hnode⟩⟩
    · rintro (⟨r₀, hr₀, rfl, hstatus⟩ | ⟨rfl, hhas⟩)
      · obtain ⟨r, hr, heq, hkeep, -⟩ := markSuperseded_of_mem (.node node) hr₀
        exact ⟨r, hr, by rw [heq], hkeep hstatus⟩
      · obtain ⟨r₀, hr₀, hhash, hnode⟩ := hasRecord_iff.1 hhas
        obtain ⟨r, hr, heq, -, hset⟩ := markSuperseded_of_mem (.node node) hr₀
        exact ⟨r, hr, by rw [heq, hhash], hset hhash hnode (h.record r₀ hr₀ node hnode).2⟩
  exact Evidence.ext hnotarized hwithdrawals hmarked

theorem Sound.markSuperseded (h : t.Sound) : (t.markSuperseded hash (.node node)).Sound := by
  refine ⟨fun r hr id hnode => ?_, fun r hr id hnode => ?_⟩
  · obtain ⟨r₀, hr₀, heq, hstatus⟩ := markSuperseded_cases hr
    have hnode₀ : r₀.acceptingNode = .node id := by
      rw [heq] at hnode
      exact hnode
    obtain ⟨hreal, hne⟩ := h.record r₀ hr₀ id hnode₀
    refine ⟨by rw [heq]; exact hreal, ?_⟩
    rcases hstatus with hsame | ⟨hsuperseded, -⟩
    · exact hsame ▸ hne
    · rw [hsuperseded]
      decide
  · obtain ⟨r₀, hr₀, heq, hstatus⟩ := markSuperseded_cases hr
    have hnode₀ : r₀.acceptingNode = .revoke id := by
      rw [heq] at hnode
      exact hnode
    obtain ⟨htomb, hrevoked, hnone⟩ := h.tombstone r₀ hr₀ id hnode₀
    refine ⟨by rw [heq]; exact htomb, ?_, by rw [heq]; exact hnone⟩
    rcases hstatus with hsame | ⟨-, -, -, hactive⟩
    · rw [hsame]
      exact hrevoked
    · rw [hrevoked] at hactive
      cases hactive

/-! ### New rows -/

theorem exists_append_singleton {rows : List SignalRecord} {p : SignalRecord → Prop} :
    (∃ s ∈ rows ++ [r], p s) ↔ (∃ s ∈ rows, p s) ∨ p r := by
  constructor
  · rintro ⟨s, hs, hp⟩
    rcases List.mem_append.1 hs with hs | hs
    · exact .inl ⟨s, hs, hp⟩
    · exact .inr (List.mem_singleton.1 hs ▸ hp)
  · rintro (⟨s, hs, hp⟩ | hp)
    · exact ⟨s, List.mem_append_left _ hs, hp⟩
    · exact ⟨r, List.mem_append_right _ List.mem_cons_self, hp⟩

theorem evidence_insertRecord (hreal : r.isTombstone = false) (hstatus : r.status = .active) :
    ({ t with records := t.records ++ [r] } : SignalTables).evidence =
      { t.evidence with notarized := insert r.notarization t.evidence.notarized } := by
  refine Evidence.ext (Set.ext fun x => ?_) (Set.ext fun e => ?_) (Set.ext fun x => ?_)
  · refine exists_append_singleton.trans (or_comm.trans (or_congr ?_ Iff.rfl))
    exact ⟨fun h => h.2.symm, fun h => ⟨hreal, h.symm⟩⟩
  · show e ∈ SignalTables.tomb _ ↔ e ∈ t.tomb
    rw [mem_tomb, mem_tomb]
    refine or_congr Iff.rfl (exists_append_singleton.trans (or_iff_left fun h => ?_))
    exact Bool.false_ne_true (hreal.symm.trans h.1)
  · refine exists_append_singleton.trans (or_iff_left fun h => ?_)
    cases hstatus.symm.trans h.2

theorem evidence_insertTombstone (htomb : r.isTombstone = true) (hstatus : r.status = .revoked) :
    ({ t with records := t.records ++ [r] } : SignalTables).evidence =
      { t.evidence with withdrawals := insert (r.signalHash, r.revokerPubkey) t.evidence.withdrawals } := by
  refine Evidence.ext (Set.ext fun x => ?_) (Set.ext fun e => ?_) (Set.ext fun x => ?_)
  · refine exists_append_singleton.trans (or_iff_left fun h => ?_)
    exact Bool.false_ne_true (h.1.symm.trans htomb)
  · show e ∈ SignalTables.tomb _ ↔ e = (r.signalHash, r.revokerPubkey) ∨ e ∈ t.tomb
    rw [mem_tomb, mem_tomb]
    refine (or_congr Iff.rfl exists_append_singleton).trans ?_
    rw [← or_assoc, or_comm]
    exact or_congr ⟨fun h => h.2.symm, fun h => ⟨htomb, h.symm⟩⟩ Iff.rfl
  · refine exists_append_singleton.trans (or_iff_left fun h => ?_)
    cases hstatus.symm.trans h.2

theorem evidence_insertRevocation (t : SignalTables) (v : SignalRevocation) :
    (t.insertRevocation v).evidence = { t.evidence with
      withdrawals := insert (v.signalHash, some v.revokerPubkey) t.evidence.withdrawals } := by
  unfold insertRevocation
  split
  next hhas =>
    obtain ⟨w, hw, hhash, hrevoker⟩ := hasRevocation_iff.1 hhas
    have hmem : (v.signalHash, some v.revokerPubkey) ∈ t.evidence.withdrawals :=
      mem_tomb.2 (.inl ⟨w, hw, by rw [hhash, hrevoker]⟩)
    rw [Set.insert_eq_of_mem hmem]
  · refine Evidence.ext rfl (Set.ext fun e => ?_) rfl
    show e ∈ SignalTables.tomb _ ↔ e = (v.signalHash, some v.revokerPubkey) ∨ e ∈ t.tomb
    rw [mem_tomb, mem_tomb]
    simp only [List.mem_append, List.mem_singleton, or_and_right, exists_or, exists_eq_left]
    rw [or_comm (a := ∃ w ∈ t.revocations, _), or_assoc, eq_comm]

theorem Sound.insertRecord (h : t.Sound) {id : String} (hnode : r.acceptingNode = .node id)
    (hreal : r.isTombstone = false) (hstatus : r.status ≠ .revoked) :
    (t.insertRecord r).1.Sound := by
  unfold SignalTables.insertRecord
  split
  · exact h
  · refine ⟨fun s hs i hi => ?_, fun s hs i hi => ?_⟩ <;>
      rcases List.mem_append.1 hs with hs | hs
    · exact h.record s hs i hi
    · rw [List.mem_singleton.1 hs]
      exact ⟨hreal, hstatus⟩
    · exact h.tombstone s hs i hi
    · rw [List.mem_singleton.1 hs, hnode] at hi
      cases hi

theorem Sound.insertTombstone (h : t.Sound) {id : String} (hnode : r.acceptingNode = .revoke id)
    (htomb : r.isTombstone = true) (hstatus : r.status = .revoked) (hnone : r.supersedesHash = none) :
    (t.insertRecord r).1.Sound := by
  unfold SignalTables.insertRecord
  split
  · exact h
  · refine ⟨fun s hs i hi => ?_, fun s hs i hi => ?_⟩ <;>
      rcases List.mem_append.1 hs with hs | hs
    · exact h.record s hs i hi
    · rw [List.mem_singleton.1 hs, hnode] at hi
      cases hi
    · exact h.tombstone s hs i hi
    · rw [List.mem_singleton.1 hs]
      exact ⟨htomb, hstatus, hnone⟩

theorem Sound.insertRevocation (h : t.Sound) (v : SignalRevocation) : (t.insertRevocation v).Sound := by
  unfold SignalTables.insertRevocation
  split
  · exact h
  · exact ⟨h.record, h.tombstone⟩

end SignalTables

/-! ### One request -/

variable {t : SignalTables} {node : String}

theorem AcceptedSubmit.record_status (a : AcceptedSubmit) : (a.record node).status ≠ .revoked := by
  intro h
  cases h

theorem AcceptedSubmit.store_sound (a : AcceptedSubmit) (h : t.Sound) : (a.store node t).1.Sound := by
  have hinsert : (t.insertRecord (a.record node)).1.Sound := h.insertRecord rfl rfl a.record_status
  unfold AcceptedSubmit.store
  generalize t.insertRecord (a.record node) = result at hinsert ⊢
  obtain ⟨t', inserted⟩ := result
  cases inserted with
  | false => exact hinsert
  | true =>
    cases a.supersedes with
    | none => exact hinsert
    | some oldHash => exact SignalTables.Sound.markSuperseded hinsert

theorem AcceptedRevoke.store_sound (a : AcceptedRevoke) (h : t.Sound) : (a.store node t).1.Sound := by
  have hinsert : (t.insertRecord (a.tombstone node)).1.Sound := h.insertTombstone rfl rfl rfl rfl
  unfold AcceptedRevoke.store
  cases a.revoker with
  | none => exact hinsert
  | some revoker => exact SignalTables.Sound.insertRevocation hinsert _

theorem AcceptedSubmit.store_known (a : AcceptedSubmit) (h : t.hasRecord a.signalHash (.node node) = true) :
    (a.store node t).1 = t := by
  have hinsert : t.insertRecord (a.record node) = (t, false) := SignalTables.insertRecord_of_hasRecord h
  unfold AcceptedSubmit.store
  rw [hinsert]

/-- **A new submission**: its record, and the mark on the node's own row of the predecessor. -/
theorem AcceptedSubmit.store_new (a : AcceptedSubmit) (hsound : t.Sound)
    (h : ¬t.hasRecord a.signalHash (.node node) = true) : (a.store node t).1.evidence =
      { t.evidence with
        notarized := insert a.notarization t.evidence.notarized
        marked := t.evidence.marked ∪ {x | a.supersedes = some x ∧
          (t.hasRecord x (.node node) = true ∨ x = a.signalHash)} } := by
  have hinsert : t.insertRecord (a.record node) =
      ({ t with records := t.records ++ [a.record node] }, true) := SignalTables.insertRecord_of_new h
  have hnew : ({ t with records := t.records ++ [a.record node] } : SignalTables).evidence =
      { t.evidence with notarized := insert a.notarization t.evidence.notarized } :=
    SignalTables.evidence_insertRecord rfl rfl
  have hsound' : ({ t with records := t.records ++ [a.record node] } : SignalTables).Sound := by
    have hs : (t.insertRecord (a.record node)).1.Sound := hsound.insertRecord rfl rfl a.record_status
    rw [hinsert] at hs
    exact hs
  unfold AcceptedSubmit.store
  rw [hinsert]
  cases hsupersedes : a.supersedes with
  | none =>
    dsimp only
    rw [hnew]
    refine Evidence.ext rfl rfl ?_
    simp
  | some oldHash =>
    dsimp only
    rw [SignalTables.evidence_markSuperseded hsound', hnew]
    refine Evidence.ext rfl rfl (Set.ext fun x => or_congr Iff.rfl ?_)
    show x = oldHash ∧ _ ↔ some oldHash = some x ∧ _
    rw [Option.some.injEq, eq_comm]
    refine and_congr_right fun heq => ?_
    subst heq
    rw [SignalTables.hasRecord, List.any_append, Bool.or_eq_true, List.any_cons, List.any_nil,
      Bool.or_false, decide_eq_true_eq]
    exact or_congr Iff.rfl ⟨fun h => h.1.symm, fun h => ⟨h.symm, rfl⟩⟩

/-! ### Which rows there are -/

theorem hasRecord_insertRecord (r : SignalRecord) (x : String) (n : AcceptingNode) :
    (t.insertRecord r).1.hasRecord x n = true ↔
      t.hasRecord x n = true ∨ (x = r.signalHash ∧ n = r.acceptingNode) := by
  unfold SignalTables.insertRecord
  split
  next hhas =>
    refine ⟨.inl, ?_⟩
    rintro (h | ⟨rfl, rfl⟩)
    · exact h
    · exact hhas
  · show (t.records ++ [r]).any _ = true ↔ _
    rw [List.any_append, Bool.or_eq_true, List.any_cons, List.any_nil, Bool.or_false, decide_eq_true_eq]
    exact or_congr Iff.rfl (and_congr eq_comm eq_comm)

theorem hasRecord_markSuperseded (hash x : String) (m n : AcceptingNode) :
    (t.markSuperseded hash m).hasRecord x n = t.hasRecord x n := by
  show (t.records.map _).any _ = t.records.any _
  rw [List.any_map]
  refine congrArg (fun p => t.records.any p) (funext fun r => ?_)
  dsimp only [Function.comp]
  split <;> rfl

theorem AcceptedSubmit.hasRecord_store (a : AcceptedSubmit) (x : String) (n : AcceptingNode) :
    (a.store node t).1.hasRecord x n = true ↔
      t.hasRecord x n = true ∨ (x = a.signalHash ∧ n = .node node) := by
  refine Iff.trans ?_ (hasRecord_insertRecord (a.record node) x n)
  unfold AcceptedSubmit.store
  generalize t.insertRecord (a.record node) = result
  obtain ⟨t', inserted⟩ := result
  cases inserted with
  | false => exact Iff.rfl
  | true =>
    cases a.supersedes with
    | none => exact Iff.rfl
    | some oldHash =>
      show (t'.markSuperseded oldHash (.node node)).hasRecord x n = true ↔ _
      rw [hasRecord_markSuperseded]

theorem AcceptedRevoke.hasRecord_store (a : AcceptedRevoke) (x : String) (n : AcceptingNode) :
    (a.store node t).1.hasRecord x n = true ↔
      t.hasRecord x n = true ∨ (x = a.signalHash ∧ n = .revoke node) := by
  refine Iff.trans ?_ (hasRecord_insertRecord (a.tombstone node) x n)
  unfold AcceptedRevoke.store
  generalize t.insertRecord (a.tombstone node) = result
  obtain ⟨t', inserted⟩ := result
  cases a.revoker with
  | none => exact Iff.rfl
  | some revoker =>
    show (t'.insertRevocation _).hasRecord x n = true ↔ t'.hasRecord x n = true
    unfold SignalTables.insertRevocation
    split <;> exact Iff.rfl

/-! ### Revocations -/

/-- **A revocation**: the signal has been withdrawn, by the key of the revoker if it is known. -/
structure Revoked (a : AcceptedRevoke) (E F : Evidence String String) : Prop where
  notarized : F.notarized = E.notarized
  marked : F.marked = E.marked
  tombed : ∀ x, F.Tombed x ↔ E.Tombed x ∨ x = a.signalHash
  key : ∀ x k, (x, some k) ∈ F.withdrawals ↔
    (x, some k) ∈ E.withdrawals ∨ (x = a.signalHash ∧ a.revoker.map Prod.fst = some k)

theorem AcceptedRevoke.tombstone_evidence (a : AcceptedRevoke) (node : String) (h : t.Sound) :
    ((t.insertRecord (a.tombstone node)).1.evidence = t.evidence ∧ t.evidence.Tombed a.signalHash) ∨
      (t.insertRecord (a.tombstone node)).1.evidence = { t.evidence with
        withdrawals := insert (a.signalHash, a.revoker.map Prod.fst) t.evidence.withdrawals } := by
  by_cases hhas : t.hasRecord a.signalHash (.revoke node) = true
  · have hinsert : t.insertRecord (a.tombstone node) = (t, false) :=
      SignalTables.insertRecord_of_hasRecord hhas
    obtain ⟨r, hr, hhash, hnode⟩ := SignalTables.hasRecord_iff.1 hhas
    refine .inl ⟨by rw [hinsert], r.revokerPubkey, ?_⟩
    rw [← hhash]
    exact SignalTables.mem_tomb.2 (.inr ⟨r, hr, (h.tombstone r hr node hnode).1, rfl⟩)
  · have hinsert : t.insertRecord (a.tombstone node) =
        ({ t with records := t.records ++ [a.tombstone node] }, true) := SignalTables.insertRecord_of_new hhas
    rw [hinsert]
    exact .inr (SignalTables.evidence_insertTombstone rfl rfl)

theorem AcceptedRevoke.store_evidence (a : AcceptedRevoke) (node : String) (h : t.Sound) :
    Revoked a t.evidence (a.store node t).1.evidence := by
  have htombstone := a.tombstone_evidence node h
  unfold AcceptedRevoke.store
  generalize t.insertRecord (a.tombstone node) = result at htombstone ⊢
  obtain ⟨t', inserted⟩ := result
  cases hrevoker : a.revoker with
  | none =>
    rw [hrevoker] at htombstone
    dsimp only [Option.map_none] at htombstone ⊢
    rcases htombstone with ⟨heq, htombed⟩ | heq <;> rw [heq]
    · refine ⟨rfl, rfl, fun x => ⟨.inl, ?_⟩, fun x k => ⟨.inl, ?_⟩⟩
      · rintro (hx | rfl)
        · exact hx
        · exact htombed
      · rintro (hx | ⟨-, hk⟩)
        · exact hx
        · rw [hrevoker] at hk
          cases hk
    · refine ⟨rfl, rfl, fun x => ⟨?_, ?_⟩, fun x k => ⟨?_, ?_⟩⟩
      · rintro ⟨w, hw | hw⟩
        · exact .inr (Prod.mk.inj hw).1
        · exact .inl ⟨w, hw⟩
      · rintro (⟨w, hw⟩ | rfl)
        · exact ⟨w, .inr hw⟩
        · exact ⟨none, .inl rfl⟩
      · rintro (hx | hx)
        · cases (Prod.mk.inj hx).2
        · exact .inl hx
      · rintro (hx | ⟨-, hk⟩)
        · exact .inr hx
        · rw [hrevoker] at hk
          cases hk
  | some revoker =>
    obtain ⟨p, signature⟩ := revoker
    rw [hrevoker] at htombstone
    dsimp only [Option.map_some] at htombstone ⊢
    rw [SignalTables.evidence_insertRevocation]
    have hwithdrawals : insert (a.signalHash, some p) t'.evidence.withdrawals =
        insert (a.signalHash, some p) t.evidence.withdrawals := by
      rcases htombstone with ⟨heq, -⟩ | heq <;> rw [heq]
      exact Set.insert_eq_of_mem (Set.mem_insert _ _)
    have hrest : t'.evidence.notarized = t.evidence.notarized ∧ t'.evidence.marked = t.evidence.marked := by
      rcases htombstone with ⟨heq, -⟩ | heq <;> rw [heq] <;> exact ⟨rfl, rfl⟩
    refine ⟨hrest.1, hrest.2, fun x => ?_, fun x k => ?_⟩
    · unfold Evidence.Tombed
      dsimp only
      rw [hwithdrawals]
      constructor
      · rintro ⟨w, hw | hw⟩
        · exact .inr (Prod.mk.inj hw).1
        · exact .inl ⟨w, hw⟩
      · rintro (⟨w, hw⟩ | rfl)
        · exact ⟨w, .inr hw⟩
        · exact ⟨some p, .inl rfl⟩
    · dsimp only
      rw [hwithdrawals, hrevoker, Option.map_some]
      constructor
      · rintro (hx | hx)
        · obtain ⟨rfl, hk⟩ := Prod.mk.inj hx
          exact .inr ⟨rfl, hk.symm⟩
        · exact .inl hx
      · rintro (hx | ⟨rfl, hk⟩)
        · exact .inr hx
        · exact .inl (Prod.ext rfl hk.symm)

end Cello.Directory.Signals
