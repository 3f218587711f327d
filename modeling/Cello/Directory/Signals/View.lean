import Cello.Directory.Signals.Evidence
import Cello.Directory.Signals.Records

/-!
# What the view says

`signal_records_effective` in terms of the evidence that the tables hold: a signal is `revoked` where it is
withdrawn, else `superseded` where a record replaces it or its row is marked (`effectiveStatus_congr`).
-/

namespace Cello.Directory.Signals

def SignalRecord.notarization (r : SignalRecord) : Notarization String String where
  hash := r.signalHash
  institutional := decide (r.issuerKind ≠ .agent)
  key := r.issuerPubkey
  supersedes := r.supersedesHash

namespace SignalTables

def evidence (t : SignalTables) : Evidence String String where
  notarized := {x | ∃ r ∈ t.records, r.isTombstone = false ∧ r.notarization = x}
  withdrawals := {w | w ∈ t.tomb}
  marked := {h | ∃ r ∈ t.records, r.signalHash = h ∧ r.status = .superseded}

def Listed (t : SignalTables) (hash : String) : Prop := ∃ r ∈ t.records, r.signalHash = hash

/-- No writer sets a record to `revoked`, and a tombstone replaces nothing. -/
structure Regular (t : SignalTables) : Prop where
  status : ∀ r ∈ t.records, r.isTombstone = false → r.status ≠ .revoked
  tombstone : ∀ r ∈ t.records, r.isTombstone = true → r.supersedesHash = none

variable {t u : SignalTables} {hash : String}

theorem mem_realRows {r : SignalRecord} :
    r ∈ t.realRows hash ↔ r ∈ t.records ∧ r.signalHash = hash ∧ r.isTombstone = false := by
  simp [realRows]

theorem mem_tomb {e : String × Option String} : e ∈ t.tomb ↔
    (∃ v ∈ t.revocations, (v.signalHash, some v.revokerPubkey) = e) ∨
      ∃ r ∈ t.records, r.isTombstone = true ∧ (r.signalHash, r.revokerPubkey) = e := by
  simp only [tomb, List.mem_append, List.mem_map, List.mem_filter, and_assoc]

theorem minIssuerKind_institutional {rows : List SignalRecord} (hne : rows ≠ []) :
    (minIssuerKind rows = some .portal ∨ minIssuerKind rows = some .directory) ↔
      ∀ r ∈ rows, r.issuerKind ≠ .agent := by
  unfold minIssuerKind
  split
  next hagent =>
    obtain ⟨r, hr, hkind⟩ := List.any_eq_true.1 hagent
    simp only [Option.some.injEq, reduceCtorEq, or_self, false_iff]
    exact fun hall => hall r hr (of_decide_eq_true hkind)
  next hagent =>
    have hnone : ∀ r ∈ rows, r.issuerKind ≠ .agent := fun r hr hkind =>
      hagent (List.any_eq_true.2 ⟨r, hr, decide_eq_true hkind⟩)
    refine iff_of_true ?_ hnone
    split
    · exact .inr rfl
    next hdirectory =>
      obtain ⟨r, hr⟩ := List.exists_mem_of_ne_nil rows hne
      rw [if_pos]
      · exact .inl rfl
      · refine List.any_eq_true.2 ⟨r, hr, decide_eq_true ?_⟩
        cases hkind : r.issuerKind with
        | portal => rfl
        | directory => exact absurd (List.any_eq_true.2 ⟨r, hr, decide_eq_true hkind⟩) hdirectory
        | agent => exact absurd hkind (hnone r hr)

theorem institutional_iff :
    t.evidence.Institutional hash ↔ ∀ r ∈ t.realRows hash, r.issuerKind ≠ .agent := by
  constructor
  · intro h r hr
    obtain ⟨hmem, hhash, hreal⟩ := mem_realRows.1 hr
    exact of_decide_eq_true (h r.notarization ⟨r, hmem, hreal, rfl⟩ hhash)
  · rintro h x ⟨r, hr, hreal, rfl⟩ hhash
    exact decide_eq_true (h r (mem_realRows.2 ⟨hr, hhash, hreal⟩))

theorem tombed_iff : t.evidence.Tombed hash ↔
    (t.tomb.filter fun e => decide (e.1 = hash)) ≠ [] := by
  constructor
  · rintro ⟨w, hw⟩ hnil
    have hmem : (hash, w) ∈ t.tomb.filter fun e => decide (e.1 = hash) :=
      List.mem_filter.2 ⟨hw, decide_eq_true rfl⟩
    rw [hnil] at hmem
    cases hmem
  · intro hne
    obtain ⟨⟨e, w⟩, he⟩ := List.exists_mem_of_ne_nil _ hne
    obtain ⟨hmem, hhash⟩ := List.mem_filter.1 he
    obtain rfl : e = hash := of_decide_eq_true hhash
    exact ⟨w, hmem⟩

theorem exactPubkey_iff : ((t.tomb.filter fun e => decide (e.1 = hash)).any fun e =>
      e.2.any fun revoker => (t.realRows hash).any fun r => decide (r.issuerPubkey = revoker)) = true ↔
    ∃ x ∈ t.evidence.notarized, x.hash = hash ∧ (hash, some x.key) ∈ t.evidence.withdrawals := by
  rw [List.any_eq_true]
  constructor
  · rintro ⟨⟨e, w⟩, he, hany⟩
    obtain ⟨hmem, hhash⟩ := List.mem_filter.1 he
    obtain rfl : e = hash := of_decide_eq_true hhash
    obtain ⟨revoker, rfl, hany⟩ := (Option.any_eq_true _ _).1 hany
    obtain ⟨r, hr, hkey⟩ := List.any_eq_true.1 hany
    obtain rfl : r.issuerPubkey = revoker := of_decide_eq_true hkey
    obtain ⟨hrmem, hrhash, hreal⟩ := mem_realRows.1 hr
    exact ⟨r.notarization, ⟨r, hrmem, hreal, rfl⟩, hrhash, hmem⟩
  · rintro ⟨x, ⟨r, hr, hreal, rfl⟩, hhash, hmem⟩
    refine ⟨(hash, some r.issuerPubkey), List.mem_filter.2 ⟨hmem, decide_eq_true rfl⟩, ?_⟩
    exact (Option.any_eq_true _ _).2 ⟨_, rfl, List.any_eq_true.2
      ⟨r, mem_realRows.2 ⟨hr, hhash, hreal⟩, decide_eq_true rfl⟩⟩

theorem isRevoked_iff (h : t.Regular) : t.isRevoked hash = true ↔ t.evidence.Withdrawn hash := by
  have hstatus : ((t.realRows hash).any fun r => decide (r.status = .revoked)) = false := by
    refine List.any_eq_false.2 fun r hr hrevoked => ?_
    obtain ⟨hmem, -, hreal⟩ := mem_realRows.1 hr
    exact h.status r hmem hreal (of_decide_eq_true hrevoked)
  unfold isRevoked Evidence.Withdrawn
  rw [tombed_iff, institutional_iff, ← exactPubkey_iff]
  dsimp only
  rw [hstatus]
  by_cases htomb : (t.tomb.filter fun e => decide (e.1 = hash)) = []
  · rw [htomb]
    simp
  · by_cases hreal : t.realRows hash = []
    · rw [hreal]
      simp [htomb]
    · have hmin := minIssuerKind_institutional hreal
      simp only [Bool.and_eq_true, Bool.or_eq_true, decide_eq_true_eq, hmin, List.isEmpty_iff, hreal,
        htomb, Bool.not_eq_true', List.isEmpty_eq_false_iff, ne_eq, not_false_eq_true, true_and,
        false_and, if_false, Bool.false_eq_true]
      split
      next hi => exact iff_of_true rfl (.inl hi)
      next hi => exact ⟨.inr, fun hor => hor.resolve_left hi⟩

theorem superseded_iff (h : t.Regular) : (t.records.any fun s =>
      decide (s.supersedesHash = some hash) && !t.isRevoked s.signalHash) = true ↔
    t.evidence.Superseded hash := by
  rw [List.any_eq_true]
  constructor
  · rintro ⟨s, hs, hand⟩
    rw [Bool.and_eq_true, decide_eq_true_eq, Bool.not_eq_true'] at hand
    have hreal : s.isTombstone = false := Bool.eq_false_iff.2 fun htomb => by
      rw [h.tombstone s hs htomb] at hand
      cases hand.1
    refine ⟨s.notarization, ⟨s, hs, hreal, rfl⟩, hand.1, fun hwithdrawn => ?_⟩
    rw [show t.isRevoked s.signalHash = true from (isRevoked_iff h).2 hwithdrawn] at hand
    cases hand.2
  · rintro ⟨x, ⟨s, hs, -, rfl⟩, hnames, hnot⟩
    refine ⟨s, hs, ?_⟩
    rw [Bool.and_eq_true, decide_eq_true_eq, Bool.not_eq_true', Bool.eq_false_iff]
    exact ⟨hnames, fun hrevoked => hnot ((isRevoked_iff h).1 hrevoked)⟩

theorem marked_iff : (t.records.any fun r =>
      decide (r.signalHash = hash) && decide (r.status = .superseded)) = true ↔
    hash ∈ t.evidence.marked := by
  rw [List.any_eq_true]
  simp only [Bool.and_eq_true, decide_eq_true_eq]
  rfl

theorem listed_iff : (t.records.any fun r => decide (r.signalHash = hash)) = true ↔ t.Listed hash := by
  rw [List.any_eq_true]
  simp only [decide_eq_true_eq]
  rfl

theorem effectiveStatus_listed (h : t.Regular) (hlisted : t.Listed hash) :
    (t.evidence.Withdrawn hash ∧ t.effectiveStatus hash = some .revoked) ∨
    (¬t.evidence.Withdrawn hash ∧ (t.evidence.Superseded hash ∨ hash ∈ t.evidence.marked) ∧
      t.effectiveStatus hash = some .superseded) ∨
    (¬t.evidence.Withdrawn hash ∧ ¬(t.evidence.Superseded hash ∨ hash ∈ t.evidence.marked) ∧
      t.effectiveStatus hash = some .active) := by
  rw [effectiveStatus, if_pos (listed_iff.2 hlisted), ← isRevoked_iff h, ← superseded_iff h, ← marked_iff]
  by_cases hrevoked : t.isRevoked hash = true
  · exact .inl ⟨hrevoked, congrArg some (if_pos hrevoked)⟩
  · refine .inr ?_
    rw [if_neg hrevoked]
    by_cases hsuperseded : (t.records.any fun s =>
        decide (s.supersedesHash = some hash) && !t.isRevoked s.signalHash) = true
    · exact .inl ⟨hrevoked, .inl hsuperseded, congrArg some (if_pos hsuperseded)⟩
    · rw [if_neg hsuperseded]
      by_cases hmarked : (t.records.any fun r =>
          decide (r.signalHash = hash) && decide (r.status = .superseded)) = true
      · exact .inl ⟨hrevoked, .inr hmarked, congrArg some (if_pos hmarked)⟩
      · exact .inr ⟨hrevoked, fun hor => hor.elim hsuperseded hmarked, congrArg some (if_neg hmarked)⟩

theorem effectiveStatus_none (hnot : ¬t.Listed hash) : t.effectiveStatus hash = none := by
  rw [effectiveStatus, if_neg fun hany => hnot (listed_iff.1 hany)]

theorem listed_of_effectiveStatus {st : EffectiveStatus} (h : t.effectiveStatus hash = some st) :
    t.Listed hash := by
  by_contra hnot
  rw [effectiveStatus_none hnot] at h
  cases h

theorem effectiveStatus_eq_revoked (h : t.Regular) (hlisted : t.Listed hash) :
    t.effectiveStatus hash = some .revoked ↔ t.evidence.Withdrawn hash := by
  rcases effectiveStatus_listed h hlisted with ⟨hw, heq⟩ | ⟨hw, -, heq⟩ | ⟨hw, -, heq⟩ <;> rw [heq]
  · exact iff_of_true rfl hw
  · exact iff_of_false (by decide) hw
  · exact iff_of_false (by decide) hw

theorem effectiveStatus_eq_superseded (h : t.Regular) (hlisted : t.Listed hash) :
    t.effectiveStatus hash = some .superseded ↔
      ¬t.evidence.Withdrawn hash ∧ (t.evidence.Superseded hash ∨ hash ∈ t.evidence.marked) := by
  rcases effectiveStatus_listed h hlisted with ⟨hw, heq⟩ | ⟨hw, hs, heq⟩ | ⟨hw, hs, heq⟩ <;> rw [heq]
  · exact iff_of_false (by decide) fun hand => hand.1 hw
  · exact iff_of_true rfl ⟨hw, hs⟩
  · exact iff_of_false (by decide) fun hand => hs hand.2

theorem effectiveStatus_eq_iff (ht : t.Regular) (hu : u.Regular) (hlt : t.Listed hash)
    (hlu : u.Listed hash) : t.effectiveStatus hash = u.effectiveStatus hash ↔
      (t.evidence.Withdrawn hash ↔ u.evidence.Withdrawn hash) ∧
        (¬t.evidence.Withdrawn hash → ¬u.evidence.Withdrawn hash →
          (t.evidence.Superseded hash ∨ hash ∈ t.evidence.marked ↔
            u.evidence.Superseded hash ∨ hash ∈ u.evidence.marked)) := by
  have hsup := effectiveStatus_eq_superseded ht hlt
  have hsup' := effectiveStatus_eq_superseded hu hlu
  constructor
  · intro heq
    refine ⟨?_, fun hw hw' => ?_⟩
    · rw [← effectiveStatus_eq_revoked ht hlt, ← effectiveStatus_eq_revoked hu hlu, heq]
    · rw [heq, hsup'] at hsup
      exact ⟨fun hs => (hsup.2 ⟨hw, hs⟩).2, fun hs => (hsup.1 ⟨hw', hs⟩).2⟩
  · rintro ⟨hwithdrawn, hsuperseded⟩
    rcases effectiveStatus_listed ht hlt with ⟨hw, heq⟩ | ⟨hw, hs, heq⟩ | ⟨hw, hs, heq⟩
    · rw [heq, (effectiveStatus_eq_revoked hu hlu).2 (hwithdrawn.1 hw)]
    · have hw' := mt hwithdrawn.2 hw
      rw [heq, hsup'.2 ⟨hw', (hsuperseded hw hw').1 hs⟩]
    · have hw' := mt hwithdrawn.2 hw
      rcases effectiveStatus_listed hu hlu with ⟨hwu, -⟩ | ⟨-, hsu, -⟩ | ⟨-, -, hequ⟩
      · exact absurd hwu hw'
      · exact absurd ((hsuperseded hw hw').2 hsu) hs
      · rw [heq, hequ]

end SignalTables

end Cello.Directory.Signals
