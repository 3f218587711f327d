import Cello.Directory.Signals.Federation

/-!
# Where a row comes from

Whatever nodes exchange, a node's own rows and its marks are its own history, and what has arrived was accepted
elsewhere (`Grounded`, `grounded_federation`).  So the evidence of a node is put together of what nodes have
accepted.
-/

namespace Cello.Directory.Signals

open Lib AntiEntropy

/-! ### First submissions -/

def FirstIn (H : List Accepted) (a : AcceptedSubmit) : Prop :=
  ∃ pre post, H = pre ++ .submit a :: post ∧ NewAfter pre a

theorem FirstIn.mem {H : List Accepted} {a : AcceptedSubmit} (h : FirstIn H a) : .submit a ∈ H := by
  obtain ⟨pre, post, rfl, -⟩ := h
  exact List.mem_append_right _ List.mem_cons_self

theorem FirstIn.append {H : List Accepted} {a : AcceptedSubmit} (h : FirstIn H a) (z : Accepted) :
    FirstIn (H ++ [z]) a := by
  obtain ⟨pre, post, rfl, hnew⟩ := h
  exact ⟨pre, post ++ [z], by rw [List.append_assoc, List.cons_append], hnew⟩

theorem firstIn_append_new {H : List Accepted} {a : AcceptedSubmit} (h : ¬SubmittedIn H a.signalHash) :
    FirstIn (H ++ [.submit a]) a := ⟨H, [], rfl, h⟩

/-! ### Rows that are stored -/

section

variable {node : String}

theorem AcceptedSubmit.rows_store (a : AcceptedSubmit) (node : String) (t : SignalTables) :
    (a.store node t).1.revocations = t.revocations ∧
    ∀ r ∈ (a.store node t).1.records, (∃ r₀ ∈ t.records, r = { r₀ with status := r.status }) ∨
      (t.hasRecord a.signalHash (.node node) = false ∧ r = { a.record node with status := r.status }) := by
  by_cases hhas : t.hasRecord a.signalHash (.node node) = true
  · rw [a.store_known hhas]
    exact ⟨rfl, fun r hr => .inl ⟨r, hr, rfl⟩⟩
  · have hinsert : t.insertRecord (a.record node) =
        ({ t with records := t.records ++ [a.record node] }, true) := SignalTables.insertRecord_of_new hhas
    have hrows : ∀ r ∈ t.records ++ [a.record node], ∀ st : RecordStatus,
        (∃ r₀ ∈ t.records, { r with status := st } = { r₀ with status := st }) ∨
          (t.hasRecord a.signalHash (.node node) = false ∧
            { r with status := st } = { a.record node with status := st }) := by
      intro r hr st
      rcases List.mem_append.1 hr with hr | hr
      · exact .inl ⟨r, hr, rfl⟩
      · rw [List.mem_singleton.1 hr]
        exact .inr ⟨Bool.eq_false_iff.2 hhas, rfl⟩
    unfold AcceptedSubmit.store
    rw [hinsert]
    cases a.supersedes with
    | none => exact ⟨rfl, fun r hr => hrows r hr r.status⟩
    | some oldHash =>
      refine ⟨rfl, fun r hr => ?_⟩
      obtain ⟨r₀, hr₀, heq, -⟩ := SignalTables.markSuperseded_cases hr
      have h := hrows r₀ hr₀ r.status
      rw [← heq] at h
      exact h

theorem AcceptedRevoke.rows_store (a : AcceptedRevoke) (node : String) (t : SignalTables) :
    (∀ r ∈ (a.store node t).1.records, r ∈ t.records ∨ r = a.tombstone node) ∧
    (∀ v ∈ (a.store node t).1.revocations, v ∈ t.revocations ∨
      (v.signalHash = a.signalHash ∧ a.revoker = some (v.revokerPubkey, v.revokerSignature))) ∧
    ∀ x p, (a.store node t).1.hasRevocation x p = true ↔
      t.hasRevocation x p = true ∨ (x = a.signalHash ∧ a.revoker.map Prod.fst = some p) := by
  have hinsert : (t.insertRecord (a.tombstone node)).1.revocations = t.revocations ∧
      ∀ r ∈ (t.insertRecord (a.tombstone node)).1.records, r ∈ t.records ∨ r = a.tombstone node := by
    unfold SignalTables.insertRecord
    split
    · exact ⟨rfl, fun r hr => .inl hr⟩
    · exact ⟨rfl, fun r hr => (List.mem_append.1 hr).imp_right List.mem_singleton.1⟩
  unfold AcceptedRevoke.store
  generalize t.insertRecord (a.tombstone node) = result at hinsert ⊢
  obtain ⟨t', inserted⟩ := result
  have hhas : ∀ x p, t'.hasRevocation x p = t.hasRevocation x p := by
    intro x p
    unfold SignalTables.hasRevocation
    rw [hinsert.1]
  cases hrevoker : a.revoker with
  | none =>
    refine ⟨hinsert.2, fun v hv => .inl (hinsert.1 ▸ hv), fun x p => ?_⟩
    rw [Option.map_none]
    refine (iff_of_eq (congrArg (· = true) (hhas x p))).trans (or_iff_left ?_).symm
    rintro ⟨-, h⟩
    cases h
  | some revoker =>
    obtain ⟨p, signature⟩ := revoker
    obtain ⟨hrecords, hmem, hiff⟩ :=
      SignalTables.mem_applyRevocations [⟨a.signalHash, p, signature⟩] t'
    refine ⟨fun r hr => hinsert.2 r (hrecords ▸ hr), fun v hv => ?_, fun x k => ?_⟩
    · rcases hmem v hv with hv' | hv'
      · exact .inl (hinsert.1 ▸ hv')
      · rw [List.mem_singleton.1 hv']
        exact .inr ⟨rfl, rfl⟩
    · refine (hiff x k).trans (or_congr (iff_of_eq (congrArg (· = true) (hhas x k))) ?_)
      simp only [List.mem_singleton, exists_eq_left, Option.map_some, Option.some.injEq]
      exact and_congr_left' eq_comm

end

/-! ### Whatever is exchanged, a node's own rows are its own history -/

variable {H : List (String × Accepted)} {node peer k : String} {env : SignalExternals} {nfc : Nfc} {sha : Sha256}

theorem own_append (H : List (String × Accepted)) (k : String) (a : Accepted) (node : String) :
    own (H ++ [(k, a)]) node = own H node ++ if k = node then [a] else [] := by
  rw [own, List.filterMap_append]
  refine congrArg (own H node ++ ·) ?_
  by_cases h : k = node
  · simp [h]
  · simp [h]

theorem own_append_self (H : List (String × Accepted)) (node : String) (a : Accepted) :
    own (H ++ [(node, a)]) node = own H node ++ [a] := by
  rw [own_append, if_pos rfl]

theorem own_append_other (H : List (String × Accepted)) (a : Accepted) (h : k ≠ node) :
    own (H ++ [(k, a)]) node = own H node := by
  rw [own_append, if_neg h, List.append_nil]

theorem mem_own {a : Accepted} : a ∈ own H node ↔ (node, a) ∈ H := by
  constructor
  · intro h
    obtain ⟨e, he, heq⟩ := List.mem_filterMap.1 h
    obtain ⟨hnode, ha⟩ := Option.ite_none_right_eq_some.1 heq
    obtain rfl := Option.some.inj ha
    exact hnode ▸ he
  · intro h
    exact List.mem_filterMap.2 ⟨(node, a), h, if_pos rfl⟩

theorem FirstIn.grow {a : AcceptedSubmit} (h : FirstIn (own H node) a) (z : String × Accepted) :
    FirstIn (own (H ++ [z]) node) a := by
  by_cases hz : z.1 = node
  · subst hz
    rw [own_append_self H z.1 z.2]
    exact h.append z.2
  · rw [own_append_other H z.2 hz]
    exact h

/-- **The tables of a node rest on the history of all**: its own rows and its marks are its own history, and
what has arrived was accepted elsewhere. -/
structure Grounded (H : List (String × Accepted)) (node : String) (t : SignalTables) : Prop where
  sound : t.Sound
  has : ∀ x, t.hasRecord x (.node node) = true ↔ SubmittedIn (own H node) x
  hasTombstone : ∀ x, t.hasRecord x (.revoke node) = true ↔
    ∃ v, .revoke v ∈ own H node ∧ v.signalHash = x
  marked : t.evidence.marked = (historyEvidence (own H node)).marked
  record : ∀ r ∈ t.records, ∀ k, r.acceptingNode = .node k →
    ∃ a, FirstIn (own H k) a ∧ r = { a.record k with status := r.status }
  tombstone : ∀ r ∈ t.records, ∀ k, r.acceptingNode = .revoke k →
    ∃ v, .revoke v ∈ own H node ∧ r = v.tombstone node
  revocation : ∀ w ∈ t.revocations, ∃ k v, (k, .revoke v) ∈ H ∧ v.signalHash = w.signalHash ∧
    v.revoker = some (w.revokerPubkey, w.revokerSignature)
  hasRevocation : ∀ v p, .revoke v ∈ own H node → v.revoker.map Prod.fst = some p →
    t.hasRevocation v.signalHash p = true

variable {t mine theirs : SignalTables}

theorem grounded_empty (node : String) : Grounded [] node {} := by
  have h := holds_empty node
  refine ⟨h.sound, h.has, fun x => ?_, h.marked, fun r hr => ?_, fun r hr => ?_, fun w hw => ?_, fun v p hv => ?_⟩
  · refine iff_of_false Bool.false_ne_true ?_
    rintro ⟨v, hv, -⟩
    cases hv
  · cases hr
  · cases hr
  · cases hw
  · cases hv

theorem Grounded.grow (h : Grounded H node t) (a : Accepted) (hk : k ≠ node) :
    Grounded (H ++ [(k, a)]) node t := by
  have hown := own_append_other H a hk
  refine ⟨h.sound, hown ▸ h.has, hown ▸ h.hasTombstone, hown ▸ h.marked, fun r hr j hj => ?_,
    hown ▸ h.tombstone, fun w hw => ?_, hown ▸ h.hasRevocation⟩
  · obtain ⟨b, hb, heq⟩ := h.record r hr j hj
    exact ⟨b, hb.grow _, heq⟩
  · obtain ⟨j, v, hv, hrow⟩ := h.revocation w hw
    exact ⟨j, v, List.mem_append_left _ hv, hrow⟩

theorem Grounded.store (h : Grounded H node t) (a : Accepted) :
    Grounded (H ++ [(node, a)]) node (a.store node t) := by
  have hown := own_append_self H node a
  have hlast : (node, a) ∈ H ++ [(node, a)] := List.mem_append_right _ List.mem_cons_self
  cases a with
  | submit a =>
    obtain ⟨hrevocations, hrows⟩ := a.rows_store node t
    have hsound : (a.store node t).1.Sound := a.store_sound h.sound
    show Grounded _ node (a.store node t).1
    refine ⟨hsound, fun x => ?_, fun x => ?_, ?_, fun r hr k hk => ?_, fun r hr k hk => ?_, fun w hw => ?_,
      fun v p hv hp => ?_⟩
    · rw [a.hasRecord_store, h.has, hown, submittedIn_append_submit]
      exact or_congr Iff.rfl (and_iff_left rfl)
    · rw [a.hasRecord_store, h.hasTombstone, hown]
      simp
    · rw [hown]
      by_cases hknown : SubmittedIn (own H node) a.signalHash
      · rw [a.store_known ((h.has _).2 hknown), historyEvidence_submit_known hknown]
        exact h.marked
      · rw [a.store_new h.sound (mt (h.has _).1 hknown), historyEvidence_submit_new hknown, h.marked]
        simp only [h.has]
    · rcases hrows r hr with ⟨r₀, hr₀, heq⟩ | ⟨hnew, heq⟩
      · have hk₀ : r₀.acceptingNode = .node k := by
          rw [heq] at hk
          exact hk
        obtain ⟨b, hb, hb₀⟩ := h.record r₀ hr₀ k hk₀
        refine ⟨b, hb.grow _, ?_⟩
        rw [heq, hb₀]
      · have hk₀ : node = k := by
          rw [heq] at hk
          exact AcceptingNode.node.inj hk
        subst hk₀
        refine ⟨a, ?_, heq⟩
        rw [hown]
        exact firstIn_append_new (mt (h.has _).2 (Bool.eq_false_iff.1 hnew))
    · rcases hrows r hr with ⟨r₀, hr₀, heq⟩ | ⟨-, heq⟩
      · have hk₀ : r₀.acceptingNode = .revoke k := by
          rw [heq] at hk
          exact hk
        obtain ⟨v, hv, hrow⟩ := h.tombstone r₀ hr₀ k hk₀
        refine ⟨v, hown ▸ List.mem_append_left _ hv, ?_⟩
        have hstatus : r.status = r₀.status := by
          rw [(hsound.tombstone r hr k hk).2.1, (h.sound.tombstone r₀ hr₀ k hk₀).2.1]
        rw [heq, hstatus]
        exact hrow
      · rw [heq] at hk
        cases hk
    · rw [hrevocations] at hw
      obtain ⟨j, v, hv, hrow⟩ := h.revocation w hw
      exact ⟨j, v, List.mem_append_left _ hv, hrow⟩
    · rw [hown] at hv
      rcases List.mem_append.1 hv with hv | hv
      · have hhas := h.hasRevocation v p hv hp
        unfold SignalTables.hasRevocation at hhas ⊢
        rw [hrevocations]
        exact hhas
      · cases List.mem_singleton.1 hv
  | revoke a =>
    obtain ⟨hrows, hrevocations, hhas⟩ := a.rows_store node t
    have hevidence := a.store_evidence node h.sound
    show Grounded _ node (a.store node t).1
    refine ⟨a.store_sound h.sound, fun x => ?_, fun x => ?_, ?_, fun r hr k hk => ?_, fun r hr k hk => ?_,
      fun w hw => ?_, fun v p hv hp => ?_⟩
    · rw [a.hasRecord_store, h.has, hown, submittedIn_append_revoke]
      simp
    · rw [a.hasRecord_store, h.hasTombstone, hown]
      constructor
      · rintro (⟨v, hv, hx⟩ | ⟨rfl, -⟩)
        · exact ⟨v, List.mem_append_left _ hv, hx⟩
        · exact ⟨a, List.mem_append_right _ List.mem_cons_self, rfl⟩
      · rintro ⟨v, hv, rfl⟩
        rcases List.mem_append.1 hv with hv | hv
        · exact .inl ⟨v, hv, rfl⟩
        · obtain rfl := Accepted.revoke.inj (List.mem_singleton.1 hv)
          exact .inr ⟨rfl, rfl⟩
    · rw [hevidence.marked, h.marked, hown, historyEvidence_revoke]
    · rcases hrows r hr with hr | rfl
      · obtain ⟨b, hb, heq⟩ := h.record r hr k hk
        exact ⟨b, hb.grow _, heq⟩
      · cases hk
    · rcases hrows r hr with hr | rfl
      · obtain ⟨v, hv, hrow⟩ := h.tombstone r hr k hk
        exact ⟨v, hown ▸ List.mem_append_left _ hv, hrow⟩
      · exact ⟨a, hown ▸ List.mem_append_right _ List.mem_cons_self, rfl⟩
    · rcases hrevocations w hw with hw | ⟨hhash, hrevoker⟩
      · obtain ⟨j, v, hv, hrow⟩ := h.revocation w hw
        exact ⟨j, v, List.mem_append_left _ hv, hrow⟩
      · exact ⟨node, a, hlast, hhash.symm, hrevoker⟩
    · rw [hown] at hv
      rw [hhas]
      rcases List.mem_append.1 hv with hv | hv
      · exact .inl (h.hasRevocation v p hv hp)
      · obtain rfl := Accepted.revoke.inj (List.mem_singleton.1 hv)
        exact .inr ⟨rfl, hp⟩

theorem Grounded.pull (h : Grounded H node mine) (hpeer : Grounded H peer theirs) (table : SignalTable)
    (served : String → Bool) : Grounded H node (pull nfc sha mine theirs table served) := by
  cases table with
  | records =>
    have happlied := SignalTables.applied (mine.missingRecords nfc sha theirs served) mine
    have hwire : ∀ s ∈ mine.missingRecords nfc sha theirs served, ∃ k a, s.acceptingNode = .node k ∧
        FirstIn (own H k) a ∧ s.arrived = a.record k := by
      intro s hs
      obtain ⟨hs, hreal⟩ := List.mem_filter.1 (List.mem_of_mem_filter hs)
      obtain ⟨k, hk⟩ := hpeer.sound.node_of_real hs ((Bool.not_eq_true' s.isTombstone).mp hreal)
      obtain ⟨a, ha, heq⟩ := hpeer.record s hs k hk
      refine ⟨k, a, hk, ha, ?_⟩
      rw [heq]
      rfl
    show Grounded H node (mine.applyRecords _)
    generalize mine.applyRecords (mine.missingRecords nfc sha theirs served) = t' at happlied ⊢
    have hrows : ∀ r ∈ t'.records, r ∈ mine.records ∨
        ∃ k a, FirstIn (own H k) a ∧ r = a.record k := by
      intro r hr
      rcases happlied.origin r hr with hr | ⟨s, hs, rfl⟩
      · exact .inl hr
      · obtain ⟨k, a, -, ha, heq⟩ := hwire s hs
        exact .inr ⟨k, a, ha, heq⟩
    refine ⟨⟨fun r hr k hk => ?_, fun r hr k hk => ?_⟩, fun x => ?_, fun x => ?_, ?_, fun r hr k hk => ?_,
      fun r hr k hk => ?_, fun w hw => ?_, fun v p hv hp => ?_⟩
    · rcases hrows r hr with hr | ⟨j, a, -, rfl⟩
      · exact h.sound.record r hr k hk
      · exact ⟨rfl, a.record_status⟩
    · rcases hrows r hr with hr | ⟨j, a, -, rfl⟩
      · exact h.sound.tombstone r hr k hk
      · cases hk
    · rw [happlied.has, h.has]
      refine or_iff_left_of_imp ?_
      rintro ⟨s, hs, rfl, hk⟩
      obtain ⟨k, a, hnode, ha, heq⟩ := hwire s hs
      rw [hnode] at hk
      obtain rfl := AcceptingNode.node.inj hk
      exact ⟨a, ha.mem, (congrArg SignalRecord.signalHash heq).symm⟩
    · rw [happlied.has, h.hasTombstone]
      refine or_iff_left_of_imp ?_
      rintro ⟨s, hs, rfl, hk⟩
      obtain ⟨k, a, hnode, -⟩ := hwire s hs
      rw [hnode] at hk
      cases hk
    · rw [← h.marked]
      refine Set.ext fun x => ⟨?_, ?_⟩
      · rintro ⟨r, hr, rfl, hstatus⟩
        rcases hrows r hr with hr | ⟨k, a, -, rfl⟩
        · exact ⟨r, hr, rfl, hstatus⟩
        · cases hstatus
      · rintro ⟨r, hr, rfl, hstatus⟩
        exact ⟨r, happlied.kept r hr, rfl, hstatus⟩
    · rcases hrows r hr with hr | ⟨j, a, ha, rfl⟩
      · exact h.record r hr k hk
      · obtain rfl := AcceptingNode.node.inj hk
        exact ⟨a, ha, rfl⟩
    · rcases hrows r hr with hr | ⟨j, a, -, rfl⟩
      · exact h.tombstone r hr k hk
      · cases hk
    · rw [happlied.revocations] at hw
      exact h.revocation w hw
    · have hhas := h.hasRevocation v p hv hp
      unfold SignalTables.hasRevocation at hhas ⊢
      rw [happlied.revocations]
      exact hhas
  | revocations =>
    obtain ⟨hrecords, hmem, hhas⟩ :=
      SignalTables.mem_applyRevocations (mine.missingRevocations nfc sha theirs served) mine
    show Grounded H node (mine.applyRevocations _)
    generalize mine.applyRevocations (mine.missingRevocations nfc sha theirs served) = t'
      at hrecords hmem hhas ⊢
    have hrow : ∀ x n, t'.hasRecord x n = mine.hasRecord x n := by
      intro x n
      unfold SignalTables.hasRecord
      rw [hrecords]
    refine ⟨⟨hrecords ▸ h.sound.record, hrecords ▸ h.sound.tombstone⟩, fun x => ?_, fun x => ?_, ?_,
      hrecords ▸ h.record, hrecords ▸ h.tombstone, fun w hw => ?_, fun v p hv hp => ?_⟩
    · rw [hrow]
      exact h.has x
    · rw [hrow]
      exact h.hasTombstone x
    · rw [← h.marked]
      show {x | ∃ r ∈ t'.records, _} = _
      rw [hrecords]
      rfl
    · rcases hmem w hw with hw | hw
      · exact h.revocation w hw
      · exact hpeer.revocation w (List.mem_of_mem_filter hw)
    · rw [hhas]
      exact .inl (h.hasRevocation v p hv hp)

theorem federationHistory_append (events : List FederationEvent) (e : FederationEvent) :
    federationHistory env (events ++ [e]) = federationHistory env events ++ (e.accepted env).toList := by
  rw [federationHistory, List.filterMap_append]
  cases h : e.accepted env <;> simp [federationHistory, h]

/-- **Any history of requests and rounds.** -/
theorem grounded_federation (nfc : Nfc) (sha : Sha256) (env : SignalExternals)
    (events : List FederationEvent) (node : String) :
    Grounded (federationHistory env events) node (federationAfter nfc sha env events node) := by
  induction events using List.reverseRecOn generalizing node with
  | nil => exact grounded_empty node
  | append_singleton events e ih =>
    have hstep : federationAfter nfc sha env (events ++ [e]) =
        e.step nfc sha env (federationAfter nfc sha env events) := List.foldl_append
    rw [hstep, federationHistory_append]
    cases e with
    | request k r =>
      have haccepted : FederationEvent.accepted env (.request k r) = (r.accepted env).map fun a => (k, a) := rfl
      rw [haccepted]
      by_cases hk : k = node
      · subst hk
        rw [FederationEvent.step, Function.update_self, SignalRequest.handle_eq]
        cases r.accepted env with
        | none =>
          rw [Option.map_none, Option.toList_none, List.append_nil]
          exact ih k
        | some a => exact (ih k).store a
      · rw [FederationEvent.step, Function.update_of_ne (Ne.symm hk)]
        cases r.accepted env with
        | none =>
          rw [Option.map_none, Option.toList_none, List.append_nil]
          exact ih node
        | some a => exact (ih node).grow a hk
    | round k peer table served =>
      have haccepted : FederationEvent.accepted env (.round k peer table served) = none := rfl
      rw [haccepted, Option.toList_none, List.append_nil]
      by_cases hk : k = node
      · subst hk
        rw [FederationEvent.step, Function.update_self]
        exact (ih k).pull (ih peer) table served
      · rw [FederationEvent.step, Function.update_of_ne (Ne.symm hk)]
        exact ih node

theorem federationHistory_wellFormed {events : List FederationEvent} {e : String × Accepted}
    (h : e ∈ federationHistory env events) : e.2.WellFormed env := by
  obtain ⟨event, -, haccepted⟩ := List.mem_filterMap.1 h
  cases event with
  | request node r =>
    obtain ⟨a, ha, rfl⟩ := Option.map_eq_some_iff.1 haccepted
    exact r.wellFormed ha
  | round node peer table served => cases haccepted

/-! ### The evidence of a node -/

def Accepted.SameEnvelope : Accepted → Accepted → Prop
  | .submit a, .submit b => a.signalHash = b.signalHash → a.envelope = b.envelope
  | _, _ => True

instance (a b : Accepted) : Decidable (a.SameEnvelope b) :=
  match a, b with
  | .submit a, .submit b => inferInstanceAs (Decidable (a.signalHash = b.signalHash → a.envelope = b.envelope))
  | .submit _, .revoke _ => isTrue trivial
  | .revoke _, .submit _ => isTrue trivial
  | .revoke _, .revoke _ => isTrue trivial

/-- The hash of an envelope has no collision. -/
def EnvelopeHashInjective (H : List (String × Accepted)) : Prop := ∀ e ∈ H, ∀ f ∈ H, e.2.SameEnvelope f.2

instance (H : List (String × Accepted)) : Decidable (EnvelopeHashInjective H) :=
  inferInstanceAs (Decidable (∀ e ∈ H, ∀ f ∈ H, e.2.SameEnvelope f.2))

theorem EnvelopeHashInjective.notarization_eq (h : EnvelopeHashInjective H) {j k : String}
    {a b : AcceptedSubmit} (ha : (j, .submit a) ∈ H) (hb : (k, .submit b) ∈ H)
    (hhash : a.signalHash = b.signalHash) : a.notarization = b.notarization := by
  have henvelope : a.envelope = b.envelope := h _ ha _ hb hhash
  unfold AcceptedSubmit.notarization AcceptedSubmit.supersedes
  rw [hhash, henvelope]

theorem Grounded.record_of_mem (h : Grounded H node t) {r : SignalRecord} (hr : r ∈ t.records)
    (hreal : r.isTombstone = false) : ∃ k a, FirstIn (own H k) a ∧ r = { a.record k with status := r.status } := by
  obtain ⟨k, hk⟩ := h.sound.node_of_real hr hreal
  obtain ⟨a, ha, heq⟩ := h.record r hr k hk
  exact ⟨k, a, ha, heq⟩

theorem Grounded.notarized_origin (h : Grounded H node t) {x : Notarization String String}
    (hx : x ∈ t.evidence.notarized) : ∃ k a, (k, .submit a) ∈ H ∧ a.notarization = x := by
  obtain ⟨r, hr, hreal, rfl⟩ := hx
  obtain ⟨k, a, ha, heq⟩ := h.record_of_mem hr hreal
  refine ⟨k, a, mem_own.1 ha.mem, ?_⟩
  rw [heq]
  rfl

theorem Grounded.known_of_submitted (h : Grounded H node t) {x : String} (hx : SubmittedIn (own H node) x) :
    t.evidence.Known x := by
  obtain ⟨r, hr, hhash, hnode⟩ := SignalTables.hasRecord_iff.1 ((h.has x).2 hx)
  exact ⟨r.notarization, ⟨r, hr, (h.sound.record r hr node hnode).1, rfl⟩, hhash⟩

theorem Grounded.key_iff (h : Grounded H node t) {x p : String} :
    (x, some p) ∈ t.evidence.withdrawals ↔ t.hasRevocation x p = true := by
  rw [SignalTables.hasRevocation_iff]
  refine SignalTables.mem_tomb.trans ⟨?_, ?_⟩
  · rintro (⟨w, hw, heq⟩ | ⟨r, hr, htomb, heq⟩)
    · obtain ⟨hx, hp⟩ := Prod.mk.inj heq
      exact ⟨w, hw, hx, Option.some.inj hp⟩
    · obtain ⟨hx, hp⟩ := Prod.mk.inj heq
      obtain ⟨k, hk⟩ := h.sound.revoke_of_tombstone hr htomb
      obtain ⟨v, hv, rfl⟩ := h.tombstone r hr k hk
      rw [← hx]
      exact SignalTables.hasRevocation_iff.1 (h.hasRevocation v p hv hp)
  · rintro ⟨w, hw, rfl, rfl⟩
    exact .inl ⟨w, hw, rfl⟩

theorem Grounded.tombed_iff (h : Grounded H node t) {x : String} : t.evidence.Tombed x ↔
    (∃ p, t.hasRevocation x p = true) ∨ ∃ v, .revoke v ∈ own H node ∧ v.signalHash = x := by
  constructor
  · rintro ⟨w, hw⟩
    rcases SignalTables.mem_tomb.1 hw with ⟨v, hv, heq⟩ | ⟨r, hr, htomb, heq⟩
    · obtain ⟨rfl, -⟩ := Prod.mk.inj heq
      exact .inl ⟨v.revokerPubkey, SignalTables.hasRevocation_iff.2 ⟨v, hv, rfl, rfl⟩⟩
    · obtain ⟨rfl, -⟩ := Prod.mk.inj heq
      obtain ⟨k, hk⟩ := h.sound.revoke_of_tombstone hr htomb
      obtain ⟨v, hv, rfl⟩ := h.tombstone r hr k hk
      exact .inr ⟨v, hv, rfl⟩
  · rintro (⟨p, hp⟩ | hv)
    · exact ⟨some p, h.key_iff.2 hp⟩
    · obtain ⟨r, hr, rfl, hnode⟩ := SignalTables.hasRecord_iff.1 ((h.hasTombstone x).2 hv)
      exact ⟨r.revokerPubkey, SignalTables.mem_tomb.2
        (.inr ⟨r, hr, (h.sound.tombstone r hr node hnode).1, rfl⟩)⟩

theorem Grounded.revocation_origin (h : Grounded H node t) {x p : String} (hx : t.hasRevocation x p = true) :
    ∃ k v, (k, .revoke v) ∈ H ∧ v.signalHash = x ∧ v.revoker.map Prod.fst = some p := by
  obtain ⟨w, hw, rfl, rfl⟩ := SignalTables.hasRevocation_iff.1 hx
  obtain ⟨k, v, hv, hhash, hrevoker⟩ := h.revocation w hw
  refine ⟨k, v, hv, hhash, ?_⟩
  rw [hrevoker]
  rfl

def Whole (env : SignalExternals) (H : List (String × Accepted)) : Prop := ∀ e ∈ H, e.2.WellFormed env

theorem whole_federation (env : SignalExternals) (events : List FederationEvent) :
    Whole env (federationHistory env events) := fun _ he => federationHistory_wellFormed he

/-! ### What the advertised hashes tell -/

section

variable (nfc : Nfc)

/-- The texts of the rows that nodes may advertise. -/
def wireTexts (H : List (String × Accepted)) : Set String :=
  {τ | ∃ k a, (k, .submit a) ∈ H ∧ (a.record k).wireText nfc = τ} ∪
    {τ | ∃ k v, ∃ w : SignalRevocation, (k, .revoke v) ∈ H ∧ v.signalHash = w.signalHash ∧
      v.revoker = some (w.revokerPubkey, w.revokerSignature) ∧ w.wireText nfc = τ}

end

theorem normalize_hex (nfc : Nfc) {s : String} (h : isLowerHex64 s = true) : nfc.normalize s = s := by
  apply nfc.normalize_ascii
  intro c hc
  have hdigit := List.all_eq_true.1 (Bool.and_eq_true_iff.1 h).2 c hc
  rw [Text.isHexDigit, Bool.or_eq_true, Bool.and_eq_true, Bool.and_eq_true, decide_eq_true_eq,
    decide_eq_true_eq, decide_eq_true_eq, decide_eq_true_eq] at hdigit
  have hle : c ≤ 'f' := by
    rcases hdigit with ⟨-, h9⟩ | ⟨-, hf⟩
    · exact le_trans h9 (by decide)
    · exact hf
  exact Nat.lt_of_le_of_lt hle (by decide)

theorem replaced_hex_inj {s s' : String} (h : isLowerHex64 s = true) (h' : isLowerHex64 s' = true)
    (heq : replaced nfc (.str s) = replaced nfc (.str s')) : s = s' := by
  have hnormal := Json.str.inj heq
  rw [normalize_hex nfc h, normalize_hex nfc h'] at hnormal
  exact hnormal

theorem signalHash_of_wireText {r s : SignalRecord} (hr : isLowerHex64 r.signalHash = true)
    (hs : isLowerHex64 s.signalHash = true) (h : r.wireText nfc = s.wireText nfc) :
    r.signalHash = s.signalHash :=
  replaced_hex_inj hr hs (recordText_eq_iff.1 h "signal_hash" (by decide))

theorem revocation_of_wireText {v w : SignalRevocation} (hv : isLowerHex64 v.signalHash = true)
    (hw : isLowerHex64 w.signalHash = true) (hv' : isLowerHex64 v.revokerPubkey = true)
    (hw' : isLowerHex64 w.revokerPubkey = true) (h : v.wireText nfc = w.wireText nfc) :
    v.signalHash = w.signalHash ∧ v.revokerPubkey = w.revokerPubkey :=
  ⟨replaced_hex_inj hv hw (recordText_eq_iff.1 h "signal_hash" (by decide)),
    replaced_hex_inj hv' hw' (recordText_eq_iff.1 h "revoker_pubkey" (by decide))⟩

theorem Grounded.record_wire (nfc : Nfc) (h : Grounded H node t) (hwhole : Whole env H) {r : SignalRecord}
    (hr : r ∈ t.records) (hreal : r.isTombstone = false) :
    r.wireText nfc ∈ wireTexts nfc H ∧ isLowerHex64 r.signalHash = true := by
  obtain ⟨k, a, ha, heq⟩ := h.record_of_mem hr hreal
  have hmem := mem_own.1 ha.mem
  have hwell : a.WellFormed env := hwhole _ hmem
  rw [heq]
  exact ⟨Or.inl ⟨k, a, hmem, rfl⟩, hwell.hex⟩

theorem Grounded.revocation_wire (nfc : Nfc) (h : Grounded H node t) (hwhole : Whole env H) {w : SignalRevocation}
    (hw : w ∈ t.revocations) : w.wireText nfc ∈ wireTexts nfc H ∧
      isLowerHex64 w.signalHash = true ∧ isLowerHex64 w.revokerPubkey = true := by
  obtain ⟨k, v, hv, hhash, hrevoker⟩ := h.revocation w hw
  have hwell : v.WellFormed env := hwhole _ hv
  exact ⟨Or.inr ⟨k, v, w, hv, hhash, hrevoker, rfl⟩, hhash ▸ hwell.hex, (hwell.revoker _ _ hrevoker).1⟩

end Cello.Directory.Signals
