import Cello.Directory.Signals.Authority

/-!
# Do nodes agree on the status of a signal?

Nodes that advertise the same hashes hold the same records and the same keyed revocations
(`Settled`).  What does not travel is the tombstone of a revocation without a revoker, and the mark on a
superseded row; the nodes agree exactly if these are the same at all of them where they count
(`statuses_agree_iff`).
-/

namespace Cello.Directory.Signals

open Lib AntiEntropy

section

variable {H : List (String × Accepted)} {ids : List String} {nodes : Nodes} {nfc : Nfc} {sha : Sha256}

/-! ### What all nodes together have accepted -/

def federationEvidence (H : List (String × Accepted)) : Evidence String String where
  notarized := {x | ∃ k a, (k, .submit a) ∈ H ∧ a.notarization = x}
  withdrawals := {e | ∃ k v, (k, .revoke v) ∈ H ∧ (v.signalHash, v.revoker.map Prod.fst) = e}
  marked := {x | ∃ k, x ∈ (historyEvidence (own H k)).marked}

/-- Every node advertises the same sets of hashes. -/
def SameAdverts (nfc : Nfc) (sha : Sha256) (ids : List String) (nodes : Nodes) : Prop :=
  ∀ n ∈ ids, ∀ m ∈ ids,
    (∀ s ∈ (nodes n).recordHashes nfc sha, s ∈ (nodes m).recordHashes nfc sha) ∧
      ∀ s ∈ (nodes n).revocationHashes nfc sha, s ∈ (nodes m).revocationHashes nfc sha

instance (nfc : Nfc) (sha : Sha256) (ids : List String) (nodes : Nodes) :
    Decidable (SameAdverts nfc sha ids nodes) :=
  inferInstanceAs (Decidable (∀ n ∈ ids, ∀ m ∈ ids, _ ∧ ∀ s ∈ (nodes n).revocationHashes nfc sha, _))

/-- **All nodes say the same** of every signal that has a notarization row. -/
def StatusesAgree (ids : List String) (nodes : Nodes) : Prop :=
  ∀ n ∈ ids, ∀ m ∈ ids, ∀ r ∈ (nodes n).records, r.isTombstone = false →
    (nodes n).effectiveStatus r.signalHash = (nodes m).effectiveStatus r.signalHash

def RevokedAt (H : List (String × Accepted)) (n x : String) : Prop :=
  ∃ v, .revoke v ∈ own H n ∧ v.signalHash = x

/-- **The first condition**: a signal of an institution that was revoked only without an inner authorization
was revoked at every node. -/
def WithdrawalsShared (ids : List String) (H : List (String × Accepted)) : Prop :=
  ∀ x, (federationEvidence H).Known x → (federationEvidence H).Institutional x →
    (∀ p, (x, some p) ∉ (federationEvidence H).withdrawals) →
      ∀ n ∈ ids, ∀ m ∈ ids, RevokedAt H n x → RevokedAt H m x

/-- **The second condition**: a record that is in service by all accounts was marked at every node or at
none. -/
def MarksShared (ids : List String) (H : List (String × Accepted)) : Prop :=
  ∀ x, ¬(federationEvidence H).Withdrawn x → ¬(federationEvidence H).Superseded x →
    ∀ n ∈ ids, ∀ m ∈ ids, x ∈ (historyEvidence (own H n)).marked → x ∈ (historyEvidence (own H m)).marked

/-! ### Settled nodes -/

/-- **A settled node**: it has every record and every keyed revocation that some node has accepted. -/
structure Settled (H : List (String × Accepted)) (node : String) (t : SignalTables) : Prop where
  grounded : Grounded H node t
  notarized : t.evidence.notarized = (federationEvidence H).notarized
  key : ∀ x p, (x, some p) ∈ t.evidence.withdrawals ↔ (x, some p) ∈ (federationEvidence H).withdrawals

section

variable {env : SignalExternals} (hwhole : Whole env H) (hhash : EnvelopeHashInjective H)
  (hsha : Set.InjOn sha.hex (wireTexts nfc H)) (hids : ∀ e ∈ H, e.1 ∈ ids)
  (hgrounded : ∀ n, Grounded H n (nodes n)) (hsame : SameAdverts nfc sha ids nodes)

include hwhole hsha hgrounded hsame in
theorem record_everywhere {n m : String} (hn : n ∈ ids) (hm : m ∈ ids) {r : SignalRecord}
    (hr : r ∈ (nodes n).records) (hreal : r.isTombstone = false) :
    ∃ s ∈ (nodes m).records, s.isTombstone = false ∧ s.signalHash = r.signalHash := by
  have hmem : sha.hex (r.wireText nfc) ∈ (nodes n).recordHashes nfc sha :=
    List.mem_map.2 ⟨r, List.mem_filter.2 ⟨hr, by rw [hreal]; rfl⟩, rfl⟩
  obtain ⟨s, hs, heq⟩ := List.mem_map.1 ((hsame n hn m hm).1 _ hmem)
  obtain ⟨hs, hsreal⟩ := List.mem_filter.1 hs
  have hsreal' : s.isTombstone = false := (Bool.not_eq_true' s.isTombstone).mp hsreal
  obtain ⟨hrtext, hrhex⟩ := (hgrounded n).record_wire nfc hwhole hr hreal
  obtain ⟨hstext, hshex⟩ := (hgrounded m).record_wire nfc hwhole hs hsreal'
  exact ⟨s, hs, hsreal', signalHash_of_wireText hshex hrhex (hsha hstext hrtext heq)⟩

include hwhole hsha hgrounded hsame in
theorem revocation_everywhere {n m : String} (hn : n ∈ ids) (hm : m ∈ ids) {x p : String}
    (h : (nodes n).hasRevocation x p = true) : (nodes m).hasRevocation x p = true := by
  obtain ⟨v, hv, rfl, rfl⟩ := SignalTables.hasRevocation_iff.1 h
  have hmem : sha.hex (v.wireText nfc) ∈ (nodes n).revocationHashes nfc sha := List.mem_map.2 ⟨v, hv, rfl⟩
  obtain ⟨w, hw, heq⟩ := List.mem_map.1 ((hsame n hn m hm).2 _ hmem)
  obtain ⟨hvtext, hvhex, hvkey⟩ := (hgrounded n).revocation_wire nfc hwhole hv
  obtain ⟨hwtext, hwhex, hwkey⟩ := (hgrounded m).revocation_wire nfc hwhole hw
  obtain ⟨hx, hp⟩ := revocation_of_wireText hwhex hvhex hwkey hvkey (hsha hwtext hvtext heq)
  exact SignalTables.hasRevocation_iff.2 ⟨w, hw, hx, hp⟩

include hwhole hhash hsha hids hgrounded hsame in
theorem settled {n : String} (hn : n ∈ ids) : Settled H n (nodes n) := by
  refine ⟨hgrounded n, ?_, fun x p => ?_⟩
  · refine Set.ext fun x => ⟨(hgrounded n).notarized_origin, ?_⟩
    rintro ⟨k, a, ha, rfl⟩
    -- the node that accepted it has a row, so this one has a row of the same signal
    have hknown := (hgrounded k).known_of_submitted ⟨a, mem_own.2 ha, rfl⟩
    obtain ⟨y, ⟨r, hr, hreal, rfl⟩, hrhash⟩ := hknown
    obtain ⟨s, hs, hsreal, hshash⟩ :=
      record_everywhere hwhole hsha hgrounded hsame (hids _ ha) hn hr hreal
    obtain ⟨j, b, hb, heq⟩ := (hgrounded n).record_of_mem hs hsreal
    refine ⟨s, hs, hsreal, ?_⟩
    have hsb : s.notarization = b.notarization := by rw [heq]; rfl
    rw [hsb]
    apply hhash.notarization_eq (mem_own.1 hb.mem) ha
    calc b.signalHash = s.signalHash := by rw [heq]; rfl
      _ = r.signalHash := hshash
      _ = a.signalHash := hrhash
  · rw [(hgrounded n).key_iff]
    constructor
    · intro h
      obtain ⟨k, v, hv, rfl, hrevoker⟩ := (hgrounded n).revocation_origin h
      exact ⟨k, v, hv, by rw [hrevoker]⟩
    · rintro ⟨k, v, hv, heq⟩
      obtain ⟨rfl, hrevoker⟩ := Prod.mk.inj heq
      exact revocation_everywhere hwhole hsha hgrounded hsame (hids _ hv) hn
        ((hgrounded k).hasRevocation v p (mem_own.2 hv) hrevoker)

end

namespace Settled

variable {node : String} {t : SignalTables} (h : Settled H node t)

include h

theorem known_iff {x : String} : t.evidence.Known x ↔ (federationEvidence H).Known x := by
  unfold Evidence.Known
  rw [h.notarized]

theorem institutional_iff {x : String} :
    t.evidence.Institutional x ↔ (federationEvidence H).Institutional x := by
  unfold Evidence.Institutional
  rw [h.notarized]

theorem tombed_iff {x : String} : t.evidence.Tombed x ↔
    (∃ p, (x, some p) ∈ (federationEvidence H).withdrawals) ∨ RevokedAt H node x := by
  rw [h.grounded.tombed_iff]
  refine or_congr (exists_congr fun p => ?_) Iff.rfl
  rw [← h.grounded.key_iff, h.key]

theorem tombed_federation {x : String} (ht : t.evidence.Tombed x) : (federationEvidence H).Tombed x := by
  rcases h.tombed_iff.1 ht with ⟨p, hp⟩ | ⟨v, hv, rfl⟩
  · exact ⟨some p, hp⟩
  · exact ⟨_, node, v, mem_own.1 hv, rfl⟩

theorem withdrawn_iff (hids : ∀ e ∈ H, e.1 ∈ ids) (hnode : node ∈ ids) (hshared : WithdrawalsShared ids H)
    {x : String} (hx : (federationEvidence H).Known x) :
    t.evidence.Withdrawn x ↔ (federationEvidence H).Withdrawn x := by
  refine or_congr ?_ ?_
  · rw [h.institutional_iff]
    refine and_congr_left fun hi => ⟨h.tombed_federation, ?_⟩
    rintro ⟨w, k, v, hv, heq⟩
    rw [h.tombed_iff]
    by_cases hkey : ∃ p, (x, some p) ∈ (federationEvidence H).withdrawals
    · exact .inl hkey
    · right
      obtain ⟨rfl, -⟩ := Prod.mk.inj heq
      exact hshared _ hx hi (not_exists.1 hkey) k (hids _ hv) node hnode ⟨v, mem_own.2 hv, rfl⟩
  · rw [h.notarized]
    simp only [h.key]

theorem superseded_iff (hids : ∀ e ∈ H, e.1 ∈ ids) (hnode : node ∈ ids) (hshared : WithdrawalsShared ids H)
    (x : String) : t.evidence.Superseded x ↔ (federationEvidence H).Superseded x := by
  apply Evidence.superseded_congr h.notarized
  intro y hy
  rw [h.notarized] at hy
  exact h.withdrawn_iff hids hnode hshared ⟨y, hy, rfl⟩

theorem known_of_marked {x : String} (hx : x ∈ t.evidence.marked) : t.evidence.Known x := by
  obtain ⟨r, hr, rfl, hstatus⟩ := hx
  refine ⟨r.notarization, ⟨r, hr, ?_, rfl⟩, rfl⟩
  by_contra htomb
  obtain ⟨k, hk⟩ := h.grounded.sound.revoke_of_tombstone hr (Bool.not_eq_false _ ▸ htomb)
  rw [(h.grounded.sound.tombstone r hr k hk).2.1] at hstatus
  cases hstatus

end Settled

theorem listed_of_known {t : SignalTables} {x : String} (h : t.evidence.Known x) : t.Listed x := by
  obtain ⟨y, ⟨r, hr, -, rfl⟩, rfl⟩ := h
  exact ⟨r, hr, rfl⟩

theorem sameAdverts_of_wire (rows : List SignalRecord) (revocations : List SignalRevocation)
    (hrows : ∀ n ∈ ids, (nodes n).wireRecords = rows)
    (hrevocations : ∀ n ∈ ids, (nodes n).revocations = revocations) : SameAdverts nfc sha ids nodes := by
  intro n hn m hm
  unfold SignalTables.recordHashes SignalTables.revocationHashes
  rw [hrows n hn, hrows m hm, hrevocations n hn, hrevocations m hm]
  exact ⟨fun _ hs => hs, fun _ hs => hs⟩

/-! ### The law -/

/-- **When settled nodes agree.** -/
theorem settled_agree_iff (hids : ∀ e ∈ H, e.1 ∈ ids) (hsettled : ∀ n ∈ ids, Settled H n (nodes n)) :
    StatusesAgree ids nodes ↔ WithdrawalsShared ids H ∧ MarksShared ids H := by
  -- of a signal known to all, what the view says at two nodes
  have hview : ∀ n ∈ ids, ∀ m ∈ ids, ∀ x, (federationEvidence H).Known x →
      ((nodes n).effectiveStatus x = (nodes m).effectiveStatus x ↔
        ((nodes n).evidence.Withdrawn x ↔ (nodes m).evidence.Withdrawn x) ∧
          (¬(nodes n).evidence.Withdrawn x → ¬(nodes m).evidence.Withdrawn x →
            ((nodes n).evidence.Superseded x ∨ x ∈ (nodes n).evidence.marked ↔
              (nodes m).evidence.Superseded x ∨ x ∈ (nodes m).evidence.marked))) := by
    intro n hn m hm x hx
    exact SignalTables.effectiveStatus_eq_iff (hsettled n hn).grounded.sound.regular
      (hsettled m hm).grounded.sound.regular (listed_of_known ((hsettled n hn).known_iff.2 hx))
      (listed_of_known ((hsettled m hm).known_iff.2 hx))
  have hrows : StatusesAgree ids nodes ↔ ∀ n ∈ ids, ∀ m ∈ ids, ∀ x, (federationEvidence H).Known x →
      (nodes n).effectiveStatus x = (nodes m).effectiveStatus x := by
    refine forall₄_congr fun n hn m _ => ⟨fun h x hx => ?_, fun h r hr hreal => ?_⟩
    · obtain ⟨y, ⟨r, hr, hreal, rfl⟩, rfl⟩ := (hsettled n hn).known_iff.2 hx
      exact h r hr hreal
    · exact h _ ((hsettled n hn).known_iff.1 ⟨r.notarization, ⟨r, hr, hreal, rfl⟩, rfl⟩)
  rw [hrows]
  constructor
  · intro hagree
    have hshared : WithdrawalsShared ids H := by
      intro x hx hi hkey n hn m hm hrevoked
      have hw : (nodes n).evidence.Withdrawn x := .inl ⟨(hsettled n hn).tombed_iff.2 (.inr hrevoked),
        (hsettled n hn).institutional_iff.2 hi⟩
      have hw' := ((hview n hn m hm x hx).1 (hagree n hn m hm x hx)).1.1 hw
      rcases (hsettled m hm).tombed_iff.1 hw'.tombed with ⟨p, hp⟩ | h
      · exact absurd hp (hkey p)
      · exact h
    refine ⟨hshared, fun x hw hs n hn m hm hmarked => ?_⟩
    rw [← (hsettled n hn).grounded.marked] at hmarked
    have hx := (hsettled n hn).known_iff.1 ((hsettled n hn).known_of_marked hmarked)
    have hnot : ∀ k ∈ ids, ¬(nodes k).evidence.Withdrawn x := fun k hk hwk =>
      hw (((hsettled k hk).withdrawn_iff hids hk hshared hx).1 hwk)
    have hiff := ((hview n hn m hm x hx).1 (hagree n hn m hm x hx)).2 (hnot n hn) (hnot m hm)
    rcases hiff.1 (.inr hmarked) with hsm | hmm
    · exact absurd (((hsettled m hm).superseded_iff hids hm hshared x).1 hsm) hs
    · rw [← (hsettled m hm).grounded.marked]
      exact hmm
  · rintro ⟨hshared, hmarks⟩ n hn m hm x hx
    have hw : ∀ k ∈ ids, ((nodes k).evidence.Withdrawn x ↔ (federationEvidence H).Withdrawn x) :=
      fun k hk => (hsettled k hk).withdrawn_iff hids hk hshared hx
    have hs : ∀ k ∈ ids, ((nodes k).evidence.Superseded x ↔ (federationEvidence H).Superseded x) :=
      fun k hk => (hsettled k hk).superseded_iff hids hk hshared x
    refine (hview n hn m hm x hx).2 ⟨(hw n hn).trans (hw m hm).symm, fun hnot _ => ?_⟩
    rw [hs n hn, hs m hm, (hsettled n hn).grounded.marked, (hsettled m hm).grounded.marked]
    by_cases hsup : (federationEvidence H).Superseded x
    · exact iff_of_true (.inl hsup) (.inl hsup)
    · have hnot' := mt (hw n hn).2 hnot
      exact or_congr Iff.rfl ⟨hmarks x hnot' hsup n hn m hm, hmarks x hnot' hsup m hm n hn⟩

/-- **Once all nodes advertise the same**, they agree on every status exactly if their histories agree on the
revocations and the marks that do not travel. -/
theorem statuses_agree_iff (nfc : Nfc) (sha : Sha256) (env : SignalExternals) (events : List FederationEvent)
    (ids : List String) (hids : ∀ e ∈ federationHistory env events, e.1 ∈ ids)
    (hhash : EnvelopeHashInjective (federationHistory env events))
    (hsha : Set.InjOn sha.hex (wireTexts nfc (federationHistory env events)))
    (hsame : SameAdverts nfc sha ids (federationAfter nfc sha env events)) :
    StatusesAgree ids (federationAfter nfc sha env events) ↔
      WithdrawalsShared ids (federationHistory env events) ∧
        MarksShared ids (federationHistory env events) := by
  apply settled_agree_iff hids
  intro n hn
  exact settled (whole_federation env events) hhash hsha hids
    (grounded_federation nfc sha env events) hsame hn

end

namespace Sample

/-- The second signal, issued by the portal. -/
def portalSignal : AcceptedSubmit :=
  ⟨Bytes.toHex (List.replicate 32 2), { envelope 2 with issuerKind := .portal, issuerPubkey := portal }, "1"⟩

/-- A revocation of it with nothing but the signature of the portal. -/
def institution : SignalExternals :=
  { foreign with
    decodeCbor := fun bytes =>
      if bytes = [4] then .ok (.obj [("v", .num (.fin 1)), ("op", .str "revoke"),
        ("signal_hash", .str (Bytes.toHex (List.replicate 32 2))), ("issued_at", .num (.fin 0))])
      else body bytes }

/-- The row of the signal at `a`, with its digest. -/
def portalSha : Sha256 := HexSha256.toSha256 <|
  .ofTable [((portalSignal.record "a").wireText nfc,
      0x0c835afa63a27df718a6e2ecb77414dc93ab1cf52c0f16542997848b2184dd5e#256)]
    0xe3b0c44298fc1c149afbf4c8996fb92427ae41e4649b934ca495991b7852b855#256

/-- The signal reaches the other node. -/
def shared : List FederationEvent :=
  [.request "a" (.submit (request 2)), .round "b" "a" .records fun _ => true]

/-- And then it is revoked where it was submitted. -/
def revokedAtOne : List FederationEvent := shared ++ [.request "a" (.revoke (request 4))]

theorem portal_injOn {H : List (String × Accepted)} (hH : ∀ e ∈ H,
    e = ("a", .submit portalSignal) ∨ e = ("a", .revoke ⟨portalSignal.signalHash, none⟩)) :
    Set.InjOn portalSha.hex (wireTexts nfc H) := by
  have honly : ∀ τ ∈ wireTexts nfc H, τ = (portalSignal.record "a").wireText nfc := by
    rintro τ (⟨k, a, ha, rfl⟩ | ⟨k, v, w, hv, -, hrevoker, rfl⟩)
    · rcases hH _ ha with heq | heq
      · obtain ⟨rfl, hsubmit⟩ := Prod.mk.inj heq
        obtain rfl := Accepted.submit.inj hsubmit
        rfl
      · cases (Prod.mk.inj heq).2
    · rcases hH _ hv with heq | heq
      · cases (Prod.mk.inj heq).2
      · obtain rfl := Accepted.revoke.inj (Prod.mk.inj heq).2
        cases hrevoker
  intro τ hτ τ' hτ' _
  rw [honly τ hτ, honly τ' hτ']

/-- A run whose nodes hold the row of the signal and no revocation that travels. -/
structure OneRow (events : List FederationEvent) : Prop where
  rows : ∀ n ∈ ["a", "b"], (federationAfter nfc portalSha institution events n).wireRecords = [portalSignal.record "a"]
  revocations : ∀ n ∈ ["a", "b"], (federationAfter nfc portalSha institution events n).revocations = []
  ids : ∀ e ∈ federationHistory institution events, e.1 ∈ ["a", "b"]
  hashes : EnvelopeHashInjective (federationHistory institution events)
  accepted : ∀ e ∈ federationHistory institution events,
    e = ("a", .submit portalSignal) ∨ e = ("a", .revoke ⟨portalSignal.signalHash, none⟩)

theorem OneRow.adverts {events : List FederationEvent} (h : OneRow events) :
    SameAdverts nfc portalSha ["a", "b"] (federationAfter nfc portalSha institution events) :=
  sameAdverts_of_wire [portalSignal.record "a"] [] h.rows h.revocations

theorem runs_oneRow : OneRow shared ∧ OneRow revokedAtOne := by
  constructor
  · constructor <;> decide +kernel
  · constructor <;> decide +kernel

/-! ### A run in which all travels -/

def firstSignal : AcceptedSubmit := ⟨Bytes.toHex (List.replicate 32 1), envelope 1, "1"⟩

def secondSignal : AcceptedSubmit := ⟨Bytes.toHex (List.replicate 32 2), envelope 2, "1"⟩

/-- The agent's revocation of the second signal. -/
def keyedRevocation : SignalRevocation := ⟨secondSignal.signalHash, agent, List.replicate 64 7⟩

/-- Its row at the node that accepts it. -/
def revocationRow : SignalRecord :=
  AcceptedRevoke.tombstone ⟨secondSignal.signalHash, some (agent, List.replicate 64 7)⟩ "b"

/-- The second signal replaces the first at the node that has learned of it, and is revoked there; the other node
then pulls both tables. -/
def replacedAndRevoked : List FederationEvent :=
  [.request "a" (.submit (request 1)), .round "b" "a" .records fun _ => true,
    .request "b" (.submit (request 2)), .request "b" (.revoke (request 3)),
    .round "a" "b" .records fun _ => true, .round "a" "b" .revocations fun _ => true]

def rowTable : List (String × BitVec 256) :=
  [((firstSignal.record "a").wireText nfc,
      0x44469ff57ce4141c9f2ee0cadd3682d04cb21fa8bc0600899d4e84548393d952#256),
    ((secondSignal.record "b").wireText nfc,
      0xb8d5dbf8ae3ea3c500235dc539f529883bc3a37cc58f8ad51a424a590f6eed74#256),
    (keyedRevocation.wireText nfc,
      0x36dd0c28b258c10d2893078420bbb0207e31af4d052f8399988da3aaa9b303ad#256)]

def rowSha : Sha256 := HexSha256.toSha256 <|
  .ofTable rowTable 0xe3b0c44298fc1c149afbf4c8996fb92427ae41e4649b934ca495991b7852b855#256

theorem history_replacedAndRevoked : federationHistory packages replacedAndRevoked =
    [("a", .submit firstSignal), ("b", .submit secondSignal),
      ("b", .revoke ⟨secondSignal.signalHash, some (agent, List.replicate 64 7)⟩)] := by
  decide +kernel

theorem rows_injOn :
    Set.InjOn rowSha.hex (wireTexts nfc (federationHistory packages replacedAndRevoked)) := by
  refine (HexSha256.ofTable_injOn (by decide : (rowTable.map Prod.snd).Nodup)).mono ?_
  rw [history_replacedAndRevoked]
  rintro τ (⟨k, a, ha, rfl⟩ | ⟨k, v, w, hv, hhash, hrevoker, rfl⟩)
  · simp only [List.mem_cons, Prod.mk.injEq, Accepted.submit.injEq, reduceCtorEq, and_false, List.not_mem_nil,
      or_false] at ha
    rcases ha with ⟨rfl, rfl⟩ | ⟨rfl, rfl⟩ <;> simp [rowTable]
  · simp only [List.mem_cons, Prod.mk.injEq, Accepted.revoke.injEq, reduceCtorEq, and_false, List.not_mem_nil,
      or_false, false_or] at hv
    obtain ⟨rfl, rfl⟩ := hv
    obtain ⟨hkey, hsignature⟩ := Prod.mk.inj (Option.some.inj hrevoker)
    obtain rfl : w = keyedRevocation := by
      cases w
      cases hhash
      cases hkey
      cases hsignature
      rfl
    simp [rowTable]

theorem requests_replacedAndRevoked :
    (SignalRequest.submit (request 1)).handle packages "a" {} = ⟨[firstSignal.record "a"], []⟩ ∧
      (SignalRequest.submit (request 2)).handle packages "b" ⟨[(firstSignal.record "a").arrived], []⟩ =
        ⟨[(firstSignal.record "a").arrived, secondSignal.record "b"], []⟩ ∧
      (SignalRequest.revoke (request 3)).handle packages "b"
          ⟨[(firstSignal.record "a").arrived, secondSignal.record "b"], []⟩ =
        ⟨[(firstSignal.record "a").arrived, secondSignal.record "b", revocationRow], [keyedRevocation]⟩ := by
  decide +kernel

theorem hex_secondSignal : rowSha.hex ((secondSignal.record "b").wireText nfc) ≠
    rowSha.hex ((firstSignal.record "a").wireText nfc) := by
  intro heq
  have htext := HexSha256.ofTable_injOn (by decide : (rowTable.map Prod.snd).Nodup) (by simp [rowTable])
    (by simp [rowTable]) heq
  exact absurd (signalHash_of_wireText (by decide) (by decide) htext) (by decide)

theorem pulls_replacedAndRevoked :
    pull nfc rowSha {} ⟨[firstSignal.record "a"], []⟩ .records (fun _ => true) =
        ⟨[(firstSignal.record "a").arrived], []⟩ ∧
      pull nfc rowSha ⟨[firstSignal.record "a"], []⟩
          ⟨[(firstSignal.record "a").arrived, secondSignal.record "b", revocationRow], [keyedRevocation]⟩
          .records (fun _ => true) =
        ⟨[firstSignal.record "a", (secondSignal.record "b").arrived], []⟩ ∧
      pull nfc rowSha ⟨[firstSignal.record "a", (secondSignal.record "b").arrived], []⟩
          ⟨[(firstSignal.record "a").arrived, secondSignal.record "b", revocationRow], [keyedRevocation]⟩
          .revocations (fun _ => true) =
        ⟨[firstSignal.record "a", (secondSignal.record "b").arrived], [keyedRevocation]⟩ := by
  have hmissing : SignalTables.missingRecords nfc rowSha ⟨[firstSignal.record "a"], []⟩
      ⟨[(firstSignal.record "a").arrived, secondSignal.record "b", revocationRow], [keyedRevocation]⟩
      (fun _ => true) = [secondSignal.record "b"] := by
    have hreal : SignalTables.wireRecords
        ⟨[(firstSignal.record "a").arrived, secondSignal.record "b", revocationRow], [keyedRevocation]⟩ =
          [(firstSignal.record "a").arrived, secondSignal.record "b"] := rfl
    have hheld : SignalTables.recordHashes nfc rowSha ⟨[firstSignal.record "a"], []⟩ =
        [rowSha.hex ((firstSignal.record "a").wireText nfc)] := rfl
    have hsame : (firstSignal.record "a").arrived.wireText nfc = (firstSignal.record "a").wireText nfc := rfl
    rw [SignalTables.missingRecords, hreal, hheld]
    simp [hsame, hex_secondSignal]
  refine ⟨rfl, ?_, rfl⟩
  rw [pull, hmissing]
  rfl

theorem tables_replacedAndRevoked :
    federationAfter nfc rowSha packages replacedAndRevoked "a" =
        ⟨[firstSignal.record "a", (secondSignal.record "b").arrived], [keyedRevocation]⟩ ∧
      federationAfter nfc rowSha packages replacedAndRevoked "b" =
        ⟨[(firstSignal.record "a").arrived, secondSignal.record "b", revocationRow], [keyedRevocation]⟩ := by
  obtain ⟨hfirst, hsecond, hrevoked⟩ := requests_replacedAndRevoked
  obtain ⟨hlearned, hrecords, hrevocations⟩ := pulls_replacedAndRevoked
  have hab : "a" ≠ "b" := by decide
  have hba : "b" ≠ "a" := by decide
  simp only [federationAfter, replacedAndRevoked, List.foldl_cons, List.foldl_nil, FederationEvent.step,
    Function.update_self, Function.update_of_ne hab, Function.update_of_ne hba, hfirst, hlearned, hsecond, hrevoked,
    hrecords, hrevocations, and_self]

theorem adverts_replacedAndRevoked :
    SameAdverts nfc rowSha ["a", "b"] (federationAfter nfc rowSha packages replacedAndRevoked) := by
  obtain ⟨ha, hb⟩ := tables_replacedAndRevoked
  refine sameAdverts_of_wire [firstSignal.record "a", secondSignal.record "b"] [keyedRevocation] ?_ ?_
  · intro n hn
    rcases List.mem_pair.1 hn with rfl | rfl
    · rw [ha]
      decide
    · rw [hb]
      decide
  · intro n hn
    rcases List.mem_pair.1 hn with rfl | rfl
    · rw [ha]
    · rw [hb]

end Sample

open Sample in
/-- With the second signal revoked everywhere, the first is in service again at both nodes. -/
theorem statuses_agree_iff_sample :
    (StatusesAgree ["a", "b"] (federationAfter nfc rowSha packages replacedAndRevoked) ↔
      WithdrawalsShared ["a", "b"] (federationHistory packages replacedAndRevoked) ∧
        MarksShared ["a", "b"] (federationHistory packages replacedAndRevoked)) ∧
      ∀ n ∈ ["a", "b"],
        (federationAfter nfc rowSha packages replacedAndRevoked n).effectiveStatus firstSignal.signalHash =
            some .active ∧
          (federationAfter nfc rowSha packages replacedAndRevoked n).effectiveStatus secondSignal.signalHash =
            some .revoked := by
  constructor
  · refine statuses_agree_iff nfc rowSha packages replacedAndRevoked ["a", "b"] ?_ ?_ rows_injOn
      adverts_replacedAndRevoked
    · rw [history_replacedAndRevoked]
      decide
    · rw [history_replacedAndRevoked]
      decide +kernel
  · obtain ⟨ha, hb⟩ := tables_replacedAndRevoked
    intro n hn
    rcases List.mem_pair.1 hn with rfl | rfl
    · rw [ha]
      decide +kernel
    · rw [hb]
      decide +kernel

open Sample in
/-- **A revocation without a revoker stays where it was accepted**, and the nodes differ for good. -/
theorem revocation_stays_at_one_node :
    (∀ e ∈ federationHistory institution revokedAtOne, e.1 ∈ ["a", "b"]) ∧
      EnvelopeHashInjective (federationHistory institution revokedAtOne) ∧
      Set.InjOn portalSha.hex (wireTexts nfc (federationHistory institution revokedAtOne)) ∧
      SameAdverts nfc portalSha ["a", "b"] (federationAfter nfc portalSha institution revokedAtOne) ∧
      ¬StatusesAgree ["a", "b"] (federationAfter nfc portalSha institution revokedAtOne) := by
  have hrun := runs_oneRow.2
  refine ⟨hrun.ids, hrun.hashes, portal_injOn hrun.accepted, hrun.adverts, ?_⟩
  intro hagree
  have hrow : ∃ r ∈ (federationAfter nfc portalSha institution revokedAtOne "a").records,
      r.isTombstone = false ∧
        (federationAfter nfc portalSha institution revokedAtOne "a").effectiveStatus r.signalHash ≠
          (federationAfter nfc portalSha institution revokedAtOne "b").effectiveStatus r.signalHash := by
    decide +kernel
  obtain ⟨r, hr, hreal, hne⟩ := hrow
  exact hne (hagree "a" (by decide) "b" (by decide) r hr hreal)

end Cello.Directory.Signals
