import Cello.Directory.Signals.Provenance

/-!
# Who takes a signal of an agent out of service

Only its issuer, by its key or by a record that replaces it.  Of the revocations this is true as it stands; of
the submissions it is true where none names a record of another's agent (`only_issuer_withdraws`), which
`submitSignal` does not check.
-/

namespace Cello.Directory.Signals

open Lib AntiEntropy

variable {H : List (String × Accepted)} {node : String} {t : SignalTables}

/-- **Only the issuer**: where a record of an agent is not in service, the agent has signed for its
withdrawal, or has issued a record that replaces it. -/
def OnlyIssuerWithdraws (env : SignalExternals) (H : List (String × Accepted)) (t : SignalTables) : Prop :=
  ∀ r ∈ t.records, r.isTombstone = false → r.issuerKind = .agent →
    t.effectiveStatus r.signalHash ≠ some .active →
      (∃ k v signature issuedAt, (k, .revoke v) ∈ H ∧ v.signalHash = r.signalHash ∧
        v.revoker = some (r.issuerPubkey, signature) ∧
        env.verify (hexToBytes r.issuerPubkey)
          (buildSignalRevokeAuthorizationTbs env r.signalHash issuedAt) signature = .ok true) ∨
      ∃ k a, (k, .submit a) ∈ H ∧ a.supersedes = some r.signalHash ∧
        a.envelope.issuerKind = .agent ∧ a.envelope.issuerPubkey = r.issuerPubkey

/-- The first submission names the second one only if it may: not as a record of another's agent. -/
def Accepted.NamesOwn : Accepted → Accepted → Prop
  | .submit a, .submit b => a.supersedes = some b.signalHash → b.envelope.issuerKind = .agent →
      a.envelope.issuerKind = .agent ∧ a.envelope.issuerPubkey = b.envelope.issuerPubkey
  | _, _ => True

instance (a b : Accepted) : Decidable (a.NamesOwn b) :=
  match a, b with
  | .submit a, .submit b => inferInstanceAs (Decidable (a.supersedes = some b.signalHash →
      b.envelope.issuerKind = .agent →
        a.envelope.issuerKind = .agent ∧ a.envelope.issuerPubkey = b.envelope.issuerPubkey))
  | .submit _, .revoke _ => isTrue trivial
  | .revoke _, .submit _ => isTrue trivial
  | .revoke _, .revoke _ => isTrue trivial

/-- **The condition**: no submission names a record of an agent but one of that agent. -/
def NamesOwn (H : List (String × Accepted)) : Prop := ∀ e ∈ H, ∀ f ∈ H, e.2.NamesOwn f.2

instance (H : List (String × Accepted)) : Decidable (NamesOwn H) :=
  inferInstanceAs (Decidable (∀ e ∈ H, ∀ f ∈ H, e.2.NamesOwn f.2))

theorem Grounded.withdrawn_by_key (h : Grounded H node t) (hhash : EnvelopeHashInjective H)
    {r : SignalRecord} (hr : r ∈ t.records) (hreal : r.isTombstone = false) (hagent : r.issuerKind = .agent)
    (hw : t.evidence.Withdrawn r.signalHash) : t.hasRevocation r.signalHash r.issuerPubkey = true := by
  obtain ⟨j, b, hb, heq⟩ := h.record_of_mem hr hreal
  rcases hw with ⟨-, hinstitutional⟩ | ⟨x, hx, hxhash, hkey⟩
  · have hnot := of_decide_eq_true (hinstitutional r.notarization ⟨r, hr, hreal, rfl⟩ rfl)
    exact absurd hagent hnot
  · -- both records are of one envelope, so the key is that of the row
    obtain ⟨k, a, ha, rfl⟩ := h.notarized_origin hx
    have hrow : r.signalHash = b.signalHash := by rw [heq]; rfl
    have hsame := hhash.notarization_eq ha (mem_own.1 hb.mem) (hxhash.trans hrow)
    have hpubkey : a.notarization.key = r.issuerPubkey := by rw [hsame, heq]; rfl
    rw [hpubkey] at hkey
    exact h.key_iff.1 hkey

theorem Grounded.replaced_by (h : Grounded H node t) {x : String}
    (hs : t.evidence.Superseded x ∨ x ∈ t.evidence.marked) :
    ∃ k a, (k, .submit a) ∈ H ∧ a.supersedes = some x := by
  rcases hs with ⟨y, hy, hnames, -⟩ | hmarked
  · obtain ⟨k, a, ha, rfl⟩ := h.notarized_origin hy
    exact ⟨k, a, ha, hnames⟩
  · rw [h.marked] at hmarked
    obtain ⟨pre, a, post, hsplit, -, hnames, -⟩ := hmarked
    refine ⟨node, a, mem_own.1 ?_, hnames⟩
    rw [hsplit]
    exact List.mem_append_right _ List.mem_cons_self

theorem Grounded.only_issuer_withdraws {env : SignalExternals} (h : Grounded H node t) (hwhole : Whole env H)
    (hhash : EnvelopeHashInjective H) (hown : NamesOwn H) : OnlyIssuerWithdraws env H t := by
  intro r hr hreal hagent hstatus
  have hlisted : t.Listed r.signalHash := ⟨r, hr, rfl⟩
  rcases SignalTables.effectiveStatus_listed h.sound.regular hlisted with ⟨hw, -⟩ | ⟨-, hs, -⟩ | ⟨-, -, hactive⟩
  · left
    have hkey := h.withdrawn_by_key hhash hr hreal hagent hw
    obtain ⟨w, hw, hhash, hpubkey⟩ := SignalTables.hasRevocation_iff.1 hkey
    obtain ⟨k, v, hv, hvhash, hrevoker⟩ := h.revocation w hw
    have hv' : v.WellFormed env := hwhole _ hv
    obtain ⟨-, issuedAt, hverify⟩ := hv'.revoker _ _ hrevoker
    rw [hvhash, hhash] at hverify
    rw [hpubkey] at hrevoker hverify
    exact ⟨k, v, w.revokerSignature, issuedAt, hv, hvhash.trans hhash, hrevoker, hverify⟩
  · right
    obtain ⟨j, b, hb, heq⟩ := h.record_of_mem hr hreal
    obtain ⟨k, a, ha, hnames⟩ := h.replaced_by hs
    have hkind : b.envelope.issuerKind = .agent := by
      rw [← hagent, heq]
      rfl
    have hrow : b.signalHash = r.signalHash := by rw [heq]; rfl
    have hmay := hown _ ha _ (mem_own.1 hb.mem) (hrow ▸ hnames) hkind
    refine ⟨k, a, ha, hnames, hmay.1, hmay.2.trans ?_⟩
    rw [heq]
    rfl
  · exact absurd hactive hstatus

/-- **In every history in which no submission names a record of another's agent, only the issuer takes a
record of an agent out of service.** -/
theorem agent_signals_fall_by_their_issuer (nfc : Nfc) (sha : Sha256) (env : SignalExternals)
    (events : List FederationEvent) (hhash : EnvelopeHashInjective (federationHistory env events))
    (hown : NamesOwn (federationHistory env events)) (node : String) :
    OnlyIssuerWithdraws env (federationHistory env events) (federationAfter nfc sha env events node) := by
  have h := grounded_federation nfc sha env events node
  exact h.only_issuer_withdraws (whole_federation env events) hhash hown

namespace Sample

def nfc : Nfc := ⟨id, normalize_ascii_id⟩

/-- The row of the first signal at `a`, with its digest. -/
def sha : Sha256 := HexSha256.toSha256 <|
  .ofTable [((AcceptedSubmit.record ⟨Bytes.toHex (List.replicate 32 1), envelope 1, "1"⟩ "a").wireText nfc,
      0x44469ff57ce4141c9f2ee0cadd3682d04cb21fa8bc0600899d4e84548393d952#256)]
    0xe3b0c44298fc1c149afbf4c8996fb92427ae41e4649b934ca495991b7852b855#256

/-- The first signal reaches another node, and the agent replaces it there. -/
def replacement : List FederationEvent :=
  [.request "a" (.submit (request 1)), .round "b" "a" .records fun _ => true,
    .request "b" (.submit (request 2))]

/-- The portal names the signal of the agent. -/
def foreign : SignalExternals :=
  { packages with
    decodeTrustSignalEnvelope := fun bytes =>
      if bytes = [2] then .ok { envelope 2 with issuerKind := .portal, issuerPubkey := portal }
      else packages.decodeTrustSignalEnvelope bytes }

end Sample

open Sample in
theorem agent_signals_fall_by_their_issuer_sample :
    (federationAfter nfc sha packages replacement "b").effectiveStatus (Bytes.toHex (List.replicate 32 1)) =
        some .superseded ∧
      OnlyIssuerWithdraws packages (federationHistory packages replacement)
        (federationAfter nfc sha packages replacement "b") :=
  ⟨by decide +kernel, agent_signals_fall_by_their_issuer nfc sha packages replacement
    (by decide +kernel) (by decide +kernel) "b"⟩

open Sample in
/-- **The portal takes an agent's signal out of service**: nobody checks who issued what it names. -/
theorem portal_supersedes_agent_signal :
    EnvelopeHashInjective (federationHistory foreign replacement) ∧
      ¬OnlyIssuerWithdraws foreign (federationHistory foreign replacement)
        (federationAfter nfc sha foreign replacement "b") := by
  refine ⟨by decide +kernel, fun honly => ?_⟩
  have hhistory : federationHistory foreign replacement =
      [("a", .submit ⟨Bytes.toHex (List.replicate 32 1), envelope 1, "1"⟩),
        ("b", .submit ⟨Bytes.toHex (List.replicate 32 2),
          { envelope 2 with issuerKind := .portal, issuerPubkey := portal }, "1"⟩)] := by
    decide +kernel
  have hrow : ∃ r ∈ (federationAfter nfc sha foreign replacement "b").records, r.isTombstone = false ∧
      r.issuerKind = .agent ∧
      (federationAfter nfc sha foreign replacement "b").effectiveStatus r.signalHash ≠ some .active := by
    decide +kernel
  obtain ⟨r, hr, hreal, hagent, hstatus⟩ := hrow
  have h := honly r hr hreal hagent hstatus
  rw [hhistory] at h
  rcases h with ⟨k, v, -, -, hv, -⟩ | ⟨k, a, ha, hnames, hkind, -⟩
  · simp at hv
  · rcases List.mem_cons.1 ha with heq | ha
    · obtain ⟨-, heq⟩ := Prod.mk.inj heq
      obtain rfl := Accepted.submit.inj heq
      cases hnames
    · obtain ⟨-, heq⟩ := Prod.mk.inj (List.mem_singleton.1 ha)
      obtain rfl := Accepted.submit.inj heq
      cases hkind

end Cello.Directory.Signals
