import Cello.Directory.Signals.Ledger

/-!
# Is supersession derived?

`V54__supersession_consults_effective_status.sql` says that a withdrawn successor gives its predecessor back.
On one node this holds exactly in the histories in which no record whose row has been marked is left
without a successor (`supersession_derived_iff`): the mark stays when the successor goes.
-/

namespace Cello.Directory.Signals

open Lib

/-! ### Histories of one node -/

/-- The tables of a node after some requests. -/
def ledgerAfter (env : SignalExternals) (node : String) (requests : List SignalRequest) : SignalTables :=
  requests.foldl (SignalRequest.handle env node) {}

/-- The requests that are accepted. -/
def acceptedOf (env : SignalExternals) (requests : List SignalRequest) : List Accepted :=
  requests.filterMap (SignalRequest.accepted env)

def SubmittedIn (H : List Accepted) (x : String) : Prop := ∃ a, .submit a ∈ H ∧ a.signalHash = x

def NewAfter (pre : List Accepted) (a : AcceptedSubmit) : Prop := ¬SubmittedIn pre a.signalHash

def historyEvidence (H : List Accepted) : Evidence String String where
  notarized := {x | ∃ pre a post, H = pre ++ .submit a :: post ∧ NewAfter pre a ∧ a.notarization = x}
  withdrawals := {e | ∃ v, .revoke v ∈ H ∧ (v.signalHash, v.revoker.map Prod.fst) = e}
  marked := {x | ∃ pre a post, H = pre ++ .submit a :: post ∧ NewAfter pre a ∧ a.supersedes = some x ∧
    (SubmittedIn pre x ∨ x = a.signalHash)}

/-! ### One request more -/

variable {H : List Accepted} {node : String} {env : SignalExternals}

theorem append_singleton_split {α : Type*} {l pre post : List α} {y z : α} : l ++ [z] = pre ++ y :: post ↔
    (pre = l ∧ y = z ∧ post = []) ∨ ∃ rest, post = rest ++ [z] ∧ l = pre ++ y :: rest := by
  constructor
  · intro h
    rcases List.eq_nil_or_concat post with rfl | ⟨rest, last, rfl⟩
    · obtain ⟨rfl, heq⟩ := List.append_inj' h rfl
      exact .inl ⟨rfl, (List.cons.inj heq).1.symm, rfl⟩
    · rw [List.concat_eq_append, ← List.cons_append, ← List.append_assoc] at h
      obtain ⟨rfl, heq⟩ := List.append_inj' h rfl
      obtain rfl := (List.cons.inj heq).1
      exact .inr ⟨rest, List.concat_eq_append, rfl⟩
  · rintro (⟨rfl, rfl, rfl⟩ | ⟨rest, rfl, rfl⟩)
    · rfl
    · rw [List.append_assoc, List.cons_append]

theorem submittedIn_append_submit {a : AcceptedSubmit} {x : String} :
    SubmittedIn (H ++ [.submit a]) x ↔ SubmittedIn H x ∨ x = a.signalHash := by
  constructor
  · rintro ⟨b, hb, rfl⟩
    rcases List.mem_append.1 hb with hb | hb
    · exact .inl ⟨b, hb, rfl⟩
    · obtain rfl := Accepted.submit.inj (List.mem_singleton.1 hb)
      exact .inr rfl
  · rintro (⟨b, hb, rfl⟩ | rfl)
    · exact ⟨b, List.mem_append_left _ hb, rfl⟩
    · exact ⟨a, List.mem_append_right _ List.mem_cons_self, rfl⟩

theorem submittedIn_append_revoke {v : AcceptedRevoke} {x : String} :
    SubmittedIn (H ++ [.revoke v]) x ↔ SubmittedIn H x := by
  constructor
  · rintro ⟨b, hb, rfl⟩
    rcases List.mem_append.1 hb with hb | hb
    · exact ⟨b, hb, rfl⟩
    · cases List.mem_singleton.1 hb
  · rintro ⟨b, hb, rfl⟩
    exact ⟨b, List.mem_append_left _ hb, rfl⟩

theorem exists_split_append {z : Accepted} {p : List Accepted → AcceptedSubmit → Prop} :
    (∃ pre a post, H ++ [z] = pre ++ .submit a :: post ∧ p pre a) ↔
      (∃ pre a post, H = pre ++ .submit a :: post ∧ p pre a) ∨ ∃ a, z = .submit a ∧ p H a := by
  constructor
  · rintro ⟨pre, a, post, heq, hp⟩
    rcases append_singleton_split.1 heq with ⟨rfl, rfl, rfl⟩ | ⟨rest, rfl, rfl⟩
    · exact .inr ⟨a, rfl, hp⟩
    · exact .inl ⟨pre, a, rest, rfl, hp⟩
  · rintro (⟨pre, a, rest, rfl, hp⟩ | ⟨a, rfl, hp⟩)
    · exact ⟨pre, a, rest ++ [z], append_singleton_split.2 (.inr ⟨rest, rfl, rfl⟩), hp⟩
    · exact ⟨H, a, [], rfl, hp⟩

theorem historyEvidence_submit_known {a : AcceptedSubmit} (h : SubmittedIn H a.signalHash) :
    historyEvidence (H ++ [.submit a]) = historyEvidence H := by
  refine Evidence.ext (Set.ext fun x => ?_) (Set.ext fun e => ?_) (Set.ext fun x => ?_)
  · refine exists_split_append.trans (or_iff_left ?_)
    rintro ⟨b, heq, hnew, -⟩
    obtain rfl := Accepted.submit.inj heq
    exact hnew h
  · refine exists_congr fun v => and_congr_left fun _ => ?_
    simp
  · refine exists_split_append.trans (or_iff_left ?_)
    rintro ⟨b, heq, hnew, -⟩
    obtain rfl := Accepted.submit.inj heq
    exact hnew h

theorem historyEvidence_submit_new {a : AcceptedSubmit} (h : ¬SubmittedIn H a.signalHash) :
    historyEvidence (H ++ [.submit a]) = { historyEvidence H with
      notarized := insert a.notarization (historyEvidence H).notarized
      marked := (historyEvidence H).marked ∪ {x | a.supersedes = some x ∧
        (SubmittedIn H x ∨ x = a.signalHash)} } := by
  refine Evidence.ext (Set.ext fun x => ?_) (Set.ext fun e => ?_) (Set.ext fun x => ?_)
  · refine exists_split_append.trans (or_comm.trans (or_congr ?_ Iff.rfl))
    constructor
    · rintro ⟨b, heq, -, rfl⟩
      obtain rfl := Accepted.submit.inj heq
      rfl
    · rintro rfl
      exact ⟨a, rfl, h, rfl⟩
  · refine exists_congr fun v => and_congr_left fun _ => ?_
    simp
  · refine exists_split_append.trans (or_congr Iff.rfl ?_)
    constructor
    · rintro ⟨b, heq, -, hmark⟩
      obtain rfl := Accepted.submit.inj heq
      exact hmark
    · intro hmark
      exact ⟨a, rfl, h, hmark⟩

theorem historyEvidence_revoke (v : AcceptedRevoke) : historyEvidence (H ++ [.revoke v]) =
    { historyEvidence H with
      withdrawals := insert (v.signalHash, v.revoker.map Prod.fst) (historyEvidence H).withdrawals } := by
  refine Evidence.ext (Set.ext fun x => ?_) (Set.ext fun e => ?_) (Set.ext fun x => ?_)
  · refine exists_split_append.trans (or_iff_left ?_)
    rintro ⟨b, heq, -⟩
    cases heq
  · show (∃ w, .revoke w ∈ H ++ [.revoke v] ∧ _) ↔ e = _ ∨ ∃ w, .revoke w ∈ H ∧ _
    constructor
    · rintro ⟨w, hw, rfl⟩
      rcases List.mem_append.1 hw with hw | hw
      · exact .inr ⟨w, hw, rfl⟩
      · obtain rfl := Accepted.revoke.inj (List.mem_singleton.1 hw)
        exact .inl rfl
    · rintro (rfl | ⟨w, hw, rfl⟩)
      · exact ⟨v, List.mem_append_right _ List.mem_cons_self, rfl⟩
      · exact ⟨w, List.mem_append_left _ hw, rfl⟩
  · refine exists_split_append.trans (or_iff_left ?_)
    rintro ⟨b, heq, -⟩
    cases heq

/-! ### The tables hold the history -/

/-- **The tables of a node hold the evidence of its history.**  Of several revocations without a revoker only
the first one leaves a tombstone. -/
structure Holds (node : String) (H : List Accepted) (t : SignalTables) : Prop where
  sound : t.Sound
  has : ∀ x, t.hasRecord x (.node node) = true ↔ SubmittedIn H x
  notarized : t.evidence.notarized = (historyEvidence H).notarized
  marked : t.evidence.marked = (historyEvidence H).marked
  tombed : ∀ x, t.evidence.Tombed x ↔ (historyEvidence H).Tombed x
  key : ∀ x k, (x, some k) ∈ t.evidence.withdrawals ↔ (x, some k) ∈ (historyEvidence H).withdrawals

variable {t : SignalTables}

theorem holds_empty (node : String) : Holds node [] {} := by
  have hsplit : ∀ {p : List Accepted → AcceptedSubmit → Prop},
      ¬∃ pre a post, ([] : List Accepted) = pre ++ .submit a :: post ∧ p pre a := by
    rintro p ⟨pre, a, post, heq, -⟩
    simp at heq
  refine ⟨SignalTables.sound_empty, fun x => ?_, ?_, ?_, fun x => ?_, fun x k => ?_⟩
  · refine iff_of_false Bool.false_ne_true ?_
    rintro ⟨a, ha, -⟩
    cases ha
  · refine Set.ext fun x => iff_of_false ?_ hsplit
    rintro ⟨r, hr, -⟩
    cases hr
  · refine Set.ext fun x => iff_of_false ?_ hsplit
    rintro ⟨r, hr, -⟩
    cases hr
  · refine iff_of_false ?_ ?_
    · rintro ⟨w, hw⟩
      cases hw
    · rintro ⟨w, v, hv, -⟩
      cases hv
  · refine iff_of_false ?_ ?_
    · intro hw
      cases hw
    · rintro ⟨v, hv, -⟩
      cases hv

/-- **One accepted request more.** -/
theorem Holds.store (h : Holds node H t) (a : Accepted) : Holds node (H ++ [a]) (a.store node t) := by
  cases a with
  | submit a =>
    have hhas : ∀ x, (a.store node t).1.hasRecord x (.node node) = true ↔ SubmittedIn (H ++ [.submit a]) x := by
      intro x
      rw [a.hasRecord_store, h.has, submittedIn_append_submit]
      exact or_congr Iff.rfl (and_iff_left rfl)
    show Holds node _ (a.store node t).1
    by_cases hknown : SubmittedIn H a.signalHash
    · have hsame := a.store_known ((h.has _).2 hknown)
      rw [hsame] at hhas ⊢
      have hhistory := historyEvidence_submit_known hknown
      exact ⟨h.sound, hhas, hhistory ▸ h.notarized, hhistory ▸ h.marked, hhistory ▸ h.tombed,
        hhistory ▸ h.key⟩
    · have hnew := a.store_new h.sound (mt (h.has _).1 hknown)
      have hhistory := historyEvidence_submit_new hknown
      refine ⟨a.store_sound h.sound, hhas, ?_, ?_, fun x => ?_, fun x k => ?_⟩
      · rw [hnew, hhistory, h.notarized]
      · rw [hnew, hhistory, h.marked]
        simp only [h.has]
      · rw [hnew, hhistory]
        exact h.tombed x
      · rw [hnew, hhistory]
        exact h.key x k
  | revoke v =>
    have hrevoked := v.store_evidence node h.sound
    have hhistory : historyEvidence (H ++ [.revoke v]) = _ := historyEvidence_revoke v
    show Holds node _ (v.store node t).1
    refine ⟨v.store_sound h.sound, fun x => ?_, ?_, ?_, fun x => ?_, fun x k => ?_⟩
    · rw [v.hasRecord_store, h.has, submittedIn_append_revoke]
      simp
    · rw [hrevoked.notarized, hhistory, h.notarized]
    · rw [hrevoked.marked, hhistory, h.marked]
    · rw [hrevoked.tombed, h.tombed, hhistory]
      constructor
      · rintro (⟨w, hw⟩ | rfl)
        · exact ⟨w, .inr hw⟩
        · exact ⟨_, .inl rfl⟩
      · rintro ⟨w, hw | hw⟩
        · exact .inr (Prod.mk.inj hw).1
        · exact .inl ⟨w, hw⟩
    · rw [hrevoked.key, h.key, hhistory]
      constructor
      · rintro (hx | ⟨rfl, hk⟩)
        · exact .inr hx
        · exact .inl (Prod.ext rfl hk.symm)
      · rintro (hx | hx)
        · exact .inr ⟨(Prod.mk.inj hx).1, (Prod.mk.inj hx).2.symm⟩
        · exact .inl hx

theorem holds_ledger (env : SignalExternals) (node : String) (requests : List SignalRequest) :
    Holds node (acceptedOf env requests) (ledgerAfter env node requests) := by
  induction requests using List.reverseRecOn with
  | nil => exact holds_empty node
  | append_singleton requests r ih =>
    have hledger : ledgerAfter env node (requests ++ [r]) =
        r.handle env node (ledgerAfter env node requests) := List.foldl_append
    have haccepted : acceptedOf env (requests ++ [r]) =
        acceptedOf env requests ++ (r.accepted env).toList := by
      rw [acceptedOf, List.filterMap_append]
      cases h : r.accepted env <;> simp [acceptedOf, h]
    rw [hledger, haccepted, SignalRequest.handle_eq]
    cases r.accepted env with
    | none =>
      rw [Option.toList_none, List.append_nil]
      exact ih
    | some a => exact ih.store a

/-! ### The law -/

/-- **Supersession is derived**: a hash that is not revoked is superseded exactly if a notarized record that
is not revoked names it. -/
def SupersessionDerived (t : SignalTables) : Prop :=
  ∀ x st, t.effectiveStatus x = some st → t.isRevoked x = false →
    (st = .superseded ↔
      ∃ s ∈ t.records, s.isTombstone = false ∧ s.supersedesHash = some x ∧ t.isRevoked s.signalHash = false)

/-- **The condition**: of the records that were marked, each that has not been withdrawn still has a successor
that has not been withdrawn. -/
def SuccessorsStand (H : List Accepted) : Prop :=
  ∀ x ∈ (historyEvidence H).marked, ¬(historyEvidence H).Withdrawn x → (historyEvidence H).Superseded x

theorem Holds.withdrawn (h : Holds node H t) (x : String) :
    t.evidence.Withdrawn x ↔ (historyEvidence H).Withdrawn x :=
  Evidence.withdrawn_congr h.notarized (h.tombed x) (h.key x)

theorem Holds.superseded (h : Holds node H t) (x : String) :
    t.evidence.Superseded x ↔ (historyEvidence H).Superseded x :=
  Evidence.superseded_congr h.notarized fun y _ => h.withdrawn y.hash

theorem superseded_rows (h : t.Sound) (x : String) : t.evidence.Superseded x ↔
    ∃ s ∈ t.records, s.isTombstone = false ∧ s.supersedesHash = some x ∧
      t.isRevoked s.signalHash = false := by
  constructor
  · rintro ⟨y, ⟨s, hs, hreal, rfl⟩, hnames, hnot⟩
    exact ⟨s, hs, hreal, hnames, Bool.eq_false_iff.2 fun hr =>
      hnot ((SignalTables.isRevoked_iff h.regular).1 hr)⟩
  · rintro ⟨s, hs, hreal, hnames, hnot⟩
    refine ⟨s.notarization, ⟨s, hs, hreal, rfl⟩, hnames, fun hw => ?_⟩
    rw [show t.isRevoked s.signalHash = true from (SignalTables.isRevoked_iff h.regular).2 hw] at hnot
    cases hnot

/-- **When supersession is derived.** -/
theorem supersession_derived_iff (env : SignalExternals) (node : String) (requests : List SignalRequest) :
    SupersessionDerived (ledgerAfter env node requests) ↔ SuccessorsStand (acceptedOf env requests) := by
  have h := holds_ledger env node requests
  generalize ledgerAfter env node requests = t at h
  generalize acceptedOf env requests = H at h
  have hregular := h.sound.regular
  have hnot : ∀ x, t.isRevoked x = false ↔ ¬(historyEvidence H).Withdrawn x := by
    intro x
    rw [← h.withdrawn, ← SignalTables.isRevoked_iff hregular, Bool.not_eq_true]
  constructor
  · intro hlaw x hmarked hwithdrawn
    rw [← h.marked] at hmarked
    have hlisted : t.Listed x := by
      obtain ⟨r, hr, hhash, -⟩ := hmarked
      exact ⟨r, hr, hhash⟩
    have hstatus := (SignalTables.effectiveStatus_eq_superseded hregular hlisted).2
      ⟨mt (h.withdrawn x).1 hwithdrawn, .inr hmarked⟩
    rw [← h.superseded, superseded_rows h.sound]
    exact (hlaw x .superseded hstatus ((hnot x).2 hwithdrawn)).1 rfl
  · intro hstand x st hst hrevoked
    rw [← superseded_rows h.sound]
    have hwithdrawn := (hnot x).1 hrevoked
    have hiff := SignalTables.effectiveStatus_eq_superseded hregular
      (SignalTables.listed_of_effectiveStatus hst)
    rw [hst, Option.some.injEq] at hiff
    rw [hiff]
    constructor
    · rintro ⟨-, hs | hmarked⟩
      · exact hs
      · rw [h.marked] at hmarked
        exact (h.superseded x).2 (hstand x hmarked hwithdrawn)
    · exact fun hs => ⟨mt (h.withdrawn x).1 hwithdrawn, .inl hs⟩

/-! ### A withdrawal that gives nothing back -/

namespace Sample

/-- A string of one digit. -/
def hexOf (c : Char) : String := String.ofList (List.replicate 64 c)

/-- The submitter, and an agent that issues signals. -/
def portal : String := hexOf 'a'

def agent : String := hexOf 'b'

/-- A signal of the agent; the second one replaces the first. -/
def envelope (n : UInt8) : TrustSignalEnvelope where
  subjectKind := .agent
  issuerKind := .agent
  issuerPubkey := agent
  type := "endorsement"
  supersedesHash := if n = 2 then some (List.replicate 32 1) else none
  other := []

/-- The request bodies: two submissions, and the agent's withdrawal of the second signal. -/
def body : Bytes → Except String JsAny
  | [3] => .ok (.obj [("v", .num (.fin 1)), ("op", .str "revoke"),
      ("signal_hash", .str (Bytes.toHex (List.replicate 32 2))), ("issued_at", .num (.fin 0)),
      ("revoker_pubkey", .str agent), ("revoker_signature", .bytes (List.replicate 64 7))])
  | [n] => .ok (.obj [("v", .num (.fin 1)), ("op", .str "submit"), ("envelope", .bytes [n]),
      ("signal_hash", .str (Bytes.toHex (List.replicate 32 n))), ("scanner_version", .str "1"),
      ("issued_at", .num (.fin 0))])
  | _ => .error "not CBOR"

/-- The digests of the bodies. -/
def digests : HexSha256 :=
  .ofTable
    [("01", 0x4bf5122f344554c53bde2ebb8cd2b7e3d1600ad631c385a5d7cce23c7785459a#256),
      ("02", 0xdbc1b4c900ffe48d575b5da5c638040125f65db0fe3e24494b76ea986457d986#256),
      ("03", 0x084fed08b978af4d7d196a7446a86b58009e636b611db16211b65a9aadff29c5#256),
      ("04", 0xe52d9c508c502347344d8c07ad91cbd6068afc75ff6292f062a09ca381c89e71#256)]
    0xe3b0c44298fc1c149afbf4c8996fb92427ae41e4649b934ca495991b7852b855#256

def packages : SignalExternals where
  verify _ _ signature := .ok (decide (signature = [7] ∨ signature = List.replicate 64 7))
  sha256 bytes := Bytes.ofHex (digests.hex bytes.toHex)
  decodeCbor := body
  encodeCbor _ := []
  decodeTrustSignalEnvelope bytes :=
    match bytes with
    | [n] => .ok (envelope n)
    | _ => .error "no envelope"
  hashTrustSignalEnvelope e := .ok (List.replicate 32 (if e.supersedesHash = none then 1 else 2))

def request (n : UInt8) : SignedRequest where
  issuers key := if key = portal then some ("submitter", "active") else none
  nowSec := 0
  bodyCbor := [n]
  signerPubkeyHex := portal
  signatureHex := "07"

/-- The first signal, the second, and the withdrawal of the second. -/
def withdrawal : List SignalRequest := [.submit (request 1), .submit (request 2), .revoke (request 3)]

end Sample

/-- **A withdrawn successor does not give its predecessor back**: no record names it but the revoked one, and
it stays superseded. -/
theorem withdrawn_successor_sticks : ¬SupersessionDerived (ledgerAfter Sample.packages "a" Sample.withdrawal) := by
  intro hlaw
  have hstatus : (ledgerAfter Sample.packages "a" Sample.withdrawal).effectiveStatus
      (Bytes.toHex (List.replicate 32 1)) = some .superseded := by decide +kernel
  have hnone : ∀ s ∈ (ledgerAfter Sample.packages "a" Sample.withdrawal).records,
      s.supersedesHash = some (Bytes.toHex (List.replicate 32 1)) →
        (ledgerAfter Sample.packages "a" Sample.withdrawal).isRevoked s.signalHash = true := by decide +kernel
  obtain ⟨s, hs, -, hnames, hnot⟩ := (hlaw _ _ hstatus (by decide +kernel)).1 rfl
  rw [hnone s hs hnames] at hnot
  cases hnot

end Cello.Directory.Signals
