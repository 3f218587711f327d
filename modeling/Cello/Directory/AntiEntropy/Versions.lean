import Cello.Directory.AntiEntropy.Liveness

/-!
# Three renderings of a row

What `tierBVersions` hashes is the row as the driver yields it.  What a peer hashes is the body that
`serveTierB` serves for the row, and what an apply compares is the version of the merged body.  The
three agree on a row as long as the body says what the row says.

The one place where it may not is the sequence number of a suspension: the driver has it in decimal, and
a body has it as a number, which is written back with the fewest digits that read as that number
(`suspension_texts_eq_iff`).  Where two nodes advertise one hash, though, an apply of either body leaves
the other's row, whatever the numbers (`Lawful.unchanged`).
-/

namespace Cello.Directory.AntiEntropy

open Lib

namespace TierBPg

variable {ρ σ β : Type} (nfc : Nfc) (sha : Sha256) (t : TierBPg ρ σ β)

def recomputed (key : String) (row : ρ) : Except AeError String :=
  (t.served key row).map (t.versionHash nfc sha)

/-- The texts that are hashed for a row; a row that cannot be read has none. -/
def texts (key : String) (row : ρ) : List String :=
  match t.select key row with
  | .ok s => [t.rowText nfc s, t.bodyText nfc (t.rowToBody s)]
  | .error _ => []

def Leaves (key : String) (row row' : ρ) : Prop :=
  ∀ hash, t.advertised nfc sha key row = .ok hash → t.advertised nfc sha key row' = .ok hash →
    ∀ body, t.served key row' = .ok body → ∃ one,
      t.applyOneTierB nfc sha (some row) ⟨key, t.wire body⟩ = .ok one ∧
        one.moved = false ∧ one.row = row

/-- What the three renderings have to do with each other. -/
structure Lawful : Prop where
  wire_obj : ∀ body, ∃ members, t.wire body = .obj members
  prop_wire : ∀ key row s, t.select key row = .ok s →
    (t.wire (t.rowToBody s)).prop t.keyColumn = .str key
  validateBody_wire : ∀ body, t.validateBody (t.wire body) = .ok body
  /-- Merging what is advertised alike does not show. -/
  merge_bodyText : ∀ s s', t.rowText nfc s = t.rowText nfc s' →
    t.bodyText nfc (t.merge (t.rowToBody s) (t.rowToBody s')) = t.bodyText nfc (t.rowToBody s)

variable {nfc sha t}

variable (nfc) in
theorem mem_texts {key : String} {row : ρ} {s : σ} (h : t.select key row = .ok s) :
    t.rowText nfc s ∈ t.texts nfc key row ∧ t.bodyText nfc (t.rowToBody s) ∈ t.texts nfc key row := by
  rw [texts, h]
  exact ⟨List.mem_cons_self, List.mem_cons_of_mem _ List.mem_cons_self⟩

theorem advertised_eq_recomputed_iff {key : String} {row : ρ}
    (hfree : Set.InjOn sha.hex {x | x ∈ t.texts nfc key row}) :
    t.advertised nfc sha key row = t.recomputed nfc sha key row ↔
      ∀ s, t.select key row = .ok s → t.rowText nfc s = t.bodyText nfc (t.rowToBody s) := by
  unfold advertised recomputed served
  cases hselect : t.select key row with
  | error e =>
    refine ⟨fun _ s hs => ?_, fun _ => rfl⟩
    cases hs
  | ok s =>
    obtain ⟨hrow, hbody⟩ := mem_texts nfc hselect
    constructor
    · rintro h _ ⟨⟩
      exact hfree hrow hbody (Except.ok.inj h)
    · intro h
      exact congrArg (fun text => Except.ok (sha.hex text)) (h s rfl)

theorem Lawful.leaves (h : t.Lawful nfc) {key : String} {row row' : ρ}
    (hfree : Set.InjOn sha.hex {x | x ∈ t.texts nfc key row ++ t.texts nfc key row'}) :
    t.Leaves nfc sha key row row' := by
  intro hash hrow hrow' body hbody
  obtain ⟨s, hs, hhash⟩ := exists_of_map_ok hrow
  obtain ⟨s', hs', hhash'⟩ := exists_of_map_ok hrow'
  have htext : t.rowText nfc s = t.rowText nfc s' :=
    hfree (List.mem_append_left _ (mem_texts nfc hs).1) (List.mem_append_right _ (mem_texts nfc hs').1)
      (hhash.trans hhash'.symm)
  have hserved : t.rowToBody s' = body := by
    unfold served at hbody
    rw [hs'] at hbody
    exact Except.ok.inj hbody
  subst hserved
  obtain ⟨members, hobj⟩ := h.wire_obj (t.rowToBody s')
  have haccept : t.accept ⟨key, t.wire (t.rowToBody s')⟩ = .ok (t.rowToBody s') := by
    have hprop := h.prop_wire key row' s' hs'
    have hvalid := h.validateBody_wire (t.rowToBody s')
    rw [hobj] at hprop hvalid ⊢
    exact accept_of_valid hprop hvalid
  have hversion : t.versionHash nfc sha (t.merge (t.rowToBody s) (t.rowToBody s')) =
      t.versionHash nfc sha (t.rowToBody s) := congrArg sha.hex (h.merge_bodyText s s' htext)
  have hone : t.applyOneTierB nfc sha (some row) ⟨key, t.wire (t.rowToBody s')⟩ = .ok ⟨row, false,
      t.witnessDisagrees.any fun w => w (t.rowToBody s) (t.rowToBody s')⟩ := by
    rw [applyOneTierB, haccept]
    exact mergeRow_of_unmoved hs hversion
  exact ⟨_, hone, rfl, rfl⟩

end TierBPg

section

variable {nfc : Nfc} {sha : Sha256}

/-! ### Suspensions -/

theorem bodyText_accepted (r : SuspensionRecord) :
    (agentSuspensions nfc sha).bodyText nfc r.accepted = versionText nfc r := rfl

theorem normalize_toString (n : ℤ) : nfc.normalize (toString n) = toString n := by
  refine nfc.normalize_ascii _ ?_
  have hdigits : ∀ m : ℕ, ∀ c ∈ m.repr.toList, c.toNat < 128 := by
    intro m c hc
    rw [Nat.toList_repr] at hc
    exact Double.toNat_lt_of_mem_toDigits hc
  cases n with
  | ofNat m => exact hdigits m
  | negSucc m =>
    intro c hc
    change c ∈ ("-" ++ (m + 1).repr).toList at hc
    rw [String.toList_append, List.mem_append] at hc
    rcases hc with hc | hc
    · rw [List.mem_singleton.1 hc]
      decide
    · exact hdigits _ c hc

theorem normalize_text (d : Double.Whole) : nfc.normalize (Double.text d) = Double.text d :=
  nfc.normalize_ascii _ (Double.text_ascii d)

theorem toString_eq_text_iff (seq : Bigint) :
    toString seq.val = Double.text (Double.number seq.val) ↔
      Double.integer (Double.number seq.val) = seq.val := by
  have hlt : (Double.number seq.val).1.natAbs < 2 ^ 64 := by
    have hseq : seq.val.natAbs ≤ 2 ^ 63 := by
      have := seq.lower
      have := seq.upper
      omega
    exact (Double.natAbs_number_le hseq).trans_lt (by decide)
  rw [Double.text_eq_toString hlt]
  exact ⟨fun h => (Double.toString_int_inj h).symm, fun h => by rw [h]⟩

theorem suspension_texts_eq_iff (s : SelectedSuspension) :
    (agentSuspensions nfc sha).rowText nfc s =
        (agentSuspensions nfc sha).bodyText nfc ((agentSuspensions nfc sha).rowToBody s) ↔
      Double.integer (Double.number s.row.suspensionSeq.val) = s.row.suspensionSeq.val := by
  change tierBText nfc suspensionVersionSpec s.columns =
    tierBText nfc suspensionVersionSpec (s.row.toBody s.agentId).accepted.toVersionRow ↔ _
  rw [tierBText, tierBText, recordText_eq_iff, ← toString_eq_text_iff]
  have hcolumn : normalizeColumn (s.columns "suspension_seq") =
      .str (toString s.row.suspensionSeq.val) := rfl
  have hbody : normalizeColumn ((s.row.toBody s.agentId).accepted.toVersionRow "suspension_seq") =
      .str (Double.text (Double.number s.row.suspensionSeq.val)) := rfl
  constructor
  · intro h
    have hseq := h "suspension_seq" (by decide)
    rwa [hcolumn, hbody, replaced_str_iff, normalize_toString, normalize_text] at hseq
  · intro hseq c hc
    simp only [suspensionVersionSpec, List.mem_cons, List.not_mem_nil, or_false] at hc
    rcases hc with rfl | rfl | rfl | rfl | rfl | rfl | rfl
    case inr.inr.inr.inr.inr.inl => rw [hcolumn, hbody, hseq]
    all_goals rfl

theorem sameVersion_of_rowText {s s' : SelectedSuspension}
    (h : (agentSuspensions nfc sha).rowText nfc s = (agentSuspensions nfc sha).rowText nfc s') :
    SameVersion nfc (s.row.toBody s.agentId) (s'.row.toBody s'.agentId) := by
  change tierBText nfc suspensionVersionSpec s.columns =
    tierBText nfc suspensionVersionSpec s'.columns at h
  rw [tierBText, tierBText, recordText_eq_iff] at h
  have hagent : nfc.normalize s.agentId = nfc.normalize s'.agentId :=
    replaced_str_iff.1 (h "agent_id" (by decide))
  have hpaused : s.row.paused = s'.row.paused := replaced_flag_iff.1 (h "paused" (by decide))
  have hburned : s.row.burned = s'.row.burned := replaced_flag_iff.1 (h "burned" (by decide))
  have hreason := h "reason" (by decide)
  have haccount : nfc.normalize s.row.authorizedByAccount.1 = nfc.normalize s'.row.authorizedByAccount.1 :=
    replaced_str_iff.1 (h "authorized_by_account" (by decide))
  have hseq : nfc.normalize (toString s.row.suspensionSeq.val) =
      nfc.normalize (toString s'.row.suspensionSeq.val) :=
    replaced_str_iff.1 (h "suspension_seq" (by decide))
  have horigin : nfc.normalize (s.row.originNode.getD "") = nfc.normalize (s'.row.originNode.getD "") :=
    replaced_str_iff.1 (h "origin_node" (by decide))
  rw [normalize_toString, normalize_toString] at hseq
  simp only [SelectedSuspension.columns, normalizeColumn_textOrNull, replaced_textOrNull_iff] at hreason
  refine ⟨?_, hpaused, hburned⟩
  simp only [label, SuspensionRow.toBody, hagent, hreason, haccount, horigin,
    Double.toString_int_inj hseq, Option.map_some]

theorem agentSuspensions_lawful : (agentSuspensions nfc sha).Lawful nfc where
  wire_obj _ := ⟨_, rfl⟩
  prop_wire := by
    rintro key row _ ⟨⟩
    rfl
  validateBody_wire := validateBody_wire
  merge_bodyText s s' h := by
    change (agentSuspensions nfc sha).bodyText nfc ((s.row.toBody s.agentId).accepted.merge nfc sha
      (s'.row.toBody s'.agentId).accepted) = (agentSuspensions nfc sha).bodyText nfc _
    rw [merge_accepted, bodyText_accepted]
    exact versionText_eq_iff.2 (sameVersion_mergeSuspension (sameVersion_of_rowText h))

/-! ### Presence and heartbeats -/

variable {toTimestamp : String → Except AeError Timestamp}

theorem presence_texts_eq (s : SelectedPresence) :
    (agentPresence toTimestamp).rowText nfc s =
      (agentPresence toTimestamp).bodyText nfc ((agentPresence toTimestamp).rowToBody s) := rfl

theorem node_texts_eq (s : SelectedNode) :
    (directoryNodes toTimestamp).rowText nfc s =
      (directoryNodes toTimestamp).bodyText nfc ((directoryNodes toTimestamp).rowToBody s) := rfl

theorem agentPresence_lawful : (agentPresence toTimestamp).Lawful nfc where
  wire_obj _ := ⟨_, rfl⟩
  prop_wire := by
    intro key row s hs
    unfold agentPresence PresenceRow.select at hs
    dsimp only at hs
    cases hlast : epochMillis row.lastSeenAt with
    | error e => rw [hlast] at hs; cases hs
    | ok lastSeenAt =>
      cases hupdated : epochMillis row.updatedAt with
      | error e => rw [hlast, hupdated] at hs; cases hs
      | ok updatedAt =>
        rw [hlast, hupdated] at hs
        cases hs
        rfl
  validateBody_wire := PresenceRecord.validateBody_wire
  merge_bodyText s s' h := by
    rw [presence_texts_eq, presence_texts_eq] at h
    rcases freshest_eq_or PresenceRecord.updatedAt PresenceRecord.canonical s.toBody s'.toBody with
      hwin | hwin
    · exact congrArg _ hwin
    · exact (congrArg _ hwin).trans h.symm

theorem directoryNodes_lawful : (directoryNodes toTimestamp).Lawful nfc where
  wire_obj _ := ⟨_, rfl⟩
  prop_wire := by
    intro key row s hs
    obtain ⟨t, -, rfl⟩ := exists_of_map_ok hs
    rfl
  validateBody_wire := DirectoryNodeHeartbeatRecord.validateBody_wire
  merge_bodyText s s' h := by
    change (directoryNodes toTimestamp).bodyText nfc (mergeDirectoryNodeHeartbeat s.toBody s'.toBody) =
      (directoryNodes toTimestamp).bodyText nfc s.toBody
    unfold mergeDirectoryNodeHeartbeat
    rcases freshest_eq_or DirectoryNodeHeartbeatRecord.lastHeartbeatAt
      DirectoryNodeHeartbeatRecord.canonical s.toBody s'.toBody with hwin | hwin
    · rw [hwin]
    · -- the other's key and time are this row's, up to normalization, and the status is its own
      change tierBText nfc directoryNodeHeartbeatVersionSpec s.columns =
        tierBText nfc directoryNodeHeartbeatVersionSpec s'.columns at h
      rw [tierBText, tierBText, recordText_eq_iff] at h
      rw [hwin, TierBPg.bodyText, TierBPg.bodyText, tierBText, tierBText]
      refine recordText_eq_iff.2 ?_
      intro c hc
      have hside := h c hc
      simp only [directoryNodes, directoryNodeHeartbeatVersionSpec, List.mem_cons, List.not_mem_nil,
        or_false] at hc
      rcases hc with rfl | rfl | rfl
      · exact hside.symm
      · rfl
      · exact hside.symm

end

/-! ### The three tables -/

/-- A stored row of a mutable table, with its key. -/
inductive StoredRow where
  | agentSuspension (agentId : String) (row : SuspensionRow)
  | agentPresence (kLocalPubkey : String) (row : PresenceRow)
  | directoryNode (nodeId : String) (row : DirectoryNodeRow)

namespace StoredRow

variable (nfc : Nfc) (sha : Sha256) (toTimestamp : String → Except AeError Timestamp)

/-- What is advertised for the row is what a peer computes of the body that is served for it. -/
def Agrees : StoredRow → Prop
  | agentSuspension key row =>
    (agentSuspensions nfc sha).advertised nfc sha key row = (agentSuspensions nfc sha).recomputed nfc sha key row
  | agentPresence key row =>
    (AntiEntropy.agentPresence toTimestamp).advertised nfc sha key row =
      (AntiEntropy.agentPresence toTimestamp).recomputed nfc sha key row
  | directoryNode key row =>
    (directoryNodes toTimestamp).advertised nfc sha key row =
      (directoryNodes toTimestamp).recomputed nfc sha key row

/-- Of two nodes' rows under one key of one table, an apply of either's body leaves the other when
they are advertised under one hash. -/
def Settled : StoredRow → StoredRow → Prop
  | agentSuspension key row, agentSuspension key' row' => key = key' →
    (agentSuspensions nfc sha).Leaves nfc sha key row row' ∧
      (agentSuspensions nfc sha).Leaves nfc sha key row' row
  | agentPresence key row, agentPresence key' row' => key = key' →
    (AntiEntropy.agentPresence toTimestamp).Leaves nfc sha key row row' ∧
      (AntiEntropy.agentPresence toTimestamp).Leaves nfc sha key row' row
  | directoryNode key row, directoryNode key' row' => key = key' →
    (directoryNodes toTimestamp).Leaves nfc sha key row row' ∧
      (directoryNodes toTimestamp).Leaves nfc sha key row' row
  | _, _ => True

/-- The sequence number of a suspension is the integer that is written for it as a number. -/
def WrittenBack : StoredRow → Prop
  | agentSuspension _ row => Double.integer (Double.number row.suspensionSeq.val) = row.suspensionSeq.val
  | _ => True

/-- The texts that are hashed for a row. -/
def texts : StoredRow → List String
  | agentSuspension key row => (agentSuspensions nfc sha).texts nfc key row
  | agentPresence key row => (AntiEntropy.agentPresence toTimestamp).texts nfc key row
  | directoryNode key row => (directoryNodes toTimestamp).texts nfc key row

variable {nfc sha toTimestamp}

theorem writtenBack_of_lt {agentId : String} {row : SuspensionRow}
    (h : row.suspensionSeq.val.natAbs < 2 ^ 53) : (agentSuspension agentId row).WrittenBack :=
  Double.integer_number_of_lt h

theorem agrees_iff {r : StoredRow} (hfree : Set.InjOn sha.hex {x | x ∈ r.texts nfc sha toTimestamp}) :
    r.Agrees nfc sha toTimestamp ↔ r.WrittenBack := by
  cases r with
  | agentSuspension key row =>
    rw [Agrees, TierBPg.advertised_eq_recomputed_iff hfree]
    constructor
    · exact fun h => (suspension_texts_eq_iff ⟨key, row⟩).1 (h _ rfl)
    · rintro h _ ⟨⟩
      exact (suspension_texts_eq_iff ⟨key, row⟩).2 h
  | agentPresence key row =>
    rw [Agrees, TierBPg.advertised_eq_recomputed_iff hfree]
    exact ⟨fun _ => trivial, fun _ s _ => presence_texts_eq s⟩
  | directoryNode key row =>
    rw [Agrees, TierBPg.advertised_eq_recomputed_iff hfree]
    exact ⟨fun _ => trivial, fun _ s _ => node_texts_eq s⟩

theorem settled {r r' : StoredRow} (hfree : Set.InjOn sha.hex
    {x | x ∈ r.texts nfc sha toTimestamp ++ r'.texts nfc sha toTimestamp}) :
    r.Settled nfc sha toTimestamp r' := by
  have hfree' : Set.InjOn sha.hex
      {x | x ∈ r'.texts nfc sha toTimestamp ++ r.texts nfc sha toTimestamp} := by
    refine hfree.mono fun x hx => ?_
    exact List.mem_append.2 (List.mem_append.1 hx).symm
  cases r with
  | agentSuspension key row =>
    cases r' with
    | agentSuspension key' row' =>
      rintro rfl
      exact ⟨agentSuspensions_lawful.leaves hfree, agentSuspensions_lawful.leaves hfree'⟩
    | _ => trivial
  | agentPresence key row =>
    cases r' with
    | agentPresence key' row' =>
      rintro rfl
      exact ⟨agentPresence_lawful.leaves hfree, agentPresence_lawful.leaves hfree'⟩
    | _ => trivial
  | directoryNode key row =>
    cases r' with
    | directoryNode key' row' =>
      rintro rfl
      exact ⟨directoryNodes_lawful.leaves hfree, directoryNodes_lawful.leaves hfree'⟩
    | _ => trivial

end StoredRow

/-- **Advertise, serve and apply agree on a row when its number is written back**, for every row of the
three tables and every row of another node; no two texts that are compared collide. -/
theorem renderings_agree_iff (nfc : Nfc) (sha : Sha256) (toTimestamp : String → Except AeError Timestamp)
    (r r' : StoredRow) (hfree : Set.InjOn sha.hex
      {x | x ∈ r.texts nfc sha toTimestamp ++ r'.texts nfc sha toTimestamp}) :
    (r.Agrees nfc sha toTimestamp ∧ r.Settled nfc sha toTimestamp r') ↔ r.WrittenBack := by
  have hown : Set.InjOn sha.hex {x | x ∈ r.texts nfc sha toTimestamp} :=
    hfree.mono fun _ hx => List.mem_append_left _ hx
  rw [StoredRow.agrees_iff hown]
  exact ⟨And.left, fun h => ⟨h, StoredRow.settled hfree⟩⟩

/-! ### A number that is not written back -/

namespace Versions.Sample

def nfc : Nfc := ⟨id, normalize_ascii_id⟩

theorem accountId_uuid : ∃ s, ChainStore.uuidIn s = some "b1ffcd88-8d1c-4ff9-9c7d-5aaace491b22" :=
  ⟨"b1ffcd88-8d1c-4ff9-9c7d-5aaace491b22", by decide⟩

def pausedRow (suspensionSeq : Bigint) : SuspensionRow where
  paused := true
  burned := false
  reason := none
  authorizedByAccount := ⟨_, accountId_uuid⟩
  suspensionSeq
  originNode := some "node-a"

theorem three_ge : -2 ^ 63 ≤ (3 : ℤ) := by decide

theorem three_lt : (3 : ℤ) < 2 ^ 63 := by decide

theorem safe_ge : -2 ^ 63 ≤ (2 ^ 53 : ℤ) := by decide

theorem safe_lt : (2 ^ 53 : ℤ) < 2 ^ 63 := by decide

theorem beyond_ge : -2 ^ 63 ≤ (2 ^ 53 + 1 : ℤ) := by decide

theorem beyond_lt : (2 ^ 53 + 1 : ℤ) < 2 ^ 63 := by decide

def third : StoredRow := .agentSuspension "agent-1" (pausedRow ⟨3, three_ge, three_lt⟩)

/-- `2 ^ 53 + 1`. -/
def beyond : StoredRow := .agentSuspension "agent-1" (pausedRow ⟨2 ^ 53 + 1, beyond_ge, beyond_lt⟩)

/-- The text that is hashed for the record of a sequence number. -/
def textOf (suspensionSeq : Bigint) : String :=
  tierBText nfc suspensionVersionSpec (SelectedSuspension.columns ⟨"agent-1", pausedRow suspensionSeq⟩)

def sha : Sha256 := (HexSha256.ofTable
  [(textOf ⟨3, three_ge, three_lt⟩,
      0xf1066a59de9e2c372c7915b496e451fadaffb5590338105547e569d5a8de3943),
    (textOf ⟨2 ^ 53, safe_ge, safe_lt⟩,
      0xe365e4c5f0397d96d5f7c290a60d9715e18ec5ae94fe7f553ff01266493f667f),
    (textOf ⟨2 ^ 53 + 1, beyond_ge, beyond_lt⟩,
      0x0f01b00d7d583a3843d3c76b8496556c651d99813c8413b25471781f4bd2da76)] 0).toSha256

def toTimestamp : String → Except AeError Timestamp := fun _ => .ok (.micros 0)

theorem texts_pausedRow {seq written : Bigint}
    (h : Double.text (Double.number seq.val) = toString written.val) :
    (StoredRow.agentSuspension "agent-1" (pausedRow seq)).texts nfc sha toTimestamp =
      [textOf seq, textOf written] := by
  have hbody : tierBText nfc suspensionVersionSpec
      ((pausedRow seq).toBody "agent-1").accepted.toVersionRow =
        tierBText nfc suspensionVersionSpec (SelectedSuspension.columns ⟨"agent-1", pausedRow written⟩) := by
    rw [tierBText, tierBText, recordText_eq_iff]
    have hcolumn : normalizeColumn
        (((pausedRow seq).toBody "agent-1").accepted.toVersionRow "suspension_seq") =
          .str (Double.text (Double.number seq.val)) := rfl
    have hwritten : normalizeColumn
        (SelectedSuspension.columns ⟨"agent-1", pausedRow written⟩ "suspension_seq") =
          .str (toString written.val) := rfl
    intro c hc
    simp only [suspensionVersionSpec, List.mem_cons, List.not_mem_nil, or_false] at hc
    rcases hc with rfl | rfl | rfl | rfl | rfl | rfl | rfl
    case inr.inr.inr.inr.inr.inl => rw [hcolumn, hwritten, h]
    all_goals rfl
  exact congrArg (fun text => [textOf seq, text]) hbody

end Versions.Sample

open Versions.Sample in
/-- A row whose number is written back. -/
theorem renderings_agree_iff_on_a_row :
    third.Agrees nfc sha toTimestamp ∧ third.Settled nfc sha toTimestamp third := by
  have hwritten : third.WrittenBack := StoredRow.writtenBack_of_lt (by decide)
  have htexts : third.texts nfc sha toTimestamp =
      [textOf ⟨3, three_ge, three_lt⟩, textOf ⟨3, three_ge, three_lt⟩] :=
    texts_pausedRow ((toString_eq_text_iff ⟨3, three_ge, three_lt⟩).2 hwritten).symm
  refine (renderings_agree_iff nfc sha toTimestamp third third ?_).2 hwritten
  have hsame : ∀ x ∈ third.texts nfc sha toTimestamp ++ third.texts nfc sha toTimestamp,
      x = textOf ⟨3, three_ge, three_lt⟩ := by
    intro x hx
    rw [htexts] at hx
    simpa using hx
  intro x hx y hy _
  rw [hsame x hx, hsame y hy]

open Versions.Sample in
/-- **A number is advertised as it is, and served as its neighbour.** -/
theorem renderings_disagree : ¬beyond.Agrees nfc sha toTimestamp := by
  have hwritten : Double.text (Double.number (2 ^ 53 + 1)) = toString (2 ^ 53 : ℤ) := by
    have hnumber : Double.number (2 ^ 53 + 1) = Double.number (2 ^ 53) :=
      Subtype.ext (by decide)
    rw [hnumber]
    exact ((toString_eq_text_iff ⟨2 ^ 53, safe_ge, safe_lt⟩).2 (by decide)).symm
  have htexts : beyond.texts nfc sha toTimestamp =
      [textOf ⟨2 ^ 53 + 1, beyond_ge, beyond_lt⟩, textOf ⟨2 ^ 53, safe_ge, safe_lt⟩] :=
    texts_pausedRow hwritten
  have hinj : Set.InjOn sha.hex {x | x ∈ beyond.texts nfc sha toTimestamp} := by
    refine (HexSha256.ofTable_injOn (by decide)).mono fun x hx => ?_
    change x ∈ beyond.texts nfc sha toTimestamp at hx
    rw [htexts] at hx
    simp only [List.mem_cons, List.not_mem_nil, or_false] at hx
    rcases hx with rfl | rfl
    · exact List.mem_cons_of_mem _ (List.mem_cons_of_mem _ List.mem_cons_self)
    · exact List.mem_cons_of_mem _ List.mem_cons_self
  rw [StoredRow.agrees_iff hinj]
  change ¬Double.integer (Double.number (2 ^ 53 + 1)) = 2 ^ 53 + 1
  decide

end Cello.Directory.AntiEntropy
