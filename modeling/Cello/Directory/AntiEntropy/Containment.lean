import Cello.Directory.AntiEntropy.RemoteView

/-!
# What a peer can do to a node

One round of a node against a peer that answers what it likes: any digests, hashes, versions, records
and bodies.  The round changes the node's tables as `Contained` says.  It adds to the append-only tables
rows that it had planned to pull, it lifts no burn, it lifts a pause only for a newer body, and it leaves
what a directory node is and how it stands.  A table that fails costs itself, with one exception.

The exception is the bucket walk.  The first read of each table is isolated: a table that fails is left
out of the plan.  The walk reads the table again, inside the plan, and what that read throws is thrown by
the whole round.  So a round is contained exactly when no re-read fails that a walk comes to
(`contained_iff`).
-/

namespace Cello.Directory.AntiEntropy

open Lib

/-! ### The round of a node -/

section

variable (pg : PgAeStore) (timeoutMs : ℕ) (second : String → Except String (List TableRow)) (peer : Peer)
  (start : LocalTables)

/-- The peer as the round sees it; `second` is what the re-read of a table comes to. -/
def remoteOf : RemoteStoreView := ⟨timeoutMs, peer, fun table => pg.hashesOf table (second table)⟩

/-- The tables after a round, and what its caller gets. -/
def nodeRound : LocalTables × Except AeError RoundResult :=
  runAntiEntropyRound pg.sha.toSha256 pg.view (RemoteStoreView.view pg.sha.toSha256) start
    (remoteOf pg timeoutMs second peer)

/-- The record hashes that the node plans to pull of a table (`get_roundPlan`: the plan of the round has
them). -/
def pulledHashes (table : String) : Except AeError (List String) :=
  plannedA pg.sha.toSha256 pg.view (RemoteStoreView.view pg.sha.toSha256) start
    (remoteOf pg timeoutMs second peer) table

/-! ### Containment -/

def Added (table : String) (row : TableRow) : Prop :=
  ∃ t hashes hash body, pg.registry.find table = .ok t ∧
    pulledHashes pg timeoutMs second peer start table = .ok hashes ∧ hash ∈ hashes ∧
    bodyHash pg.nfc pg.sha.toSha256 t.spec body = .ok hash ∧ pg.Stored t body row

def ServedSuspension (agentId : String) (body : SuspensionBody) : Prop :=
  ∃ keys records rec, (remoteOf pg timeoutMs second peer).serveTierB "agent_suspensions" keys = .ok records ∧
    rec ∈ records ∧ rec.key = agentId ∧ SuspensionBody.validateBody rec.body = .ok body

/-- A local view and a re-read that answer as the node's own do for the tables of its registry. -/
structure AgreesOnRegistry (L : AeStoreView LocalTables JsAny JsAny)
    (localHashes : String → Except AeError (List String)) : Prop where
  tierATables : L.tierATables start = pg.view.tierATables start
  tierBTables : L.tierBTables start = pg.view.tierBTables start
  tierA : ∀ table ∈ pg.registry.names,
    L.tierARecordHashes start table = pg.view.tierARecordHashes start table ∧
    (∀ s records, L.applyTierA s table records = pg.view.applyTierA s table records) ∧
    localHashes table = pg.hashesOf table (second table)
  tierB : ∀ table ∈ tierBNames,
    L.tierBVersions start table = pg.view.tierBVersions start table ∧
    ∀ s records, L.applyTierB s table records = pg.view.applyTierB s table records

/-- **What a round may do to a node.** -/
structure Contained : Prop where
  /-- No append-only row is changed or removed. -/
  appended : ∀ table, ∃ added,
    (nodeRound pg timeoutMs second peer start).1.tierA table = start.tierA table ++ added ∧
      ∀ row ∈ added, Added pg timeoutMs second peer start table row
  /-- A burn stays, and a pause is lifted only for a body with a greater number. -/
  suspensions : ∀ agentId row, start.suspensions.get agentId = some row →
    ∃ row', (nodeRound pg timeoutMs second peer start).1.suspensions.get agentId = some row' ∧
      (row.burned = true → row'.burned = true) ∧
      (row.paused = true → row'.paused = false → ∃ body,
        ServedSuspension pg timeoutMs second peer agentId body ∧ body.paused = false ∧
          row.suspensionSeq.val < body.suspensionSeq.1)
  /-- What a directory node is and how it stands. -/
  nodes : ∀ nodeId row, start.directoryNodes.get nodeId = some row →
    ∃ row', (nodeRound pg timeoutMs second peer start).1.directoryNodes.get nodeId = some row' ∧
      row'.region = row.region ∧ row'.endpoint = row.endpoint ∧ row'.status = row.status
  /-- Nothing is written outside the registry. -/
  written : ∀ table ∉ pg.registry.names,
    (nodeRound pg timeoutMs second peer start).1.tierA table = start.tierA table
  /-- Nothing is read outside the registry: what a store would answer there does not show. -/
  read : ∀ L localHashes, AgreesOnRegistry pg second start L localHashes →
    runAntiEntropyRound pg.sha.toSha256 L (RemoteStoreView.view pg.sha.toSha256) start
      ⟨timeoutMs, peer, localHashes⟩ = nodeRound pg timeoutMs second peer start
  /-- What the store throws over a table is nothing that ends a round. -/
  storeErrors : ∀ s table e,
    (∀ records, (pg.applyTierA s table records).2 = .error e → e.ofExchange = false) ∧
    ∀ records, (pg.applyTierB s table records).2 = .error e → e.ofExchange = false
  /-- A round is given up only for the exchange with the peer; otherwise every table has had its turn, whatever
  failed in the others. -/
  isolated : match (nodeRound pg timeoutMs second peer start).2 with
    | .error e => e.ofExchange = true
    | .ok _ => (nodeRound pg timeoutMs second peer start).1 =
        everyTurn pg.sha.toSha256 pg.view (RemoteStoreView.view pg.sha.toSha256) start
          (remoteOf pg timeoutMs second peer)

/-! ### The re-reads of a plan -/

def Walked (table : String) : Prop :=
  ∃ mine digest, pg.tierARecordHashes start table = .ok mine ∧
    computeTableDigest pg.sha.toSha256 mine = .ok digest ∧
    (peer.state.tierA.get table).getD "" ≠ digest

/-- A walk gets past its re-read: when the peer's bucket digests come, the re-read succeeds, and `next`
holds when the hashes of the buckets come, too. -/
def WalkHolds (table : String) (next : Prop) : Prop :=
  ∀ buckets, (remoteOf pg timeoutMs second peer).peerBuckets table = .ok buckets →
    ∃ own, pg.hashesOf table (second table) = .ok own ∧
      ∀ hashes, (remoteOf pg timeoutMs second peer).hashesOfBuckets pg.sha.toSha256 table buckets own =
        .ok hashes → next

/-- Through the tables that the peer advertises, as long as the requests are sent and the peer's frames are in
order: every walk gets past its re-read. -/
def RereadsHold : List String → Prop
  | [] => True
  | table :: rest =>
    (Walked pg peer start table → WalkHolds pg timeoutMs second peer table (RereadsHold rest)) ∧
    (¬Walked pg peer start table → RereadsHold rest)

end

/-! ### Append-only tables -/

section

variable {pg : PgAeStore} {timeoutMs : ℕ} {second : String → Except String (List TableRow)} {peer : Peer}
  {start : LocalTables}

theorem hashesOf_valid {table : String} {rows : Except String (List TableRow)} {own : List String}
    (h : pg.hashesOf table rows = .ok own) : ∀ x ∈ own, isRecordHash x = true := by
  obtain ⟨t, -, h⟩ := bind_ok h
  obtain ⟨rows, -, h⟩ := bind_ok h
  cases h
  intro x hx
  obtain ⟨row, -, rfl⟩ := List.mem_map.1 hx
  exact isRecordHash_hex pg.sha _

theorem tierA_add (s : LocalTables) (table : String) (row : TableRow) (other : String) :
    (s.add table row).tierA other = if other = table then s.tierA table ++ [row] else s.tierA other :=
  Function.update_apply _ _ _ _

theorem applyTierB_tierA (s : LocalTables) (table : String) (records : List (TierBRecord JsAny)) :
    (pg.applyTierB s table records).1.tierA = s.tierA := by
  unfold PgAeStore.applyTierB
  split_ifs <;> rfl

theorem nodeRound_keeps {I : LocalTables → Prop} (hstart : I start)
    (hadd : ∀ (t : TierAPg) (s : LocalTables) row, I s → Added pg timeoutMs second peer start t.spec.table row →
      I (s.add t.spec.table row))
    (hB : ∀ table keys records s, I s →
      (remoteOf pg timeoutMs second peer).serveTierB table keys = .ok records →
      I (pg.applyTierB s table records).1) :
    I (nodeRound pg timeoutMs second peer start).1 := by
  refine round_keeps hstart ?_ ?_
  · intro table _ s hs
    unfold turnA
    refine turn_keeps hs ?_
    intro hashes records hplanned hserve
    refine PgAeStore.applyTierA_keeps hs ?_
    intro t hfind rec hrec s row hs hhash hstored
    obtain ⟨-, rfl⟩ := TierARegistry.table_of_find hfind
    exact hadd t s row hs ⟨t, hashes, rec.hash, rec.body, hfind, hplanned,
      mem_serveTierA hserve rec hrec, hhash, hstored⟩
  · intro table _ s hs
    unfold turnB
    refine turn_keeps hs ?_
    intro keys records _ hserve
    exact hB table keys records s hs hserve

theorem appended_of_round (table : String) : ∃ added,
    (nodeRound pg timeoutMs second peer start).1.tierA table = start.tierA table ++ added ∧
      ∀ row ∈ added, Added pg timeoutMs second peer start table row := by
  refine nodeRound_keeps (I := fun s => ∃ added, s.tierA table = start.tierA table ++ added ∧
    ∀ row ∈ added, Added pg timeoutMs second peer start table row) ?_ ?_ ?_
  · exact ⟨[], (List.append_nil _).symm, fun row hrow => absurd hrow List.not_mem_nil⟩
  · rintro t s row ⟨added, hrows, hadded⟩ hrow
    by_cases hname : table = t.spec.table
    · subst hname
      refine ⟨added ++ [row], ?_, ?_⟩
      · rw [tierA_add, if_pos rfl, hrows, List.append_assoc]
      · intro r hr
        rcases List.mem_append.1 hr with hr | hr
        · exact hadded r hr
        · rw [List.mem_singleton] at hr
          exact hr ▸ hrow
    · exact ⟨added, by rw [tierA_add, if_neg hname, hrows], hadded⟩
  · rintro name keys records s ⟨added, hrows, hadded⟩ _
    exact ⟨added, by rw [applyTierB_tierA, hrows], hadded⟩

theorem written_of_round {table : String} (h : table ∉ pg.registry.names) :
    (nodeRound pg timeoutMs second peer start).1.tierA table = start.tierA table := by
  obtain ⟨added, hrows, hadded⟩ :=
    @appended_of_round pg timeoutMs second peer start table
  cases added with
  | nil => rw [hrows, List.append_nil]
  | cons row rest =>
    obtain ⟨t, -, -, -, hfind, -⟩ := hadded row List.mem_cons_self
    obtain ⟨ht, htable⟩ := TierARegistry.table_of_find hfind
    exact absurd (List.mem_map.2 ⟨t, ht, htable⟩) h

/-! ### Suspensions -/

/-- How the row of an agent stands to the one it began with, over the records of a batch. -/
structure NotLifted (served : SuspensionBody → Prop) (row row' : SuspensionRow) : Prop where
  burned : row.burned = true → row'.burned = true
  seq : Double.number row.suspensionSeq.val ≤ Double.number row'.suspensionSeq.val
  paused : row.paused = true → row'.paused = false → ∃ body, served body ∧ body.paused = false ∧
    row.suspensionSeq.val < body.suspensionSeq.1

theorem NotLifted.refl (served : SuspensionBody → Prop) (row : SuspensionRow) :
    NotLifted served row row :=
  ⟨fun h => h, le_rfl, fun h h' => absurd (h.symm.trans h') (by decide)⟩

theorem lt_of_number_lt {n : ℤ} {d : Double.Whole} (h : Double.number n < d) : n < d.1 := by
  by_contra hle
  have hmono := Double.number_mono (not_lt.1 hle)
  have hd : Double.number d.1 = d := Subtype.ext d.2
  rw [hd] at hmono
  exact absurd (lt_of_le_of_lt hmono h) (lt_irrefl d)

/-- **One merge lifts no burn, and no pause but for a newer body.** -/
theorem NotLifted.merge {served : SuspensionBody → Prop} {row mid row' : SuspensionRow} {agentId : String}
    {body : SuspensionBody} {nfc : Nfc} {sha : Sha256} (h : NotLifted served row mid) (hbody : served body)
    (hwrite : ((mid.toBody agentId).accepted.merge nfc sha body).toRow = .ok row') :
    NotLifted served row row' := by
  obtain ⟨hstanding, hburned⟩ := toRow_ok hwrite
  have hseq : Double.number row'.suspensionSeq.val =
      max (Double.number mid.suspensionSeq.val) body.suspensionSeq :=
    (congrArg (fun s => (ofLex s).1) hstanding).trans (seq_merge _ _)
  have hpaused : row'.paused = ((mid.toBody agentId).accepted.merge nfc sha body).paused :=
    congrArg (fun s => (ofLex s).2) hstanding
  refine ⟨?_, ?_, ?_⟩
  · intro hb
    rw [hburned, burned_merge]
    have hmid : (mid.toBody agentId).accepted.burned = true := h.burned hb
    rw [hmid, Bool.true_or]
  · rw [hseq]
    exact h.seq.trans (le_max_left _ _)
  · intro hp hup
    by_cases hmid : mid.paused = true
    · have hlt : Double.number mid.suspensionSeq.val < body.suspensionSeq :=
        lt_of_unpaused_merge (a := (mid.toBody agentId).accepted) hmid (hpaused.symm.trans hup)
      -- the merged row stands where the newer body stands
      have hle : (mid.toBody agentId).accepted.standing ≤ body.standing :=
        Prod.Lex.le_iff.2 (Or.inl hlt)
      have hnewer : row'.paused = body.paused := by
        rw [standing_merge, max_eq_right hle] at hstanding
        exact congrArg (fun s => (ofLex s).2) hstanding
      exact ⟨body, hbody, hnewer.symm.trans hup, lt_of_number_lt (lt_of_le_of_lt h.seq hlt)⟩
    · exact h.paused hp (by simpa using hmid)

theorem suspensions_of_round (agentId : String) (row : SuspensionRow)
    (hrow : start.suspensions.get agentId = some row) :
    ∃ row', (nodeRound pg timeoutMs second peer start).1.suspensions.get agentId = some row' ∧
      NotLifted (ServedSuspension pg timeoutMs second peer agentId) row row' := by
  refine nodeRound_keeps (I := fun s => ∃ row', s.suspensions.get agentId = some row' ∧
    NotLifted (ServedSuspension pg timeoutMs second peer agentId) row row') ?_ ?_ ?_
  · exact ⟨row, hrow, NotLifted.refl _ row⟩
  · intro t s added hs _
    exact hs
  · intro name keys records s hs hserve
    unfold PgAeStore.applyTierB
    split_ifs with hlen hname
    · exact hs
    · subst hname
      dsimp only
      refine TierBPg.applyTierB_keeps (I := fun rows => ∃ row', rows.get agentId = some row' ∧
        NotLifted (ServedSuspension pg timeoutMs second peer agentId) row row') records ?_ hs
      intro rows rec hrec body one hI haccept hmerge _
      obtain ⟨mid, hmid, hkept⟩ := hI
      rw [OrdMap.get_set]
      split_ifs with hkey
      · subst hkey
        refine ⟨one.row, rfl, ?_⟩
        have hserved : ServedSuspension pg timeoutMs second peer rec.key body :=
          ⟨keys, records, rec, hserve, hrec, rfl, (TierBPg.accept_ok haccept).2⟩
        obtain ⟨hnone, -⟩ | ⟨old, hold, hone⟩ | ⟨old, selected, hold, hselect, hupdate⟩ :=
          TierBPg.over_cases hmerge
        · rw [hmid] at hnone
          cases hnone
        · rw [hmid] at hold
          cases hold
          rw [hone]
          exact hkept
        · rw [hmid] at hold
          cases hold
          cases hselect
          exact hkept.merge hserved hupdate
      · exact ⟨mid, hmid, hkept⟩
    · exact hs
    · exact hs
    · exact hs

/-! ### Directory nodes -/

def SameNode (row row' : DirectoryNodeRow) : Prop :=
  row'.region = row.region ∧ row'.endpoint = row.endpoint ∧ row'.status = row.status

theorem get_withNode {nodes : OrdMap String DirectoryNodeRow} {row : TableRow} {nodeId : String}
    {node : DirectoryNodeRow} (h : nodes.get nodeId = some node) :
    (LocalTables.withNode nodes row).get nodeId = some node := by
  unfold LocalTables.withNode
  split
  · rename_i other fresh _
    split_ifs with hhas
    · exact h
    · rw [OrdMap.get_set]
      split_ifs with hkey
      · subst hkey
        exact absurd (by rw [OrdMap.has, h]; rfl) hhas
      · exact h
  · exact h

theorem nodes_of_round (nodeId : String) (row : DirectoryNodeRow)
    (hrow : start.directoryNodes.get nodeId = some row) :
    ∃ row', (nodeRound pg timeoutMs second peer start).1.directoryNodes.get nodeId = some row' ∧
      SameNode row row' := by
  refine nodeRound_keeps (I := fun s => ∃ row', s.directoryNodes.get nodeId = some row' ∧
    SameNode row row') ?_ ?_ ?_
  · exact ⟨row, hrow, rfl, rfl, rfl⟩
  · rintro t s added ⟨node, hnode, hsame⟩ _
    refine ⟨node, ?_, hsame⟩
    unfold LocalTables.add
    dsimp only
    split_ifs
    · exact get_withNode hnode
    · exact hnode
  · intro name keys records s hs _
    unfold PgAeStore.applyTierB
    split_ifs
    · exact hs
    · exact hs
    · exact hs
    · dsimp only
      refine TierBPg.applyTierB_keeps (I := fun rows => ∃ row', rows.get nodeId = some row' ∧
        SameNode row row') records ?_ hs
      intro rows rec _ body one hI _ hmerge _
      obtain ⟨mid, hmid, hregion, hendpoint, hstatus⟩ := hI
      rw [OrdMap.get_set]
      split_ifs with hkey
      · subst hkey
        refine ⟨one.row, rfl, ?_⟩
        obtain ⟨hnone, -⟩ | ⟨old, hold, hone⟩ | ⟨old, selected, hold, -, hupdate⟩ :=
          TierBPg.over_cases hmerge
        · rw [hmid] at hnone
          cases hnone
        · rw [hmid] at hold
          cases hold
          rw [hone]
          exact ⟨hregion, hendpoint, hstatus⟩
        · rw [hmid] at hold
          cases hold
          obtain ⟨hregion', hendpoint', hstatus'⟩ := directoryNodes_update hupdate
          exact ⟨hregion'.trans hregion, hendpoint'.trans hendpoint, hstatus'.trans hstatus⟩
      · exact ⟨mid, hmid, hregion, hendpoint, hstatus⟩
    · exact hs

/-! ### Plans that fail -/

theorem ofExchange_hashesOf {table : String} {rows : Except String (List TableRow)} {e : AeError}
    (h : pg.hashesOf table rows = .error e) : e.ofExchange = false := by
  rcases bind_error h with hfind | ⟨t, -, h⟩
  · exact ofExchange_find hfind
  · rcases bind_error h with hrows | ⟨rows', -, h⟩
    · cases hr : rows with
      | error message =>
        rw [hr] at hrows
        cases hrows
        rfl
      | ok rows'' => rw [hr] at hrows; cases hrows
    · cases h

theorem mem_names_of_read {table : String} {rows : Except String (List TableRow)} {own : List String}
    (h : pg.hashesOf table rows = .ok own) : table ∈ pg.registry.names := by
  obtain ⟨t, hfind, -⟩ := bind_ok h
  obtain ⟨ht, htable⟩ := TierARegistry.table_of_find hfind
  exact List.mem_map.2 ⟨t, ht, htable⟩

def advertisedA (pg : PgAeStore) (timeoutMs : ℕ) (second : String → Except String (List TableRow))
    (peer : Peer) (table : String) : Advertised (List String) where
  digest := (peer.state.tierA.get table).getD ""
  detail := (remoteOf pg timeoutMs second peer).tierARecordHashes pg.sha.toSha256 table

theorem planTableA_walked {table : String} (htable : table ∈ pg.registry.names) :
    (¬Walked pg peer start table →
      planTableA pg.sha.toSha256 (localState pg.view start).1 table
        (advertisedA pg timeoutMs second peer table) = .ok []) ∧
    (Walked pg peer start table → ∃ mine,
      planTableA pg.sha.toSha256 (localState pg.view start).1 table
          (advertisedA pg timeoutMs second peer table) =
        ((remoteOf pg timeoutMs second peer).tierARecordHashes pg.sha.toSha256 table).map
          (missingLocally mine)) := by
  have hview : pg.view.tierARecordHashes start table = pg.tierARecordHashes start table := rfl
  rw [planTableA_localState pg.sha.toSha256 htable, hview]
  unfold Walked
  cases hread : pg.tierARecordHashes start table with
  | error e =>
    refine ⟨fun _ => rfl, ?_⟩
    rintro ⟨mine, digest, hmine, -⟩
    cases hmine
  | ok mine =>
    have hdigest : computeTableDigest pg.sha.toSha256 mine = _ :=
      computeTableDigest_of_valid (hashesOf_valid hread)
    dsimp only
    unfold pullA
    rw [hdigest]
    constructor
    · intro hnot
      have heq : (advertisedA pg timeoutMs second peer table).digest =
          tableDigest pg.sha.toSha256 (bucketVector pg.sha.toSha256 mine.eraseDups) := by
        by_contra hne
        exact hnot ⟨mine, _, rfl, hdigest, hne⟩
      exact if_pos heq
    · rintro ⟨mine', digest, hmine, hown, hne⟩
      cases hmine
      rw [hdigest] at hown
      cases hown
      refine ⟨mine, (if_neg hne).trans ?_⟩
      cases hwalk : (remoteOf pg timeoutMs second peer).tierARecordHashes pg.sha.toSha256 table with
      | error e =>
        simp only [advertisedA, hwalk]
        rfl
      | ok hashes =>
        simp only [advertisedA, hwalk]
        rfl

/-- **A walk** is broken off by the peer, or fails with its re-read, or comes to its end. -/
theorem walk_cases (table : String) (next : Prop) :
    let walk := (remoteOf pg timeoutMs second peer).tierARecordHashes pg.sha.toSha256 table
    (∃ e, walk = .error e ∧ e.ofExchange = true ∧ WalkHolds pg timeoutMs second peer table next) ∨
    (∃ e, walk = .error e ∧ e.ofExchange = false ∧ ¬WalkHolds pg timeoutMs second peer table next) ∨
    ∃ hashes, walk = .ok hashes ∧ (WalkHolds pg timeoutMs second peer table next ↔ next) := by
  have hlocal : (remoteOf pg timeoutMs second peer).localHashes table =
      pg.hashesOf table (second table) := rfl
  unfold RemoteStoreView.tierARecordHashes WalkHolds
  cases hbuckets : (remoteOf pg timeoutMs second peer).peerBuckets table with
  | error e =>
    refine Or.inl ⟨e, rfl, RemoteStoreView.ofExchange_peerBuckets hbuckets, ?_⟩
    intro buckets h
    cases h
  | ok buckets =>
    rw [hlocal]
    cases hown : pg.hashesOf table (second table) with
    | error e =>
      refine Or.inr (Or.inl ⟨e, rfl, ofExchange_hashesOf hown, ?_⟩)
      intro h
      obtain ⟨own, hread, -⟩ := h buckets rfl
      cases hread
    | ok own =>
      cases hhashes : (remoteOf pg timeoutMs second peer).hashesOfBuckets pg.sha.toSha256 table buckets own with
      | error e =>
        refine Or.inl ⟨e, hhashes,
          RemoteStoreView.ofExchange_hashesOfBuckets (hashesOf_valid hown) hhashes, ?_⟩
        intro buckets' h
        cases h
        refine ⟨own, rfl, ?_⟩
        intro hashes h
        rw [hhashes] at h
        cases h
      | ok hashes =>
        refine Or.inr (Or.inr ⟨hashes, hhashes, ?_, ?_⟩)
        · intro h
          obtain ⟨own', hread, hnext⟩ := h buckets rfl
          cases hread
          exact hnext hashes hhashes
        · intro hnext buckets' h
          cases h
          exact ⟨own, rfl, fun _ _ => hnext⟩

/-- **The loop of a plan** fails otherwise than in the exchange exactly when a walk fails with its re-read. -/
theorem planTables_walked (tables : List String) :
    (RereadsHold pg timeoutMs second peer start tables → ∀ plan e,
      planTables (planTableA pg.sha.toSha256 (localState pg.view start).1)
          ((tables.filter fun t => t ∈ pg.registry.names).map fun t =>
            (t, advertisedA pg timeoutMs second peer t)) plan = .error e → e.ofExchange = true) ∧
    (¬RereadsHold pg timeoutMs second peer start tables → ∀ plan, ∃ e,
      planTables (planTableA pg.sha.toSha256 (localState pg.view start).1)
          ((tables.filter fun t => t ∈ pg.registry.names).map fun t =>
            (t, advertisedA pg timeoutMs second peer t)) plan = .error e ∧ e.ofExchange = false) := by
  induction tables with
  | nil =>
    refine ⟨?_, fun h => absurd trivial h⟩
    intro _ plan e h
    cases h
  | cons table rest ih =>
    rw [RereadsHold]
    by_cases hw : Walked pg peer start table
    · have htable : table ∈ pg.registry.names := by
        obtain ⟨mine, -, hread, -⟩ := hw
        exact mem_names_of_read hread
      rw [List.filter_cons_of_pos (by simpa using htable), List.map_cons]
      obtain ⟨mine, hplan⟩ := (@planTableA_walked pg timeoutMs second peer start table htable).2 hw
      simp only [planTables, hplan, hw, forall_const, not_true_eq_false, IsEmpty.forall_iff, and_true]
      obtain ⟨e, hwalk, hwire, hholds⟩ | ⟨e, hwalk, hstore, hnot⟩ | ⟨hashes, hwalk, hiff⟩ :=
        @walk_cases pg timeoutMs second peer table
          (RereadsHold pg timeoutMs second peer start rest)
      · rw [hwalk]
        refine ⟨?_, fun h => absurd hholds h⟩
        intro _ plan e' h
        cases h
        exact hwire
      · rw [hwalk]
        refine ⟨fun h => absurd h hnot, ?_⟩
        intro _ plan
        exact ⟨e, rfl, hstore⟩
      · rw [hwalk, hiff]
        exact ⟨fun h plan e he => ih.1 h _ e he, fun h plan => ih.2 h _⟩
    · simp only [hw, IsEmpty.forall_iff, not_false_eq_true, forall_const, true_and]
      by_cases htable : table ∈ pg.registry.names
      · rw [List.filter_cons_of_pos (by simpa using htable), List.map_cons]
        simp only [planTables,
          (@planTableA_walked pg timeoutMs second peer start table htable).1 hw]
        exact ⟨fun h plan e he => ih.1 h _ e he, fun h plan => ih.2 h _⟩
      · rw [List.filter_cons_of_neg (by simpa using htable)]
        exact ih

theorem nodePlan_cases :
    (RereadsHold pg timeoutMs second peer start peer.state.tierA.keys → ∀ e,
      roundPlan pg.sha.toSha256 pg.view (RemoteStoreView.view pg.sha.toSha256) start
        (remoteOf pg timeoutMs second peer) = .error e → e.ofExchange = true) ∧
    (¬RereadsHold pg timeoutMs second peer start peer.state.tierA.keys → ∃ e,
      roundPlan pg.sha.toSha256 pg.view (RemoteStoreView.view pg.sha.toSha256) start
        (remoteOf pg timeoutMs second peer) = .error e ∧ e.ofExchange = false) := by
  obtain ⟨advA, hadvA, hentriesA⟩ := entries_advertiseTables pg.registry.names
    (fun t => (peer.state.tierA.get t).getD "")
    ((remoteOf pg timeoutMs second peer).tierARecordHashes pg.sha.toSha256)
    peer.state.tierA.keys OrdMap.empty peer.state.tierA.nodup fun _ _ => List.not_mem_nil
  obtain ⟨advB, hadvB, hentriesB⟩ := entries_advertiseTables tierBNames
    (fun t => (peer.state.tierB.get t).getD "")
    (remoteOf pg timeoutMs second peer).tierBVersions
    peer.state.tierB.keys OrdMap.empty peer.state.tierB.nodup fun _ _ => List.not_mem_nil
  have hplan : roundPlan pg.sha.toSha256 pg.view (RemoteStoreView.view pg.sha.toSha256) start
      (remoteOf pg timeoutMs second peer) = _ :=
    roundPlan_of_advertised pg.sha.toSha256 hadvA hadvB
  rw [hplan]
  unfold planRound
  rw [hentriesA]
  change (_ → ∀ e, (planTables _ (((peer.state.tierA.keys).filter fun t => t ∈ pg.registry.names).map
    fun t => (t, advertisedA pg timeoutMs second peer t)) OrdMap.empty >>= _) = _ → _) ∧
    (_ → ∃ e, (planTables _ (((peer.state.tierA.keys).filter fun t => t ∈ pg.registry.names).map
      fun t => (t, advertisedA pg timeoutMs second peer t)) OrdMap.empty >>= _) = _ ∧ _)
  obtain ⟨hholds, hfails⟩ :=
    @planTables_walked pg timeoutMs second peer start peer.state.tierA.keys
  constructor
  · intro h e he
    rcases bind_error he with hA | ⟨a, -, he⟩
    · exact hholds h _ e hA
    · rcases bind_error he with hB | ⟨b, -, he⟩
      · -- a mutable table is compared with what the peer sends, and with nothing that is read again
        obtain ⟨⟨t, adv⟩, hmem, hB⟩ := planTables_error _ _ hB
        rw [hentriesB] at hmem
        obtain ⟨u, hu, hut⟩ := List.mem_map.1 hmem
        obtain ⟨rfl, hadv⟩ := Prod.mk.inj hut
        have htracked : u ∈ pg.view.tierBTables start := of_decide_eq_true (List.mem_filter.1 hu).2
        rw [planTableB_localState pg.sha.toSha256 htracked, ← hadv] at hB
        cases hread : pg.view.tierBVersions start u with
        | error e' => rw [hread] at hB; cases hB
        | ok mine =>
          rw [hread] at hB
          dsimp only at hB
          unfold pullB at hB
          split_ifs at hB
          rcases bind_error hB with hversions | ⟨versions, -, hB⟩
          · exact RemoteStoreView.ofExchange_tierBVersions hversions
          · cases hB
      · cases he
  · intro h
    obtain ⟨e, he, hstore⟩ := hfails h OrdMap.empty
    exact ⟨e, by rw [he]; rfl, hstore⟩

/-! ### The theorem -/

theorem read_of_round {L : AeStoreView LocalTables JsAny JsAny}
    {localHashes : String → Except AeError (List String)}
    (h : AgreesOnRegistry pg second start L localHashes) :
    runAntiEntropyRound pg.sha.toSha256 L (RemoteStoreView.view pg.sha.toSha256) start
      ⟨timeoutMs, peer, localHashes⟩ = nodeRound pg timeoutMs second peer start := by
  refine round_congr
    { tierATables := h.tierATables
      tierBTables := h.tierBTables
      peerTierATables := rfl
      peerTierBTables := rfl
      tierA := ?_
      tierB := ?_ }
  · intro t ht
    obtain ⟨hread, happly, hlocal⟩ := h.tierA t ht
    refine ⟨hread, happly, rfl, ?_, fun _ => rfl⟩
    change RemoteStoreView.tierARecordHashes pg.sha.toSha256 ⟨timeoutMs, peer, localHashes⟩ t =
      RemoteStoreView.tierARecordHashes pg.sha.toSha256 (remoteOf pg timeoutMs second peer) t
    unfold RemoteStoreView.tierARecordHashes
    dsimp only
    rw [hlocal]
    rfl
  · intro t ht
    obtain ⟨hread, happly⟩ := h.tierB t ht
    exact ⟨hread, happly, rfl, rfl, fun _ => rfl⟩

theorem isolated_of_rereads
    (h : RereadsHold pg timeoutMs second peer start peer.state.tierA.keys) :
    match (nodeRound pg timeoutMs second peer start).2 with
    | .error e => e.ofExchange = true
    | .ok _ => (nodeRound pg timeoutMs second peer start).1 =
        everyTurn pg.sha.toSha256 pg.view (RemoteStoreView.view pg.sha.toSha256) start
          (remoteOf pg timeoutMs second peer) := by
  have hcases := round_cases pg.sha.toSha256 pg.view (RemoteStoreView.view pg.sha.toSha256) start
    (remoteOf pg timeoutMs second peer)
  unfold nodeRound
  cases hplan : roundPlan pg.sha.toSha256 pg.view (RemoteStoreView.view pg.sha.toSha256) start
      (remoteOf pg timeoutMs second peer) with
  | error e =>
    rw [hplan] at hcases
    rw [show runAntiEntropyRound _ _ _ _ _ = (start, .error e) from hcases]
    exact nodePlan_cases.1 h e hplan
  | ok plan =>
    rw [hplan] at hcases
    generalize runAntiEntropyRound _ _ _ _ _ = round at hcases ⊢
    obtain ⟨after, result⟩ := round
    cases result with
    | error e => exact AeError.ofExchange_of_isWireError hcases
    | ok r => exact hcases

theorem contained_of_rereads
    (h : RereadsHold pg timeoutMs second peer start peer.state.tierA.keys) :
    Contained pg timeoutMs second peer start where
  appended := appended_of_round
  suspensions := by
    intro agentId row hrow
    obtain ⟨row', hrow', hkept⟩ := suspensions_of_round agentId row hrow
    exact ⟨row', hrow', hkept.burned, hkept.paused⟩
  nodes := nodes_of_round
  written := fun _ ht => written_of_round ht
  read := fun _ _ hL => read_of_round hL
  storeErrors := fun _ _ _ => ⟨fun _ => ofExchange_applyTierA, fun _ => PgAeStore.ofExchange_applyTierB⟩
  isolated := isolated_of_rereads h

theorem lost_of_reread (h : ¬RereadsHold pg timeoutMs second peer start peer.state.tierA.keys) :
    ∃ e, nodeRound pg timeoutMs second peer start = (start, .error e) ∧ e.ofExchange = false := by
  obtain ⟨e, he, hstore⟩ := nodePlan_cases.2 h
  have hcases := round_cases pg.sha.toSha256 pg.view (RemoteStoreView.view pg.sha.toSha256) start
    (remoteOf pg timeoutMs second peer)
  rw [he] at hcases
  exact ⟨e, hcases, hstore⟩

theorem not_contained_of_lost {e : AeError}
    (hround : nodeRound pg timeoutMs second peer start = (start, .error e))
    (hstore : e.ofExchange = false) : ¬Contained pg timeoutMs second peer start := by
  intro h
  have hisolated := h.isolated
  rw [hround] at hisolated
  exact absurd (hstore.symm.trans hisolated) (by decide)

/-- **A hostile peer is contained exactly when no walk fails with its re-read.** -/
theorem contained_iff (pg : PgAeStore) (timeoutMs : ℕ) (second : String → Except String (List TableRow))
    (peer : Peer) (start : LocalTables) :
    Contained pg timeoutMs second peer start ↔
      RereadsHold pg timeoutMs second peer start peer.state.tierA.keys := by
  constructor
  · intro h
    by_contra hnot
    obtain ⟨e, hround, hstore⟩ := lost_of_reread hnot
    exact not_contained_of_lost hround hstore h
  · exact contained_of_rereads

end

/-! ### A round that is lost -/

namespace LostRound

def claimCodes : TierAPg where
  spec :=
    { table := "capability_claim_codes"
      naturalKey := ["code"]
      immutableColumns := ["code", "capability", "expires_at"] }
  bytea := []
  chained := false
  requiredColumns := []
  wireFilter := fun _ => true

def authorizedIssuers : TierAPg where
  spec :=
    { table := "authorized_issuers"
      naturalKey := ["pubkey"]
      immutableColumns := ["pubkey", "role", "label"] }
  bytea := []
  chained := false
  requiredColumns := []
  wireFilter := fun _ => true

def registry : TierARegistry where
  entries := [claimCodes, authorizedIssuers]
  nodup := by decide
  separate := by decide

/-- A database in which no statement of a round fails. -/
def db : Database where
  selectFault := fun _ => none
  versionsFault := fun _ => none
  lockFault := fun _ _ => none
  writeFault := fun _ _ => none
  row := fun _ _ values => .ok fun c =>
    match values.lookup c with
    | some (.str v) => some (.str v)
    | some (.bool b) => some (.bool b)
    | some .null => some .null
    | _ => none
  refuses := fun _ _ _ => none
  toTimestamp := fun _ => .ok (.micros 0)

def emptyDigest : BitVec 256 := 0xe3b0c44298fc1c149afbf4c8996fb92427ae41e4649b934ca495991b7852b855

def emptyTable : BitVec 256 := 0xb043621ad25433d75343f31616b71f9f0439021a5ff72de369e33e82bd8d7583

def pg : PgAeStore where
  nfc := ⟨id, normalize_ascii_id⟩
  sha := .ofTable [("", emptyDigest)] emptyTable
  registry
  db
  chainWriter := none

/-- The connection is lost when the claim codes are read again. -/
def second : String → Except String (List TableRow)
  | "capability_claim_codes" => .error "Connection terminated unexpectedly"
  | _ => .ok []

/-- A peer that is ahead in both tables. -/
def peer : Peer where
  state :=
    { tierA := .ofList [("capability_claim_codes", hexText 1), ("authorized_issuers", hexText 1)]
      tierB := .empty }
  buckets := fun _ => .ok <| .frame (.obj [("type", .str "ae_buckets"), ("digests", .arr [])])
  bucketHashes := fun _ _ => .ok .silent
  versions := fun _ => .ok .silent
  recordsA := fun _ _ => .ok .silent
  recordsB := fun _ _ => .ok .silent

def start : LocalTables where
  tierA := fun _ => []
  suspensions := .empty
  presence := .empty
  directoryNodes := .empty

theorem reread_fails : ¬RereadsHold pg 30000 second peer start peer.state.tierA.keys := by
  have hkeys : peer.state.tierA.keys = ["capability_claim_codes", "authorized_issuers"] := rfl
  have hwalked : Walked pg peer start "capability_claim_codes" := by
    refine ⟨[], tableDigest pg.sha.toSha256 (bucketVector pg.sha.toSha256 []), rfl, rfl, ?_⟩
    intro h
    have hdigest := hexText_inj (h.trans (HexSha256.hex_ofTable [("", emptyDigest)] emptyTable _))
    rw [List.lookup_cons] at hdigest
    split at hdigest
    · exact absurd hdigest (by decide)
    · exact absurd hdigest (by decide)
  rw [hkeys, RereadsHold]
  intro h
  obtain ⟨own, hown, -⟩ := h.1 hwalked [] rfl
  cases hown

/-- **A re-read that fails loses the round**: the other tables are not come to. -/
theorem round_lost :
    (nodeRound pg 30000 second peer start).1 = start ∧
      (∃ e, (nodeRound pg 30000 second peer start).2 = .error e ∧ e.ofExchange = false) ∧
      ¬Contained pg 30000 second peer start := by
  obtain ⟨e, hround, hstore⟩ := lost_of_reread reread_fails
  refine ⟨?_, ⟨e, ?_, hstore⟩, not_contained_of_lost hround hstore⟩
  · rw [hround]
  · rw [hround]

end LostRound

end Cello.Directory.AntiEntropy
