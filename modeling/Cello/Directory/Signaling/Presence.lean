import Cello.Directory.AntiEntropy.Liveness
import Cello.Directory.Signaling.Streams
import Cello.Lib.Newest

/-!
# The presence of an agent

`agent-presence-repository.ts`, `presence-merge.ts` and the presence writes of `directory-node.ts`.  Every node has a
row of its own for each agent.  A connect claims the row for the node, a disconnect writes only to a row that the node
owns, and the rows of two nodes are merged by the later time.

Whether a node owns the row is read from its own copy.  A node that has not merged the claim of the next node still
finds itself the owner when its last stream closes, and its offline row is then the later one: it wins everywhere.
Presence writes are taken to reach the database before anything else happens, and a version hash to tell records
apart.
-/

namespace Cello.Directory.Signaling

open Lib AntiEntropy

/-- The table `agent_presence` of a node, by `k_local_pubkey`. -/
abbrev PresenceTable := String → Option PresenceRow

section

variable (rows : PresenceTable) (kLocalPubkey owningNodeId : String) (now : Timestamp)

def upsertPresenceOnline : PresenceTable :=
  Function.update rows kLocalPubkey
    (some { online := true, owningNodeId, lastSeenAt := now, updatedAt := now })

def upsertPresenceOffline : PresenceTable :=
  match rows kLocalPubkey with
  | none => rows
  | some row =>
    if row.owningNodeId = owningNodeId then
      Function.update rows kLocalPubkey
        (some { row with online := false, lastSeenAt := now, updatedAt := now })
    else rows

end

/-- `#recordPresence`. -/
def recordPresence (nodeId : String) (now : Timestamp) (rows : PresenceTable) : Output → PresenceTable
  | .online pubkeyHex => upsertPresenceOnline rows pubkeyHex nodeId now
  | .offline pubkeyHex => upsertPresenceOffline rows pubkeyHex nodeId now
  | .frame _ => rows
  | .enqueued _ => rows

def emitted (s : Registry) (e : StreamEvent) : List Output :=
  (streamStep s e).outputs.drop s.outputs.length

/-! ### The nodes -/

structure PresenceNode where
  registry : Registry
  presence : PresenceTable

/-- The nodes under one clock, in milliseconds, and the rows that they have served to each other. -/
structure PresenceNetwork (ι : Type) where
  clock : ℕ
  nodes : ι → PresenceNode
  served : List PresenceRecord

inductive PresenceEvent (ι : Type) where
  /-- Something happens to the streams of a node, so many milliseconds later. -/
  | stream (n : ι) (e : StreamEvent) (elapsed : ℕ)
  | serve (n : ι) (kLocalPubkey : String)
  /-- A node applies a row that was served at some time. -/
  | apply (n : ι) (i : ℕ)

def serveRow (rows : PresenceTable) (kLocalPubkey : String) : Option PresenceRecord :=
  (rows kLocalPubkey).bind fun row =>
    ((row.select kLocalPubkey).map SelectedPresence.toBody).toOption

section

variable {ι : Type} [DecidableEq ι] (toTimestamp : String → Except AeError Timestamp) (nodeId : ι → String)

def writePresence (rows : PresenceTable) (kLocalPubkey : String) (merged : PresenceRecord) : PresenceTable :=
  match merged.toRow toTimestamp with
  | .ok row => Function.update rows kLocalPubkey (some row)
  | .error _ => rows

/-- What one apply of a record does to the table. -/
def applyPresence (rows : PresenceTable) (r : PresenceRecord) : PresenceTable :=
  match rows r.kLocalPubkey, serveRow rows r.kLocalPubkey with
  | none, _ => writePresence toTimestamp rows r.kLocalPubkey r
  | some _, none => rows
  | some _, some own =>
    if mergePresence own r = own then rows
    else writePresence toTimestamp rows r.kLocalPubkey (mergePresence own r)

namespace PresenceNetwork

def init : PresenceNetwork ι where
  clock := 0
  nodes := fun _ => ⟨Registry.init, fun _ => none⟩
  served := []

def setPresence (s : PresenceNetwork ι) (n : ι) (rows : PresenceTable) : ι → PresenceNode :=
  Function.update s.nodes n { s.nodes n with presence := rows }

def streamed (s : PresenceNetwork ι) (n : ι) (e : StreamEvent) (now : ℕ) : PresenceNode where
  registry := streamStep (s.nodes n).registry e
  presence := (emitted (s.nodes n).registry e).foldl (recordPresence (nodeId n) (.micros (1000 * now)))
    (s.nodes n).presence

def step (s : PresenceNetwork ι) : PresenceEvent ι → PresenceNetwork ι
  | .stream n e elapsed =>
    { s with
      clock := s.clock + elapsed + 1
      nodes := Function.update s.nodes n (s.streamed nodeId n e (s.clock + elapsed + 1)) }
  | .serve n kLocalPubkey =>
    { s with served := s.served ++ (serveRow (s.nodes n).presence kLocalPubkey).toList }
  | .apply n i =>
    match s.served[i]? with
    | none => s
    | some r => { s with nodes := s.setPresence n (applyPresence toTimestamp (s.nodes n).presence r) }

/-- One node merges the row that another has now. -/
def exchange (kLocalPubkey : String) (s : PresenceNetwork ι) (p : ι × ι) : PresenceNetwork ι :=
  step toTimestamp nodeId (step toTimestamp nodeId s (.serve p.2 kLocalPubkey)) (.apply p.1 s.served.length)

def copy (s : PresenceNetwork ι) (kLocalPubkey : String) (n : ι) : Option PresenceRecord :=
  serveRow (s.nodes n).presence kLocalPubkey

end PresenceNetwork

end

/-! ### Records with a time -/

/-- What a write at `now` leaves. -/
def stamp (kLocalPubkey : String) (online : Bool) (owningNodeId : String) (now : ℕ) : PresenceRecord where
  kLocalPubkey := kLocalPubkey
  online := online
  owningNodeId := owningNodeId
  lastSeenAt := toString now
  updatedAt := toString now

def Dated (clock : ℕ) (r : PresenceRecord) : Prop :=
  ∃ lastSeenAt updatedAt : ℕ, lastSeenAt ≤ clock ∧ updatedAt ≤ clock ∧
    r.lastSeenAt = toString lastSeenAt ∧ r.updatedAt = toString updatedAt

def Older (r r' : PresenceRecord) : Prop :=
  ∃ t t' : ℕ, t < t' ∧ t' < 2 ^ 53 ∧ r.updatedAt = toString t ∧ r'.updatedAt = toString t'

/-- A time that is written is read back. -/
def ReadsBack (toTimestamp : String → Except AeError Timestamp) : Prop :=
  ∀ n : ℕ, n < 2 ^ 53 → ∃ t, toTimestamp (toString n) = .ok t ∧ epochMillis t = .ok n

theorem norm_toString {n : ℕ} (hn : n < 2 ^ 53) : norm (toString n) = .fin n := by
  unfold AntiEntropy.norm
  rw [Number.ofString_toString hn]

theorem mergePresence_keepsNewer : KeepsNewer Older mergePresence where
  choice := freshest_eq_or _ _
  newer := by
    rintro a b ⟨t, t', hlt, hmax, ha, hb⟩
    have hna : norm a.updatedAt = .fin t := ha ▸ norm_toString (hlt.trans hmax)
    have hnb : norm b.updatedAt = .fin t' := hb ▸ norm_toString hmax
    have hltq : (t : ℚ) < t' := by exact_mod_cast hlt
    have hne : norm a.updatedAt ≠ norm b.updatedAt := by
      rw [hna, hnb]
      exact fun h => hltq.ne (JsNumber.fin.inj h)
    constructor
    · rw [mergePresence, freshest, if_pos hne, hna, hnb, JsNumber.gt_fin, if_neg (by simpa using hltq.le)]
    · rw [mergePresence, freshest, if_pos hne.symm, hna, hnb, JsNumber.gt_fin, if_pos (by simpa using hltq)]

theorem Dated.mono {clock clock' : ℕ} {r : PresenceRecord} (h : Dated clock r) (hle : clock ≤ clock') :
    Dated clock' r := by
  obtain ⟨t, u, ht, hu, hseen, hupdated⟩ := h
  exact ⟨t, u, ht.trans hle, hu.trans hle, hseen, hupdated⟩

theorem Dated.older {clock now : ℕ} {r : PresenceRecord} (h : Dated clock r) (hlt : clock < now)
    (hnow : now < 2 ^ 53) (kLocalPubkey : String) (online : Bool) (owningNodeId : String) :
    Older r (stamp kLocalPubkey online owningNodeId now) := by
  obtain ⟨-, u, -, hu, -, hupdated⟩ := h
  exact ⟨u, now, by omega, hnow, hupdated, rfl⟩

theorem epochMillis_now (now : ℕ) : epochMillis (.micros (1000 * now)) = .ok (now : ℤ) := by
  have hdiv : (1000 * (now : ℤ) + 500) / 1000 = now := by omega
  rw [epochMillis, if_neg (by omega), hdiv]

/-! ### Tables -/

section

variable {rows : PresenceTable} {kLocalPubkey nodeId : String}

theorem serveRow_some {r : PresenceRecord} (h : serveRow rows kLocalPubkey = some r) :
    r.kLocalPubkey = kLocalPubkey ∧ ∃ row, rows kLocalPubkey = some row ∧ row.online = r.online ∧
      row.owningNodeId = r.owningNodeId := by
  unfold serveRow at h
  cases hrow : rows kLocalPubkey with
  | none => rw [hrow] at h; cases h
  | some row =>
    rw [hrow, Option.bind_some] at h
    unfold PresenceRow.select at h
    cases hseen : epochMillis row.lastSeenAt with
    | error e => rw [hseen] at h; cases h
    | ok t =>
      cases hupdated : epochMillis row.updatedAt with
      | error e => rw [hseen, hupdated] at h; cases h
      | ok u =>
        rw [hseen, hupdated] at h
        cases h
        exact ⟨rfl, row, rfl, rfl, rfl⟩

theorem serveRow_of_times {row : PresenceRow} (hrow : rows kLocalPubkey = some row) {t u : ℕ}
    (hseen : epochMillis row.lastSeenAt = .ok (t : ℤ)) (hupdated : epochMillis row.updatedAt = .ok (u : ℤ)) :
    serveRow rows kLocalPubkey =
      some ⟨kLocalPubkey, row.online, row.owningNodeId, toString t, toString u⟩ := by
  rw [serveRow, hrow, Option.bind_some, PresenceRow.select, hseen, hupdated]
  rfl

theorem serveRow_congr {rows' : PresenceTable} (h : rows' kLocalPubkey = rows kLocalPubkey) :
    serveRow rows' kLocalPubkey = serveRow rows kLocalPubkey := by
  rw [serveRow, serveRow, h]

theorem serveRow_written (now : ℕ) (online : Bool) :
    serveRow (Function.update rows kLocalPubkey
      (some ⟨online, nodeId, .micros (1000 * now), .micros (1000 * now)⟩)) kLocalPubkey =
      some (stamp kLocalPubkey online nodeId now) :=
  serveRow_of_times (Function.update_self ..) (epochMillis_now now) (epochMillis_now now)

def RowLegible (clock : ℕ) (rows : PresenceTable) (kLocalPubkey : String) : Prop :=
  ∀ row, rows kLocalPubkey = some row → ∃ r, serveRow rows kLocalPubkey = some r ∧ Dated clock r

theorem rowLegible_of_serve {clock : ℕ} {r : PresenceRecord} (h : serveRow rows kLocalPubkey = some r)
    (hr : Dated clock r) : RowLegible clock rows kLocalPubkey :=
  fun _ _ => ⟨r, h, hr⟩

theorem RowLegible.congr {clock clock' : ℕ} {rows' : PresenceTable} (h : RowLegible clock rows kLocalPubkey)
    (hrows : rows' kLocalPubkey = rows kLocalPubkey) (hle : clock ≤ clock') :
    RowLegible clock' rows' kLocalPubkey := by
  intro row hrow
  obtain ⟨r, hserve, hr⟩ := h row (hrows ▸ hrow)
  exact ⟨r, (serveRow_congr hrows).trans hserve, hr.mono hle⟩

theorem RowLegible.dated {clock : ℕ} (h : RowLegible clock rows kLocalPubkey) {r : PresenceRecord}
    (hr : serveRow rows kLocalPubkey = some r) : Dated clock r := by
  obtain ⟨-, row, hrow, -⟩ := serveRow_some hr
  obtain ⟨r', hr', hdated⟩ := h row hrow
  exact Option.some.inj (hr'.symm.trans hr) ▸ hdated

def OwnsRow (rows : PresenceTable) (kLocalPubkey nodeId : String) : Prop :=
  ∃ row, rows kLocalPubkey = some row ∧ row.owningNodeId = nodeId

/-- **What a presence write does to an agent's row.** -/
theorem recordPresence_cases (rows : PresenceTable) (kLocalPubkey nodeId : String) (now : ℕ) (o : Output) :
    (o = .online kLocalPubkey ∧
      serveRow (recordPresence nodeId (.micros (1000 * now)) rows o) kLocalPubkey =
        some (stamp kLocalPubkey true nodeId now)) ∨
    ((o = .offline kLocalPubkey ∧ OwnsRow rows kLocalPubkey nodeId) ∧
      serveRow (recordPresence nodeId (.micros (1000 * now)) rows o) kLocalPubkey =
        some (stamp kLocalPubkey false nodeId now)) ∨
    (o ≠ .online kLocalPubkey ∧ ¬ (o = .offline kLocalPubkey ∧ OwnsRow rows kLocalPubkey nodeId) ∧
      recordPresence nodeId (.micros (1000 * now)) rows o kLocalPubkey = rows kLocalPubkey) := by
  cases o with
  | online key =>
    by_cases hkey : key = kLocalPubkey
    · subst hkey
      exact .inl ⟨rfl, serveRow_written now true⟩
    · refine .inr (.inr ⟨fun h => hkey (Output.online.inj h), fun h => (by cases h.1), ?_⟩)
      exact Function.update_of_ne (Ne.symm hkey) ..
  | offline key =>
    show _ ∨ _ ∨ (_ ∧ _ ∧ upsertPresenceOffline rows key nodeId _ kLocalPubkey = _)
    by_cases hkey : key = kLocalPubkey
    · subst hkey
      by_cases howns : OwnsRow rows key nodeId
      · refine .inr (.inl ⟨⟨rfl, howns⟩, ?_⟩)
        obtain ⟨row, hrow, howner⟩ := howns
        show serveRow (upsertPresenceOffline rows key nodeId _) key = _
        simp only [upsertPresenceOffline, hrow, howner, if_true]
        exact serveRow_written now false
      · refine .inr (.inr ⟨(by nofun), fun h => howns h.2, ?_⟩)
        unfold upsertPresenceOffline
        cases hrow : rows key with
        | none => exact hrow
        | some row =>
          dsimp only
          rw [if_neg fun h => howns ⟨row, hrow, h⟩, hrow]
    · refine .inr (.inr ⟨(by nofun), fun h => hkey (Output.offline.inj h.1), ?_⟩)
      unfold upsertPresenceOffline
      cases hrow : rows key with
      | none => rfl
      | some row =>
        dsimp only
        split_ifs
        · exact Function.update_of_ne (Ne.symm hkey) ..
        · rfl
  | frame stream => exact .inr (.inr ⟨(by nofun), fun h => (by cases h.1), rfl⟩)
  | enqueued key => exact .inr (.inr ⟨(by nofun), fun h => (by cases h.1), rfl⟩)

variable {toTimestamp : String → Except AeError Timestamp}

theorem toRow_of_dated (hdb : ReadsBack toTimestamp) {clock : ℕ} (hclock : clock < 2 ^ 53) {r : PresenceRecord}
    (h : Dated clock r) : ∃ row, r.toRow toTimestamp = .ok row ∧
      ∀ rows : PresenceTable, serveRow (Function.update rows r.kLocalPubkey (some row)) r.kLocalPubkey = some r := by
  obtain ⟨t, u, ht, hu, hseen, hupdated⟩ := h
  obtain ⟨seenAt, hwrite, hread⟩ := hdb t (by omega)
  obtain ⟨updatedAt, hwrite', hread'⟩ := hdb u (by omega)
  refine ⟨⟨r.online, r.owningNodeId, seenAt, updatedAt⟩, ?_, fun rows => ?_⟩
  · rw [PresenceRecord.toRow, hseen, hupdated, hwrite, hwrite']
    rfl
  · rw [serveRow_of_times (Function.update_self ..) hread hread', ← hseen, ← hupdated]

theorem applyPresence_of_ne {r : PresenceRecord} (h : kLocalPubkey ≠ r.kLocalPubkey) :
    applyPresence toTimestamp rows r kLocalPubkey = rows kLocalPubkey := by
  have hwrite : ∀ merged, writePresence toTimestamp rows r.kLocalPubkey merged kLocalPubkey = rows kLocalPubkey := by
    intro merged
    unfold writePresence
    cases merged.toRow toTimestamp with
    | ok row => exact Function.update_of_ne h ..
    | error e => rfl
  have hcases : applyPresence toTimestamp rows r = rows ∨
      ∃ merged, applyPresence toTimestamp rows r = writePresence toTimestamp rows r.kLocalPubkey merged := by
    unfold applyPresence
    split
    · exact .inr ⟨_, rfl⟩
    · exact .inl rfl
    · split_ifs
      · exact .inl rfl
      · exact .inr ⟨_, rfl⟩
  rcases hcases with hcase | ⟨merged, hcase⟩
  · rw [hcase]
  · rw [hcase, hwrite]

theorem serveRow_applyPresence (hdb : ReadsBack toTimestamp) {clock : ℕ} (hclock : clock < 2 ^ 53)
    {r : PresenceRecord} (hr : Dated clock r)
    (hrows : ∀ row, rows r.kLocalPubkey = some row → ∃ own, serveRow rows r.kLocalPubkey = some own) :
    serveRow (applyPresence toTimestamp rows r) r.kLocalPubkey =
      pull mergePresence (serveRow rows r.kLocalPubkey) r := by
  have hwrite : serveRow (writePresence toTimestamp rows r.kLocalPubkey r) r.kLocalPubkey = some r := by
    obtain ⟨row, hrow, hserve⟩ := toRow_of_dated hdb hclock hr
    rw [writePresence, hrow]
    exact hserve rows
  unfold applyPresence
  cases hrow : rows r.kLocalPubkey with
  | none =>
    have hnone : serveRow rows r.kLocalPubkey = none := by
      rw [serveRow, hrow]
      rfl
    rw [hnone]
    exact hwrite
  | some row =>
    obtain ⟨own, hown⟩ := hrows row hrow
    rw [hown]
    show serveRow (if _ then _ else _) _ = some (mergePresence own r)
    split_ifs with hsame
    · rw [hown, hsame]
    · rcases mergePresence_keepsNewer.choice own r with h | h
      · exact absurd h hsame
      · rw [h]
        exact hwrite

end

/-! ### What an event does -/

theorem emitted_eq (s : Registry) (e : StreamEvent) : emitted s e = [] ∨ ∃ o, emitted s e = [o] := by
  have hdrop : ∀ {new : List Output}, (streamStep s e).outputs = s.outputs ++ new → emitted s e = new := by
    intro new h
    rw [emitted, h, List.drop_left]
  suffices h : ∃ o : Option Output, (streamStep s e).outputs = s.outputs ++ o.toList by
    obtain ⟨o, ho⟩ := h
    cases o with
    | none => exact .inl (hdrop ho)
    | some o => exact .inr ⟨o, hdrop ho⟩
  have hdeliver : ∀ (o : Option Output) (key : String) (a : Attempt),
      ∃ o', (deliver o.toList s key a).outputs = s.outputs ++ Option.toList o' := by
    intro o key a
    unfold deliver
    split
    · exact ⟨none, (List.append_nil _).symm⟩
    · split
      · split
        next stream _ _ => exact ⟨some (.frame stream), rfl⟩
        · exact ⟨o, rfl⟩
      · exact ⟨o, rfl⟩
  cases e with
  | auth stream key visiting =>
    unfold streamStep
    dsimp only
    split
    · cases visiting with
      | false => exact ⟨some (.online key), rfl⟩
      | true => exact ⟨none, rfl⟩
    · exact ⟨none, (List.append_nil _).symm⟩
    · exact ⟨none, (List.append_nil _).symm⟩
  | close stream =>
    unfold streamStep
    dsimp only
    split
    · exact ⟨none, (List.append_nil _).symm⟩
    next key visiting _ =>
      unfold closeStream
      dsimp only
      split
      · exact ⟨none, (List.append_nil _).symm⟩
      · dsimp only
        split_ifs
        · exact ⟨some (.offline key), rfl⟩
        · exact ⟨none, (List.append_nil _).symm⟩
    · exact ⟨none, (List.append_nil _).symm⟩
  | deliverOrEnqueue key a =>
    by_cases hkey : key = ""
    · simpa [streamStep, deliverOrEnqueue, hkey] using hdeliver none key a
    · simpa [streamStep, deliverOrEnqueue, hkey] using hdeliver (some (.enqueued key)) key a
  | deliverFrostSealed key a => exact hdeliver none key a

namespace PresenceNetwork

variable {ι : Type} [DecidableEq ι] {toTimestamp : String → Except AeError Timestamp} {nodeId : ι → String}
  {s : PresenceNetwork ι} {kLocalPubkey : String}

/-- The event claims the agent for a node. -/
def Claims (kLocalPubkey : String) (s : PresenceNetwork ι) : PresenceEvent ι → Prop
  | .stream n e _ => .online kLocalPubkey ∈ emitted (s.nodes n).registry e
  | _ => False

/-- The event writes an offline row: it closes the agent's last stream at a node that finds its own row. -/
def Drops (nodeId : ι → String) (kLocalPubkey : String) (s : PresenceNetwork ι) : PresenceEvent ι → Prop
  | .stream n e _ => .offline kLocalPubkey ∈ emitted (s.nodes n).registry e ∧
      OwnsRow (s.nodes n).presence kLocalPubkey (nodeId n)
  | _ => False

/-- Every row can be served, and no time is ahead of the clock. -/
structure Legible (s : PresenceNetwork ι) : Prop where
  rows : ∀ n key, RowLegible s.clock (s.nodes n).presence key
  served : ∀ r ∈ s.served, Dated s.clock r

omit [DecidableEq ι] in
theorem copy_congr {s' : PresenceNetwork ι} {n : ι}
    (h : (s'.nodes n).presence kLocalPubkey = (s.nodes n).presence kLocalPubkey) :
    s'.copy kLocalPubkey n = s.copy kLocalPubkey n :=
  serveRow_congr h

/-- **What a stream event does to the copies of an agent's row.** -/
theorem step_stream (s : PresenceNetwork ι) (n : ι) (e : StreamEvent) (elapsed : ℕ) (kLocalPubkey : String) :
    let s' := step toTimestamp nodeId s (.stream n e elapsed)
    (Claims kLocalPubkey s (.stream n e elapsed) ∧ s'.copy kLocalPubkey =
      Function.update (s.copy kLocalPubkey) n (some (stamp kLocalPubkey true (nodeId n) s'.clock))) ∨
    (Drops nodeId kLocalPubkey s (.stream n e elapsed) ∧ s'.copy kLocalPubkey =
      Function.update (s.copy kLocalPubkey) n (some (stamp kLocalPubkey false (nodeId n) s'.clock))) ∨
    (¬ Claims kLocalPubkey s (.stream n e elapsed) ∧ ¬ Drops nodeId kLocalPubkey s (.stream n e elapsed) ∧
      ∀ m, (s'.nodes m).presence kLocalPubkey = (s.nodes m).presence kLocalPubkey) := by
  intro s'
  have hother : ∀ m, m ≠ n → s'.nodes m = s.nodes m := fun m hm => Function.update_of_ne hm ..
  have hself : s'.nodes n = s.streamed nodeId n e s'.clock := Function.update_self ..
  have hcopy : ∀ {r}, s'.copy kLocalPubkey n = some r →
      s'.copy kLocalPubkey = Function.update (s.copy kLocalPubkey) n (some r) := by
    intro r hr
    funext m
    by_cases hm : m = n
    · subst hm
      rw [hr, Function.update_self]
    · rw [Function.update_of_ne hm]
      exact copy_congr (by rw [hother m hm])
  have hsame : (s.streamed nodeId n e s'.clock).presence kLocalPubkey = (s.nodes n).presence kLocalPubkey →
      ∀ m, (s'.nodes m).presence kLocalPubkey = (s.nodes m).presence kLocalPubkey := by
    intro h m
    by_cases hm : m = n
    · subst hm
      rw [hself, h]
    · rw [hother m hm]
  rcases emitted_eq (s.nodes n).registry e with hnone | ⟨o, ho⟩
  · refine .inr (.inr ⟨?_, ?_, hsame (by rw [streamed, hnone]; rfl)⟩)
    · rw [Claims, hnone]
      exact List.not_mem_nil
    · rw [Drops, hnone]
      exact fun h => List.not_mem_nil h.1
  · have hpresence : (s'.nodes n).presence =
        recordPresence (nodeId n) (.micros (1000 * (s'.clock : ℕ))) (s.nodes n).presence o := by
      rw [hself, streamed, ho]
      rfl
    have hserve : s'.copy kLocalPubkey n = serveRow (recordPresence (nodeId n) (.micros (1000 * (s'.clock : ℕ)))
        (s.nodes n).presence o) kLocalPubkey := by
      rw [copy, hpresence]
    rw [Claims, Drops, ho, List.mem_singleton, List.mem_singleton, eq_comm, @eq_comm _ (Output.offline _)]
    rcases recordPresence_cases (s.nodes n).presence kLocalPubkey (nodeId n) s'.clock o with
      ⟨hclaim, hrow⟩ | ⟨hdrop, hrow⟩ | ⟨hclaim, hdrop, hrow⟩
    · exact .inl ⟨hclaim, hcopy (hserve.trans hrow)⟩
    · exact .inr (.inl ⟨hdrop, hcopy (hserve.trans hrow)⟩)
    · exact .inr (.inr ⟨hclaim, hdrop, hsame (by rw [← hself, hpresence, hrow])⟩)

theorem step_apply_none {n : ι} {i : ℕ} (h : s.served[i]? = none) :
    step toTimestamp nodeId s (.apply n i) = s := by
  rw [step, h]

theorem step_apply_some {n : ι} {i : ℕ} {r : PresenceRecord} (h : s.served[i]? = some r) :
    step toTimestamp nodeId s (.apply n i) =
      { s with nodes := s.setPresence n (applyPresence toTimestamp (s.nodes n).presence r) } := by
  rw [step, h]

theorem clock_apply (s : PresenceNetwork ι) (n : ι) (i : ℕ) :
    (step toTimestamp nodeId s (.apply n i)).clock = s.clock := by
  cases h : s.served[i]? with
  | none => rw [step_apply_none h]
  | some r => rw [step_apply_some h]

/-- **What an apply does to them.** -/
theorem step_apply (hdb : ReadsBack toTimestamp) (h : s.Legible) (hclock : s.clock < 2 ^ 53) {n : ι} {i : ℕ}
    {r : PresenceRecord} (hr : s.served[i]? = some r) (kLocalPubkey : String) :
    (step toTimestamp nodeId s (.apply n i)).copy kLocalPubkey =
      if r.kLocalPubkey = kLocalPubkey then
        Function.update (s.copy kLocalPubkey) n (pull mergePresence (s.copy kLocalPubkey n) r)
      else s.copy kLocalPubkey := by
  have hnodes : (step toTimestamp nodeId s (.apply n i)).nodes =
      s.setPresence n (applyPresence toTimestamp (s.nodes n).presence r) := by
    rw [step_apply_some hr]
  funext m
  by_cases hm : m = n
  · subst hm
    have hserve : (step toTimestamp nodeId s (.apply m i)).copy kLocalPubkey m =
        serveRow (applyPresence toTimestamp (s.nodes m).presence r) kLocalPubkey := by
      rw [copy, hnodes, setPresence, Function.update_self]
    rw [hserve]
    split_ifs with hkey
    · subst hkey
      rw [Function.update_self, serveRow_applyPresence hdb hclock (h.served r (List.mem_of_getElem? hr))
        fun row hrow => (h.rows m _ row hrow).imp fun _ h => h.1]
      rfl
    · exact serveRow_congr (applyPresence_of_ne (Ne.symm hkey))
  · have hsame : (step toTimestamp nodeId s (.apply n i)).copy kLocalPubkey m = s.copy kLocalPubkey m :=
      copy_congr (by rw [hnodes, setPresence, Function.update_of_ne hm])
    rw [hsame]
    split_ifs
    · rw [Function.update_of_ne hm]
    · rfl

theorem clock_step (s : PresenceNetwork ι) (ev : PresenceEvent ι) :
    s.clock ≤ (step toTimestamp nodeId s ev).clock := by
  cases ev with
  | stream n e elapsed => exact Nat.le_add_right_of_le (Nat.le_add_right ..)
  | serve n key => exact Nat.le_refl _
  | apply n i => exact (clock_apply s n i).ge

theorem clock_run (events : List (PresenceEvent ι)) (s : PresenceNetwork ι) :
    s.clock ≤ (events.foldl (step toTimestamp nodeId) s).clock := by
  induction events generalizing s with
  | nil => exact Nat.le_refl _
  | cons ev rest ih => exact (clock_step s ev).trans (ih _)

omit [DecidableEq ι] in
theorem dated_stamp (kLocalPubkey : String) (online : Bool) (owningNodeId : String) (now : ℕ) :
    Dated now (stamp kLocalPubkey online owningNodeId now) :=
  ⟨now, now, Nat.le_refl _, Nat.le_refl _, rfl, rfl⟩

theorem Legible.step (hdb : ReadsBack toTimestamp) (h : s.Legible) {ev : PresenceEvent ι}
    (hclock : (step toTimestamp nodeId s ev).clock < 2 ^ 53) : (step toTimestamp nodeId s ev).Legible := by
  have hle : s.clock ≤ (PresenceNetwork.step toTimestamp nodeId s ev).clock := clock_step s ev
  cases ev with
  | stream n e elapsed =>
    refine ⟨fun m key => ?_, fun r hr => (h.served r hr).mono hle⟩
    by_cases hm : m = n
    · subst hm
      rcases step_stream s m e elapsed key with ⟨-, hcopy⟩ | ⟨-, hcopy⟩ | ⟨-, -, hrows⟩
      · exact rowLegible_of_serve ((congrFun hcopy m).trans (Function.update_self ..)) (dated_stamp ..)
      · exact rowLegible_of_serve ((congrFun hcopy m).trans (Function.update_self ..)) (dated_stamp ..)
      · exact (h.rows m key).congr (hrows m) hle
    · refine (h.rows m key).congr ?_ hle
      show (Function.update s.nodes n _ m).presence key = _
      rw [Function.update_of_ne hm]
  | serve n key =>
    refine ⟨h.rows, fun r hr => ?_⟩
    rcases List.mem_append.1 hr with hr | hr
    · exact h.served r hr
    · exact (h.rows n key).dated (Option.mem_toList.1 hr)
  | apply n i =>
    cases hr : s.served[i]? with
    | none =>
      rwa [step_apply_none hr]
    | some r =>
      have hdated := h.served r (List.mem_of_getElem? hr)
      have hs : s.clock < 2 ^ 53 := hle.trans_lt hclock
      rw [step_apply_some hr]
      refine ⟨fun m key => ?_, h.served⟩
      by_cases hm : m = n
      · subst hm
        show RowLegible s.clock (s.setPresence m _ m).presence key
        rw [setPresence, Function.update_self]
        by_cases hkey : key = r.kLocalPubkey
        · subst hkey
          have hserve := serveRow_applyPresence hdb hs hdated fun row hrow =>
            (h.rows m _ row hrow).imp fun _ h => h.1
          cases hown : serveRow (s.nodes m).presence r.kLocalPubkey with
          | none =>
            rw [hown] at hserve
            exact rowLegible_of_serve hserve hdated
          | some own =>
            rw [hown] at hserve
            refine rowLegible_of_serve hserve ?_
            rcases mergePresence_keepsNewer.choice own r with hmerge | hmerge
            · rw [hmerge]
              exact (h.rows m _).dated hown
            · rw [hmerge]
              exact hdated
        · exact (h.rows m key).congr (applyPresence_of_ne hkey) (Nat.le_refl _)
      · show RowLegible s.clock (s.setPresence n _ m).presence key
        rw [setPresence, Function.update_of_ne hm]
        exact h.rows m key

/-! ### The newest row -/

/-- The record is the newest that a node holds or has served. -/
structure Current (kLocalPubkey : String) (e : PresenceRecord) (s : PresenceNetwork ι) : Prop where
  newest : Newest Older (s.copy kLocalPubkey) e
  served : ∀ r ∈ s.served, r.kLocalPubkey = kLocalPubkey → UpTo Older e r

theorem current_stamp (h : s.Legible) {s' : PresenceNetwork ι} (hclock : s.clock < s'.clock)
    (hmax : s'.clock < 2 ^ 53) {n : ι} {online : Bool} {owner : String}
    (hcopy : s'.copy kLocalPubkey =
      Function.update (s.copy kLocalPubkey) n (some (stamp kLocalPubkey online owner s'.clock)))
    (hserved : s'.served = s.served) : Current kLocalPubkey (stamp kLocalPubkey online owner s'.clock) s' where
  newest := by
    rw [hcopy]
    exact newest_update fun m r hr => ((h.rows m _).dated hr).older hclock hmax ..
  served r hr _ := .inr ((h.served r (hserved ▸ hr)).older hclock hmax ..)

/-- **An event that writes no row keeps the newest.** -/
theorem Current.step (hdb : ReadsBack toTimestamp) (h : s.Legible) {e : PresenceRecord}
    (hcurrent : Current kLocalPubkey e s) {ev : PresenceEvent ι}
    (hclock : (step toTimestamp nodeId s ev).clock < 2 ^ 53) (hclaim : ¬ Claims kLocalPubkey s ev)
    (hdrop : ¬ Drops nodeId kLocalPubkey s ev) : Current kLocalPubkey e (step toTimestamp nodeId s ev) := by
  cases ev with
  | stream n ev elapsed =>
    refine ⟨?_, hcurrent.served⟩
    rcases step_stream s n ev elapsed kLocalPubkey with ⟨h, -⟩ | ⟨h, -⟩ | ⟨-, -, hrows⟩
    · exact absurd h hclaim
    · exact absurd h hdrop
    · have hcopy : (PresenceNetwork.step toTimestamp nodeId s (.stream n ev elapsed)).copy kLocalPubkey =
          s.copy kLocalPubkey := funext fun m => copy_congr (hrows m)
      rw [hcopy]
      exact hcurrent.newest
  | serve n key =>
    refine ⟨hcurrent.newest, fun r hr hkey => ?_⟩
    rcases List.mem_append.1 hr with hr | hr
    · exact hcurrent.served r hr hkey
    · have hserve := Option.mem_toList.1 hr
      obtain rfl := (serveRow_some hserve).1.symm.trans hkey
      exact hcurrent.newest.upTo n r hserve
  | apply n i =>
    cases hr : s.served[i]? with
    | none =>
      rwa [step_apply_none hr]
    | some r =>
      have hserved : (PresenceNetwork.step toTimestamp nodeId s (.apply n i)).served = s.served := by
        rw [step_apply_some hr]
      refine ⟨?_, fun r' hr' => hcurrent.served r' (hserved ▸ hr')⟩
      rw [step_apply hdb h ((clock_step s _).trans_lt hclock) hr]
      split_ifs with hkey
      · exact hcurrent.newest.update_pull mergePresence_keepsNewer
          (hcurrent.served r (List.mem_of_getElem? hr) hkey) n
      · exact hcurrent.newest

/-! ### Runs -/

theorem current_run (hdb : ReadsBack toTimestamp) : ∀ (events : List (PresenceEvent ι)) {s : PresenceNetwork ι}
    {e : PresenceRecord}, s.Legible → Current kLocalPubkey e s →
      (events.foldl (step toTimestamp nodeId) s).clock < 2 ^ 53 →
      Guarded (step toTimestamp nodeId) (fun s ev => ¬ Claims kLocalPubkey s ev) s events →
      (Guarded (step toTimestamp nodeId) (fun s ev => ¬ Drops nodeId kLocalPubkey s ev) s events ∧
        Current kLocalPubkey e (events.foldl (step toTimestamp nodeId) s)) ∨
      (¬ Guarded (step toTimestamp nodeId) (fun s ev => ¬ Drops nodeId kLocalPubkey s ev) s events ∧
        ∃ e', e'.online = false ∧ Current kLocalPubkey e' (events.foldl (step toTimestamp nodeId) s)) := by
  intro events
  induction events with
  | nil => exact fun _ hcurrent _ _ => .inl ⟨trivial, hcurrent⟩
  | cons ev rest ih =>
    intro s e h hcurrent hclock hguard
    have hnext : (step toTimestamp nodeId s ev).clock < 2 ^ 53 := (clock_run rest _).trans_lt hclock
    have hlegible := h.step hdb hnext
    by_cases hdrop : Drops nodeId kLocalPubkey s ev
    · -- the offline row is the newest from here on
      have hoff : ∃ e', e'.online = false ∧ Current kLocalPubkey e' (step toTimestamp nodeId s ev) := by
        cases ev with
        | stream n ev elapsed =>
          rcases step_stream s n ev elapsed kLocalPubkey with ⟨hclaim, -⟩ | ⟨-, hcopy⟩ | ⟨-, hno, -⟩
          · exact absurd hclaim hguard.1
          · exact ⟨_, rfl, current_stamp h (by show s.clock < s.clock + elapsed + 1; omega) hnext hcopy rfl⟩
          · exact absurd hdrop hno
        | serve n key => exact hdrop.elim
        | apply n i => exact hdrop.elim
      obtain ⟨e', he', hcurrent'⟩ := hoff
      refine .inr ⟨fun hall => hall.1 hdrop, ?_⟩
      rcases ih hlegible hcurrent' hclock hguard.2 with ⟨-, hfinal⟩ | ⟨-, hfinal⟩
      · exact ⟨e', he', hfinal⟩
      · exact hfinal
    · rcases ih hlegible (hcurrent.step hdb h hnext hguard.1 hdrop) hclock hguard.2 with
        ⟨hrest, hfinal⟩ | ⟨hrest, hfinal⟩
      · exact .inl ⟨⟨hdrop, hrest⟩, hfinal⟩
      · exact .inr ⟨fun hall => hrest hall.2, hfinal⟩

theorem Legible.run (hdb : ReadsBack toTimestamp) (h : s.Legible) (events : List (PresenceEvent ι))
    (hclock : (events.foldl (PresenceNetwork.step toTimestamp nodeId) s).clock < 2 ^ 53) :
    (events.foldl (PresenceNetwork.step toTimestamp nodeId) s).Legible := by
  induction events generalizing s with
  | nil => exact h
  | cons ev rest ih => exact ih (h.step hdb ((clock_run rest _).trans_lt hclock)) hclock

omit [DecidableEq ι] in
theorem legible_init : (init : PresenceNetwork ι).Legible :=
  ⟨fun n key row hrow => (by cases hrow), fun r hr => (by cases hr)⟩

theorem exchange_copy (hdb : ReadsBack toTimestamp) (h : s.Legible) (hclock : s.clock < 2 ^ 53) (p : ι × ι) :
    (exchange toTimestamp nodeId kLocalPubkey s p).copy kLocalPubkey =
      match s.copy kLocalPubkey p.2 with
      | none => s.copy kLocalPubkey
      | some r => Function.update (s.copy kLocalPubkey) p.1 (pull mergePresence (s.copy kLocalPubkey p.1) r) := by
  have hlegible : (step toTimestamp nodeId s (.serve p.2 kLocalPubkey)).Legible := h.step hdb hclock
  cases hserve : s.copy kLocalPubkey p.2 with
  | none =>
    have hlast : (step toTimestamp nodeId s (.serve p.2 kLocalPubkey)).served[s.served.length]? = none := by
      show (s.served ++ (s.copy kLocalPubkey p.2).toList)[s.served.length]? = none
      rw [hserve, Option.toList_none, List.append_nil, List.getElem?_eq_none (Nat.le_refl _)]
    rw [exchange, step_apply_none hlast]
    rfl
  | some r =>
    have hlast : (step toTimestamp nodeId s (.serve p.2 kLocalPubkey)).served[s.served.length]? = some r := by
      show (s.served ++ (s.copy kLocalPubkey p.2).toList)[s.served.length]? = some r
      rw [hserve, Option.toList_some, List.getElem?_concat_length]
    rw [exchange, step_apply hdb hlegible hclock hlast, if_pos (serveRow_some hserve).1]
    rfl

theorem exchange_keeps (hdb : ReadsBack toTimestamp) (h : s.Legible) (hclock : s.clock < 2 ^ 53)
    {e : PresenceRecord} (hcurrent : Current kLocalPubkey e s) (p : ι × ι) :
    (exchange toTimestamp nodeId kLocalPubkey s p).Legible ∧
      Current kLocalPubkey e (exchange toTimestamp nodeId kLocalPubkey s p) ∧
      (exchange toTimestamp nodeId kLocalPubkey s p).clock = s.clock := by
  have hserved : (step toTimestamp nodeId s (.serve p.2 kLocalPubkey)).Legible := h.step hdb hclock
  have hclock' : (exchange toTimestamp nodeId kLocalPubkey s p).clock = s.clock := clock_apply _ ..
  have hmax : (exchange toTimestamp nodeId kLocalPubkey s p).clock < 2 ^ 53 := hclock'.trans_lt hclock
  have hcurrent' : Current kLocalPubkey e (step toTimestamp nodeId s (.serve p.2 kLocalPubkey)) :=
    hcurrent.step hdb h hclock id id
  exact ⟨hserved.step hdb hmax, hcurrent'.step hdb hserved hmax id id, hclock'⟩

/-- **A round brings the newest row to every node** that pulls from a holder. -/
theorem exchanges_bring (hdb : ReadsBack toTimestamp) : ∀ (round : List (ι × ι)) {s : PresenceNetwork ι}
    {e : PresenceRecord}, s.Legible → s.clock < 2 ^ 53 → Current kLocalPubkey e s → ∀ i,
      (s.copy kLocalPubkey i = some e ∨ ∃ j, s.copy kLocalPubkey j = some e ∧ (i, j) ∈ round) →
      (round.foldl (exchange toTimestamp nodeId kLocalPubkey) s).copy kLocalPubkey i = some e := by
  intro round
  induction round with
  | nil =>
    rintro s e - - - i (hi | ⟨j, -, hj⟩)
    · exact hi
    · cases hj
  | cons p rest ih =>
    intro s e h hclock hcurrent i hi
    obtain ⟨hlegible, hcurrent', hclock'⟩ := exchange_keeps hdb h hclock hcurrent p
    have hcopy : (exchange toTimestamp nodeId kLocalPubkey s p).copy kLocalPubkey = _ :=
      exchange_copy hdb h hclock p
    have hpull : ∀ {k r}, s.copy kLocalPubkey p.2 = some r → s.copy kLocalPubkey k = some e ∨ r = e →
        pull mergePresence (s.copy kLocalPubkey k) r = some e := fun hr hk =>
      mergePresence_keepsNewer.pull_newest (hcurrent.newest.upTo _) (hcurrent.newest.upTo _ _ hr) hk
    -- a holder stays one
    have hstays : ∀ k, s.copy kLocalPubkey k = some e →
        (exchange toTimestamp nodeId kLocalPubkey s p).copy kLocalPubkey k = some e := by
      intro k hk
      rw [hcopy]
      cases hr : s.copy kLocalPubkey p.2 with
      | none => exact hk
      | some r =>
        by_cases hkp : k = p.1
        · subst hkp
          exact (Function.update_self ..).trans (hpull hr (.inl hk))
        · exact (Function.update_of_ne hkp ..).trans hk
    refine ih hlegible (hclock'.trans_lt hclock) hcurrent' i ?_
    rcases hi with hi | ⟨j, hj, hmem⟩
    · exact .inl (hstays i hi)
    · rcases List.mem_cons.1 hmem with rfl | hmem
      · left
        rw [hcopy]
        dsimp only at hj ⊢
        rw [hj]
        exact (Function.update_self ..).trans (hpull hj (.inr rfl))
      · exact .inr ⟨j, hstays j hj, hmem⟩

theorem Current.everywhere (hdb : ReadsBack toTimestamp) (h : s.Legible) (hclock : s.clock < 2 ^ 53)
    {e : PresenceRecord} (hcurrent : Current kLocalPubkey e s) {round : List (ι × ι)}
    (hround : ∀ i j, i ≠ j → (i, j) ∈ round) (i : ι) :
    ∃ row, ((round.foldl (exchange toTimestamp nodeId kLocalPubkey) s).nodes i).presence kLocalPubkey = some row ∧
      row.online = e.online ∧ row.owningNodeId = e.owningNodeId := by
  obtain ⟨j, hj⟩ := hcurrent.newest.held
  refine (serveRow_some (exchanges_bring hdb round h hclock hcurrent i ?_)).2
  by_cases hij : i = j
  · exact .inl (hij ▸ hj)
  · exact .inr ⟨j, hj, hround i j hij⟩

section

variable (toTimestamp nodeId)

/-- A start, a connect that claims the agent, and what follows it. -/
def runOf (before : List (PresenceEvent ι)) (n : ι) (e : StreamEvent) (elapsed : ℕ) (after : List (PresenceEvent ι)) :
    PresenceNetwork ι :=
  (before ++ PresenceEvent.stream n e elapsed :: after).foldl (step toTimestamp nodeId) init

/-- The agent's row says that it is online at the node. -/
def ShowsOnline (s : PresenceNetwork ι) (kLocalPubkey owner : String) (i : ι) : Prop :=
  ∃ row, (s.nodes i).presence kLocalPubkey = some row ∧ row.online = true ∧ row.owningNodeId = owner

end

theorem current_runOf (hdb : ReadsBack toTimestamp) {before after : List (PresenceEvent ι)} {n : ι} {e : StreamEvent}
    {elapsed : ℕ}
    (hconnect : Claims kLocalPubkey (before.foldl (step toTimestamp nodeId) init) (.stream n e elapsed))
    (hlast : Guarded (step toTimestamp nodeId) (fun s ev => ¬ Claims kLocalPubkey s ev)
      ((before ++ [PresenceEvent.stream n e elapsed]).foldl (step toTimestamp nodeId) init) after)
    (hclock : (runOf toTimestamp nodeId before n e elapsed after).clock < 2 ^ 53) :
    (runOf toTimestamp nodeId before n e elapsed after).Legible ∧
      ((Guarded (step toTimestamp nodeId) (fun s ev => ¬ Drops nodeId kLocalPubkey s ev)
          ((before ++ [PresenceEvent.stream n e elapsed]).foldl (step toTimestamp nodeId) init) after ∧
        ∃ now, Current kLocalPubkey (stamp kLocalPubkey true (nodeId n) now)
          (runOf toTimestamp nodeId before n e elapsed after)) ∨
      (¬ Guarded (step toTimestamp nodeId) (fun s ev => ¬ Drops nodeId kLocalPubkey s ev)
          ((before ++ [PresenceEvent.stream n e elapsed]).foldl (step toTimestamp nodeId) init) after ∧
        ∃ e', e'.online = false ∧ Current kLocalPubkey e' (runOf toTimestamp nodeId before n e elapsed after))) := by
  refine ⟨legible_init.run hdb _ hclock, ?_⟩
  have hrun : runOf toTimestamp nodeId before n e elapsed after = after.foldl (step toTimestamp nodeId)
      (step toTimestamp nodeId (before.foldl (step toTimestamp nodeId) init) (.stream n e elapsed)) := by
    rw [runOf, List.foldl_append, List.foldl_cons]
  rw [hrun] at hclock ⊢
  rw [List.foldl_concat] at hlast ⊢
  have hmid := (clock_run after _).trans_lt hclock
  have hlegible : (before.foldl (step toTimestamp nodeId) init).Legible :=
    legible_init.run hdb before ((clock_step _ _).trans_lt hmid)
  have hcases := @step_stream ι _ toTimestamp nodeId (before.foldl (step toTimestamp nodeId) init) n e elapsed
    kLocalPubkey
  rcases hcases with ⟨-, hcopy⟩ | ⟨⟨hoff, -⟩, -⟩ | ⟨hno, -⟩
  · have hcurrent := current_stamp hlegible (by show _ < _ + elapsed + 1; omega) hmid hcopy rfl
    rcases current_run hdb after (hlegible.step hdb hmid) hcurrent hclock hlast with ⟨hguard, hfinal⟩ | h
    · exact .inl ⟨hguard, _, hfinal⟩
    · exact .inr h
  · -- one event has one output
    rcases emitted_eq ((before.foldl (step toTimestamp nodeId) init).nodes n).registry e with hnone | ⟨o, ho⟩
    · rw [hnone] at hoff
      exact absurd hoff List.not_mem_nil
    · rw [Claims, ho, List.mem_singleton] at hconnect
      rw [ho, List.mem_singleton, ← hconnect] at hoff
      cases hoff
  · exact absurd hconnect hno

/-- **A connected agent reads online just if no stale row was closed.**  Let a connect claim an agent for a node, let
no connect after it claim the agent again, and let then every node merge the row of every other.  All rows say that the
agent is online at that node if and only if, at every close after the connect that writes an offline presence, the
node's own row names another owner. -/
theorem online_iff_no_stale_close (hdb : ReadsBack toTimestamp) {before after : List (PresenceEvent ι)} {n : ι}
    {e : StreamEvent} {elapsed : ℕ}
    (hconnect : Claims kLocalPubkey (before.foldl (step toTimestamp nodeId) init) (.stream n e elapsed))
    (hlast : Guarded (step toTimestamp nodeId) (fun s ev => ¬ Claims kLocalPubkey s ev)
      ((before ++ [PresenceEvent.stream n e elapsed]).foldl (step toTimestamp nodeId) init) after)
    (hclock : (runOf toTimestamp nodeId before n e elapsed after).clock < 2 ^ 53) {round : List (ι × ι)}
    (hround : ∀ i j, i ≠ j → (i, j) ∈ round) :
    (∀ i, ShowsOnline (round.foldl (exchange toTimestamp nodeId kLocalPubkey)
        (runOf toTimestamp nodeId before n e elapsed after)) kLocalPubkey (nodeId n) i) ↔
      Guarded (step toTimestamp nodeId) (fun s ev => ¬ Drops nodeId kLocalPubkey s ev)
        ((before ++ [PresenceEvent.stream n e elapsed]).foldl (step toTimestamp nodeId) init) after := by
  obtain ⟨hlegible, ⟨hguard, now, hcurrent⟩ | ⟨hguard, e', he', hcurrent⟩⟩ :=
    current_runOf hdb hconnect hlast hclock
  · exact ⟨fun _ => hguard, fun _ => hcurrent.everywhere hdb hlegible hclock hround⟩
  · refine ⟨fun h => ?_, fun h => absurd h hguard⟩
    obtain ⟨row, hrow, honline, -⟩ := h n
    obtain ⟨row', hrow', hoffline, -⟩ := hcurrent.everywhere hdb hlegible hclock hround n
    obtain rfl := Option.some.inj (hrow.symm.trans hrow')
    cases honline.symm.trans (hoffline.trans he')

end PresenceNetwork

namespace Sample

/-- A database that reads the text as a number of milliseconds. -/
def toTimestamp (s : String) : Except AeError Timestamp :=
  match Number.ofString s with
  | .fin q => .ok (.micros (1000 * q.floor))
  | _ => .error (.store "invalid input syntax for type double precision")

theorem readsBack : ReadsBack toTimestamp := by
  intro n hn
  refine ⟨.micros (1000 * n), ?_, epochMillis_now n⟩
  rw [toTimestamp, Number.ofString_toString hn]
  show Except.ok (Timestamp.micros (1000 * ⌊(n : ℚ)⌋)) = _
  rw [Int.floor_natCast]

/-- Two nodes, of which each has merged the other's row. -/
def bothWays : List (Bool × Bool) := [(false, true), (true, false)]

theorem mem_bothWays : ∀ i j, i ≠ j → (i, j) ∈ bothWays := by decide

def nodeId : Bool → String
  | false => "node-a"
  | true => "node-b"

/-- The agent moves from one node to the other: it opens a stream there before it closes the old one. -/
def opens : List (PresenceEvent Bool) := [.stream false (.auth 0 "aa" false) 0]

end Sample

theorem online_after_merged_move :
    ∃ s : PresenceNetwork Bool, s = Sample.bothWays.foldl
        (PresenceNetwork.exchange Sample.toTimestamp Sample.nodeId "aa")
        (PresenceNetwork.runOf Sample.toTimestamp Sample.nodeId Sample.opens true (.auth 0 "aa" false) 0
          [.serve true "aa", .apply false 0, .stream false (.close 0) 0]) ∧
      s.ShowsOnline "aa" "node-b" false ∧ s.ShowsOnline "aa" "node-b" true := by
  refine ⟨_, rfl, Bool.forall_bool.1 ?_⟩
  have hconnect : PresenceNetwork.Claims "aa" (Sample.opens.foldl (PresenceNetwork.step Sample.toTimestamp
      Sample.nodeId) PresenceNetwork.init) (.stream true (.auth 0 "aa" false) 0) := List.mem_singleton_self _
  refine (PresenceNetwork.online_iff_no_stale_close Sample.readsBack hconnect ?_ (by decide)
    Sample.mem_bothWays).2 ?_
  · exact ⟨id, id, fun h => (by cases List.mem_singleton.1 h), trivial⟩
  · refine ⟨id, id, ?_, trivial⟩
    rintro ⟨-, row, hrow, howner⟩
    -- before the close the old node has pulled the row that names the new one
    obtain ⟨hlegible, ⟨-, now, hcurrent⟩ | ⟨hno, -⟩⟩ := @PresenceNetwork.current_runOf Bool _ Sample.toTimestamp
      Sample.nodeId "aa" Sample.readsBack Sample.opens [] true _ 0 hconnect trivial (by decide)
    · have hheld : ∀ i, i = false ∨ (false, i) ∈ [(false, true)] := by decide
      obtain ⟨i, hi⟩ := hcurrent.newest.held
      have hbrings := @PresenceNetwork.exchanges_bring Bool _ Sample.toTimestamp Sample.nodeId "aa" Sample.readsBack
        [(false, true)] _ _ hlegible (by decide) hcurrent false
        ((hheld i).imp (fun h : i = false => h ▸ hi) fun h => ⟨i, hi, h⟩)
      obtain ⟨-, row', hrow', -, howner'⟩ := serveRow_some hbrings
      obtain rfl := Option.some.inj (hrow.symm.trans hrow')
      have hne : Sample.nodeId false ≠ Sample.nodeId true := by decide
      exact absurd (howner.symm.trans howner') hne
    · exact absurd trivial hno

/-- **An agent that moves reads offline**: the old stream closes before the old node has merged the claim of the new
one.  The stream at the new node is the only open one, both nodes have merged, and both rows say offline. -/
theorem offline_after_move :
    ∃ s : PresenceNetwork Bool, s = PresenceNetwork.runOf Sample.toTimestamp Sample.nodeId Sample.opens true
        (.auth 0 "aa" false) 0 [.stream false (.close 0) 0] ∧
      (∀ i stream key visiting, (s.nodes i).registry.handlers stream = .authed key visiting ↔
        i = true ∧ stream = 0 ∧ key = "aa" ∧ visiting = false) ∧
      ∀ i, ∃ row, ((Sample.bothWays.foldl
        (PresenceNetwork.exchange Sample.toTimestamp Sample.nodeId "aa") s).nodes i).presence "aa" = some row ∧
          row.online = false := by
  refine ⟨_, rfl, ?_, ?_⟩
  · intro i stream key visiting
    cases i with
    | false =>
      show Function.update (Function.update _ 0 _) 0 _ stream = _ ↔ _
      by_cases hstream : stream = 0
      · subst hstream
        simp
      · rw [Function.update_of_ne hstream, Function.update_of_ne hstream]
        show Handler.connected = _ ↔ _
        simp
    | true =>
      show Function.update _ 0 _ stream = _ ↔ _
      by_cases hstream : stream = 0
      · subst hstream
        simp [eq_comm]
      · rw [Function.update_of_ne hstream]
        show Handler.connected = _ ↔ _
        simp [hstream]
  · have hconnect : PresenceNetwork.Claims "aa" (Sample.opens.foldl (PresenceNetwork.step Sample.toTimestamp
        Sample.nodeId) PresenceNetwork.init) (.stream true (.auth 0 "aa" false) 0) := List.mem_singleton_self _
    have hlast : Guarded (PresenceNetwork.step Sample.toTimestamp Sample.nodeId)
        (fun s ev => ¬ PresenceNetwork.Claims "aa" s ev)
        ((Sample.opens ++ [PresenceEvent.stream true (.auth 0 "aa" false) 0]).foldl
          (PresenceNetwork.step Sample.toTimestamp Sample.nodeId) PresenceNetwork.init)
        [.stream false (.close 0) 0] := ⟨fun h => (by cases List.mem_singleton.1 h), trivial⟩
    obtain ⟨hlegible, ⟨hguard, -⟩ | ⟨-, e', he', hcurrent⟩⟩ := PresenceNetwork.current_runOf Sample.readsBack
      hconnect hlast (by decide)
    · exact absurd ⟨List.mem_singleton_self _, _, rfl, rfl⟩ hguard.1
    · intro i
      obtain ⟨row, hrow, honline, -⟩ :=
        hcurrent.everywhere Sample.readsBack hlegible (by decide) Sample.mem_bothWays i
      exact ⟨row, hrow, honline.trans he'⟩

end Cello.Directory.Signaling
