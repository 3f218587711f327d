import Cello.Directory.AntiEntropy.KillSwitch
import Cello.Directory.AntiEntropy.Standing
import Cello.Lib.GuardedRun

/-!
# The pause of an owner

A pause is written with the sequence number after the one that is stored, and the stored number is
one that peers have merged in.  `validateBody` asks that it is a finite integer, the column holds
sixty-four bits, and nothing keeps the two apart: a body near the limit is taken, and at the limit
`suspension_seq + 1` is out of range, so the agent cannot be paused any more.

Everywhere below, a pause is written and nothing that the row has merged can lift it
(`pause_takes_effect_iff`).
-/

namespace Cello.Directory.AntiEntropy

open Lib

/-! ### The row of an agent -/

/-- A write of the owner, or the apply of a body that some peer has served. -/
inductive RowEvent where
  | write (mode : RevocationMode) (accountId : ChainStore.Uuid) (originNode : String)
  | apply (body : SuspensionBody)

/-- The row, and the bodies that were merged into it so far. -/
structure RowState where
  row : Option SuspensionRow
  merged : List SuspensionBody

section

variable (nfc : Nfc) (sha : Sha256) (agentId : String)

/-- A write or an apply that is refused changes nothing. -/
def rowStep (s : RowState) : RowEvent → RowState
  | .write mode account origin =>
    match applyRevocationFlag s.row mode account origin with
    | .ok (row, _) => { s with row }
    | .error _ => s
  | .apply body =>
    match applyOneTierB (acceptedSuspensions nfc sha) s.row ⟨agentId, body⟩ with
    | .ok one => { row := some one.row, merged := s.merged ++ [body] }
    | .error _ => s

def rowAfter (start : Option SuspensionRow) (events : List RowEvent) : RowState :=
  events.foldl (rowStep nfc sha agentId) ⟨start, []⟩

/-- The digests of the two versions that an apply compares are equal only where the versions are. -/
def TellsVersions (s : RowState) : RowEvent → Prop
  | .write .. => True
  | .apply body => ∀ row, s.row = some row →
      let record := (row.toBody agentId).accepted
      sha.hex ((record.merge nfc sha body).versionText nfc) = sha.hex (record.versionText nfc) →
        (record.merge nfc sha body).versionText nfc = record.versionText nfc

def Beats (r s : SuspensionBody) : Prop :=
  (r.merge nfc sha s).paused = true ∧ (s.merge nfc sha r).paused = true

/-- A pause that is written now is written, and beats the record it replaces and all that were merged
into the row. -/
def PauseTakesEffect (s : RowState) (accountId : ChainStore.Uuid) (originNode : String) : Prop :=
  ∃ row, applyRevocationFlag s.row .pause accountId originNode = .ok (some row, .applied) ∧
    row.paused = true ∧
    ∀ r, (r ∈ s.merged ∨ ∃ old, s.row = some old ∧ r = (old.toBody agentId).accepted) →
      Beats nfc sha (row.toBody agentId).accepted r

end

section

variable {nfc : Nfc} {sha : Sha256} {agentId : String}

/-! ### What the row has merged -/

def Merged (s : RowState) : Prop :=
  ∀ r ∈ s.merged, ∃ row, s.row = some row ∧ r.suspensionSeq ≤ Double.number row.suspensionSeq.val

theorem merged_write {s : RowState} (h : Merged s) (mode : RevocationMode) (account : ChainStore.Uuid)
    (origin : String) :
    Merged (rowStep nfc sha agentId s (.write mode account origin)) := by
  cases hok : applyRevocationFlag s.row mode account origin with
  | error e => simpa only [rowStep, hok] using h
  | ok written =>
    obtain ⟨row', out⟩ := written
    simp only [rowStep, hok]
    intro r hr
    obtain ⟨row, hrow, hle⟩ := h r hr
    rw [hrow] at hok
    cases row' with
    | none =>
      -- a write never removes a row
      cases mode with
      | clear =>
        simp only [applyRevocationFlag] at hok
        split_ifs at hok
        · cases hok
        · obtain ⟨seq, -, heq⟩ := exists_of_map_ok hok
          cases heq
      | pause | burn =>
        obtain ⟨seq, -, heq⟩ := exists_of_map_ok hok
        cases heq
    | some row' =>
      exact ⟨row', rfl, hle.trans (Double.number_mono (applyRevocationFlag_spec hok).1)⟩

theorem merged_apply {s : RowState} (h : Merged s) {body : SuspensionBody}
    (hfree : TellsVersions nfc sha agentId s (.apply body)) :
    Merged (rowStep nfc sha agentId s (.apply body)) := by
  cases hok : applyOneTierB (acceptedSuspensions nfc sha) s.row ⟨agentId, body⟩ with
  | error e => simpa only [rowStep, hok] using h
  | ok one =>
    simp only [rowStep, hok]
    have hseq := congrArg (fun t => (ofLex t).1) (standing_of_applied hfree hok)
    intro r hr
    refine ⟨one.row, rfl, ?_⟩
    rcases List.mem_append.1 hr with hr | hr
    · obtain ⟨row, hrow, hle⟩ := h r hr
      rw [hrow] at hseq
      refine hle.trans (le_of_le_of_eq ?_ hseq.symm)
      exact Prod.Lex.monotone_fst_ofLex (le_max_left (row.toBody agentId).accepted.standing _)
    · obtain rfl := List.mem_singleton.1 hr
      refine le_of_le_of_eq ?_ hseq.symm
      cases s.row with
      | none => exact le_rfl
      | some row => exact Prod.Lex.monotone_fst_ofLex (le_max_right _ r.standing)

theorem merged_rowAfter {start : Option SuspensionRow} {events : List RowEvent}
    (hfree : Guarded (rowStep nfc sha agentId) (TellsVersions nfc sha agentId) ⟨start, []⟩ events) :
    Merged (rowAfter nfc sha agentId start events) := by
  have hstart : Merged ⟨start, []⟩ := fun r hr => absurd hr List.not_mem_nil
  have hrun := Guarded.invariant (P := Merged) (fun s e hs he => by
    cases e with
    | write mode account origin => exact merged_write hs mode account origin
    | apply body => exact merged_apply hs he) hstart hfree events.length
  rwa [List.take_length] at hrun

/-! ### The limit of the column -/

theorem pause_written_iff (row : Option SuspensionRow) (account : ChainStore.Uuid) (origin : String) :
    (∃ row', applyRevocationFlag row .pause account origin = .ok (some row', .applied)) ↔
      ∀ old, row = some old → old.suspensionSeq.val < 2 ^ 63 - 1 := by
  cases row with
  | none =>
    constructor
    · intro _ old hold
      cases hold
    · intro _
      exact ⟨_, rfl⟩
  | some old =>
    have hsucc : (∃ seq, old.suspensionSeq.succ = .ok seq) ↔ old.suspensionSeq.val < 2 ^ 63 - 1 := by
      have hlower := old.suspensionSeq.lower
      have hupper := old.suspensionSeq.upper
      rw [Bigint.succ, Bigint.ofInt]
      split_ifs with hrange
      · exact ⟨fun _ => by omega, fun _ => ⟨_, rfl⟩⟩
      · constructor
        · rintro ⟨seq, h⟩
          cases h
        · intro h
          exact absurd ⟨by omega, by omega⟩ hrange
    simp only [Option.some.injEq, forall_eq', ← hsucc]
    constructor
    · rintro ⟨row', h⟩
      obtain ⟨seq, hseq, -⟩ := exists_of_map_ok h
      exact ⟨seq, hseq⟩
    · rintro ⟨seq, hseq⟩
      exact ⟨_, by simp only [applyRevocationFlag, hseq]; rfl⟩

theorem beats_of_written {s : RowState} (hs : Merged s) {account : ChainStore.Uuid} {origin : String}
    {row : SuspensionRow}
    (h : applyRevocationFlag s.row .pause account origin = .ok (some row, .applied)) :
    ∀ r, (r ∈ s.merged ∨ ∃ old, s.row = some old ∧ r = (old.toBody agentId).accepted) →
      Beats nfc sha (row.toBody agentId).accepted r := by
  have hpaused : row.paused = true := applyRevocationFlag_paused (by decide) h
  have hnewer : ∀ old, s.row = some old →
      Double.number old.suspensionSeq.val ≤ Double.number row.suspensionSeq.val := by
    intro old hold
    rw [hold] at h
    exact Double.number_mono (applyRevocationFlag_spec h).1
  rintro r (hr | ⟨old, hold, rfl⟩)
  · obtain ⟨old, hold, hle⟩ := hs r hr
    exact paused_merge (hle.trans (hnewer old hold)) hpaused
  · exact paused_merge (hnewer old hold) hpaused

end

/-- **When a pause takes effect**: after any writes and any bodies, exactly when the row that is there
has not come to the last number of its column. -/
theorem pause_takes_effect_iff (nfc : Nfc) (sha : Sha256) (agentId : String)
    (start : Option SuspensionRow) (events : List RowEvent)
    (hfree : Guarded (rowStep nfc sha agentId) (TellsVersions nfc sha agentId) ⟨start, []⟩ events)
    (accountId : ChainStore.Uuid) (originNode : String) :
    PauseTakesEffect nfc sha agentId (rowAfter nfc sha agentId start events) accountId originNode ↔
      ∀ row, (rowAfter nfc sha agentId start events).row = some row →
        row.suspensionSeq.val < 2 ^ 63 - 1 := by
  rw [← pause_written_iff _ accountId originNode]
  constructor
  · rintro ⟨row, hok, -, -⟩
    exact ⟨row, hok⟩
  · rintro ⟨row, hok⟩
    exact ⟨row, hok, applyRevocationFlag_paused (by decide) hok,
      beats_of_written (merged_rowAfter hfree) hok⟩

/-! ### A body at the limit -/

namespace Pause.Sample

open KillSwitch.Sample (account)

/-- The account under which the peer's body stands. -/
def otherAccount : ChainStore.Uuid :=
  ⟨"5f0c9a52-6b1e-4d36-9a6f-2f1f3f5f9a01", "5f0c9a52-6b1e-4d36-9a6f-2f1f3f5f9a01", by decide⟩

/-- The greatest number below the limit that a double holds, from a peer. -/
def body : SuspensionBody where
  agentId := "agent-1"
  paused := false
  burned := false
  reason := none
  authorizedByAccount := some otherAccount.1
  suspensionSeq := Double.number (2 ^ 63 - 1024)
  originNode := some "node-b"

def pause : RowEvent := .write .pause account "node-a"

/-- The body, and then the owner pauses until the number has come to the limit. -/
def untilLimit : List RowEvent := .apply body :: List.replicate 807 pause

theorem pauses (nfc : Nfc) (sha : Sha256) (merged : List SuspensionBody) :
    ∀ (n : ℕ) (row : SuspensionRow), row.suspensionSeq.val + n < 2 ^ 63 →
      ∃ row', ((List.replicate n pause).foldl (rowStep nfc sha "agent-1") ⟨some row, merged⟩).row =
        some row' ∧ row'.suspensionSeq.val = row.suspensionSeq.val + n := by
  intro n
  induction n with
  | zero => intro row _; exact ⟨row, rfl, by simp⟩
  | succ n ih =>
    intro row hlt
    push_cast at hlt
    obtain ⟨row₁, hok⟩ := (pause_written_iff (some row) account "node-a").2
      fun old hold => by cases hold; omega
    obtain ⟨seq, hseq, heq⟩ := exists_of_map_ok hok
    have hval : row₁.suspensionSeq.val = row.suspensionSeq.val + 1 := by
      obtain rfl := Option.some.inj (Prod.mk.inj heq).1
      exact Bigint.val_of_ofInt hseq
    obtain ⟨row', hrow', hval'⟩ := ih row₁ (by omega)
    refine ⟨row', ?_, by push_cast; omega⟩
    have hstep : rowStep nfc sha "agent-1" ⟨some row, merged⟩ pause = ⟨some row₁, merged⟩ := by
      simp only [rowStep, pause, hok]
    rw [List.replicate_succ, List.foldl_cons, hstep]
    exact hrow'

/-- The row of the body: its number is written by its shortest text. -/
def taken : SuspensionRow where
  paused := false
  burned := false
  reason := none
  authorizedByAccount := otherAccount
  suspensionSeq := ⟨2 ^ 63 - 808, by decide, by decide⟩
  originNode := some "node-b"

theorem toRow_body : body.toRow = .ok taken := by
  have hinteger : Double.integer body.suspensionSeq = 2 ^ 63 - 808 := by decide
  rw [SuspensionBody.toRow]
  simp only [hinteger]
  rfl

theorem rowStep_body (nfc : Nfc) (sha : Sha256) :
    rowStep nfc sha "agent-1" ⟨none, []⟩ (.apply body) = ⟨some taken, [body]⟩ := by
  have hok : applyOneTierB (acceptedSuspensions nfc sha) none ⟨"agent-1", body⟩ =
      .ok ⟨taken, true, false⟩ := by
    simp only [applyOneTierB, mergeRow, acceptedSuspensions, toRow_body]
    rfl
  simp only [rowStep, hok, List.nil_append]

theorem tellsVersions_none (nfc : Nfc) (sha : Sha256) :
    TellsVersions nfc sha "agent-1" ⟨none, []⟩ (.apply body) := by
  intro row hrow
  cases hrow

end Pause.Sample

open KillSwitch.Sample Pause.Sample in
/-- **An agent whose number has come to the limit cannot be paused**: after one body of a peer and
eight hundred and seven writes of the owner, the database refuses the next pause. -/
theorem pause_fails_at_the_limit :
    Guarded (rowStep nfc sha "agent-1") (TellsVersions nfc sha "agent-1") ⟨none, []⟩ untilLimit ∧
      ¬PauseTakesEffect nfc sha "agent-1" (rowAfter nfc sha "agent-1" none untilLimit)
        account "node-a" := by
  constructor
  · refine ⟨tellsVersions_none nfc sha, ?_⟩
    refine Guarded.of_forall fun m e he => ?_
    obtain rfl := List.eq_of_mem_replicate (List.mem_of_getElem? he)
    trivial
  · rintro ⟨row, hok, -, -⟩
    obtain ⟨last, hlast, hval⟩ := pauses nfc sha [body] 807 taken (by decide)
    have hrow : (rowAfter nfc sha "agent-1" none untilLimit).row = some last := by
      rw [rowAfter, untilLimit, List.foldl_cons, rowStep_body]
      exact hlast
    rw [hrow] at hok
    have hlt := (pause_written_iff (some last) account "node-a").1 ⟨row, hok⟩ last rfl
    rw [hval] at hlt
    exact absurd hlt (by decide)

open KillSwitch.Sample Pause.Sample in
/-- The same agent can be paused right after the body. -/
theorem pause_takes_effect_after_the_body :
    PauseTakesEffect nfc sha "agent-1" (rowAfter nfc sha "agent-1" none [.apply body])
      account "node-a" :=
  (pause_takes_effect_iff nfc sha "agent-1" none [.apply body] ⟨tellsVersions_none nfc sha, trivial⟩
    account "node-a").2 fun row hrow => by
      simp only [rowAfter, List.foldl_cons, List.foldl_nil, rowStep_body, Option.some.injEq] at hrow
      subst hrow
      decide

end Cello.Directory.AntiEntropy
