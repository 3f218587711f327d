import Cello.Directory.Seal.UnilateralOnce

/-!
# A bilateral certificate and what comes after it

`#processSealUnilateral` asks whether the session has a unilateral seal, and nothing asks whether it
has a bilateral one: a bilateral completion leaves the session's maps as they are, and the store
keeps one row for each kind of seal.  A bilateral certificate is the last of its session if no
request for a unilateral one passes after it and none is under way when it is stored
(`bilateral_stays_final`); else the session gets both (`unilateral_after_bilateral`).
-/

namespace Cello.Directory.Seal

open Lib Cello.Interfaces

/-- A bilateral row of the session is in the store. -/
def BilateralRecorded (sessionId : Bytes) (s : SealState) : Prop :=
  ∃ r ∈ s.tables.notarizations, r.sessionId = sessionId ∧ r.sealType = .bilateral

/-- The unilateral rows of the session. -/
def unilateralRows (sessionId : Bytes) (s : SealState) : List NotarizationRow :=
  s.tables.notarizations.filter fun r =>
    decide (r.sessionId = sessionId) && decide (r.sealType = .unilateral)

/-- The certificates of a unilateral seal that have gone out. -/
def unilateralNotices (s : SealState) : List SealOutput := s.outputs.filter SealOutput.isNotice

def StoresBilateral (s : SealState) : SealEvent → Prop
  | .resume id (.stored true _) => ∃ b, s.tasks.lookup id = some (.sealRecord b)
  | _ => False

/-- **The two kinds of seals are kept apart**: no request passes after a bilateral row, and the row
comes when no unilateral seal is under way. -/
structure KeptApart (ext : NodeExternals) (cfg : NodeConfig) (sessionId : Bytes) (s : SealState)
    (e : SealEvent) : Prop where
  before : RequestPasses ext cfg sessionId s e → ¬BilateralRecorded sessionId s
  alone : StoresBilateral s e → ¬UnilateralUnderWay s

section Final

variable {ext : NodeExternals} {cfg : NodeConfig} {sessionId : Bytes} {s : SealState}

/-! ### The rows of a step -/

theorem storeRow_rows (db : Tables) (n : SealNotarization) (ok : Bool) :
    (storeRow db n ok).notarizations = db.notarizations ∨
      (ok = true ∧ ∃ r : NotarizationRow, r.sealType = n.sealType.getD .bilateral ∧
        (storeRow db n ok).notarizations = db.notarizations ++ [r]) := by
  cases ok with
  | false => exact Or.inl rfl
  | true =>
    rcases recordNotarization_rows db n with ⟨-, h⟩ | ⟨-, r, -, hr, h⟩
    · exact Or.inl h
    · exact Or.inr ⟨rfl, r, hr, h⟩

theorem rows_step (ext : NodeExternals) (cfg : NodeConfig) (sessionId : Bytes) (s : SealState)
    (e : SealEvent) :
    (sealStep ext cfg sessionId s e).tables.notarizations = s.tables.notarizations ∨
      ∃ r : NotarizationRow,
        (sealStep ext cfg sessionId s e).tables.notarizations = s.tables.notarizations ++ [r] ∧
          (r.sealType = .bilateral ∧ StoresBilateral s e ∨
            r.sealType = .unilateral ∧ UnilateralUnderWay s) := by
  rcases sealStep_cases ext cfg sessionId s e with ⟨-, hsame⟩ | ⟨id, move, hmove, hof, hstep⟩
  · rw [hsame]
    exact Or.inl rfl
  · rw [hstep]
    generalize hphase : s.phaseOf e = phase at hof
    cases hof with
    | completeUnilateral c ok connected =>
      rcases storeRow_rows (s.running e).tables (c.notarization sessionId) ok with
        h | ⟨-, r, hr, h⟩
      · exact Or.inl (by simpa only [perform, running_tables] using h)
      · refine Or.inr ⟨r, by simpa only [perform, running_tables] using h, Or.inr ⟨hr, ?_⟩⟩
        exact underWay_of_phaseOf hphase rfl
    | record b ok =>
      rcases storeRow_rows (s.running e).tables (b.notarization sessionId) ok with
        h | ⟨hok, r, hr, h⟩
      · exact Or.inl (by simpa only [perform, running_tables] using h)
      · refine Or.inr ⟨r, by simpa only [perform, running_tables] using h, Or.inl ⟨hr, ?_⟩⟩
        -- only the answer of the store records
        cases e with
        | resume i answer =>
          simp only [sealMove, Option.bind_eq_some_iff, Option.map_eq_some_iff] at hmove
          obtain ⟨phase, hlookup, m, hm, heq⟩ := hmove
          obtain ⟨-, rfl⟩ := Prod.mk.inj heq
          obtain rfl : phase = .sealRecord b := Option.some.inj (hlookup.symm.trans hphase)
          cases answer with
          | stored ok' connected =>
            have hok' : ok' = true := by
              simp only [resumePhase, Option.some.injEq, Move.record.injEq, true_and] at hm
              rw [hm, hok]
            rw [hok']
            exact ⟨b, hphase⟩
          | _ => simp [resumePhase] at hm
        | _ => cases hphase
    | _ =>
      refine Or.inl ?_
      simp only [perform, running_tables]

theorem BilateralRecorded.step {e : SealEvent} (h : BilateralRecorded sessionId s) :
    BilateralRecorded sessionId (sealStep ext cfg sessionId s e) := by
  obtain ⟨r, hr, hrow⟩ := h
  rcases rows_step ext cfg sessionId s e with hrows | ⟨r', hrows, -⟩
  · exact ⟨r, by rwa [hrows], hrow⟩
  · exact ⟨r, by rw [hrows]; exact List.mem_append_left _ hr, hrow⟩

theorem StoresBilateral.not_passes {e : SealEvent} (h : StoresBilateral s e) :
    ¬RequestPasses ext cfg sessionId s e := by
  cases e with
  | resume id answer =>
    cases answer with
    | stored ok connected =>
      cases ok with
      | true =>
        obtain ⟨b, hb⟩ := h
        rintro ⟨phase, hphase, hpasses⟩
        obtain rfl : phase = .sealRecord b := Option.some.inj (hphase.symm.trans hb)
        exact hpasses
      | false => cases h
    | _ => cases h
  | _ => cases h

/-! ### The invariant -/

/-- No unilateral seal is under way beside a bilateral row. -/
def Settled (sessionId : Bytes) (s : SealState) : Prop :=
  BilateralRecorded sessionId s → ¬UnilateralUnderWay s

theorem Settled.step {e : SealEvent} (hs : Settled sessionId s)
    (hguard : KeptApart ext cfg sessionId s e) :
    Settled sessionId (sealStep ext cfg sessionId s e) := by
  intro hrecorded hway
  by_cases hbefore : BilateralRecorded sessionId s
  · rcases underWay_step hway with hway | ⟨id, v, henter⟩
    · exact hs hbefore hway
    · exact hguard.before (requestPasses_of_enter henter) hbefore
  · obtain ⟨r, hr, hrow⟩ := hrecorded
    rcases rows_step ext cfg sessionId s e with hrows | ⟨r', hrows, hkind⟩
    · rw [hrows] at hr
      exact hbefore ⟨r, hr, hrow⟩
    · rw [hrows] at hr
      rcases List.mem_append.1 hr with hr | hr
      · exact hbefore ⟨r, hr, hrow⟩
      · obtain rfl := List.mem_singleton.1 hr
        rcases hkind with ⟨-, hstores⟩ | ⟨hsolo, -⟩
        · rcases underWay_step hway with hway | ⟨id, v, henter⟩
          · exact hguard.alone hstores hway
          · exact hstores.not_passes (requestPasses_of_enter henter)
        · rw [hrow.2] at hsolo
          cases hsolo

/-! ### After the certificate -/

theorem unilateral_frozen_step (ext : NodeExternals) (cfg : NodeConfig) (sessionId : Bytes)
    (e : SealEvent) (hidle : ¬UnilateralUnderWay s) :
    unilateralRows sessionId (sealStep ext cfg sessionId s e) = unilateralRows sessionId s ∧
      unilateralNotices (sealStep ext cfg sessionId s e) = unilateralNotices s := by
  constructor
  · unfold unilateralRows
    rcases rows_step ext cfg sessionId s e with hrows | ⟨r, hrows, ⟨hkind, -⟩ | ⟨-, hway⟩⟩
    · rw [hrows]
    · rw [hrows, List.filter_append]
      simp [hkind]
    · exact absurd hway hidle
  · rcases sealStep_cases ext cfg sessionId s e with ⟨-, hsame⟩ | ⟨id, move, -, hof, hstep⟩
    · rw [hsame]
    · rw [hstep]
      have hquiet : ∀ out : List SealOutput, (∀ o ∈ out, o.isNotice = false) →
          (s.outputs ++ out).filter SealOutput.isNotice = s.outputs.filter SealOutput.isNotice := by
        intro out hout
        have hnone : out.filter SealOutput.isNotice = [] :=
          List.filter_eq_nil_iff.2 fun o ho => by simp [hout o ho]
        rw [List.filter_append, hnone, List.append_nil]
      unfold unilateralNotices
      generalize hphase : s.phaseOf e = phase at hof
      cases hof with
      | completeUnilateral c ok connected => exact absurd (underWay_of_phaseOf hphase rfl) hidle
      | refuse at? out quiet => simpa only [perform, running_outputs] using hquiet out quiet
      | openUnilateral v out quiet => simpa only [perform, running_outputs] using hquiet out quiet
      | openBilateral p out quiet => simpa only [perform, running_outputs] using hquiet out quiet
      | sealAlone p b out quiet => simpa only [perform, running_outputs] using hquiet out quiet
      | sealBoth p signature b out both quiet =>
        simpa only [perform, running_outputs] using hquiet out quiet
      | _ => simp only [perform, running_outputs]

end Final

/-- **A bilateral certificate is final**, in runs that keep the two kinds of seals apart: from a state
that has its row on, the unilateral rows and notices of the session stay what they are. -/
theorem bilateral_stays_final (ext : NodeExternals) (cfg : NodeConfig) (sessionId : Bytes)
    (genesisAt : ℤ) (participants : Bytes × Bytes) (pending : Option (Bytes × Bytes))
    (highStakes : Bool) (events later : List SealEvent)
    (h : Guarded (sealStep ext cfg sessionId) (KeptApart ext cfg sessionId)
      (.established genesisAt participants pending highStakes) (events ++ later))
    (before after : SealState)
    (hbefore : before = sealRun ext cfg sessionId
      (.established genesisAt participants pending highStakes) events)
    (hafter : after = sealRun ext cfg sessionId before later)
    (hrecorded : BilateralRecorded sessionId before) :
    unilateralRows sessionId after = unilateralRows sessionId before ∧
      unilateralNotices after = unilateralNotices before := by
  have hsettled : Settled sessionId before := by
    have hrun := Guarded.invariant (P := Settled sessionId) (fun s e hs he => hs.step he) (by
      rintro ⟨r, hr, -⟩
      cases hr) h events.length
    rw [List.take_left] at hrun
    rwa [hbefore]
  have hlater : Guarded (sealStep ext cfg sessionId) (KeptApart ext cfg sessionId) before later := by
    have hdrop := h.drop events.length
    rw [List.take_left, List.drop_left] at hdrop
    rwa [hbefore]
  -- what one step beside the row keeps, the rest of the run keeps
  have hrun := Guarded.invariant (P := fun s => Settled sessionId s ∧ BilateralRecorded sessionId s ∧
      unilateralRows sessionId s = unilateralRows sessionId before ∧
      unilateralNotices s = unilateralNotices before) (by
    rintro s e ⟨hs, hrecorded, hrows, hnotices⟩ he
    obtain ⟨hrows', hnotices'⟩ := unilateral_frozen_step ext cfg sessionId e (hs hrecorded)
    exact ⟨hs.step he, hrecorded.step, hrows'.trans hrows, hnotices'.trans hnotices⟩)
    ⟨hsettled, hrecorded, rfl, rfl⟩ hlater later.length
  rw [List.take_length] at hrun
  rw [hafter]
  exact ⟨hrun.2.2.1, hrun.2.2.2⟩

namespace Sample

/-- The initiator's signature over the message that is pending after these events. -/
def signed (events : List SealEvent) : SealEvent :=
  .frostSignature (Interfaces.Sample.key 1)
    ([4] ++ ((runOf events).pendingFrostSeals.map PendingFrostSeal.tbs).getD [])

/-- Both participants seal, and the row is stored. -/
def sealedByBoth : List SealEvent :=
  let opened := [.processSeal (numberedFrom 1) (relayRoot 1) 700000, .resume 0 groupKey]
  opened ++ [signed opened, .resume 1 groupKey, .resume 1 (.stored true true)]

/-- The relay hands the same seal in again, and sender 1 asks for a seal without the other, who is there. -/
def again : List SealEvent :=
  [.processSeal (numberedFrom 1) (relayRoot 1) 700002, .resume 2 groupKey, request 700003,
    .resume 3 (.liveness .alive)]

/-- Sender 1 asks for a seal without the other, once both have sealed. -/
def aloneAfterwards : List SealEvent :=
  let opened := sealedByBoth ++ [request 700001, .resume 2 gone, .resume 2 groupKey]
  opened ++ [signed opened, .resume 3 groupKey, .resume 3 (.stored true true)]

theorem keptApart_resume {id : ℕ} {answer : Answer} {s : SealState}
    (hphase : (s.tasks.lookup id).map Phase.awaitsRelay = some false)
    (hanswer : (∀ connected, answer ≠ .stored true connected) ∨ ¬UnilateralUnderWay s) :
    KeptApart nodeExternals nodeConfig Interfaces.Sample.sid s (.resume id answer) := by
  refine ⟨fun h => ?_, fun h => hanswer.resolve_left fun hanswer => ?_⟩
  · rw [h.awaits] at hphase
    cases hphase
  · cases answer with
    | stored ok connected =>
      cases ok with
      | true => exact hanswer connected rfl
      | false => exact h
    | _ => exact h

theorem keptApart_alive {id : ℕ} {s : SealState} :
    KeptApart nodeExternals nodeConfig Interfaces.Sample.sid s (.resume id (.liveness .alive)) := by
  refine ⟨?_, fun h => h.elim⟩
  rintro ⟨phase, -, hpasses⟩
  cases phase with
  | liveness sender frame now genesisAt participants highStakes =>
    obtain ⟨hgate, -⟩ := hpasses
    cases hgate
  | _ => exact hpasses.elim

theorem sealedByBoth_keptApart : Guarded (sealStep nodeExternals nodeConfig Interfaces.Sample.sid)
    (KeptApart nodeExternals nodeConfig Interfaces.Sample.sid) session (sealedByBoth ++ again) :=
  ⟨⟨fun h => h.elim, fun h => h.elim⟩,
    keptApart_resume (by decide +kernel) (Or.inl fun _ h => by cases h),
    ⟨fun h => h.elim, fun h => h.elim⟩,
    keptApart_resume (by decide +kernel) (Or.inl fun _ h => by cases h),
    keptApart_resume (by decide +kernel) (Or.inr (by decide +kernel)),
    ⟨fun h => h.elim, fun h => h.elim⟩,
    keptApart_resume (by decide +kernel) (Or.inl fun _ h => by cases h),
    ⟨fun h => absurd h.1 (by decide), fun h => h.elim⟩, keptApart_alive, trivial⟩

theorem sealedByBoth_recorded : BilateralRecorded Interfaces.Sample.sid (runOf sealedByBoth) := by
  unfold BilateralRecorded
  decide +kernel

end Sample

/-- The relay hands the same seal in again, and the request that comes after it is refused. -/
theorem bilateral_stays_final_resubmitted :
    let before := Sample.runOf Sample.sealedByBoth
    let after := sealRun Sample.nodeExternals Sample.nodeConfig Interfaces.Sample.sid before Sample.again
    unilateralRows Interfaces.Sample.sid after = unilateralRows Interfaces.Sample.sid before ∧
      unilateralNotices after = unilateralNotices before :=
  bilateral_stays_final Sample.nodeExternals Sample.nodeConfig Interfaces.Sample.sid 0
    (Interfaces.Sample.key 1, Interfaces.Sample.key 2) none false Sample.sealedByBoth Sample.again
    Sample.sealedByBoth_keptApart _ _ rfl rfl Sample.sealedByBoth_recorded

/-- **A session with a bilateral certificate gets a unilateral one**, and both parties are told. -/
theorem unilateral_after_bilateral :
    (Sample.runOf Sample.sealedByBoth).tables.notarizations.map NotarizationRow.sealType =
        [.bilateral] ∧
      (Sample.runOf Sample.aloneAfterwards).tables.notarizations.map NotarizationRow.sealType =
        [.bilateral, .unilateral] ∧
      (unilateralNotices (Sample.runOf Sample.sealedByBoth)).length = 0 ∧
      (unilateralNotices (Sample.runOf Sample.aloneAfterwards)).length = 2 := by
  refine ⟨?_, ?_, ?_, ?_⟩ <;> decide +kernel

end Cello.Directory.Seal
