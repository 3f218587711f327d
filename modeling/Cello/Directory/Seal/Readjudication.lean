import Cello.Directory.Seal.UnilateralOnce

/-!
# The same seal again

A relay that does not learn what became of a seal calls `processSeal` again with the same leaves.
Each call takes its own timestamp, has its own message to be signed and writes it over the one that
is pending, and the initiator answers every `seal_verified` it receives.  The node compares a
signature with the message that is pending by then.  So the calls do no harm if every signature that
finds a pending seal is over the message of that seal (`readjudication_harmless`); if the answer to
an earlier `seal_verified` comes first, the session is told that its seal is rejected, and nothing
is recorded (`readjudication_rejected`).
-/

namespace Cello.Directory.Seal

open Lib Cello.Interfaces

/-- One accepted seal, the initiator's group key as the node resolves it, and the initiator's valid
signatures. -/
structure Ceremony where
  ext : NodeExternals
  cfg : NodeConfig
  sessionId : Bytes
  roster : Bytes × Bytes
  leaves : List RelaySealLeaf
  relayRoot : Bytes
  adjudication : SealAdjudication
  accepted : adjudicateSeal ext.toSealExternals sessionId (some roster) leaves relayRoot =
    .ok adjudication
  primary : Option Bytes
  sign : Bytes → Bytes
  valid : ∀ key, primary = some key → ∀ tbs, ext.verifyFrost (sign tbs) tbs key = true

/-- The relay calls, an await of the node ends, or the initiator answers a `seal_verified`. -/
inductive RetryEvent where
  | call (now : ℤ)
  | key (id : ℕ) (homedElsewhere : Bool)
  | signed (id : ℕ) (signature : Bytes)
  | stored (id : ℕ) (connected : Bool)
  | answer (i : ℕ)
deriving DecidableEq, Repr

/-- The node, and the messages of the `seal_verified` that the initiator has not answered yet. -/
structure RetryState where
  node : SealState
  awaited : List Bytes
  calls : ℕ

/-- The participants are told that the seal is rejected. -/
def SealOutput.isRejection : SealOutput → Bool
  | .to _ (.sessionSealRejected _ _) => true
  | .broadcast (.sessionSealRejected _ _) => true
  | _ => false

namespace Ceremony

variable (c : Ceremony)

/-- The message the initiator signs for a `seal_verified`. -/
def messageOf : SealOutput → Option Bytes
  | .to recipient (.sealVerified root leafCount timestamp legibility _) =>
    if recipient = c.adjudication.initiator then
      let tbs := c.ext.buildSealTbs c.sessionId root leafCount (.fin timestamp)
      some (match legibility with
        | some l => bindLegibilityToTbs c.ext.sha256 tbs l.toValue
        | none => tbs)
    else none
  | _ => none

/-- What the event is to the node. -/
def nodeEvent (t : RetryState) : RetryEvent → Option SealEvent
  | .call now => some (.processSeal c.leaves c.relayRoot now)
  | .key id homedElsewhere => some (.resume id (.key c.primary homedElsewhere))
  | .signed id signature => some (.resume id (.signed signature))
  | .stored id connected => some (.resume id (.stored true connected))
  | .answer i =>
    t.awaited[i]?.map fun tbs => .frostSignature c.adjudication.initiator (c.sign tbs)

/-- The initiator answers each `seal_verified` once. -/
def unanswered (awaited : List Bytes) : RetryEvent → List Bytes
  | .answer i => awaited.eraseIdx i
  | _ => awaited

def callsAfter (n : ℕ) : RetryEvent → ℕ
  | .call _ => n + 1
  | _ => n

/-- One step of the node and the initiator. -/
def step (t : RetryState) (e : RetryEvent) : RetryState :=
  match c.nodeEvent t e with
  | none => t
  | some event =>
    let node := sealStep c.ext c.cfg c.sessionId t.node event
    { node := node
      awaited := unanswered t.awaited e ++
        (node.outputs.drop t.node.outputs.length).filterMap c.messageOf
      calls := callsAfter t.calls e }

/-- The session before the first call. -/
def start (genesisAt : ℤ) (pending : Option (Bytes × Bytes)) (highStakes : Bool) : RetryState :=
  ⟨.established genesisAt c.roster pending highStakes, [], 0⟩

def run (t : RetryState) (events : List RetryEvent) : RetryState := events.foldl c.step t

/-- **A signature that finds a pending seal is over its message.** -/
def SignsPending (t : RetryState) : RetryEvent → Prop
  | .answer i => ∀ tbs, t.awaited[i]? = some tbs →
      ∀ p, t.node.pendingFrostSeals = some p → p.tbs = tbs
  | _ => True

/-! ### What stays true -/

/-- `processSeal` at this time, with the message fixed. -/
def prepared (now : ℤ) : PreparedSeal where
  adjudication := c.adjudication
  closeTimestamp := now
  tbs := sealTbs c.ext c.sessionId c.adjudication now
  frontierLeaves := c.leaves.map frontierLeaf

/-- A pending seal of this ceremony. -/
structure Pending (p : PendingFrostSeal) : Prop where
  initiator : p.initiator = c.adjudication.initiator
  bilateral : p.unilateral = false
  keyed : c.primary.isSome = true

/-- Where handlers of this ceremony can stand; a signature they hold is a valid one. -/
def Expected : Phase → Prop
  | .sealKey p => ∃ now, p = c.prepared now
  | .sealSign _ => True
  | .sealRecord _ => True
  | .frostKey p signature => c.Pending p ∧ signature = c.sign p.tbs
  | _ => False

def Busy (s : SealState) : Prop :=
  s.tasks ≠ [] ∨ s.pendingFrostSeals.isSome = true ∨ s.tables.notarizations ≠ []

def OneRow (db : Tables) : Prop :=
  db.notarizations = [] ∨
    ∃ r, db.notarizations = [r] ∧ r.sessionId = c.sessionId ∧ r.sealType = .bilateral

structure Inv (t : RetryState) : Prop where
  roster : t.node.participants = some c.roster
  phases : ∀ task ∈ t.node.tasks, c.Expected task.2
  slot : ∀ p, t.node.pendingFrostSeals = some p → c.Pending p ∧ p.tbs ∈ t.awaited
  quiet : ∀ o ∈ t.node.outputs, o.isRejection = false
  rows : c.OneRow t.node.tables
  busy : 0 < t.calls → Busy t.node

variable {c} {t : RetryState}

/-! ### The moves of the ceremony -/

/-- What a suspended handler of the ceremony does when nothing fails. -/
inductive HonestMove : Phase → Move → Prop
  | signAlone (p : PreparedSeal) : HonestMove (.sealKey p) (.suspend (.sealSign p))
  | openFrost (now : ℤ) (homedElsewhere : Bool) (keyed : c.primary.isSome = true) :
      HonestMove (.sealKey (c.prepared now))
        (.openFrost (c.prepared now).pending (verifiedOutputs (c.prepared now).pending homedElsewhere))
  | complete (phase : Phase) (b : BilateralSeal) (out : List SealOutput)
      (quiet : ∀ o ∈ out, o.isRejection = false) : HonestMove phase (.completeBilateral b out)
  | record (b : BilateralSeal) : HonestMove (.sealRecord b) (.record b true)

theorem sealedOutputs_accepted (b : BilateralSeal) :
    ∀ o ∈ sealedOutputs b, o.isRejection = false := by
  intro o ho
  simp only [sealedOutputs, List.mem_cons, List.not_mem_nil, or_false] at ho
  rcases ho with rfl | rfl <;> rfl

theorem honest_key {phase : Phase} {homedElsewhere : Bool} {move : Move} (hphase : c.Expected phase)
    (h : resumePhase c.ext c.cfg c.sessionId phase (.key c.primary homedElsewhere) = some move) :
    c.HonestMove phase move := by
  cases phase with
  | sealKey p =>
    obtain ⟨now, rfl⟩ := hphase
    cases hprimary : c.primary with
    | none =>
      rw [hprimary] at h
      obtain rfl := Option.some.inj h
      exact .signAlone _
    | some key =>
      rw [hprimary] at h
      obtain rfl := Option.some.inj h
      exact .openFrost now homedElsewhere (by rw [hprimary]; rfl)
  | frostKey p signature =>
    obtain ⟨hp, rfl⟩ := hphase
    obtain ⟨key, hkey⟩ := Option.isSome_iff_exists.1 hp.keyed
    rw [hkey] at h
    simp only [resumePhase, c.valid key hkey, Bool.not_true, Bool.false_eq_true, if_false,
      hp.bilateral, Option.some.injEq] at h
    rw [← h]
    exact .complete _ _ _ (sealedOutputs_accepted _)
  | sealSign p => cases hprimary : c.primary <;> simp [resumePhase] at h
  | sealRecord b => cases hprimary : c.primary <;> simp [resumePhase] at h
  | _ => exact hphase.elim

theorem honest_signed {phase : Phase} {signature : Bytes} {move : Move} (hphase : c.Expected phase)
    (h : resumePhase c.ext c.cfg c.sessionId phase (.signed signature) = some move) :
    c.HonestMove phase move := by
  cases phase with
  | sealSign p =>
    obtain rfl := Option.some.inj h
    refine .complete _ _ _ fun o ho => ?_
    rcases List.mem_append.1 ho with ho | ho
    · exact sealedOutputs_accepted _ o ho
    · rw [List.mem_singleton.1 ho]
      rfl
  | sealKey p => simp [resumePhase] at h
  | frostKey p signature => simp [resumePhase] at h
  | sealRecord b => simp [resumePhase] at h
  | _ => exact hphase.elim

theorem honest_stored {phase : Phase} {connected : Bool} {move : Move} (hphase : c.Expected phase)
    (h : resumePhase c.ext c.cfg c.sessionId phase (.stored true connected) = some move) :
    c.HonestMove phase move := by
  cases phase with
  | sealRecord b =>
    obtain rfl := Option.some.inj h
    exact .record b
  | sealKey p => simp [resumePhase] at h
  | sealSign p => simp [resumePhase] at h
  | frostKey p signature => simp [resumePhase] at h
  | _ => exact hphase.elim

/-! ### Steps -/

theorem messageOf_verified (now : ℤ) (homedElsewhere : Bool) :
    (c.prepared now).pending.tbs ∈
      (verifiedOutputs (c.prepared now).pending homedElsewhere).filterMap c.messageOf := by
  refine List.mem_filterMap.2 ⟨_, List.mem_cons_self, ?_⟩
  simp [messageOf, PendingFrostSeal.verifiedFrame, PreparedSeal.pending, prepared, sealTbs]

theorem OneRow.record {db : Tables} (h : c.OneRow db) (b : BilateralSeal) :
    c.OneRow (recordNotarization db (b.notarization c.sessionId)) ∧
      (recordNotarization db (b.notarization c.sessionId)).notarizations ≠ [] := by
  rcases recordNotarization_rows db (b.notarization c.sessionId) with
    ⟨⟨r, hr, -⟩, hrows⟩ | ⟨hnone, r, hsession, hkind, hrows⟩
  · unfold OneRow
    rw [hrows]
    exact ⟨h, List.ne_nil_of_mem hr⟩
  · rcases h with h | ⟨r', h, hrow⟩
    · refine ⟨Or.inr ⟨r, ?_, hsession, hkind⟩, ?_⟩
      · rw [hrows, h, List.nil_append]
      · rw [hrows]
        simp
    · refine absurd ⟨r', ?_, hrow⟩ hnone
      rw [h]
      exact List.mem_singleton.2 rfl

theorem Inv.unchanged (h : c.Inv t) : c.Inv { t with awaited := t.awaited ++
    (t.node.outputs.drop t.node.outputs.length).filterMap c.messageOf } := by
  rw [List.drop_length, List.filterMap_nil, List.append_nil]
  exact h

theorem Inv.move {id : ℕ} {phase : Phase} {move : Move} (h : c.Inv t)
    (hmove : c.HonestMove phase move) :
    let node := perform c.sessionId { t.node with
      tasks := t.node.tasks.eraseP fun task => task.1 = id } id move
    c.Inv { t with
      node := node
      awaited := t.awaited ++ (node.outputs.drop t.node.outputs.length).filterMap c.messageOf } := by
  have herased : ∀ task ∈ t.node.tasks.eraseP (fun task => task.1 = id), c.Expected task.2 :=
    fun task htask => h.phases task (List.mem_of_mem_eraseP htask)
  have happended : ∀ phase', c.Expected phase' → ∀ task ∈ t.node.tasks.eraseP
      (fun task => task.1 = id) ++ [(id, phase')], c.Expected task.2 := by
    intro phase' hphase' task htask
    rcases List.mem_append.1 htask with htask | htask
    · exact herased task htask
    · rw [List.mem_singleton.1 htask]
      exact hphase'
  have hslot : ∀ (more : List Bytes) (p : PendingFrostSeal), t.node.pendingFrostSeals = some p →
      c.Pending p ∧ p.tbs ∈ t.awaited ++ more :=
    fun more p hp => ⟨(h.slot p hp).1, List.mem_append_left _ (h.slot p hp).2⟩
  have hquiet : ∀ out : List SealOutput, (∀ o ∈ out, o.isRejection = false) →
      ∀ o ∈ t.node.outputs ++ out, o.isRejection = false := by
    intro out hout o ho
    rcases List.mem_append.1 ho with ho | ho
    · exact h.quiet o ho
    · exact hout o ho
  cases hmove with
  | signAlone p =>
    exact ⟨h.roster, happended _ trivial, hslot _, h.quiet, h.rows, fun _ => Or.inl (by simp [perform])⟩
  | openFrost now homedElsewhere keyed =>
    refine ⟨h.roster, herased, ?_, hquiet _ ?_, h.rows, fun _ => Or.inr (Or.inl rfl)⟩
    · intro p hp
      obtain rfl := Option.some.inj hp
      refine ⟨⟨rfl, rfl, keyed⟩, List.mem_append_right _ ?_⟩
      simp only [perform, List.drop_left]
      exact messageOf_verified now homedElsewhere
    · intro o ho
      simp only [verifiedOutputs, List.mem_cons, List.not_mem_nil, or_false] at ho
      rcases ho with rfl | rfl <;> rfl
  | complete phase b out quiet =>
    exact ⟨h.roster, happended _ trivial, hslot _, hquiet out quiet, h.rows,
      fun _ => Or.inl (by simp [perform])⟩
  | record b =>
    obtain ⟨hrow, hne⟩ := h.rows.record b
    exact ⟨h.roster, herased, hslot _, h.quiet, hrow, fun _ => Or.inr (Or.inr hne)⟩

theorem Inv.resume {id : ℕ} {answer : Answer} (h : c.Inv t)
    (honest : ∀ phase move, c.Expected phase →
      resumePhase c.ext c.cfg c.sessionId phase answer = some move → c.HonestMove phase move) :
    let node := sealStep c.ext c.cfg c.sessionId t.node (.resume id answer)
    c.Inv { t with
      node := node
      awaited := t.awaited ++ (node.outputs.drop t.node.outputs.length).filterMap c.messageOf } := by
  cases hlookup : t.node.tasks.lookup id with
  | none =>
    have hstep : sealStep c.ext c.cfg c.sessionId t.node (.resume id answer) = t.node := by
      simp only [sealStep, sealMove, hlookup, Option.bind_none]
    simp only [hstep]
    exact h.unchanged
  | some phase =>
    cases hmove : resumePhase c.ext c.cfg c.sessionId phase answer with
    | none =>
      have hstep : sealStep c.ext c.cfg c.sessionId t.node (.resume id answer) = t.node := by
        simp only [sealStep, sealMove, hlookup, Option.bind_some, hmove, Option.map_none]
      simp only [hstep]
      exact h.unchanged
    | some move =>
      have hstep : sealStep c.ext c.cfg c.sessionId t.node (.resume id answer) =
          perform c.sessionId { t.node with
            tasks := t.node.tasks.eraseP fun task => task.1 = id } id move := by
        simp only [sealStep, sealMove, hlookup, Option.bind_some, hmove, Option.map_some,
          SealState.running]
      simp only [hstep]
      exact h.move (honest phase move (h.phases _ (mem_of_lookup hlookup)) hmove)

theorem Inv.call (h : c.Inv t) (now : ℤ) : c.Inv (c.step t (.call now)) := by
  have hstep : sealStep c.ext c.cfg c.sessionId t.node (.processSeal c.leaves c.relayRoot now) =
      { t.node with
        nextId := t.node.nextId + 1
        tasks := t.node.tasks ++ [(t.node.nextId, .sealKey (c.prepared now))] } := by
    simp only [sealStep, sealMove, startSeal, h.roster, c.accepted, perform, SealState.running,
      prepared]
  simp only [step, nodeEvent, hstep, List.drop_length, List.filterMap_nil, List.append_nil]
  refine ⟨h.roster, ?_, h.slot, h.quiet, h.rows, fun _ => Or.inl (by simp)⟩
  intro task htask
  rcases List.mem_append.1 htask with htask | htask
  · exact h.phases task htask
  · rw [List.mem_singleton.1 htask]
    exact ⟨now, rfl⟩

theorem Inv.answer {i : ℕ} (h : c.Inv t) (hguard : SignsPending t (.answer i)) :
    c.Inv (c.step t (.answer i)) := by
  cases htbs : t.awaited[i]? with
  | none =>
    simp only [step, nodeEvent, htbs, Option.map_none]
    exact h
  | some tbs =>
    simp only [step, nodeEvent, htbs, Option.map_some]
    cases hslot : t.node.pendingFrostSeals with
    | none =>
      have hstep : sealStep c.ext c.cfg c.sessionId t.node
          (.frostSignature c.adjudication.initiator (c.sign tbs)) =
            { t.node with nextId := t.node.nextId + 1 } := by
        simp only [sealStep, sealMove, startSignature, hslot, perform, SealState.running]
      simp only [hstep]
      refine ⟨h.roster, h.phases, ?_, h.quiet, h.rows, h.busy⟩
      intro p hp
      rw [hslot] at hp
      cases hp
    | some p =>
      obtain ⟨hp, -⟩ := h.slot p hslot
      have hstep : sealStep c.ext c.cfg c.sessionId t.node
          (.frostSignature c.adjudication.initiator (c.sign tbs)) =
            { t.node with
              nextId := t.node.nextId + 1
              pendingFrostSeals := none
              tasks := t.node.tasks ++ [(t.node.nextId, .frostKey p (c.sign tbs))] } := by
        simp only [sealStep, sealMove, startSignature, hslot, hp.initiator, ne_eq, not_true_eq_false,
          if_false, perform, SealState.running]
      simp only [hstep]
      refine ⟨h.roster, ?_, ?_, h.quiet, h.rows, fun _ => Or.inl (by simp)⟩
      · intro task htask
        rcases List.mem_append.1 htask with htask | htask
        · exact h.phases task htask
        · rw [List.mem_singleton.1 htask]
          -- the signature that takes the slot is over the message in it
          exact ⟨hp, by rw [hguard tbs htbs p hslot]⟩
      · intro q hq
        cases hq

theorem Inv.step {e : RetryEvent} (h : c.Inv t) (hguard : SignsPending t e) :
    c.Inv (c.step t e) := by
  cases e with
  | call now => exact h.call now
  | key id homedElsewhere => exact h.resume fun _ _ => honest_key
  | signed id signature => exact h.resume fun _ _ => honest_signed
  | stored id connected => exact h.resume fun _ _ => honest_stored
  | answer i => exact h.answer hguard

end Ceremony

/-- **Calling again does no harm where every signature finds its own message pending**: no rejection is
sent and no second row is stored, and when every handler has ended and every `seal_verified` is
answered, the seal is recorded. -/
theorem readjudication_harmless (c : Ceremony) (genesisAt : ℤ) (pending : Option (Bytes × Bytes))
    (highStakes : Bool) (events : List RetryEvent)
    (h : Guarded c.step Ceremony.SignsPending (c.start genesisAt pending highStakes) events) (n : ℕ)
    (t : RetryState) (ht : t = c.run (c.start genesisAt pending highStakes) (events.take n)) :
    (∀ o ∈ t.node.outputs, o.isRejection = false) ∧ t.node.tables.notarizations.length ≤ 1 ∧
      (0 < t.calls → t.node.tasks = [] → t.awaited = [] →
        t.node.tables.notarizations.length = 1) := by
  have hinv : c.Inv t := by
    rw [ht]
    refine Guarded.invariant (fun t e hinv he => hinv.step he) ?_ h n
    refine ⟨rfl, fun task htask => ?_, fun p hp => ?_, fun o ho => ?_, Or.inl rfl, fun hcalls => ?_⟩
    · cases htask
    · cases hp
    · cases ho
    · exact absurd hcalls (lt_irrefl 0)
  refine ⟨hinv.quiet, ?_, fun hcalls htasks hawaited => ?_⟩
  · rcases hinv.rows with hrows | ⟨r, hrows, -⟩ <;> simp [hrows]
  · rcases hinv.busy hcalls with hbusy | hbusy | hbusy
    · exact absurd htasks hbusy
    · obtain ⟨p, hp⟩ := Option.isSome_iff_exists.1 hbusy
      have hmem := (hinv.slot p hp).2
      rw [hawaited] at hmem
      cases hmem
    · rcases hinv.rows with hrows | ⟨r, hrows, -⟩
      · exact absurd hrows hbusy
      · simp [hrows]

namespace Sample

/-- The seal of both participants, and an initiator whose signatures verify. -/
def ceremony : Ceremony where
  ext := nodeExternals
  cfg := nodeConfig
  sessionId := Interfaces.Sample.sid
  roster := (Interfaces.Sample.key 1, Interfaces.Sample.key 2)
  leaves := numberedFrom 1
  relayRoot := relayRoot 1
  adjudication := certified 1
  accepted := accepted_from_one
  primary := some [4]
  sign tbs := [4] ++ tbs
  valid key hkey tbs := by
    obtain rfl := Option.some.inj hkey
    exact decide_eq_true rfl

/-- Two calls a millisecond apart, and both messages are with the initiator. -/
def calledTwice : List RetryEvent :=
  [.call 700000, .call 700001, .key 0 false, .key 1 false]

/-- The answer to the second message comes first. -/
def secondFirst : List RetryEvent :=
  calledTwice ++ [.answer 1, .key 2 false, .stored 2 true, .answer 0]

/-- The answer to the first message comes first. -/
def firstFirst : List RetryEvent :=
  calledTwice ++ [.answer 0, .key 2 false, .answer 0]

def retried (events : List RetryEvent) : RetryState :=
  ceremony.run (ceremony.start 0 none false) events

theorem secondFirst_signsPending : Guarded ceremony.step Ceremony.SignsPending
    (ceremony.start 0 none false) secondFirst := by
  have hanswer : ∀ (t : RetryState) (i : ℕ), (∀ tbs ∈ t.node.pendingFrostSeals.map
      PendingFrostSeal.tbs, t.awaited[i]? = some tbs) → Ceremony.SignsPending t (.answer i) := by
    intro t i h tbs htbs p hp
    have := h p.tbs (by rw [hp]; rfl)
    rw [htbs] at this
    exact (Option.some.inj this).symm
  exact ⟨trivial, trivial, trivial, trivial, hanswer _ _ (by decide +kernel), trivial, trivial,
    hanswer _ _ (by decide +kernel), trivial⟩

end Sample

/-- The answer to the second message first: the seal is recorded once. -/
theorem readjudication_harmless_second_first :
    (Sample.retried Sample.secondFirst).node.tables.notarizations.length = 1 :=
  (readjudication_harmless Sample.ceremony 0 none false Sample.secondFirst
    Sample.secondFirst_signsPending Sample.secondFirst.length (Sample.retried Sample.secondFirst)
    (by rw [List.take_length]; rfl)).2.2 (by decide +kernel)
    (List.length_eq_zero_iff.1 (by decide +kernel)) (List.length_eq_zero_iff.1 (by decide +kernel))

/-- **The answers in the order of the messages**: the first signature meets the second message, both
participants are told that the seal is rejected, and nothing is recorded or to come. -/
theorem readjudication_rejected :
    ((Sample.retried Sample.firstFirst).node.outputs.filter SealOutput.isRejection).length = 2 ∧
      (Sample.retried Sample.firstFirst).node.tables.notarizations.length = 0 ∧
      (Sample.retried Sample.firstFirst).node.tasks.length = 0 ∧
      (Sample.retried Sample.firstFirst).awaited.length = 0 ∧
      (Sample.retried Sample.firstFirst).calls = 2 := by
  refine ⟨?_, ?_, ?_, ?_, ?_⟩ <;> decide +kernel

end Cello.Directory.Seal
