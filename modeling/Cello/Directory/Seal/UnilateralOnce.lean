import Cello.Directory.Seal.Adjudication

/-!
# One unilateral adjudication, and the next one

`#processSealUnilateral` reads the marker of the session first and sets it last, and between the two
it awaits the relay's liveness answer.  So the marker keeps one adjudication from the next only if
no request that passes its checks is answered after the marker is set
(`unilateral_reaches_once`); two requests that wait for the relay together both go on to FROST
signing (`unilateral_reaches_twice`).

Nothing removes the marker.  A valid request is adjudicated exactly if no earlier one of the run has passed the gate
and the checks of its leaves (`unilateral_readmitted_iff`), however the earlier one ended.
-/

namespace Cello.Directory.Seal

open Lib Cello.Interfaces

section Once

variable (ext : NodeExternals) (cfg : NodeConfig) (sessionId : Bytes)

/-! ### Requests that pass -/

def PassesChecks (sender : Bytes) (frame : SealUnilateral) (now genesisAt : ℤ)
    (participants : Bytes × Bytes) (highStakes : Bool) (liveness : Liveness) : Prop :=
  unilateralGate cfg highStakes (now - genesisAt) liveness = .ok () ∧
    ∃ v, verifyUnilateral ext sessionId sender participants frame now liveness = .ok v

/-- What the node makes of the relay's answer; no answer is an unknown state. -/
def Answer.state : Answer → Liveness
  | .liveness state => state
  | _ => .unknown

def Phase.Passes : Phase → Answer → Prop
  | .liveness sender frame now genesisAt participants highStakes, answer =>
    PassesChecks ext cfg sessionId sender frame now genesisAt participants highStakes answer.state
  | _, _ => False

/-- A request passes in this step: at once if the relay cannot be asked, else with its answer. -/
def RequestPasses (s : SealState) : SealEvent → Prop
  | .sealUnilateral sender frame now =>
    cfg.relayReportsLiveness = false ∧ s.unilateralSeals = none ∧
      ∃ genesisAt participants, s.sessionGenesisAt = some genesisAt ∧
        s.participants = some participants ∧
        PassesChecks ext cfg sessionId sender frame now genesisAt participants s.sessionHighStakes
          .unknown
  | .resume id answer =>
    ∃ phase, s.tasks.lookup id = some phase ∧ phase.Passes ext cfg sessionId answer
  | _ => False

/-- **The relay's answer comes in time**: a request that passes with it still finds no marker. -/
def AnsweredInTime (s : SealState) (e : SealEvent) : Prop :=
  RequestPasses ext cfg sessionId s e → s.unilateralSeals = none

variable {ext cfg sessionId} {s : SealState}

def Phase.awaitsRelay : Phase → Bool
  | .liveness .. => true
  | _ => false

theorem RequestPasses.awaits {id : ℕ} {answer : Answer}
    (h : RequestPasses ext cfg sessionId s (.resume id answer)) :
    (s.tasks.lookup id).map Phase.awaitsRelay = some true := by
  obtain ⟨phase, hphase, hpasses⟩ := h
  rw [hphase]
  cases phase with
  | liveness sender frame now genesisAt participants highStakes => rfl
  | _ => exact hpasses.elim

theorem decideUnilateral_enter_iff {sender : Bytes} {frame : SealUnilateral} {now genesisAt : ℤ}
    {participants : Bytes × Bytes} {highStakes : Bool} {liveness : Liveness} :
    (∃ v, decideUnilateral ext cfg sessionId sender frame now genesisAt participants highStakes
      liveness = .enter v) ↔
      PassesChecks ext cfg sessionId sender frame now genesisAt participants highStakes liveness := by
  unfold decideUnilateral PassesChecks
  cases hgate : unilateralGate cfg highStakes (now - genesisAt) liveness with
  | error early => simp
  | ok u =>
    cases hv : verifyUnilateral ext sessionId sender participants frame now liveness with
    | error reason => simp
    | ok v => simp

theorem resumePhase_enter {phase : Phase} {answer : Answer} {v : VerifiedUnilateral}
    (h : resumePhase ext cfg sessionId phase answer = some (.enter v)) :
    phase.Passes ext cfg sessionId answer := by
  cases phase with
  | liveness sender frame now genesisAt participants highStakes =>
    cases answer with
    | liveness state => exact decideUnilateral_enter_iff.1 ⟨v, Option.some.inj h⟩
    | threw => exact decideUnilateral_enter_iff.1 ⟨v, Option.some.inj h⟩
    | _ => simp [resumePhase] at h
  | frostKey p signature =>
    cases answer with
    | key primary homedElsewhere =>
      cases primary with
      | none => simp [resumePhase] at h
      | some k =>
        simp only [resumePhase] at h
        split at h
        · simp at h
        · split at h <;> simp at h
    | _ => simp [resumePhase] at h
  | unilateralKey w =>
    cases answer with
    | key primary homedElsewhere => cases primary <;> simp [resumePhase] at h
    | _ => simp [resumePhase] at h
  | sealKey p =>
    cases answer with
    | key primary homedElsewhere => cases primary <;> simp [resumePhase] at h
    | _ => simp [resumePhase] at h
  | _ => cases answer <;> simp [resumePhase] at h

theorem requestPasses_of_enter {e : SealEvent} {id : ℕ} {v : VerifiedUnilateral}
    (h : sealMove ext cfg sessionId s e = some (id, .enter v)) :
    RequestPasses ext cfg sessionId s e := by
  cases e with
  | resume i answer =>
    simp only [sealMove, Option.bind_eq_some_iff, Option.map_eq_some_iff] at h
    obtain ⟨phase, hphase, move, hmove, heq⟩ := h
    obtain ⟨-, rfl⟩ := Prod.mk.inj heq
    exact ⟨phase, hphase, resumePhase_enter hmove⟩
  | sealUnilateral sender frame now =>
    obtain ⟨-, h⟩ := Prod.mk.inj (Option.some.inj h)
    unfold startUnilateral at h
    split at h
    · cases h
    next hmarker =>
      split at h
      next genesisAt participants hgenesis hparticipants =>
        split at h
        · cases h
        · split at h
          · cases h
          next hrelay =>
            exact ⟨by simpa using hrelay, by simpa using hmarker, genesisAt, participants, hgenesis,
              hparticipants, decideUnilateral_enter_iff.1 ⟨v, h⟩⟩
      · cases h
  | processSeal leaves relayRoot now =>
    obtain ⟨-, h⟩ := Prod.mk.inj (Option.some.inj h)
    unfold startSeal at h
    split at h <;> cases h
  | frostSignature initiator signature =>
    obtain ⟨-, h⟩ := Prod.mk.inj (Option.some.inj h)
    unfold startSignature at h
    split at h
    · cases h
    · split at h <;> cases h

/-! ### At most one gets to the signing -/

/-- The marker is set for the request, and it has not come to the signing yet. -/
def Phase.signs : Phase → Bool
  | .unilateralKey _ => true
  | .unilateralSign _ => true
  | _ => false

def SigningBounded (s : SealState) : Prop :=
  s.reached.length + (s.tasks.countP fun task => task.2.signs) ≤
    if s.unilateralSeals.isSome then 1 else 0

theorem SigningBounded.step {e : SealEvent} (hs : SigningBounded s)
    (hguard : AnsweredInTime ext cfg sessionId s e) :
    SigningBounded (sealStep ext cfg sessionId s e) := by
  rcases sealStep_cases ext cfg sessionId s e with ⟨-, hsame⟩ | ⟨id, move, hmove, hof, hstep⟩
  · rw [hsame]
    exact hs
  · have hcount := countP_running s Phase.signs e
    unfold SigningBounded at hs ⊢
    rw [hstep]
    -- the first marker counts for the request that sets it
    have henter : ∀ v, move = .enter v →
        s.reached.length + (s.tasks.countP fun task => task.2.signs) = 0 := by
      rintro v rfl
      rw [hguard (requestPasses_of_enter hmove)] at hs
      simpa using hs
    simp only [Phase.signs] at hs henter hcount ⊢
    generalize s.phaseOf e = phase at hof hcount
    cases hof with
    | enterAtOnce v first =>
      have := henter v rfl
      simp [perform] at hcount ⊢
      omega
    | enter sender frame now genesisAt participants highStakes v =>
      have := henter v rfl
      simp [perform] at hcount ⊢
      omega
    | openUnilateral v out quiet =>
      simp [perform, VerifiedUnilateral.pending] at hcount ⊢
      omega
    | openBilateral p out quiet =>
      simp [perform, PreparedSeal.pending] at hcount ⊢
      omega
    | _ =>
      simp [perform] at hcount ⊢
      omega

end Once

/-- **Of the requests of a session, one comes to the signing**, if the relay answers each that passes
before another has set the marker.  It holds in every state of the run, also once the first one has
ended. -/
theorem unilateral_reaches_once (ext : NodeExternals) (cfg : NodeConfig) (sessionId : Bytes)
    (genesisAt : ℤ) (participants : Bytes × Bytes) (pending : Option (Bytes × Bytes))
    (highStakes : Bool) (events : List SealEvent)
    (h : Guarded (sealStep ext cfg sessionId) (AnsweredInTime ext cfg sessionId)
      (.established genesisAt participants pending highStakes) events) (n : ℕ) :
    (sealRun ext cfg sessionId (.established genesisAt participants pending highStakes)
      (events.take n)).reached.length ≤ 1 := by
  have hbounded : SigningBounded (sealRun ext cfg sessionId
      (.established genesisAt participants pending highStakes) (events.take n)) :=
    Guarded.invariant (fun s e hs he => hs.step he) (by simp [SigningBounded, SealState.established])
      h n
  unfold SigningBounded at hbounded
  split at hbounded <;> omega

namespace Sample

/-- The stand-ins of the node: a FROST signature is the group key before the message. -/
def nodeExternals : NodeExternals where
  toSealExternals := sealExternals
  buildRelayAckTbs := Interfaces.Sample.replayExternals.buildRelayAckTbs
  encodeCbor := Interfaces.Sample.replayExternals.encodeCbor
  verifyFrost signature tbs key := decide (signature = key ++ tbs)
  encodeNotarizationTbs sid root t := Interfaces.Sample.sequenceByte t :: (sid ++ root)

def nodeConfig : NodeConfig where
  deliveryGraceSeconds := 600
  highStakesGraceSeconds := 86400
  relayReportsLiveness := true

/-- A session of senders 1 and 2. -/
def session : SealState :=
  .established 0 (Interfaces.Sample.key 1, Interfaces.Sample.key 2) none false

/-- Sender 1 speaks and closes alone. -/
def aloneLeaves : List RelaySealLeaf :=
  Interfaces.Sample.replayChain 1 [] (List.replicate 32 0)
    [(.msg, [1, 5, 0, 0, 1]), (.ctrl, [1, 6, 0, 5, 2])]

def aloneFrame : SealUnilateral where
  reportedRoot := Interfaces.Sample.contentRoot aloneLeaves
  sealLeaves := aloneLeaves.map Interfaces.Sample.carry

/-- The request, at a time. -/
def request (now : ℤ) : SealEvent :=
  .sealUnilateral (Interfaces.Sample.key 1) aloneFrame now

def gone : Answer := .liveness .gone

def groupKey : Answer := .key (some [4]) false

def runOf (events : List SealEvent) : SealState :=
  sealRun nodeExternals nodeConfig Interfaces.Sample.sid session events

/-- The same request twice, before the relay has answered the first. -/
def together : List SealEvent :=
  [request 700000, request 700001, .resume 0 gone, .resume 1 gone, .resume 0 groupKey,
    .resume 1 groupKey]

/-- The second request comes when the first has its marker. -/
def apart : List SealEvent :=
  [request 700000, .resume 0 gone, request 700001, .resume 0 groupKey]

end Sample

theorem unilateral_reaches_once_apart : (Sample.runOf Sample.apart).reached.length ≤ 1 := by
  refine unilateral_reaches_once Sample.nodeExternals Sample.nodeConfig Interfaces.Sample.sid 0
    (Interfaces.Sample.key 1, Interfaces.Sample.key 2) none false Sample.apart
    ⟨?_, ?_, ?_, ?_, trivial⟩ 4
  · exact fun _ => rfl
  · exact fun _ => rfl
  · exact fun h => h.2.1
  · exact fun h => absurd h.awaits (by decide +kernel)

/-- **Two requests that wait for the relay together both come to the signing**, and nothing has been
recorded for either. -/
theorem unilateral_reaches_twice :
    (Sample.runOf Sample.together).reached = [0, 1] ∧
      (Sample.runOf Sample.together).tables.notarizations.length = 0 ∧
      (Sample.runOf Sample.together).outputs.length = 2 := by
  decide +kernel

/-! ### The next request -/

section Again

variable (ext : NodeExternals) (cfg : NodeConfig) (sessionId : Bytes)

/-- A request of a participant that passes, with what the relay says if it can be asked. -/
structure ValidRequest (genesisAt : ℤ) (participants : Bytes × Bytes) (highStakes : Bool)
    (sender : Bytes) (frame : SealUnilateral) (now : ℤ) (liveness : Liveness) : Prop where
  participant : sender = participants.1 ∨ sender = participants.2
  asked : cfg.relayReportsLiveness = false → liveness = .unknown
  passes : PassesChecks ext cfg sessionId sender frame now genesisAt participants highStakes liveness

/-- The request arrives and is answered, with nothing in between. -/
def attempt (s : SealState) (sender : Bytes) (frame : SealUnilateral) (now : ℤ)
    (liveness : Liveness) : SealState :=
  sealRun ext cfg sessionId s (.sealUnilateral sender frame now ::
    if cfg.relayReportsLiveness then [.resume s.nextId (.liveness liveness)] else [])

def Answer.ofRelay : Answer → Bool
  | .liveness _ => true
  | .threw => true
  | _ => false

/-- A request gets through the gate and the checks of its leaves: at once if the relay cannot be asked, else with its
answer. -/
def GetsThrough (s : SealState) : SealEvent → Prop
  | .sealUnilateral sender frame now =>
    cfg.relayReportsLiveness = false ∧
      ∃ genesisAt participants, s.sessionGenesisAt = some genesisAt ∧ s.participants = some participants ∧
        (sender = participants.1 ∨ sender = participants.2) ∧
        PassesChecks ext cfg sessionId sender frame now genesisAt participants s.sessionHighStakes .unknown
  | .resume id answer =>
    ∃ phase, s.tasks.lookup id = some phase ∧ phase.Passes ext cfg sessionId answer ∧ answer.ofRelay = true
  | _ => False

/-- The request is adjudicated: its handler holds a verified seal and resolves the group key. -/
def Adjudicated (s : SealState) (id : ℕ) : Prop := ∃ v, (id, Phase.unilateralKey v) ∈ s.tasks

variable {ext cfg sessionId} {s : SealState}

theorem running_nextId_le (e : SealEvent) : s.nextId ≤ (s.running e).nextId := by
  cases e with
  | resume id answer => exact le_refl _
  | _ => exact Nat.le_succ _

theorem sealMove_id_lt {e : SealEvent} {id : ℕ} {move : Move}
    (hs : ∀ task ∈ s.tasks, task.1 < s.nextId)
    (h : sealMove ext cfg sessionId s e = some (id, move)) : id < (s.running e).nextId := by
  cases e with
  | resume i answer =>
    simp only [sealMove, Option.bind_eq_some_iff, Option.map_eq_some_iff] at h
    obtain ⟨phase, hphase, m, -, heq⟩ := h
    obtain ⟨rfl, -⟩ := Prod.mk.inj heq
    exact hs _ (mem_of_lookup hphase)
  | _ =>
    obtain ⟨rfl, -⟩ := Prod.mk.inj (Option.some.inj h)
    exact Nat.lt_succ_self _

theorem perform_tasks (sessionId : Bytes) (t : SealState) (id : ℕ) (move : Move) :
    (perform sessionId t id move).nextId = t.nextId ∧
      ∀ task ∈ (perform sessionId t id move).tasks, task ∈ t.tasks ∨ task.1 = id := by
  refine ⟨by cases move <;> rfl, ?_⟩
  have happend : ∀ (phase : Phase), ∀ task ∈ t.tasks ++ [(id, phase)], task ∈ t.tasks ∨ task.1 = id := by
    intro phase task htask
    rcases List.mem_append.1 htask with h | h
    · exact Or.inl h
    · rw [List.mem_singleton.1 h]
      exact Or.inr rfl
  cases move with
  | suspend phase => exact happend phase
  | enter v => exact happend _
  | recordAlone c => exact happend _
  | take p signature => exact happend _
  | completeBilateral b out => exact happend _
  | _ => exact fun task htask => Or.inl htask

theorem ids_step {e : SealEvent} (hs : ∀ task ∈ s.tasks, task.1 < s.nextId) :
    ∀ task ∈ (sealStep ext cfg sessionId s e).tasks,
      task.1 < (sealStep ext cfg sessionId s e).nextId := by
  rcases sealStep_cases ext cfg sessionId s e with ⟨-, hsame⟩ | ⟨id, move, hmove, -, hstep⟩
  · rw [hsame]
    exact hs
  · obtain ⟨hnext, htasks⟩ := perform_tasks sessionId (s.running e) id move
    rw [hstep, hnext]
    intro task htask
    rcases htasks task htask with hmem | rfl
    · exact (hs task (mem_running_tasks hmem)).trans_le (running_nextId_le e)
    · exact sealMove_id_lt hs hmove

/-- Without a marker the session is as it was assigned, and no unilateral seal is under way. -/
structure Untouched (genesisAt : ℤ) (participants : Bytes × Bytes) (highStakes : Bool)
    (s : SealState) : Prop where
  genesis : s.sessionGenesisAt = some genesisAt
  roster : s.sessionParticipants = some participants
  tier : s.sessionHighStakes = highStakes
  idle : ¬UnilateralUnderWay s

theorem resumePhase_enter_iff {phase : Phase} {answer : Answer} :
    (∃ v, resumePhase ext cfg sessionId phase answer = some (.enter v)) ↔
      phase.Passes ext cfg sessionId answer ∧ answer.ofRelay = true := by
  constructor
  · rintro ⟨v, hv⟩
    refine ⟨resumePhase_enter hv, ?_⟩
    cases phase with
    | liveness sender frame now genesisAt participants highStakes =>
      cases answer with
      | liveness state => rfl
      | threw => rfl
      | _ => cases hv
    | _ => exact (resumePhase_enter hv).elim
  · rintro ⟨hpasses, hanswer⟩
    cases phase with
    | liveness sender frame now genesisAt participants highStakes =>
      cases answer with
      | liveness state =>
        obtain ⟨v, hv⟩ := decideUnilateral_enter_iff.2 hpasses
        exact ⟨v, congrArg some hv⟩
      | threw =>
        obtain ⟨v, hv⟩ := decideUnilateral_enter_iff.2 hpasses
        exact ⟨v, congrArg some hv⟩
      | _ => cases hanswer
    | _ => exact hpasses.elim

theorem enter_iff {e : SealEvent} (hmarker : s.unilateralSeals = none) :
    (∃ id v, sealMove ext cfg sessionId s e = some (id, .enter v)) ↔ GetsThrough ext cfg sessionId s e := by
  cases e with
  | resume i answer =>
    constructor
    · rintro ⟨id, v, h⟩
      simp only [sealMove, Option.bind_eq_some_iff, Option.map_eq_some_iff] at h
      obtain ⟨phase, hphase, move, hmove, heq⟩ := h
      obtain ⟨-, rfl⟩ := Prod.mk.inj heq
      exact ⟨phase, hphase, resumePhase_enter_iff.1 ⟨v, hmove⟩⟩
    · rintro ⟨phase, hphase, hpasses⟩
      obtain ⟨v, hv⟩ := resumePhase_enter_iff.2 hpasses
      exact ⟨i, v, by simp only [sealMove, hphase, Option.bind_some, hv, Option.map_some]⟩
  | sealUnilateral sender frame now =>
    constructor
    · rintro ⟨id, v, h⟩
      obtain ⟨hrelay, -, genesisAt, participants, hgenesis, hparticipants, hpasses⟩ := requestPasses_of_enter h
      refine ⟨hrelay, genesisAt, participants, hgenesis, hparticipants, ?_, hpasses⟩
      by_contra hout
      have hmove := (Prod.mk.inj (Option.some.inj h)).2
      rw [startUnilateral, hmarker, hgenesis, hparticipants] at hmove
      simp [not_or.1 hout] at hmove
    · rintro ⟨hrelay, genesisAt, participants, hgenesis, hparticipants, hin, hpasses⟩
      obtain ⟨v, hv⟩ := decideUnilateral_enter_iff.2 hpasses
      have hnotOut : ¬(sender ≠ participants.1 ∧ sender ≠ participants.2) := fun hout =>
        hin.elim hout.1 hout.2
      refine ⟨s.nextId, v, ?_⟩
      simp only [sealMove, startUnilateral, hmarker, Option.isSome_none, Bool.false_eq_true, if_false, hgenesis,
        hparticipants, hnotOut, hrelay, hv]
  | processSeal leaves relayRoot now =>
    refine iff_of_false ?_ id
    rintro ⟨id, v, h⟩
    exact requestPasses_of_enter h
  | frostSignature initiator signature =>
    refine iff_of_false ?_ id
    rintro ⟨id, v, h⟩
    exact requestPasses_of_enter h

theorem marker_step (e : SealEvent) : (sealStep ext cfg sessionId s e).unilateralSeals = none ↔
    s.unilateralSeals = none ∧ ¬GetsThrough ext cfg sessionId s e := by
  by_cases hmarker : s.unilateralSeals = none
  · rw [and_iff_right hmarker, ← enter_iff hmarker]
    rcases sealStep_cases ext cfg sessionId s e with ⟨hnone, hsame⟩ | ⟨id, move, hmove, -, hstep⟩
    · simp [hsame, hmarker, hnone]
    · rw [hstep, hmove]
      cases move with
      | enter v => simp [perform]
      | _ => simpa [perform, running_unilateralSeals] using hmarker
  · refine iff_of_false (fun h => hmarker ?_) fun h => hmarker h.1
    rcases sealStep_cases ext cfg sessionId s e with ⟨-, hsame⟩ | ⟨id, move, -, -, hstep⟩
    · rwa [hsame] at h
    · rw [hstep] at h
      cases move with
      | enter v => cases h
      | _ => simpa only [perform, running_unilateralSeals] using h

theorem marker_run (events : List SealEvent) : (sealRun ext cfg sessionId s events).unilateralSeals = none ↔
    s.unilateralSeals = none ∧
      Guarded (sealStep ext cfg sessionId) (fun s e => ¬GetsThrough ext cfg sessionId s e) s events := by
  induction events generalizing s with
  | nil => exact (and_iff_left trivial).symm
  | cons e rest ih => rw [sealRun, List.foldl_cons, ← sealRun, ih, marker_step, and_assoc, Guarded]

theorem maps_step (ext : NodeExternals) (cfg : NodeConfig) (sessionId : Bytes) (e : SealEvent)
    (hidle : ¬UnilateralUnderWay s) :
    (sealStep ext cfg sessionId s e).sessionGenesisAt = s.sessionGenesisAt ∧
      (sealStep ext cfg sessionId s e).sessionParticipants = s.sessionParticipants ∧
      (sealStep ext cfg sessionId s e).sessionHighStakes = s.sessionHighStakes := by
  rcases sealStep_cases ext cfg sessionId s e with ⟨-, hsame⟩ | ⟨id, move, -, hof, hstep⟩
  · rw [hsame]
    exact ⟨rfl, rfl, rfl⟩
  · rw [hstep]
    generalize hphase : s.phaseOf e = phase at hof
    cases hof with
    | completeUnilateral c ok connected => exact absurd (underWay_of_phaseOf hphase rfl) hidle
    | _ =>
      simp only [perform, running_sessionGenesisAt, running_sessionParticipants,
        running_sessionHighStakes, and_self]

/-- What a run keeps: identities are drawn once, and an unmarked session is untouched. -/
structure Kept (genesisAt : ℤ) (participants : Bytes × Bytes) (highStakes : Bool)
    (s : SealState) : Prop where
  ids : ∀ task ∈ s.tasks, task.1 < s.nextId
  untouched : s.unilateralSeals = none → Untouched genesisAt participants highStakes s

theorem Kept.step {genesisAt : ℤ} {participants : Bytes × Bytes} {highStakes : Bool}
    (hs : Kept genesisAt participants highStakes s) (e : SealEvent) :
    Kept genesisAt participants highStakes (sealStep ext cfg sessionId s e) := by
  refine ⟨ids_step hs.ids, fun h => ?_⟩
  obtain ⟨hmarker, hthrough⟩ := (marker_step e).1 h
  have hu := hs.untouched hmarker
  obtain ⟨hgenesis, hroster, htier⟩ := maps_step ext cfg sessionId e hu.idle
  refine ⟨hgenesis.trans hu.genesis, hroster.trans hu.roster, htier.trans hu.tier, fun hway => ?_⟩
  rcases underWay_step hway with hway | hpassed
  · exact hu.idle hway
  · exact hthrough ((enter_iff hmarker).1 hpassed)

theorem Kept.run {genesisAt : ℤ} {participants : Bytes × Bytes} {highStakes : Bool}
    (events : List SealEvent) (hs : Kept genesisAt participants highStakes s) :
    Kept genesisAt participants highStakes (sealRun ext cfg sessionId s events) := by
  induction events generalizing s with
  | nil => exact hs
  | cons e rest ih => exact ih (hs.step e)

theorem kept_established (genesisAt : ℤ) (participants : Bytes × Bytes)
    (pending : Option (Bytes × Bytes)) (highStakes : Bool) :
    Kept genesisAt participants highStakes
      (.established genesisAt participants pending highStakes) := by
  refine ⟨fun task htask => ?_, fun _ => ⟨rfl, rfl, rfl, ?_⟩⟩
  · cases htask
  · rintro (⟨task, htask, -⟩ | ⟨p, hp, -⟩)
    · cases htask
    · cases hp

/-! ### A request by itself -/

theorem lookup_none_of_lt {id : ℕ} {tasks : List (ℕ × Phase)} (h : ∀ task ∈ tasks, task.1 < id) :
    tasks.lookup id = none := by
  cases hl : tasks.lookup id with
  | none => rfl
  | some phase => exact absurd (h _ (mem_of_lookup hl)) (lt_irrefl id)

theorem attempt_marked {sender : Bytes} {frame : SealUnilateral} {now : ℤ} {liveness : Liveness}
    (hids : ∀ task ∈ s.tasks, task.1 < s.nextId) (hmarked : s.unilateralSeals.isSome = true) :
    (attempt ext cfg sessionId s sender frame now liveness).tasks = s.tasks := by
  have hstart : sealStep ext cfg sessionId s (.sealUnilateral sender frame now) =
      { s with nextId := s.nextId + 1 } := by
    simp only [sealStep, sealMove, startUnilateral, hmarked, if_true, perform, SealState.running]
  unfold attempt sealRun
  rw [List.foldl_cons, hstart]
  split
  · simp only [List.foldl_cons, List.foldl_nil, sealStep, sealMove, lookup_none_of_lt hids,
      Option.bind_none]
  · rfl

theorem attempt_untouched {genesisAt : ℤ} {participants : Bytes × Bytes} {highStakes : Bool}
    {sender : Bytes} {frame : SealUnilateral} {now : ℤ} {liveness : Liveness}
    (hids : ∀ task ∈ s.tasks, task.1 < s.nextId) (hmarker : s.unilateralSeals = none)
    (hu : Untouched genesisAt participants highStakes s)
    (hvalid : ValidRequest ext cfg sessionId genesisAt participants highStakes sender frame now
      liveness) :
    Adjudicated (attempt ext cfg sessionId s sender frame now liveness) s.nextId := by
  obtain ⟨v, hv⟩ := decideUnilateral_enter_iff.2 hvalid.passes
  have hparticipants : s.participants = some participants := by
    rw [SealState.participants, hu.roster, Option.some_or]
  have hin : ¬(sender ≠ participants.1 ∧ sender ≠ participants.2) := by
    rintro ⟨h1, h2⟩
    exact hvalid.participant.elim h1 h2
  unfold attempt sealRun
  rw [List.foldl_cons]
  cases hrelay : cfg.relayReportsLiveness with
  | true =>
    have hmove : startUnilateral ext cfg sessionId s sender frame now =
        .suspend (.liveness sender frame now genesisAt participants highStakes) := by
      simp only [startUnilateral, hmarker, Option.isSome_none, Bool.false_eq_true, if_false,
        hu.genesis, hparticipants, hin, hrelay, if_true, hu.tier]
    have hlookup : (s.tasks ++ [(s.nextId, Phase.liveness sender frame now genesisAt participants
        highStakes)]).lookup s.nextId =
          some (.liveness sender frame now genesisAt participants highStakes) := by
      rw [List.lookup_append, lookup_none_of_lt hids, Option.none_or]
      simp
    refine ⟨v, ?_⟩
    simp only [if_true, List.foldl_cons, List.foldl_nil, sealStep, sealMove, hmove, perform,
      SealState.running, hlookup, Option.bind_some, resumePhase, hv, Option.map_some]
    exact List.mem_append_right _ List.mem_cons_self
  | false =>
    have hmove : startUnilateral ext cfg sessionId s sender frame now = .enter v := by
      rw [hvalid.asked hrelay] at hv
      simp only [startUnilateral, hmarker, Option.isSome_none, Bool.false_eq_true, if_false,
        hu.genesis, hparticipants, hin, hrelay, hu.tier, hv]
    refine ⟨v, ?_⟩
    simp only [Bool.false_eq_true, if_false, List.foldl_nil, sealStep, sealMove, hmove, perform]
    exact List.mem_append_right _ List.mem_cons_self

end Again

/-- **A valid request is adjudicated exactly if no earlier request of the run has passed the gate and the checks of its
leaves.** -/
theorem unilateral_readmitted_iff (ext : NodeExternals) (cfg : NodeConfig) (sessionId : Bytes)
    (genesisAt : ℤ) (participants : Bytes × Bytes) (pending : Option (Bytes × Bytes))
    (highStakes : Bool) (events : List SealEvent) (s : SealState)
    (hs : s = sealRun ext cfg sessionId (.established genesisAt participants pending highStakes)
      events)
    (sender : Bytes) (frame : SealUnilateral) (now : ℤ) (liveness : Liveness)
    (hvalid : ValidRequest ext cfg sessionId genesisAt participants highStakes sender frame now
      liveness) :
    Adjudicated (attempt ext cfg sessionId s sender frame now liveness) s.nextId ↔
      Guarded (sealStep ext cfg sessionId) (fun s e => ¬GetsThrough ext cfg sessionId s e)
        (.established genesisAt participants pending highStakes) events := by
  have hkept : Kept genesisAt participants highStakes s := by
    rw [hs]
    exact (kept_established genesisAt participants pending highStakes).run events
  have hmarker : s.unilateralSeals = none ↔ Guarded (sealStep ext cfg sessionId)
      (fun s e => ¬GetsThrough ext cfg sessionId s e)
        (.established genesisAt participants pending highStakes) events := by
    rw [hs, marker_run, and_iff_right]
    rfl
  rw [← hmarker]
  constructor
  · rintro ⟨v, hv⟩
    by_contra hmarked
    rw [attempt_marked hkept.ids (Option.isSome_iff_ne_none.2 hmarked)] at hv
    exact absurd (hkept.ids _ hv) (lt_irrefl _)
  · intro hmarker
    exact attempt_untouched hkept.ids hmarker (hkept.untouched hmarker) hvalid

namespace Sample

/-- The request passes and its signature does not verify. -/
def failed : List SealEvent :=
  [request 700000, .resume 0 gone, .resume 0 groupKey,
    .frostSignature (Interfaces.Sample.key 1) [], .resume 1 groupKey]

/-- The request comes before the grace period is over. -/
def early : List SealEvent := [request 500000, .resume 0 gone]

theorem request_valid : ValidRequest nodeExternals nodeConfig Interfaces.Sample.sid 0
    (Interfaces.Sample.key 1, Interfaces.Sample.key 2) false (Interfaces.Sample.key 1) aloneFrame
    700002 .gone := by
  refine ⟨Or.inl rfl, fun h => absurd h (by decide), ⟨by decide, ?_⟩⟩
  have hok : (verifyUnilateral nodeExternals Interfaces.Sample.sid (Interfaces.Sample.key 1)
      (Interfaces.Sample.key 1, Interfaces.Sample.key 2) aloneFrame 700002 .gone).toOption.isSome =
        true := by
    decide +kernel
  cases h : verifyUnilateral nodeExternals Interfaces.Sample.sid (Interfaces.Sample.key 1)
      (Interfaces.Sample.key 1, Interfaces.Sample.key 2) aloneFrame 700002 .gone with
  | ok v => exact ⟨v, rfl⟩
  | error reason =>
    rw [h] at hok
    cases hok

end Sample

/-- After a request that came too early, the next one is adjudicated. -/
theorem unilateral_readmitted_after_early :
    Adjudicated (attempt Sample.nodeExternals Sample.nodeConfig Interfaces.Sample.sid
      (Sample.runOf Sample.early) (Interfaces.Sample.key 1) Sample.aloneFrame 700002 .gone) 1 :=
  (unilateral_readmitted_iff Sample.nodeExternals Sample.nodeConfig Interfaces.Sample.sid 0
    (Interfaces.Sample.key 1, Interfaces.Sample.key 2) none false Sample.early _ rfl
    (Interfaces.Sample.key 1) Sample.aloneFrame 700002 .gone Sample.request_valid).2 ((marker_run _).1 (by decide)).2

/-- **A request whose signature fails is the last of its session**: both sides are told that the seal
is rejected, nothing is recorded or pending, and a valid request is ignored. -/
theorem unilateral_blocked_after_failure :
    (Sample.runOf Sample.failed).tables.notarizations.length = 0 ∧
      (Sample.runOf Sample.failed).tasks.length = 0 ∧
      (Sample.runOf Sample.failed).pendingFrostSeals.isNone = true ∧
      ValidRequest Sample.nodeExternals Sample.nodeConfig Interfaces.Sample.sid 0
        (Interfaces.Sample.key 1, Interfaces.Sample.key 2) false (Interfaces.Sample.key 1)
        Sample.aloneFrame 700002 .gone ∧
      ¬Adjudicated (attempt Sample.nodeExternals Sample.nodeConfig Interfaces.Sample.sid
        (Sample.runOf Sample.failed) (Interfaces.Sample.key 1) Sample.aloneFrame 700002 .gone)
        (Sample.runOf Sample.failed).nextId := by
  refine ⟨by decide +kernel, by decide +kernel, by decide +kernel, Sample.request_valid, ?_⟩
  rintro ⟨v, hv⟩
  have hnone : (attempt Sample.nodeExternals Sample.nodeConfig Interfaces.Sample.sid
      (Sample.runOf Sample.failed) (Interfaces.Sample.key 1) Sample.aloneFrame 700002
      .gone).tasks.length = 0 := by
    decide +kernel
  rw [List.length_eq_zero_iff.1 hnone] at hv
  cases hv

end Cello.Directory.Seal
