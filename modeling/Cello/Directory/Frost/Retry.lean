import Cello.Directory.Frost.Machine

/-!
# A key generation that is tried again

`#dkgStates` holds one entry for a pair of agent and epoch, and `dkgRound1` refuses while it is there.
The entry goes with the third round, whatever comes of it; a first or a second round after which
nobody returns leaves it, and so does a second round in which the library throws.  Registration uses
one epoch id for ever, so a pair that is left in this way cannot be generated again before a restart.

A fresh attempt goes through exactly when every attempt that was opened before has been carried to
its third round (`fresh_attempt_accepted_iff`).
-/

namespace Cello.Directory.Frost

open Lib

variable {Share : Type}

/-! ### Calls and attempts -/

/-- A round, with what the library does in it and, in the third, whether the share becomes durable. -/
inductive DkgRound (Share : Type) where
  | round1 (ok : Bool)
  | round2 (ok : Bool)
  | round3 (key : Option Share) (durable : Bool)
deriving DecidableEq

structure DkgCall (Share : Type) where
  agent : AgentKey
  epochId : String
  round : DkgRound Share
deriving DecidableEq

/-- A call until it returns. -/
def callDkg (h : Handler Share) (c : DkgCall Share) : Option (Except Reason Unit) × Handler Share :=
  match c.round with
  | .round1 ok => dkgRound1 ok c.agent c.epochId h
  | .round2 ok => dkgRound2 ok c.agent c.epochId h
  | .round3 key durable =>
    let called := dkgRound3 key c.agent c.epochId h
    match called.1 with
    | .error reason => (some (.error reason), called.2)
    | .ok _ =>
      if durable then (some (.ok ()), dkgStored c.agent c.epochId called.2)
      else (some (.error .shareVerificationFailed), endDkg c.agent c.epochId called.2)

/-- The handler of a process that has answered these calls. -/
def afterCalls (rows : OrdMap (AgentKey × String) (Option Share)) (calls : List (DkgCall Share)) :
    Handler Share :=
  calls.foldl (fun h c => (callDkg h c).2) (startHandler rows)

/-- Each of the calls returns `ok`. -/
def Accepted : Handler Share → List (DkgCall Share) → Prop
  | _, [] => True
  | h, c :: rest => (callDkg h c).1 = some (.ok ()) ∧ Accepted (callDkg h c).2 rest

/-- The three calls of an attempt in which nothing goes wrong. -/
def freshAttempt (agent : AgentKey) (epochId : String) (share : Share) : List (DkgCall Share) :=
  [⟨agent, epochId, .round1 true⟩, ⟨agent, epochId, .round2 true⟩,
    ⟨agent, epochId, .round3 (some share) true⟩]

/-- The calls for the pair. -/
def roundsOf (agent : AgentKey) (epochId : String) (calls : List (DkgCall Share)) :
    List (DkgRound Share) :=
  (calls.filter fun c => decide (c.agent = agent ∧ c.epochId = epochId)).map DkgCall.round

/-- Every attempt that was opened has come to its third round: after a first round of the library, a
second one that did not throw, and then a third, of any outcome. -/
inductive Finished : List (DkgRound Share) → Prop where
  | nil : Finished []
  | outside {round : DkgRound Share} {rest : List (DkgRound Share)} :
      round ≠ .round1 true → Finished rest → Finished (round :: rest)
  | attempt {before between rest : List (DkgRound Share)} {key : Option Share} {durable : Bool} :
      .round2 true ∉ before → (∀ key durable, .round3 key durable ∉ between) → Finished rest →
      Finished (.round1 true :: (before ++ .round2 true :: (between ++ .round3 key durable :: rest)))

/-! ### The entry of a pair -/

def nextStep : Option DkgStep → DkgRound Share → Option DkgStep
  | none, .round1 true => some .round1Complete
  | some .round1Complete, .round2 true => some .round2Complete
  | some .round2Complete, .round3 _ _ => none
  | entry, _ => entry

theorem callDkg_get (h : Handler Share) (c : DkgCall Share) :
    (callDkg h c).2.dkgStates.get (storeKey c.agent c.epochId) =
      nextStep (h.dkgStates.get (storeKey c.agent c.epochId)) c.round := by
  obtain ⟨agent, epochId, round⟩ := c
  dsimp only
  cases round with
  | round1 ok =>
    cases he : h.dkgStates.get (storeKey agent epochId) with
    | none => cases ok <;> simp [callDkg, dkgRound1, OrdMap.has, he, nextStep]
    | some entry => cases entry <;> simp [callDkg, dkgRound1, OrdMap.has, he, nextStep]
  | round2 ok =>
    cases he : h.dkgStates.get (storeKey agent epochId) with
    | none => simp [callDkg, dkgRound2, he, nextStep]
    | some entry => cases entry <;> cases ok <;> simp [callDkg, dkgRound2, he, nextStep]
  | round3 key durable =>
    cases he : h.dkgStates.get (storeKey agent epochId) with
    | none => simp [callDkg, dkgRound3, he, nextStep]
    | some entry =>
      cases entry with
      | round1Complete => simp [callDkg, dkgRound3, he, nextStep]
      | round2Complete =>
        cases key <;> cases durable <;>
          simp [callDkg, dkgRound3, he, nextStep, endDkg, dkgStored]

theorem callDkg_get_of_ne {h : Handler Share} {c : DkgCall Share} {key : String}
    (hkey : key ≠ storeKey c.agent c.epochId) :
    (callDkg h c).2.dkgStates.get key = h.dkgStates.get key := by
  obtain ⟨agent, epochId, round⟩ := c
  dsimp only at hkey
  cases round with
  | round1 ok =>
    show (dkgRound1 ok agent epochId h).2.dkgStates.get key = _
    rcases dkgRound1_cases ok agent epochId h with hc | hc
    · rw [hc]
    · rw [hc]
      exact OrdMap.get_set_of_ne _ _ hkey
  | round2 ok =>
    show (dkgRound2 ok agent epochId h).2.dkgStates.get key = _
    rcases dkgRound2_cases ok agent epochId h with hc | ⟨-, hc⟩
    · rw [hc]
    · rw [hc]
      exact OrdMap.get_set_of_ne _ _ hkey
  | round3 share durable =>
    rcases dkgRound3_cases share agent epochId h with ⟨reason, hc | hc⟩ | ⟨share, -, hc⟩
    · simp [callDkg, hc]
    · simp [callDkg, hc, endDkg, OrdMap.get_erase, hkey]
    · cases durable <;> simp [callDkg, hc, endDkg, dkgStored, OrdMap.get_erase, hkey]

theorem get_foldl_callDkg (agent : AgentKey) (epochId : String) :
    ∀ (calls : List (DkgCall Share)) (h : Handler Share),
      (calls.foldl (fun h c => (callDkg h c).2) h).dkgStates.get (storeKey agent epochId) =
        (roundsOf agent epochId calls).foldl nextStep (h.dkgStates.get (storeKey agent epochId)) := by
  intro calls
  induction calls with
  | nil => intro h; rfl
  | cons c rest ih =>
    intro h
    rw [List.foldl_cons, ih]
    by_cases hc : c.agent = agent ∧ c.epochId = epochId
    · have hget := callDkg_get h c
      rw [hc.1, hc.2] at hget
      have hrounds : roundsOf agent epochId (c :: rest) = c.round :: roundsOf agent epochId rest := by
        simp [roundsOf, hc.1, hc.2]
      rw [hget, hrounds, List.foldl_cons]
    · have hkey : storeKey agent epochId ≠ storeKey c.agent c.epochId := by
        intro heq
        obtain ⟨hagent, hepoch⟩ := storeKey_inj.1 heq
        exact hc ⟨hagent.symm, hepoch.symm⟩
      have hrounds : roundsOf agent epochId (c :: rest) = roundsOf agent epochId rest := by
        simp only [roundsOf, List.filter_cons, hc, decide_false, Bool.false_eq_true, if_false]
      rw [callDkg_get_of_ne hkey, hrounds]

/-! ### When the entry is gone -/

theorem foldl_nextStep_before {before : List (DkgRound Share)} (h : .round2 true ∉ before) :
    before.foldl nextStep (some .round1Complete) = some .round1Complete := by
  induction before with
  | nil => rfl
  | cons round rest ih =>
    rw [List.mem_cons, not_or] at h
    rw [List.foldl_cons]
    have hround : nextStep (some .round1Complete) round = some .round1Complete := by
      cases round with
      | round2 ok => cases ok with
        | true => exact absurd rfl h.1
        | false => rfl
      | _ => rfl
    rw [hround]
    exact ih h.2

theorem foldl_nextStep_between {between : List (DkgRound Share)}
    (h : ∀ key durable, .round3 key durable ∉ between) :
    between.foldl nextStep (some .round2Complete) = some .round2Complete := by
  induction between with
  | nil => rfl
  | cons round rest ih =>
    have hround : nextStep (some .round2Complete) round = some .round2Complete := by
      cases round with
      | round3 key durable => exact absurd List.mem_cons_self (h key durable)
      | _ => rfl
    rw [List.foldl_cons, hround]
    exact ih fun key durable hmem => h key durable (List.mem_cons_of_mem _ hmem)

theorem Finished.foldl_nextStep {rounds : List (DkgRound Share)} (h : Finished rounds) :
    rounds.foldl nextStep none = none := by
  induction h with
  | nil => rfl
  | @outside round rest hround _ ih =>
    have hstep : nextStep none round = none := by
      cases round with
      | round1 ok => cases ok with
        | true => exact absurd rfl hround
        | false => rfl
      | _ => rfl
    rw [List.foldl_cons, hstep]
    exact ih
  | attempt hbefore hbetween _ ih =>
    rw [List.foldl_cons, List.foldl_append, nextStep, foldl_nextStep_before hbefore, List.foldl_cons,
      List.foldl_append, nextStep, foldl_nextStep_between hbetween, List.foldl_cons, nextStep]
    exact ih

theorem finished_of_foldl : ∀ rounds : List (DkgRound Share),
    (rounds.foldl nextStep none = none → Finished rounds) ∧
    (rounds.foldl nextStep (some .round1Complete) = none →
      ∃ before between rest key durable, .round2 true ∉ before ∧
        (∀ key durable, .round3 key durable ∉ between) ∧ Finished rest ∧
        rounds = before ++ .round2 true :: (between ++ .round3 key durable :: rest)) ∧
    (rounds.foldl nextStep (some .round2Complete) = none →
      ∃ between rest key durable, (∀ key durable, .round3 key durable ∉ between) ∧ Finished rest ∧
        rounds = between ++ .round3 key durable :: rest) := by
  intro rounds
  induction rounds with
  | nil =>
    refine ⟨fun _ => .nil, fun h => ?_, fun h => ?_⟩
    · cases h
    · cases h
  | cons round rest ih =>
    obtain ⟨hidle, hfirst, hsecond⟩ := ih
    refine ⟨fun h => ?_, fun h => ?_, fun h => ?_⟩
    · rw [List.foldl_cons] at h
      by_cases hround : round = .round1 true
      · subst hround
        obtain ⟨before, between, rest', key, durable, hb, hbt, hrest, rfl⟩ := hfirst h
        exact .attempt hb hbt hrest
      · have hstep : nextStep none round = none := by
          cases round with
          | round1 ok => cases ok with
            | true => exact absurd rfl hround
            | false => rfl
          | _ => rfl
        rw [hstep] at h
        exact .outside hround (hidle h)
    · rw [List.foldl_cons] at h
      by_cases hround : round = .round2 true
      · subst hround
        obtain ⟨between, rest', key, durable, hbt, hrest, rfl⟩ := hsecond h
        exact ⟨[], between, rest', key, durable, by simp, hbt, hrest, rfl⟩
      · have hstep : nextStep (some .round1Complete) round = some .round1Complete := by
          have hbefore : .round2 true ∉ [round] := by simpa using Ne.symm hround
          exact foldl_nextStep_before hbefore
        rw [hstep] at h
        obtain ⟨before, between, rest', key, durable, hb, hbt, hrest, rfl⟩ := hfirst h
        exact ⟨round :: before, between, rest', key, durable,
          by simpa using ⟨Ne.symm hround, hb⟩, hbt, hrest, rfl⟩
    · rw [List.foldl_cons] at h
      cases round with
      | round3 key durable =>
        exact ⟨[], rest, key, durable, by simp, hidle h, rfl⟩
      | _ =>
        obtain ⟨between, rest', key, durable, hbt, hrest, rfl⟩ := hsecond h
        exact ⟨_ :: between, rest', key, durable, by simpa using hbt, hrest, rfl⟩

theorem foldl_nextStep_eq_none_iff {rounds : List (DkgRound Share)} :
    rounds.foldl nextStep none = none ↔ Finished rounds :=
  ⟨(finished_of_foldl rounds).1, Finished.foldl_nextStep⟩

/-! ### The fresh attempt -/

theorem accepted_freshAttempt_iff (h : Handler Share) (agent : AgentKey) (epochId : String)
    (share : Share) :
    Accepted h (freshAttempt agent epochId share) ↔ h.dkgStates.get (storeKey agent epochId) = none := by
  constructor
  · rintro ⟨hfirst, -⟩
    cases he : h.dkgStates.get (storeKey agent epochId) with
    | none => rfl
    | some entry => simp [callDkg, dkgRound1, OrdMap.has, he] at hfirst
  · intro he
    have hfirst : callDkg h ⟨agent, epochId, .round1 true⟩ = (some (.ok ()),
        { h with dkgStates := h.dkgStates.set (storeKey agent epochId) .round1Complete }) := by
      simp [callDkg, dkgRound1, OrdMap.has, he]
    refine ⟨by rw [hfirst], ?_⟩
    rw [hfirst]
    simp [Accepted, callDkg, dkgRound2, dkgRound3]

/-- **When a key generation can be tried again**: each round of a fresh attempt is accepted exactly
when the attempts opened before it for this agent and epoch were carried to their third round. -/
theorem fresh_attempt_accepted_iff (rows : OrdMap (AgentKey × String) (Option Share))
    (agent : AgentKey) (epochId : String) (calls : List (DkgCall Share)) (share : Share) :
    Accepted (afterCalls rows calls) (freshAttempt agent epochId share) ↔
      Finished (roundsOf agent epochId calls) := by
  rw [accepted_freshAttempt_iff, afterCalls, get_foldl_callDkg]
  exact foldl_nextStep_eq_none_iff

namespace Sample

/-- The registration of an agent. -/
def registering : AgentKey := ⟨"a1", by decide⟩

/-- One attempt is given up after its first round. -/
def abandoned : List (DkgCall ℕ) := [⟨registering, "a1:epoch:1", .round1 true⟩]

/-- In another the second round is handed broadcasts that the library does not take. -/
def malformed : List (DkgCall ℕ) :=
  [⟨registering, "a1:epoch:1", .round1 true⟩, ⟨registering, "a1:epoch:1", .round2 false⟩]

end Sample

/-- **An attempt that is given up blocks the next**, and so does one in which the library throws in
the second round: the fresh first round is refused. -/
theorem abandoned_attempt_blocks :
    (callDkg (afterCalls OrdMap.empty Sample.abandoned)
        ⟨Sample.registering, "a1:epoch:1", .round1 true⟩).1 = some (.error .alreadyInProgress) ∧
      (callDkg (afterCalls OrdMap.empty Sample.malformed)
        ⟨Sample.registering, "a1:epoch:1", .round1 true⟩).1 = some (.error .alreadyInProgress) := by
  decide

end Cello.Directory.Frost
