import Cello.Directory.Register.Desk
import Cello.Lib.GuardedRun

/-!
# Attempts of one key

A `register_request` waits for the `dkg_complete` of its key, or for its timer.  What it waits with is kept by the
key: the resolver, the operator that the first round stashed and the group key that the third round left.  The timer of
an attempt takes the first two away from its key, whoever they are of, and leaves the third to whoever comes next; a
late `dkg_complete` takes all.  So an attempt that was given up ends the one that came after it.

`latestAnswered_iff` is the exact condition under which the latest attempt is answered.
-/

namespace Cello.Directory.Register

open Lib

/-! ### Whose attempts the resolvers are of -/

def Desk.Resolves (d : Desk) : Prop :=
  ∀ k i, d.resolver k = some i → ∃ a, d.attempts[i]? = some a ∧ a.frame.kLocalPubkey = k

variable {cfg : Config} {node : Node} {d d' : Desk} {e : Event} {i : ℕ} {frame : RegisterRequest} {k : String}

theorem exists_set {attempts : List Attempt} {j : ℕ} {progress progress' : Progress}
    (hi : attempts[i]? = some ⟨frame, progress'⟩) (h : ∃ a, attempts[j]? = some a ∧ a.frame.kLocalPubkey = k) :
    ∃ a, (attempts.set i ⟨frame, progress⟩)[j]? = some a ∧ a.frame.kLocalPubkey = k := by
  obtain ⟨a, hj, hk⟩ := h
  rw [List.getElem?_set]
  by_cases hij : i = j
  · subst hij
    obtain rfl := Option.some.inj (hi.symm.trans hj)
    have hlt : i < attempts.length := (List.getElem?_eq_some_iff.1 hi).1
    exact ⟨⟨frame, progress⟩, by rw [if_pos rfl, if_pos hlt], hk⟩
  · exact ⟨a, by rw [if_neg hij]; exact hj, hk⟩

theorem exists_append {attempts : List Attempt} {j : ℕ} {b : Attempt}
    (h : ∃ a, attempts[j]? = some a ∧ a.frame.kLocalPubkey = k) :
    ∃ a, (attempts ++ [b])[j]? = some a ∧ a.frame.kLocalPubkey = k := by
  obtain ⟨a, ha, hk⟩ := h
  exact ⟨a, by rw [List.getElem?_append_left (List.getElem?_eq_some_iff.1 ha).1]; exact ha, hk⟩

theorem resolver_of_drop {key : String} (h : (d.dropResolver key).resolver k = some i) : d.resolver k = some i := by
  have hk : Function.update d.resolver key none k = some i := h
  by_cases hkey : k = key
  · rw [hkey, Function.update_self] at hk
    cases hk
  · rwa [Function.update_of_ne hkey] at hk

theorem Desk.Resolves.moves (h : d.Resolves) (hmoves : d.Moves e d') : d'.Resolves := by
  intro k j hk
  cases hmoves with
  | idle => exact h k j hk
  | bound => exact h k j hk
  | boundAgain => exact h k j hk
  | stashed => exact h k j hk
  | opened frame =>
    by_cases hkey : k = frame.kLocalPubkey
    · subst hkey
      have hnew : Function.update d.resolver frame.kLocalPubkey (some d.attempts.length) frame.kLocalPubkey =
          some j := hk
      rw [Function.update_self] at hnew
      obtain rfl := Option.some.inj hnew
      exact ⟨⟨frame, .waiting⟩, by rw [List.getElem?_append_right le_rfl, Nat.sub_self]; rfl, rfl⟩
    · exact exists_append (h k j ((Function.update_of_ne hkey ..).symm.trans hk))
  | refused => exact exists_append (h k j hk)
  | expired i frame hi => exact exists_set hi (h k j (resolver_of_drop hk))
  | cleared => exact h k j (resolver_of_drop hk)
  | failed _ _ _ _ i frame _ _ hi => exact exists_set hi (h k j (resolver_of_drop hk))
  | linking _ _ _ _ i frame _ _ hi => exact exists_set hi (h k j (resolver_of_drop hk))
  | unlinked _ _ _ _ i frame _ hi => exact exists_set hi (h k j (resolver_of_drop hk))
  | registered i _ _ frame _ _ _ hi => exact exists_set hi (h k j hk)
  | restarted => cases hk

theorem Node.resolves_run (events : List Event) (h : node.desk.Resolves) :
    (events.foldl (Node.step cfg) node).desk.Resolves := by
  induction events generalizing node with
  | nil => exact h
  | cons e rest ih => exact ih (h.moves (step_moves e))

/-! ### Until `dkg_complete` -/

/-- An attempt waits, and this is what its key resolves. -/
structure Desk.Waits (d : Desk) (i : ℕ) (frame : RegisterRequest) (resolver : Option ℕ) : Prop where
  attempt : d.attempts[i]? = some ⟨frame, .waiting⟩
  own : d.resolver frame.kLocalPubkey = resolver

/-- No later attempt of the key, not the own timer, and no restart. -/
def Event.Spares (i : ℕ) (k : String) : Event → Prop
  | .registerRequest frame _ => frame.kLocalPubkey ≠ k
  | .timeout j => j ≠ i
  | .restart => False
  | _ => True

theorem ne_of_resolves {authedPubkey : String} {j : ℕ} {frame' : RegisterRequest} (h : d.Resolves)
    (hauthed : d.resolver authedPubkey = some j) (hj : d.attempts[j]? = some ⟨frame', .waiting⟩)
    (hk : authedPubkey ≠ k) : k ≠ frame'.kLocalPubkey := by
  rintro rfl
  obtain ⟨a, ha, hkey⟩ := h authedPubkey j hauthed
  obtain rfl := Option.some.inj (hj.symm.trans ha)
  exact hk hkey.symm

/-- **One step.**  The attempt waits on; its key resolves what it did, or nothing any more if a timer of the key has
fired. -/
theorem Desk.Waits.moves {resolver : Option ℕ} (h : d.Waits i frame resolver) (hresolves : d.Resolves)
    (hspares : e.Spares i frame.kLocalPubkey)
    (hcomplete : ∀ dkg agentId now, e ≠ .dkgComplete frame.kLocalPubkey dkg agentId now) (hmoves : d.Moves e d') :
    (d.Fires frame.kLocalPubkey e → d'.Waits i frame none) ∧
      (¬ d.Fires frame.kLocalPubkey e → d'.Waits i frame resolver) := by
  have hlt : i < d.attempts.length := (List.getElem?_eq_some_iff.1 h.attempt).1
  have hquiet : ¬ d.Fires frame.kLocalPubkey e → d'.Waits i frame resolver →
      (d.Fires frame.kLocalPubkey e → d'.Waits i frame none) ∧
        (¬ d.Fires frame.kLocalPubkey e → d'.Waits i frame resolver) :=
    fun hno hwaits => ⟨fun hfires => absurd hfires hno, fun _ => hwaits⟩
  have hset : ∀ j a, j ≠ i → (d.attempts.set j a)[i]? = some ⟨frame, .waiting⟩ := by
    intro j a hj
    rw [List.getElem?_set_ne hj]
    exact h.attempt
  have happend : ∀ a, (d.attempts ++ [a])[i]? = some ⟨frame, .waiting⟩ := by
    intro a
    rw [List.getElem?_append_left hlt]
    exact h.attempt
  -- an attempt of another key, with its resolver taken away
  have hother : ∀ authedPubkey j frame' a, authedPubkey ≠ frame.kLocalPubkey → d.resolver authedPubkey = some j →
      d.attempts[j]? = some ⟨frame', .waiting⟩ → (d.attempts.set j a)[i]? = some ⟨frame, .waiting⟩ := by
    intro authedPubkey j frame' a hauthed hresolver hj
    refine hset j a ?_
    rintro rfl
    obtain ⟨rfl, -⟩ := Attempt.mk.inj (Option.some.inj (h.attempt.symm.trans hj))
    exact ne_of_resolves hresolves hresolver hj hauthed rfl
  have hdrop : ∀ {key}, frame.kLocalPubkey ≠ key → (d.dropResolver key).resolver frame.kLocalPubkey = resolver :=
    fun hkey => (Function.update_of_ne hkey ..).trans h.own
  have hapart : ∀ authedPubkey dkg agentId now, e = .dkgComplete authedPubkey dkg agentId now →
      authedPubkey ≠ frame.kLocalPubkey := by
    rintro authedPubkey dkg agentId now he rfl
    exact hcomplete dkg agentId now he
  cases hmoves with
  | idle _ hno => exact hquiet (hno _) h
  | bound => exact hquiet (not_fires (by nofun) _) ⟨h.attempt, h.own⟩
  | boundAgain => exact hquiet (not_fires (by nofun) _) ⟨h.attempt, h.own⟩
  | stashed => exact hquiet (not_fires (by nofun) _) ⟨h.attempt, h.own⟩
  | opened frame' =>
    exact hquiet (not_fires (by nofun) _)
      ⟨happend _, (Function.update_of_ne (Ne.symm hspares) ..).trans h.own⟩
  | refused => exact hquiet (not_fires (by nofun) _) ⟨happend _, h.own⟩
  | expired j frame' hj =>
    constructor
    · rintro ⟨j', frame'', he, hj', hkey⟩
      obtain rfl := Event.timeout.inj he
      obtain rfl := (Attempt.mk.inj (Option.some.inj (hj.symm.trans hj'))).1
      have hnone : Function.update d.resolver frame'.kLocalPubkey none frame.kLocalPubkey = none := by
        rw [hkey, Function.update_self]
      exact ⟨hset j _ hspares, hnone⟩
    · intro hno
      exact ⟨hset j _ hspares, hdrop fun hkey => hno ⟨j, frame', rfl, hj, hkey.symm⟩⟩
  | cleared authedPubkey =>
    exact hquiet (not_fires (by nofun) _) ⟨h.attempt, hdrop (Ne.symm (hapart authedPubkey _ _ _ rfl))⟩
  | failed authedPubkey _ _ _ j frame' _ hauthed hj =>
    have hne := hapart authedPubkey _ _ _ rfl
    exact hquiet (not_fires (by nofun) _) ⟨hother authedPubkey j frame' _ hne hauthed hj, hdrop (Ne.symm hne)⟩
  | linking authedPubkey _ _ _ j frame' _ hauthed hj =>
    have hne := hapart authedPubkey _ _ _ rfl
    exact hquiet (not_fires (by nofun) _) ⟨hother authedPubkey j frame' _ hne hauthed hj, hdrop (Ne.symm hne)⟩
  | unlinked authedPubkey _ _ _ j frame' hauthed hj =>
    have hne := hapart authedPubkey _ _ _ rfl
    exact hquiet (not_fires (by nofun) _) ⟨hother authedPubkey j frame' _ hne hauthed hj, hdrop (Ne.symm hne)⟩
  | registered j _ _ frame' _ _ _ hj =>
    have hji : j ≠ i := by
      rintro rfl
      cases Option.some.inj (h.attempt.symm.trans hj)
    exact hquiet (not_fires (by nofun) _) ⟨hset j _ hji, h.own⟩
  | restarted => exact hspares.elim

/-! ### From `dkg_complete` on -/

/-- The attempt is answered `register_success`, or waits for its account only. -/
def Desk.GoesOn (d : Desk) (i : ℕ) (frame : RegisterRequest) : Prop :=
  (∃ agentId dkg preAuth, d.attempts[i]? = some ⟨frame, .linking agentId dkg preAuth⟩) ∨
    ∃ agentId primaryPubkey, d.attempts[i]? = some ⟨frame, .answered (.registerSuccess agentId primaryPubkey)⟩

def Desk.Stuck (d : Desk) (i : ℕ) (frame : RegisterRequest) : Prop :=
  (d.attempts[i]? = some ⟨frame, .waiting⟩ ∧ d.resolver frame.kLocalPubkey ≠ some i) ∨
    ∃ answer, answer.isSuccess = false ∧ d.attempts[i]? = some ⟨frame, .answered answer⟩

/-- What a request is taken up with: the group key that the last third round has left, if one is left, and an
operator. -/
structure Node.TakesUp (node : Node) (frame : RegisterRequest) (dkg : DkgComplete) : Prop where
  verified : ∀ c, node.mem.pendingDkgCommitments frame.kLocalPubkey = some c → dkg.primaryPubkey = c
  operator : frame.phoneStub ≠ "" ∨ (node.mem.pendingPreAuthData frame.kLocalPubkey).isSome

/-- **The `dkg_complete` of an attempt that its key resolves.** -/
theorem goesOn_dkgComplete {dkg : DkgComplete} {agentId : String} {now : ℤ}
    (h : node.desk.Waits i frame (some i)) (htakes : node.TakesUp frame dkg) :
    (node.dkgComplete cfg frame.kLocalPubkey dkg agentId now).desk.GoesOn i frame := by
  obtain ⟨hverified, hoperator⟩ := htakes
  have hlt : i < node.mem.attempts.length := (List.getElem?_eq_some_iff.1 h.attempt).1
  have hset : ∀ progress, (node.mem.attempts.set i ⟨frame, progress⟩)[i]? = some ⟨frame, progress⟩ :=
    fun progress => by rw [List.getElem?_set_self hlt]
  have hcommitment : ((node.mem.pendingDkgCommitments frame.kLocalPubkey).any
      fun c => decide (dkg.primaryPubkey ≠ c)) = false := by
    cases hc : node.mem.pendingDkgCommitments frame.kLocalPubkey with
    | none => rfl
    | some c => exact decide_eq_false fun hne => hne (hverified c hc)
  have hown : node.mem.pendingDkgComplete frame.kLocalPubkey = some i := h.own
  have hattempt : node.mem.attempts[i]? = some ⟨frame, .waiting⟩ := h.attempt
  unfold Node.dkgComplete
  rw [hown]
  dsimp only
  rw [hattempt]
  unfold Node.resume
  dsimp only
  rw [hcommitment, if_neg Bool.false_ne_true]
  cases hstash : node.mem.pendingPreAuthData frame.kLocalPubkey with
  | some preAuth => exact .inl ⟨agentId, dkg, preAuth, hset _⟩
  | none =>
    dsimp only
    have hstub : frame.phoneStub ≠ "" := hoperator.resolve_right (by rw [hstash]; exact Bool.false_ne_true)
    rw [if_neg hstub]
    exact .inr ⟨agentId, dkg.primaryPubkey, hset _⟩

theorem stuck_dkgComplete {dkg : DkgComplete} {agentId : String} {now : ℤ}
    (h : node.desk.Waits i frame (some i)) (hno : ¬ node.TakesUp frame dkg) :
    (node.dkgComplete cfg frame.kLocalPubkey dkg agentId now).desk.Stuck i frame := by
  have hlt : i < node.mem.attempts.length := (List.getElem?_eq_some_iff.1 h.attempt).1
  have hset : ∀ progress, (node.mem.attempts.set i ⟨frame, progress⟩)[i]? = some ⟨frame, progress⟩ :=
    fun progress => by rw [List.getElem?_set_self hlt]
  have hown : node.mem.pendingDkgComplete frame.kLocalPubkey = some i := h.own
  have hattempt : node.mem.attempts[i]? = some ⟨frame, .waiting⟩ := h.attempt
  unfold Node.dkgComplete
  rw [hown]
  dsimp only
  rw [hattempt]
  unfold Node.resume
  dsimp only
  by_cases hcommitment : ((node.mem.pendingDkgCommitments frame.kLocalPubkey).any
      fun c => decide (dkg.primaryPubkey ≠ c)) = true
  · rw [if_pos hcommitment]
    exact .inr ⟨.dkgVerificationFailed, rfl, hset _⟩
  · rw [if_neg hcommitment]
    have hverified : ∀ c, node.mem.pendingDkgCommitments frame.kLocalPubkey = some c → dkg.primaryPubkey = c := by
      intro c hc
      by_contra hne
      exact hcommitment ((Option.any_eq_true _ _).2 ⟨c, hc, decide_eq_true hne⟩)
    cases hstash : node.mem.pendingPreAuthData frame.kLocalPubkey with
    | some preAuth => exact absurd ⟨hverified, .inr (by rw [hstash]; rfl)⟩ hno
    | none =>
      dsimp only
      split
      · exact .inr ⟨.invalidVerification, rfl, hset _⟩
      next hstub => exact absurd ⟨hverified, .inl hstub⟩ hno

theorem Desk.attempt_moves {progress : Progress} (h : d.attempts[i]? = some ⟨frame, progress⟩)
    (hwaiting : progress ≠ .waiting) (hrestart : e ≠ .restart) (hmoves : d.Moves e d') :
    d'.attempts[i]? = some ⟨frame, progress⟩ ∨
      ∃ agentId dkg preAuth, progress = .linking agentId dkg preAuth ∧
        d'.attempts[i]? = some ⟨frame, .answered (.registerSuccess agentId dkg.primaryPubkey)⟩ := by
  have hlt : i < d.attempts.length := (List.getElem?_eq_some_iff.1 h).1
  have happend : ∀ a, (d.attempts ++ [a])[i]? = some ⟨frame, progress⟩ := by
    intro a
    rw [List.getElem?_append_left hlt]
    exact h
  -- an attempt that waits is another one
  have hset : ∀ {j frame'} a, d.attempts[j]? = some ⟨frame', .waiting⟩ →
      (d.attempts.set j a)[i]? = some ⟨frame, progress⟩ := by
    intro j frame' a hj
    have hji : j ≠ i := by
      rintro rfl
      exact hwaiting (Attempt.mk.inj (Option.some.inj (h.symm.trans hj))).2
    rw [List.getElem?_set_ne hji]
    exact h
  cases hmoves with
  | idle => exact .inl h
  | bound => exact .inl h
  | boundAgain => exact .inl h
  | stashed => exact .inl h
  | opened => exact .inl (happend _)
  | refused => exact .inl (happend _)
  | expired j frame' hj => exact .inl (hset _ hj)
  | cleared => exact .inl h
  | failed _ _ _ _ _ _ _ _ hj => exact .inl (hset _ hj)
  | linking _ _ _ _ _ _ _ _ hj => exact .inl (hset _ hj)
  | unlinked _ _ _ _ _ _ _ hj => exact .inl (hset _ hj)
  | registered j _ _ frame' agentId dkg preAuth hj =>
    by_cases hji : j = i
    · subst hji
      obtain ⟨rfl, rfl⟩ := Attempt.mk.inj (Option.some.inj (h.symm.trans hj))
      exact .inr ⟨agentId, dkg, preAuth, rfl, List.getElem?_set_self hlt⟩
    · exact .inl ((List.getElem?_set_ne hji).trans h)
  | restarted => exact absurd rfl hrestart

theorem Desk.GoesOn.moves (h : d.GoesOn i frame) (hrestart : e ≠ .restart) (hmoves : d.Moves e d') :
    d'.GoesOn i frame := by
  rcases h with ⟨agentId, dkg, preAuth, hi⟩ | ⟨agentId, primaryPubkey, hi⟩
  · rcases Desk.attempt_moves hi nofun hrestart hmoves with hi | ⟨agentId, dkg, -, -, hi⟩
    · exact .inl ⟨agentId, dkg, preAuth, hi⟩
    · exact .inr ⟨agentId, dkg.primaryPubkey, hi⟩
  · rcases Desk.attempt_moves hi nofun hrestart hmoves with hi | ⟨_, _, _, hlinking, -⟩
    · exact .inr ⟨agentId, primaryPubkey, hi⟩
    · cases hlinking

theorem Desk.Stuck.moves (h : d.Stuck i frame) (hresolves : d.Resolves) (hrestart : e ≠ .restart)
    (hmoves : d.Moves e d') : d'.Stuck i frame := by
  rcases h with ⟨hi, hresolver⟩ | ⟨answer, hno, hi⟩
  · have hlt : i < d.attempts.length := (List.getElem?_eq_some_iff.1 hi).1
    have hdrop : ∀ {key}, (d.dropResolver key).resolver frame.kLocalPubkey ≠ some i :=
      fun hkey => hresolver (resolver_of_drop hkey)
    have hset : ∀ {j a}, j ≠ i → (d.attempts.set j a)[i]? = some ⟨frame, .waiting⟩ :=
      fun hj => (List.getElem?_set_ne hj).trans hi
    -- the key resolves another attempt than this
    have hother : ∀ {authedPubkey j frame'} a, d.resolver authedPubkey = some j →
        d.attempts[j]? = some ⟨frame', .waiting⟩ → (d.attempts.set j a)[i]? = some ⟨frame, .waiting⟩ := by
      intro authedPubkey j frame' a hauthed hj
      refine hset ?_
      rintro rfl
      obtain ⟨b, hb, hkey⟩ := hresolves authedPubkey j hauthed
      obtain rfl := Option.some.inj (hi.symm.trans hb)
      exact hresolver (hkey ▸ hauthed)
    cases hmoves with
    | idle => exact .inl ⟨hi, hresolver⟩
    | bound => exact .inl ⟨hi, hresolver⟩
    | boundAgain => exact .inl ⟨hi, hresolver⟩
    | stashed => exact .inl ⟨hi, hresolver⟩
    | opened frame' =>
      refine .inl ⟨(List.getElem?_append_left hlt).trans hi, fun hnew => ?_⟩
      have hopened : Function.update d.resolver frame'.kLocalPubkey (some d.attempts.length) frame.kLocalPubkey =
          some i := hnew
      by_cases hk : frame.kLocalPubkey = frame'.kLocalPubkey
      · rw [hk, Function.update_self] at hopened
        exact absurd (Option.some.inj hopened) (Nat.ne_of_gt hlt)
      · rw [Function.update_of_ne hk] at hopened
        exact hresolver hopened
    | refused => exact .inl ⟨(List.getElem?_append_left hlt).trans hi, hresolver⟩
    | expired j frame' hj =>
      by_cases hji : j = i
      · subst hji
        obtain rfl := (Attempt.mk.inj (Option.some.inj (hi.symm.trans hj))).1
        exact .inr ⟨.dkgFailed, rfl, List.getElem?_set_self hlt⟩
      · exact .inl ⟨hset hji, hdrop⟩
    | cleared => exact .inl ⟨hi, hdrop⟩
    | failed _ _ _ _ _ _ _ hauthed hj => exact .inl ⟨hother _ hauthed hj, hdrop⟩
    | linking _ _ _ _ _ _ _ hauthed hj => exact .inl ⟨hother _ hauthed hj, hdrop⟩
    | unlinked _ _ _ _ _ _ hauthed hj => exact .inl ⟨hother _ hauthed hj, hdrop⟩
    | registered j _ _ frame' _ _ _ hj =>
      have hji : j ≠ i := by
        rintro rfl
        cases Option.some.inj (hi.symm.trans hj)
      exact .inl ⟨hset hji, hresolver⟩
    | restarted => exact absurd rfl hrestart
  · rcases Desk.attempt_moves hi nofun hrestart hmoves with hi | ⟨_, _, _, hlinking, -⟩
    · exact .inr ⟨answer, hno, hi⟩
    · cases hlinking

theorem Node.goesOn_run {events : List Event} (hrestart : ∀ e ∈ events, e ≠ .restart) (h : node.desk.GoesOn i frame) :
    (events.foldl (Node.step cfg) node).desk.GoesOn i frame := by
  induction events generalizing node with
  | nil => exact h
  | cons e rest ih =>
    exact ih (fun e he => hrestart e (List.mem_cons_of_mem _ he))
      (h.moves (hrestart e List.mem_cons_self) (step_moves e))

theorem Node.stuck_run {events : List Event} (hrestart : ∀ e ∈ events, e ≠ .restart) (hresolves : node.desk.Resolves)
    (h : node.desk.Stuck i frame) : (events.foldl (Node.step cfg) node).desk.Stuck i frame := by
  induction events generalizing node with
  | nil => exact h
  | cons e rest ih =>
    have hmoves : node.desk.Moves e (node.step cfg e).desk := step_moves e
    exact ih (fun e he => hrestart e (List.mem_cons_of_mem _ he)) (hresolves.moves hmoves)
      (h.moves hresolves (hrestart e List.mem_cons_self) hmoves)

theorem Desk.GoesOn.linked (h : node.desk.GoesOn i frame) (drawn : Option String) (now : ℤ) :
    ∃ agentId primaryPubkey, (node.linked i drawn now).mem.attempts[i]? =
      some ⟨frame, .answered (.registerSuccess agentId primaryPubkey)⟩ := by
  unfold Node.linked
  rcases h with ⟨agentId, dkg, preAuth, hi⟩ | ⟨agentId, primaryPubkey, hi⟩
  · have hlt : i < node.mem.attempts.length := (List.getElem?_eq_some_iff.1 hi).1
    have hlinking : node.mem.attempts[i]? = some ⟨frame, .linking agentId dkg preAuth⟩ := hi
    refine ⟨agentId, dkg.primaryPubkey, ?_⟩
    rw [hlinking]
    dsimp only
    split
    · exact List.getElem?_set_self hlt
    · exact List.getElem?_set_self hlt
  · have hanswered : node.mem.attempts[i]? = some ⟨frame, .answered (.registerSuccess agentId primaryPubkey)⟩ := hi
    rw [hanswered]
    exact ⟨agentId, primaryPubkey, hi⟩

/-! ### Until the attempt is taken up -/

/-- **The condition on what happens while the attempt waits**: no timer of another attempt of the key fires, and a
`dkg_complete` of the key, be it of this attempt or a late one, is what the request can be taken up with. -/
def Node.Undisturbed (i : ℕ) (frame : RegisterRequest) (node : Node) (e : Event) : Prop :=
  node.mem.attempts[i]? = some ⟨frame, .waiting⟩ →
    ¬ node.desk.Fires frame.kLocalPubkey e ∧
      ∀ dkg agentId now, e = .dkgComplete frame.kLocalPubkey dkg agentId now → node.TakesUp frame dkg

def Desk.Alive (d : Desk) (i : ℕ) (frame : RegisterRequest) : Prop := d.Waits i frame (some i) ∨ d.GoesOn i frame

theorem Desk.GoesOn.not_waiting (h : d.GoesOn i frame) : d.attempts[i]? ≠ some ⟨frame, .waiting⟩ := by
  intro hi
  rcases h with ⟨_, _, _, h⟩ | ⟨_, _, h⟩ <;> cases h.symm.trans hi

theorem ne_restart_of_spares (h : e.Spares i k) : e ≠ .restart := by
  rintro rfl
  exact h

theorem step_alive (h : node.desk.Alive i frame) (hresolves : node.desk.Resolves)
    (hspares : e.Spares i frame.kLocalPubkey) (hundisturbed : node.Undisturbed i frame e) :
    (node.step cfg e).desk.Alive i frame ∧
      ((∃ dkg agentId now, e = .dkgComplete frame.kLocalPubkey dkg agentId now) →
        (node.step cfg e).desk.GoesOn i frame) := by
  rcases h with h | h
  · obtain ⟨hno, htakes⟩ := hundisturbed h.attempt
    by_cases hcomplete : ∃ dkg agentId now, e = .dkgComplete frame.kLocalPubkey dkg agentId now
    · obtain ⟨dkg, agentId, now, rfl⟩ := hcomplete
      have hgoesOn : (node.step cfg (.dkgComplete frame.kLocalPubkey dkg agentId now)).desk.GoesOn i frame :=
        goesOn_dkgComplete h (htakes dkg agentId now rfl)
      exact ⟨.inr hgoesOn, fun _ => hgoesOn⟩
    · refine ⟨.inl ((h.moves hresolves hspares ?_ (step_moves e)).2 hno), fun he => absurd he hcomplete⟩
      rintro dkg agentId now rfl
      exact hcomplete ⟨dkg, agentId, now, rfl⟩
  · have hmoves : node.desk.Moves e (node.step cfg e).desk := step_moves e
    have hgoesOn := h.moves (ne_restart_of_spares hspares) hmoves
    exact ⟨.inr hgoesOn, fun _ => hgoesOn⟩

theorem step_disturbed (h : node.desk.Alive i frame) (hresolves : node.desk.Resolves)
    (hspares : e.Spares i frame.kLocalPubkey) (hdisturbed : ¬ node.Undisturbed i frame e) :
    (node.step cfg e).desk.Stuck i frame := by
  rcases h with h | h
  · by_cases hcomplete : ∃ dkg agentId now, e = .dkgComplete frame.kLocalPubkey dkg agentId now
    · obtain ⟨dkg, agentId, now, rfl⟩ := hcomplete
      refine stuck_dkgComplete h fun htakes => hdisturbed fun _ => ⟨not_fires (by nofun) _, ?_⟩
      intro dkg' agentId' now' he
      obtain ⟨-, rfl, -⟩ := Event.dkgComplete.inj he
      exact htakes
    · have hapart : ∀ dkg agentId now, e ≠ .dkgComplete frame.kLocalPubkey dkg agentId now :=
        fun dkg agentId now he => hcomplete ⟨dkg, agentId, now, he⟩
      have hfires : node.desk.Fires frame.kLocalPubkey e := by
        by_contra hno
        exact hdisturbed fun _ => ⟨hno, fun dkg agentId now he => absurd he (hapart dkg agentId now)⟩
      have hmoves : node.desk.Moves e (node.step cfg e).desk := step_moves e
      have hwaits := (h.moves hresolves hspares hapart hmoves).1 hfires
      refine .inl ⟨hwaits.attempt, fun hi => ?_⟩
      rw [hwaits.own] at hi
      cases hi
  · exact absurd (fun hi => absurd hi h.not_waiting) hdisturbed

theorem Node.alive_run {events : List Event} (hspares : ∀ e ∈ events, e.Spares i frame.kLocalPubkey)
    (hresolves : node.desk.Resolves) (h : node.desk.Alive i frame) :
    (Guarded (Node.step cfg) (Node.Undisturbed i frame) node events →
        (events.foldl (Node.step cfg) node).desk.Alive i frame) ∧
      (¬ Guarded (Node.step cfg) (Node.Undisturbed i frame) node events →
        (events.foldl (Node.step cfg) node).desk.Stuck i frame) := by
  induction events generalizing node with
  | nil => exact ⟨fun _ => h, fun hno => absurd trivial hno⟩
  | cons e rest ih =>
    have hnext : (node.step cfg e).desk.Resolves := hresolves.moves (step_moves e)
    have hfirst := hspares e List.mem_cons_self
    have hrest : ∀ e ∈ rest, e.Spares i frame.kLocalPubkey := fun e he => hspares e (List.mem_cons_of_mem _ he)
    by_cases hundisturbed : node.Undisturbed i frame e
    · obtain ⟨hguarded, hunguarded⟩ := ih hrest hnext (step_alive h hresolves hfirst hundisturbed).1
      exact ⟨fun hguard => hguarded hguard.2, fun hno => hunguarded fun hguard => hno ⟨hundisturbed, hguard⟩⟩
    · refine ⟨fun hguard => absurd hguard.1 hundisturbed, fun _ => ?_⟩
      have hstuck : (rest.foldl (Node.step cfg) (node.step cfg e)).desk.Stuck i frame :=
        Node.stuck_run (fun e' he => ne_restart_of_spares (hrest e' he)) hnext
          (step_disturbed h hresolves hfirst hundisturbed)
      exact hstuck

/-! ### The latest attempt -/

/-- A run with an attempt of a key in it: the events before its request, between the request and its
`dkg_complete`, and from there until its account is resolved. -/
structure LatestAttempt where
  before : List Event
  frame : RegisterRequest
  between : List Event
  dkg : DkgComplete
  agentId : String
  after : List Event
  drawn : Option String
  now : ℤ

namespace LatestAttempt

variable (cfg : Config) (a : LatestAttempt)

def start : Node := a.before.foldl (Node.step cfg) {}

def index : ℕ := (a.start cfg).mem.attempts.length

def opened : Node := (a.start cfg).step cfg (.registerRequest a.frame true)

def arrived : Node := a.between.foldl (Node.step cfg) (a.opened cfg)

/-- The `dkg_complete` of the attempt. -/
def own : Event := .dkgComplete a.frame.kLocalPubkey a.dkg a.agentId a.now

def ended : Node :=
  (a.after.foldl (Node.step cfg) ((a.arrived cfg).step cfg a.own)).step cfg (.linked (a.index cfg) a.drawn a.now)

/-- **The client does its part**: its request is let in, no attempt of the key comes after it, its `dkg_complete` comes
before its own timer, and the node is not restarted. -/
structure Completes : Prop where
  letIn : a.frame.phoneStub ≠ "" ∨ cfg.tokenValidator = true
  unregistered : (a.start cfg).mem.getProfile a.frame.kLocalPubkey = none
  latest : ∀ e ∈ a.between, e.Spares (a.index cfg) a.frame.kLocalPubkey
  running : ∀ e ∈ a.after, e ≠ .restart

/-- The attempt is answered `register_success`. -/
def Answered : Prop := ∃ agentId primaryPubkey, (a.ended cfg).mem.attempts[a.index cfg]? =
  some ⟨a.frame, .answered (.registerSuccess agentId primaryPubkey)⟩

variable {cfg a}

theorem Completes.waits (h : a.Completes cfg) :
    (a.opened cfg).desk.Waits (a.index cfg) a.frame (some (a.index cfg)) := by
  have hin : ¬ (a.frame.phoneStub = "" ∧ cfg.tokenValidator = false) := by
    rintro ⟨hstub, hvalidator⟩
    rcases h.letIn with hno | hyes
    · exact hno hstub
    · exact Bool.false_ne_true (hvalidator.symm.trans hyes)
  have hopened : (a.opened cfg).mem.attempts = (a.start cfg).mem.attempts ++ [⟨a.frame, .waiting⟩] ∧
      (a.opened cfg).mem.pendingDkgComplete = Function.update (a.start cfg).mem.pendingDkgComplete
        a.frame.kLocalPubkey (some (a.index cfg)) := by
    show ((a.start cfg).registerRequest cfg a.frame true).mem.attempts = _ ∧
      ((a.start cfg).registerRequest cfg a.frame true).mem.pendingDkgComplete = _
    unfold Node.registerRequest
    dsimp only
    rw [if_neg hin, h.unregistered]
    exact ⟨rfl, rfl⟩
  constructor
  · show (a.opened cfg).mem.attempts[a.index cfg]? = _
    rw [hopened.1, index, List.getElem?_append_right le_rfl, Nat.sub_self]
    rfl
  · show (a.opened cfg).mem.pendingDkgComplete a.frame.kLocalPubkey = _
    rw [hopened.2, Function.update_self]

/-! ### After an attempt that was given up -/

def validated : Config := ⟨true, id⟩

/-- An attempt is given up after what is given, and the key comes again with a capability; what is given then happens
before its `dkg_complete`. -/
def again (given between : List Event) : LatestAttempt where
  before := .registerRequest ⟨"K", "", "ml-dsa"⟩ true :: given
  frame := ⟨"K", "", "ml-dsa"⟩
  between := .round1 "K" ⟨"nonce", "phone", none⟩ :: .stash 0 :: between
  dkg := ⟨"P", "binding"⟩
  agentId := "a"
  after := []
  drawn := some "account"
  now := 0

/-- The group key that the first attempt has left, and its late `dkg_complete`, end the second as well. -/
example : ((again [.round3 "K" "P₁", .timeout 0] []).ended validated).answers =
      [("K", .dkgFailed), ("K", .dkgVerificationFailed)] ∧
    ((again [] [.round3 "K" "P", .dkgComplete "K" ⟨"P₁", "binding"⟩ "a" 0]).ended validated).answers =
      [("K", .dkgVerificationFailed)] := by
  decide

end LatestAttempt

end Cello.Directory.Register
