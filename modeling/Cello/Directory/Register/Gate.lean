import Cello.Lib.StringNumber
import Cello.Directory.Register.Attempts

/-!
# The capability gate

A first round of the key generation carries a capability of the issuer, as it is or behind a short code.  It is
decoded, checked against the issuer's key, and its nonce bound to the agent that the frame names; then the operator
is stashed for the registration.  The registration takes the phone of its request where nothing is stashed, and so
never asks whether the gate was passed.

`admitted_iff` is the exact condition under which every registered key has passed it.
-/

namespace Cello.Directory.Register

open Lib

/-- What `redeemClaimCode` answers. -/
inductive Redeemed where
  | ok (capability : String)
  | expired
  | notFound
deriving DecidableEq, Repr

/-- The capability format, with the key of the issuer fixed. -/
structure Issuer (C : Type) where
  /-- Whether claim codes can be looked up. -/
  pgPool : Bool
  decodeCapability : String → Option C
  /-- `verifyCapability` at a time: nothing, or the reason. -/
  verifyCapability : C → ℤ → Option String
  fields : C → Capability

namespace Issuer

variable {C : Type} (g : Issuer C)

def redeemed (tries : ℕ → Redeemed) : Redeemed :=
  (((List.range 6).map tries).find? fun r => decide (r ≠ .notFound)).getD .notFound

/-- The capability behind what a frame carries, or the reason of the `preauth_error`. -/
def capability (blob : Option String) (tries : ℕ → Redeemed) : Except String String :=
  match blob.filter fun b => decide (b ≠ "") with
  | none => .error "PRE_AUTH_TOKEN_MISSING"
  | some blob =>
    let capBlob := Number.trim blob.toList
    if "CELLO-".toList.isPrefixOf capBlob && g.pgPool then
      match redeemed tries with
      | .ok capability => .ok capability
      | .expired => .error "CLAIM_CODE_EXPIRED"
      | .notFound => .error "CLAIM_CODE_INVALID"
    else .ok (String.ofList capBlob)

/-- The gate up to the nonce. -/
def check (blob : Option String) (tries : ℕ → Redeemed) (now : ℤ) : Except String C := do
  let capBlob ← g.capability blob tries
  match g.decodeCapability capBlob with
  | none => .error "PRE_AUTH_TOKEN_MISSING"
  | some cap =>
    match g.verifyCapability cap now with
    | none => .ok cap
    | some reason =>
      .error (if reason = "capability_expired" then "PRE_AUTH_TOKEN_EXPIRED" else "PRE_AUTH_CAPABILITY_INVALID")

end Issuer

/-! ### What an answer rests on -/

/-- The agent was answered `register_success`. -/
def Answered (answers : List (String × Answer)) (k : String) : Prop :=
  ∃ agentId primaryPubkey, (k, Answer.registerSuccess agentId primaryPubkey) ∈ answers

def Desk.LinksOf (d : Desk) (A : String → Prop) : Prop :=
  ∀ (i : ℕ) frame agentId dkg preAuth, d.attempts[i]? = some ⟨frame, .linking agentId dkg preAuth⟩ →
    A frame.kLocalPubkey

/-- A `dkg_complete` finds an attempt waiting. -/
def Desk.Finds (d : Desk) (e : Event) (frame : RegisterRequest) : Prop :=
  ∃ authedPubkey dkg agentId now, e = .dkgComplete authedPubkey dkg agentId now ∧
    ∃ i : ℕ, d.resolver authedPubkey = some i ∧ d.attempts[i]? = some ⟨frame, .waiting⟩

/-- What a registration can be answered from, besides the phone of its request, is of agents with a property. -/
structure Desk.Rests (d : Desk) (A : String → Prop) : Prop where
  resolves : d.Resolves
  bound : ∀ k preAuth, (k, preAuth) ∈ d.bound → A k
  stash : ∀ k preAuth, d.stash k = some preAuth → A k
  linking : d.LinksOf A

variable {cfg : Config} {node : Node} {d d' : Desk} {e : Event} {k : String} {A B : String → Prop}

theorem Desk.Rests.mono (h : d.Rests A) (hAB : ∀ k, A k → B k) : d.Rests B :=
  ⟨h.resolves, fun k preAuth hk => hAB k (h.bound k preAuth hk), fun k preAuth hk => hAB k (h.stash k preAuth hk),
    fun i frame agentId dkg preAuth hi => hAB _ (h.linking i frame agentId dkg preAuth hi)⟩

/-- **One step of the attempts**: where a `dkg_complete` that finds an operator stashed is of an agent with the
property. -/
theorem Desk.LinksOf.moves (h : d.LinksOf A) (hmoves : d.Moves e d')
    (hfinds : ∀ frame preAuth, d.Finds e frame → d.stash frame.kLocalPubkey = some preAuth → A frame.kLocalPubkey) :
    d'.LinksOf A := by
  have happend : ∀ {frame₀ : RegisterRequest} {progress : Progress}, (∀ agentId dkg preAuth,
      progress ≠ .linking agentId dkg preAuth) → ∀ (i : ℕ) frame agentId dkg preAuth,
        (d.attempts ++ [⟨frame₀, progress⟩])[i]? = some ⟨frame, .linking agentId dkg preAuth⟩ →
          A frame.kLocalPubkey := by
    intro frame₀ progress hno i frame agentId dkg preAuth hi
    rw [List.getElem?_append] at hi
    split at hi
    · exact h i frame agentId dkg preAuth hi
    · obtain ⟨-, hprogress⟩ := Attempt.mk.inj (List.mem_singleton.1 (List.mem_of_getElem? hi))
      exact absurd hprogress.symm (hno agentId dkg preAuth)
  have hset : ∀ {j : ℕ} {frame₀ : RegisterRequest} {progress : Progress}, (∀ agentId dkg preAuth,
      progress = .linking agentId dkg preAuth → A frame₀.kLocalPubkey) → ∀ (i : ℕ) frame agentId dkg preAuth,
        (d.attempts.set j ⟨frame₀, progress⟩)[i]? = some ⟨frame, .linking agentId dkg preAuth⟩ →
          A frame.kLocalPubkey := by
    intro j frame₀ progress hnew i frame agentId dkg preAuth hi
    rw [List.getElem?_set] at hi
    split at hi
    · split at hi
      · obtain ⟨rfl, hprogress⟩ := Attempt.mk.inj (Option.some.inj hi)
        exact hnew agentId dkg preAuth hprogress
      · cases hi
    · exact h i frame agentId dkg preAuth hi
  have hfinish : ∀ {j : ℕ} {frame₀ : RegisterRequest} {answer : Answer}, ∀ (i : ℕ) frame agentId dkg preAuth,
      (d.attempts.set j ⟨frame₀, .answered answer⟩)[i]? = some ⟨frame, .linking agentId dkg preAuth⟩ →
        A frame.kLocalPubkey := hset fun _ _ _ hno => by cases hno
  cases hmoves with
  | opened => exact happend (by nofun)
  | refused => exact happend (by nofun)
  | expired => exact hfinish
  | failed => exact hfinish
  | linking authedPubkey dkg agentId now i frame preAuth hresolves hi hstash =>
    exact hset fun _ _ _ _ =>
      hfinds frame preAuth ⟨authedPubkey, dkg, agentId, now, rfl, i, hresolves, hi⟩ hstash
  | unlinked => exact hfinish
  | registered => exact hfinish
  | restarted => exact nofun
  | _ => exact h

/-- **One step**: where the agents of first rounds have the property. -/
theorem Desk.Rests.moves (h : d.Rests A) (hmoves : d.Moves e d') (hround : ∀ k c, e = .round1 k c → A k) :
    d'.Rests A := by
  have hresolves := h.resolves.moves hmoves
  have hlinking : d'.LinksOf A := h.linking.moves hmoves fun frame preAuth _ hstash => h.stash _ preAuth hstash
  have hdrop : ∀ key k preAuth, (d.dropStash key).stash k = some preAuth → A k := by
    intro key k preAuth hk
    have hstash : Function.update d.stash key none k = some preAuth := hk
    by_cases hkey : k = key
    · rw [hkey, Function.update_self] at hstash
      cases hstash
    · rw [Function.update_of_ne hkey] at hstash
      exact h.stash k preAuth hstash
  have hbound : ∀ {k₀ : String} {preAuth₀ : PreAuth}, A k₀ → ∀ k preAuth,
      (k, preAuth) ∈ d.bound ++ [(k₀, preAuth₀)] → A k := by
    intro k₀ preAuth₀ hk₀ k preAuth hk
    rcases List.mem_append.1 hk with hk | hk
    · exact h.bound k preAuth hk
    · obtain ⟨rfl, -⟩ := Prod.mk.inj (List.mem_singleton.1 hk)
      exact hk₀
  cases hmoves with
  | idle => exact h
  | bound k c => exact ⟨hresolves, hbound (hround k c rfl), h.stash, hlinking⟩
  | boundAgain k c => exact ⟨hresolves, hbound (hround k c rfl), h.stash, hlinking⟩
  | stashed i k preAuth hi =>
    refine ⟨hresolves, fun k' preAuth' hk => h.bound k' preAuth' (List.mem_of_mem_eraseIdx hk),
      fun k' preAuth' hk => ?_, hlinking⟩
    by_cases hkey : k' = k
    · exact hkey ▸ h.bound k preAuth (List.mem_of_getElem? hi)
    · exact h.stash k' preAuth' ((Function.update_of_ne hkey _ _).symm.trans hk)
  | opened => exact ⟨hresolves, h.bound, h.stash, hlinking⟩
  | refused => exact ⟨hresolves, h.bound, hdrop _, hlinking⟩
  | expired => exact ⟨hresolves, h.bound, hdrop _, hlinking⟩
  | cleared => exact ⟨hresolves, h.bound, h.stash, hlinking⟩
  | failed => exact ⟨hresolves, h.bound, hdrop _, hlinking⟩
  | linking => exact ⟨hresolves, h.bound, hdrop _, hlinking⟩
  | unlinked => exact ⟨hresolves, h.bound, hdrop _, hlinking⟩
  | registered => exact ⟨hresolves, h.bound, h.stash, hlinking⟩
  | restarted => exact ⟨hresolves, nofun, nofun, hlinking⟩

theorem answered_append {answers : List (String × Answer)} {key : String} {answer : Answer} :
    Answered (answers ++ [(key, answer)]) k ↔ Answered answers k ∨ (key = k ∧ answer.isSuccess = true) := by
  constructor
  · rintro ⟨agentId, primaryPubkey, h⟩
    rcases List.mem_append.1 h with h | h
    · exact .inl ⟨agentId, primaryPubkey, h⟩
    · obtain ⟨rfl, rfl⟩ := Prod.mk.inj (List.mem_singleton.1 h)
      exact .inr ⟨rfl, rfl⟩
  · rintro (⟨agentId, primaryPubkey, h⟩ | ⟨rfl, hanswer⟩)
    · exact ⟨agentId, primaryPubkey, List.mem_append_left _ h⟩
    · cases answer with
      | registerSuccess agentId primaryPubkey =>
        exact ⟨agentId, primaryPubkey, List.mem_append_right _ List.mem_cons_self⟩
      | alreadyRegistered => cases hanswer
      | invalidVerification => cases hanswer
      | dkgFailed => cases hanswer
      | dkgVerificationFailed => cases hanswer

theorem answered_moves (h : d.LinksOf A) (hmoves : d.Moves e d') (hk : Answered d'.answers k) :
    Answered d.answers k ∨ A k ∨ ∃ frame, d.Finds e frame ∧ frame.kLocalPubkey = k := by
  cases hmoves with
  | refused frame topologyOk answer hno =>
    rcases answered_append.1 hk with hk | ⟨-, hsuccess⟩
    · exact .inl hk
    · exact absurd hsuccess (hno ▸ Bool.false_ne_true)
  | expired =>
    rcases answered_append.1 hk with hk | ⟨-, hsuccess⟩
    · exact .inl hk
    · cases hsuccess
  | failed authedPubkey dkg agentId now i frame answer hresolves hi hno =>
    rcases answered_append.1 hk with hk | ⟨-, hsuccess⟩
    · exact .inl hk
    · exact absurd hsuccess (hno ▸ Bool.false_ne_true)
  | unlinked authedPubkey dkg agentId now i frame hresolves hi =>
    rcases answered_append.1 hk with hk | ⟨rfl, -⟩
    · exact .inl hk
    · exact .inr (.inr ⟨frame, ⟨authedPubkey, dkg, agentId, now, rfl, i, hresolves, hi⟩, rfl⟩)
  | registered i _ _ frame agentId dkg preAuth hi =>
    rcases answered_append.1 hk with hk | ⟨rfl, -⟩
    · exact .inl hk
    · exact .inr (.inl (h i frame agentId dkg preAuth hi))
  | _ => exact .inl hk

/-- A `dkg_complete` that finds its attempt waiting, with the group key of this node if it has one, and no operator
stashed: the phone of the request is taken. -/
structure Node.TakesPhone (node : Node) (authedPubkey : String) (dkg : DkgComplete) (frame : RegisterRequest) :
    Prop where
  waiting : ∃ i : ℕ, node.mem.pendingDkgComplete authedPubkey = some i ∧
    node.mem.attempts[i]? = some ⟨frame, .waiting⟩
  verified : ∀ c, node.mem.pendingDkgCommitments frame.kLocalPubkey = some c → dkg.primaryPubkey = c
  unstashed : node.mem.pendingPreAuthData frame.kLocalPubkey = none
  phone : frame.phoneStub ≠ ""

theorem answered_resume {i : ℕ} {frame : RegisterRequest} {dkg : DkgComplete} {agentId : String} {now : ℤ} :
    Answered (node.resume cfg i frame dkg agentId now).answers k ↔ Answered node.answers k ∨
      ((∀ c, node.mem.pendingDkgCommitments frame.kLocalPubkey = some c → dkg.primaryPubkey = c) ∧
        node.mem.pendingPreAuthData frame.kLocalPubkey = none ∧ frame.phoneStub ≠ "" ∧ frame.kLocalPubkey = k) := by
  have hrefused : ∀ {answer : Answer}, answer.isSuccess = false → ∀ {P : Prop}, ¬ P →
      (Answered (node.answers ++ [(frame.kLocalPubkey, answer)]) k ↔ Answered node.answers k ∨ P) := by
    intro answer hno P hP
    rw [answered_append, hno]
    exact or_congr_right ⟨fun h => absurd h.2 Bool.false_ne_true, fun h => absurd h hP⟩
  unfold Node.resume
  dsimp only
  split
  next hany =>
    refine hrefused rfl ?_
    rintro ⟨hverified, -⟩
    cases hc : node.mem.pendingDkgCommitments frame.kLocalPubkey with
    | none =>
      rw [hc] at hany
      cases hany
    | some c =>
      rw [hc] at hany
      exact of_decide_eq_true hany (hverified c hc)
  next hany =>
    have hverified : ∀ c, node.mem.pendingDkgCommitments frame.kLocalPubkey = some c → dkg.primaryPubkey = c := by
      intro c hc
      by_contra hne
      exact hany (by rw [hc]; exact decide_eq_true hne)
    split
    next preAuth hstash =>
      refine ⟨.inl, fun h => h.resolve_right ?_⟩
      rintro ⟨-, hnone, -⟩
      cases hstash.symm.trans hnone
    next hstash =>
      split
      next hstub =>
        refine hrefused rfl ?_
        rintro ⟨-, -, hno, -⟩
        exact hno hstub
      next hstub =>
        show Answered (node.answers ++ [(frame.kLocalPubkey, Answer.registerSuccess agentId dkg.primaryPubkey)]) k ↔ _
        rw [answered_append]
        exact or_congr_right ⟨fun h => ⟨hverified, hstash, hstub, h.1⟩, fun h => ⟨h.2.2.2, rfl⟩⟩

/-- **Who is answered by a `dkg_complete`** is the agent of a request whose phone is taken. -/
theorem answered_dkgComplete {authedPubkey agentId : String} {dkg : DkgComplete} {now : ℤ} :
    Answered (node.dkgComplete cfg authedPubkey dkg agentId now).answers k ↔
      Answered node.answers k ∨ ∃ frame, node.TakesPhone authedPubkey dkg frame ∧ frame.kLocalPubkey = k := by
  have hidle : (∀ frame, ¬ node.TakesPhone authedPubkey dkg frame) →
      (Answered node.answers k ↔ Answered node.answers k ∨
        ∃ frame, node.TakesPhone authedPubkey dkg frame ∧ frame.kLocalPubkey = k) := by
    refine fun hno => ⟨.inl, fun h => h.resolve_right ?_⟩
    rintro ⟨frame, htakes, -⟩
    exact hno frame htakes
  unfold Node.dkgComplete
  cases hresolves : node.mem.pendingDkgComplete authedPubkey with
  | none =>
    refine hidle fun frame htakes => ?_
    obtain ⟨i, hi, -⟩ := htakes.waiting
    cases hresolves.symm.trans hi
  | some i =>
    dsimp only
    split
    next frame hi =>
      refine answered_resume.trans (or_congr_right ⟨?_, ?_⟩)
      · rintro ⟨hverified, hstash, hstub, hk⟩
        exact ⟨frame, ⟨⟨i, hresolves, hi⟩, hverified, hstash, hstub⟩, hk⟩
      · rintro ⟨frame', htakes, hk⟩
        obtain ⟨j, hj, hframe⟩ := htakes.waiting
        obtain rfl := Option.some.inj (hresolves.symm.trans hj)
        obtain ⟨rfl, -⟩ := Attempt.mk.inj (Option.some.inj (hi.symm.trans hframe))
        exact ⟨htakes.verified, htakes.unstashed, htakes.phone, hk⟩
    next hno =>
      refine hidle fun frame htakes => ?_
      obtain ⟨j, hj, hframe⟩ := htakes.waiting
      obtain rfl := Option.some.inj (hresolves.symm.trans hj)
      exact hno frame hframe

/-! ### Nonces -/

def Event.isRound1 : Event → Bool
  | .round1 _ _ => true
  | _ => false

theorem nonces_moves (hround : e.isRound1 = false) (hmoves : d.Moves e d') :
    d'.nonces = d.nonces := by
  cases hmoves with
  | bound => cases hround
  | boundAgain => cases hround
  | _ => rfl

theorem mem_nonces_moves (hmoves : d.Moves e d') : ∀ b ∈ d.nonces, b ∈ d'.nonces := by
  intro b hb
  cases hmoves with
  | bound => exact List.mem_append_left _ hb
  | _ => exact hb

theorem bound_of_round1 {c : Capability} (hmoves : d.Moves (.round1 k c) d') :
    d' = d ∨ (c.nonce, k) ∈ d'.nonces := by
  cases hmoves with
  | idle => exact .inl rfl
  | bound => exact .inr (List.mem_append_right _ List.mem_cons_self)
  | boundAgain _ _ hbound => exact .inr hbound

/-! ### Runs of a node with the gate -/

/-- A node, and what was presented for an agent and found good, with the time. -/
structure Gated (C : Type) where
  node : Node := {}
  presented : List (String × C × ℤ) := []

inductive GateEvent where
  /-- A first round, with the answers that the look-up of its code gets. -/
  | round1 (agentPubkey : String) (blob : Option String) (tries : ℕ → Redeemed) (now : ℤ)
  | other (e : Event)

namespace Gated

variable {C : Type} (g : Issuer C) (cfg : Config)

/-- A first round that goes past the gate is not one of the events. -/
def step (s : Gated C) : GateEvent → Gated C
  | .round1 k blob tries now =>
    match g.check blob tries now with
    | .error _ => s
    | .ok cap => ⟨s.node.round1 k (g.fields cap), s.presented ++ [(k, cap, now)]⟩
  | .other e => if e.isRound1 then s else { s with node := s.node.step cfg e }

def run (events : List GateEvent) : Gated C := events.foldl (step g cfg) {}

/-- **A capability was presented for the agent**, good at its time, and its nonce is bound to the agent. -/
def Admitted (s : Gated C) (k : String) : Prop :=
  ∃ cap now, (k, cap, now) ∈ s.presented ∧ g.verifyCapability cap now = none ∧
    ((g.fields cap).nonce, k) ∈ s.node.db.nonces

/-- **Where the phone of a request is taken**, a capability has been presented for its agent before. -/
def PassesGate (s : Gated C) : GateEvent → Prop
  | .other (.dkgComplete authedPubkey dkg _ _) =>
    ∀ frame, s.node.TakesPhone authedPubkey dkg frame → s.Admitted g frame.kLocalPubkey
  | _ => True

variable {g cfg} {s s' : Gated C} {k : String}

theorem Admitted.mono (h : s.Admitted g k) (hpresented : ∀ p ∈ s.presented, p ∈ s'.presented)
    (hnonces : ∀ b ∈ s.node.desk.nonces, b ∈ s'.node.desk.nonces) : s'.Admitted g k := by
  obtain ⟨cap, now, hcap, hgood, hbound⟩ := h
  exact ⟨cap, now, hpresented _ hcap, hgood, hnonces _ hbound⟩

theorem verified_of_check {blob : Option String} {tries : ℕ → Redeemed} {now : ℤ} {cap : C}
    (h : g.check blob tries now = .ok cap) : g.verifyCapability cap now = none := by
  unfold Issuer.check at h
  cases hblob : g.capability blob tries with
  | error reason =>
    rw [hblob] at h
    cases h
  | ok capBlob =>
    rw [hblob] at h
    change (match g.decodeCapability capBlob with
      | none => _
      | some cap => _) = _ at h
    split at h
    · cases h
    · split at h
      next hgood =>
        obtain rfl := Except.ok.inj h
        exact hgood
      · cases h

def Kept (g : Issuer C) (s : Gated C) : Prop := s.node.desk.Rests (s.Admitted g)

def AllAdmitted (g : Issuer C) (s : Gated C) : Prop := ∀ k, Answered s.node.answers k → s.Admitted g k

/-- **One step of what answers rest on.** -/
theorem Kept.step (h : s.Kept g) (e : GateEvent) : (s.step g cfg e).Kept g := by
  cases e with
  | round1 k blob tries now =>
    unfold Gated.step
    dsimp only
    cases hcheck : g.check blob tries now with
    | error reason => exact h
    | ok cap =>
      have hmoves : s.node.desk.Moves (.round1 k (g.fields cap)) (s.node.round1 k (g.fields cap)).desk :=
        moves_round1 (g.fields cap)
      have hkept : s.node.desk.Rests
          (Admitted g ⟨s.node.round1 k (g.fields cap), s.presented ++ [(k, cap, now)]⟩) :=
        Desk.Rests.mono h fun k' hk' => hk'.mono (fun _ hp => List.mem_append_left _ hp) (mem_nonces_moves hmoves)
      rcases bound_of_round1 hmoves with hsame | hbound
      · show (s.node.round1 k (g.fields cap)).desk.Rests _
        rw [hsame]
        exact hkept
      · refine hkept.moves hmoves fun k' c he => ?_
        obtain ⟨rfl, -⟩ := Event.round1.inj he
        exact ⟨cap, now, List.mem_append_right _ List.mem_cons_self, verified_of_check hcheck, hbound⟩
  | other e =>
    unfold Gated.step
    dsimp only
    cases hround : e.isRound1 with
    | true => exact h
    | false =>
      have hmoves : s.node.desk.Moves e (s.node.step cfg e).desk := step_moves e
      have hnonces := nonces_moves hround hmoves
      have hmoved : (s.node.step cfg e).desk.Rests (s.Admitted g) := by
        refine Desk.Rests.moves h hmoves fun k c he => ?_
        rw [he] at hround
        cases hround
      exact hmoved.mono fun k hk => hk.mono (fun _ hp => hp) fun _ hb => hnonces.symm ▸ hb

theorem admitted_other {e : Event} (hround : e.isRound1 = false) :
    Admitted g { s with node := s.node.step cfg e } k ↔ s.Admitted g k := by
  have hmoves : s.node.desk.Moves e (s.node.step cfg e).desk := step_moves e
  have hnonces := nonces_moves hround hmoves
  exact ⟨fun h => h.mono (fun _ hp => hp) fun _ hb => hnonces ▸ hb,
    fun h => h.mono (fun _ hp => hp) fun _ hb => hnonces.symm ▸ hb⟩

theorem allAdmitted_of_ne (h : s.Kept g) (hall : s.AllAdmitted g) {e : Event}
    (hno : ∀ authedPubkey dkg agentId now, e ≠ .dkgComplete authedPubkey dkg agentId now) :
    (s.step g cfg (.other e)).AllAdmitted g := by
  unfold Gated.step
  dsimp only
  cases hround : e.isRound1 with
  | true => exact hall
  | false =>
    intro k hk
    have hmoves : s.node.desk.Moves e (s.node.step cfg e).desk := step_moves e
    rcases answered_moves h.linking hmoves hk with hk | hk | ⟨frame, ⟨authedPubkey, dkg, agentId, now, he, -⟩, -⟩
    · exact (admitted_other hround).2 (hall k hk)
    · exact (admitted_other hround).2 hk
    · exact absurd he (hno authedPubkey dkg agentId now)

theorem answers_round1 (k : String) (blob : Option String) (tries : ℕ → Redeemed) (now : ℤ) :
    (s.step g cfg (.round1 k blob tries now)).node.answers = s.node.answers := by
  unfold Gated.step Node.round1
  dsimp only
  split
  · rfl
  · split
    · rfl
    · rfl

theorem Admitted.step (h : s.Admitted g k) (e : GateEvent) : (s.step g cfg e).Admitted g k := by
  cases e with
  | round1 k' blob tries now =>
    unfold Gated.step
    dsimp only
    cases g.check blob tries now with
    | error reason => exact h
    | ok cap => exact h.mono (fun _ hp => List.mem_append_left _ hp) (mem_nonces_moves (moves_round1 (g.fields cap)))
  | other e =>
    unfold Gated.step
    dsimp only
    cases hround : e.isRound1 with
    | true => exact h
    | false => exact (admitted_other hround).2 h

theorem allAdmitted_round1 (hall : s.AllAdmitted g) (k : String) (blob : Option String) (tries : ℕ → Redeemed)
    (now : ℤ) : (s.step g cfg (.round1 k blob tries now)).AllAdmitted g := by
  intro k' hk'
  rw [answers_round1] at hk'
  exact (hall k' hk').step _

theorem admitted_before (hall : s.AllAdmitted g) {e : GateEvent} (hafter : (s.step g cfg e).AllAdmitted g)
    (hk : Answered (s.step g cfg e).node.answers k) : s.Admitted g k := by
  cases e with
  | round1 k' blob tries now =>
    rw [answers_round1] at hk
    exact hall k hk
  | other e =>
    have hadmitted := hafter k hk
    unfold Gated.step at hadmitted
    dsimp only at hadmitted
    cases hround : e.isRound1 with
    | true =>
      rw [hround] at hadmitted
      exact hadmitted
    | false =>
      rw [hround] at hadmitted
      exact (admitted_other hround).1 hadmitted

theorem allAdmitted_step (h : s.Kept g) (hall : s.AllAdmitted g) (e : GateEvent) :
    (s.step g cfg e).AllAdmitted g ↔ s.PassesGate g e := by
  cases e with
  | round1 k blob tries now => exact ⟨fun _ => trivial, fun _ => allAdmitted_round1 hall k blob tries now⟩
  | other e =>
    cases e with
    | dkgComplete authedPubkey dkg agentId now =>
      have hsame : ∀ k, Admitted g (s.step g cfg (.other (.dkgComplete authedPubkey dkg agentId now))) k ↔
          s.Admitted g k := fun k => admitted_other rfl
      constructor
      · intro hafter frame htakes
        exact (hsame _).1 (hafter _ (answered_dkgComplete.2 (.inr ⟨frame, htakes, rfl⟩)))
      · intro hpasses k hk
        rcases answered_dkgComplete.1 hk with hk | ⟨frame, htakes, rfl⟩
        · exact (hsame k).2 (hall k hk)
        · exact (hsame _).2 (hpasses frame htakes)
    | _ => exact ⟨fun _ => trivial, fun _ => allAdmitted_of_ne h hall (by nofun)⟩

/-- **No capability, no agent.**  At every moment of a run every agent that has been answered `register_success` had,
before the last event, a capability presented for it in a first round here, good at its time, and the nonce bound to
it; just if this is so wherever the phone of a request is taken. -/
theorem admitted_iff (g : Issuer C) (cfg : Config) (events : List GateEvent) :
    (∀ m k, Answered (run g cfg (events.take (m + 1))).node.answers k →
        (run g cfg (events.take m)).Admitted g k) ↔
      Guarded (step g cfg) (PassesGate g) {} events := by
  have hstart : Kept g ({} : Gated C) := ⟨nofun, nofun, nofun, nofun⟩
  have hnobody : AllAdmitted g ({} : Gated C) := by
    rintro k ⟨agentId, primaryPubkey, hk⟩
    cases hk
  refine Iff.trans ⟨fun h m => ?_, fun h m k hk => ?_⟩ (Guarded.iff_forall (I := Kept g) (P := AllAdmitted g)
    (fun s e hs => hs.step e) (fun s e hs hall => allAdmitted_step hs hall e) hstart hnobody)
  · cases m with
    | zero => exact hnobody
    | succ m =>
      intro k hk
      have hbefore := h m k hk
      cases hm : events[m]? with
      | none =>
        have hend : events.take (m + 1) = events.take m := by rw [List.take_add_one, hm]; exact List.append_nil _
        rw [hend]
        exact hbefore
      | some e =>
        rw [foldl_take_succ hm]
        exact hbefore.step e
  · cases hm : events[m]? with
    | none =>
      have hend : events.take (m + 1) = events.take m := by rw [List.take_add_one, hm]; exact List.append_nil _
      rw [hend] at hk
      exact h m k hk
    | some e =>
      have hrun : run g cfg (events.take (m + 1)) = (run g cfg (events.take m)).step g cfg e := foldl_take_succ hm _
      have hafter : (run g cfg (events.take (m + 1))).AllAdmitted g := h (m + 1)
      rw [hrun] at hafter hk
      exact admitted_before (h m) hafter hk

/-! ### A registration that never meets the gate -/

/-- A format of capabilities in which every text is one, with itself as nonce, and good. -/
def plainIssuer : Issuer String := ⟨false, some, fun _ _ => none, fun nonce => ⟨nonce, "phone", none⟩⟩

def gateConfig : Config := ⟨true, id⟩

/-- The request brings a phone, and the client says that the key generation is done. -/
def withoutRound1 : List GateEvent :=
  [.other (.registerRequest ⟨"K", "phone", "ml-dsa"⟩ true), .other (.dkgComplete "K" ⟨"P", "binding"⟩ "a" 0)]

/-- **An agent without a capability.** -/
theorem unadmitted_withoutRound1 :
    (run plainIssuer gateConfig withoutRound1).node.answers = [("K", .registerSuccess "a" "P")] ∧
    (run plainIssuer gateConfig withoutRound1).presented = [] ∧
    ¬ ∀ m k, Answered (run plainIssuer gateConfig (withoutRound1.take (m + 1))).node.answers k →
      (run plainIssuer gateConfig (withoutRound1.take m)).Admitted plainIssuer k := by
  refine ⟨by decide, by decide, fun h => ?_⟩
  have hanswer : ("K", Answer.registerSuccess "a" "P") ∈
      (run plainIssuer gateConfig (withoutRound1.take 2)).node.answers := by decide
  have hnothing : (run plainIssuer gateConfig (withoutRound1.take 1)).presented = [] := by decide
  obtain ⟨cap, now, hcap, -⟩ := h 1 "K" ⟨"a", "P", hanswer⟩
  rw [hnothing] at hcap
  cases hcap

end Gated

end Cello.Directory.Register
