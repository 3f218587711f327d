import Cello.Directory.Register.Attempts

/-!
# The operator of an agent

The phone of the operator comes with the first round of the key generation, under the key that the frame names; the
registration of that key takes what is there when its `dkg_complete` arrives.  Nobody has to sign for a first round.
So a registration gets the operator of the last first round that was let through under its key, whoever sent it.

`ownOperator_run` follows that operator through the profile, the account and the link.
-/

namespace Cello.Directory.Register

open Lib

def Tables.AccountOf (db : Tables) (accountId phone : String) : Prop :=
  ∃ b ∈ db.accounts, b.accountId = accountId ∧ b.phoneStubHash = phone

def Node.Told (node : Node) (k agentId : String) : Prop :=
  ∃ primaryPubkey, (k, Answer.registerSuccess agentId primaryPubkey) ∈ node.answers

def Memory.LinksAt (mem : Memory) (i : ℕ) (frame : RegisterRequest) (agentId : String) (preAuth : PreAuth) : Prop :=
  ∃ dkg, mem.attempts[i]? = some ⟨frame, .linking agentId dkg preAuth⟩

/-- **The agent has the operator with this phone**: its profile has the phone and an account of it, if any, and so
has the link of every agent id that it was told. -/
structure Node.OwnOperator (node : Node) (k phone : String) : Prop where
  profile : ∀ p ∈ node.db.profiles, p.kLocalPubkey = k →
    p.phoneStubHash = phone ∧ ∀ a, p.accountId = some a → node.db.AccountOf a phone
  written : ∀ p accountId, Write.profile p accountId ∈ node.mem.writes → p.kLocalPubkey = k →
    p.phoneStubHash = phone ∧ ∀ a, accountId = some a → node.db.AccountOf a phone
  link : ∀ l, l ∈ node.db.links ∨ Write.link l ∈ node.mem.writes → node.Told k l.agentId →
    node.db.AccountOf l.accountId phone

/-! ### The last first round -/

def Node.stashes (node : Node) (k : String) : Event → Option PreAuth
  | .stash i => node.mem.bound[i]?.bind fun b => if b.1 = k then some b.2 else none
  | _ => none

/-- A node, and the operator of the last first round that was let through under a key. -/
structure Watch where
  node : Node := {}
  last : Option PreAuth := none

def Watch.step (cfg : Config) (k : String) (w : Watch) (e : Event) : Watch :=
  ⟨w.node.step cfg e, (w.node.stashes k e).or w.last⟩

def Node.Uses (node : Node) (agentId : String) : Prop :=
  (∃ k, node.Told k agentId) ∨ ∃ i frame preAuth, node.mem.LinksAt i frame agentId preAuth

/-- **The last first round under the key is for the phone** whenever a `dkg_complete` of the key finds its attempt
waiting, or there is nothing to take, also in the request.  Agent ids are drawn anew, and no rows come from peers. -/
def Watch.LastIsOwn (k phone : String) (w : Watch) : Event → Prop
  | .dkgComplete authedPubkey _ agentId _ => ¬ w.node.Uses agentId ∧ (authedPubkey = k →
      ∀ i frame, w.node.mem.pendingDkgComplete k = some i → w.node.mem.attempts[i]? = some ⟨frame, .waiting⟩ →
        (∀ preAuth, w.last = some preAuth → preAuth.phoneStubHash = phone) ∧
          (w.node.mem.pendingPreAuthData k = none → frame.phoneStub = ""))
  | .apply _ => False
  | _ => True

/-! ### What every step keeps -/

/-- What is stashed is from the last first round, and everything that follows from it has its phone.  Each agent id
has one owner. -/
structure Watch.Owned (k phone : String) (w : Watch) : Prop where
  entry : ∀ preAuth, w.node.mem.pendingPreAuthData k = some preAuth → w.last = some preAuth
  linking : ∀ i frame agentId preAuth, w.node.mem.LinksAt i frame agentId preAuth → frame.kLocalPubkey = k →
    preAuth.phoneStubHash = phone
  profile : ∀ p ∈ w.node.db.profiles, p.kLocalPubkey = k →
    p.phoneStubHash = phone ∧ ∀ a, p.accountId = some a → w.node.db.AccountOf a phone
  written : ∀ p accountId, Write.profile p accountId ∈ w.node.mem.writes → p.kLocalPubkey = k →
    p.phoneStubHash = phone ∧ ∀ a, accountId = some a → w.node.db.AccountOf a phone
  told : ∀ p accountId, Write.profile p accountId ∈ w.node.mem.writes → w.node.Told p.kLocalPubkey p.agentId
  owner : ∀ l, l ∈ w.node.db.links ∨ Write.link l ∈ w.node.mem.writes →
    ∃ k', w.node.Told k' l.agentId ∧ (k' = k → w.node.db.AccountOf l.accountId phone)
  one : ∀ k₁ k₂ agentId, w.node.Told k₁ agentId → w.node.Told k₂ agentId → k₁ = k₂
  untold : ∀ i frame agentId preAuth, w.node.mem.LinksAt i frame agentId preAuth → ∀ k', ¬ w.node.Told k' agentId
  apart : ∀ i j frame frame' agentId preAuth preAuth', w.node.mem.LinksAt i frame agentId preAuth →
    w.node.mem.LinksAt j frame' agentId preAuth' → i = j

theorem Tables.AccountOf.mono {db db' : Tables} {accountId phone : String} (h : db.AccountOf accountId phone)
    (hsub : ∀ b ∈ db.accounts, b ∈ db'.accounts) : db'.AccountOf accountId phone := by
  obtain ⟨b, hb, hid, hphone⟩ := h
  exact ⟨b, hsub b hb, hid, hphone⟩

variable {cfg : Config} {k phone : String} {w : Watch}

theorem Watch.Owned.ownOperator (h : w.Owned k phone) : w.node.OwnOperator k phone := by
  refine ⟨h.profile, h.written, fun l hl htold => ?_⟩
  obtain ⟨k', htold', haccount⟩ := h.owner l hl
  exact haccount (h.one _ _ _ htold' htold)

/-! ### Attempts -/

theorem Memory.LinksAt.cases_put {mem : Memory} {i j : ℕ} {frame frame' : RegisterRequest} {progress : Progress}
    {agentId : String} {preAuth : PreAuth} (h : (mem.put i frame progress).LinksAt j frame' agentId preAuth) :
    (mem.LinksAt j frame' agentId preAuth ∧ j ≠ i) ∨
      (j = i ∧ frame' = frame ∧ ∃ dkg, progress = .linking agentId dkg preAuth) := by
  obtain ⟨dkg, hj⟩ := h
  have hset : (mem.attempts.set i ⟨frame, progress⟩)[j]? = some ⟨frame', .linking agentId dkg preAuth⟩ := hj
  rw [List.getElem?_set] at hset
  split at hset
  next heq =>
    split at hset
    · obtain ⟨hframe, hprogress⟩ := Attempt.mk.inj (Option.some.inj hset)
      exact .inr ⟨heq.symm, hframe.symm, dkg, hprogress⟩
    · cases hset
  next hne => exact .inl ⟨⟨dkg, hset⟩, fun hji => hne hji.symm⟩

theorem Memory.LinksAt.of_put {mem : Memory} {i j : ℕ} {frame frame' : RegisterRequest} {progress : Progress}
    {agentId : String} {preAuth : PreAuth} (h : (mem.put i frame progress).LinksAt j frame' agentId preAuth)
    (hdone : ∀ dkg, progress ≠ .linking agentId dkg preAuth) : mem.LinksAt j frame' agentId preAuth ∧ j ≠ i := by
  rcases h.cases_put with hold | ⟨-, -, dkg, hprogress⟩
  · exact hold
  · exact absurd hprogress (hdone dkg)

theorem told_finish {node : Node} {i : ℕ} {frame : RegisterRequest} {answer : Answer}
    (hno : ∀ agentId primaryPubkey, answer ≠ .registerSuccess agentId primaryPubkey) (k' agentId : String) :
    (node.finish i frame answer).Told k' agentId ↔ node.Told k' agentId := by
  constructor
  · rintro ⟨primaryPubkey, htold⟩
    rcases List.mem_append.1 htold with htold | htold
    · exact ⟨primaryPubkey, htold⟩
    · exact absurd (Prod.mk.inj (List.mem_singleton.1 htold)).2.symm (hno agentId primaryPubkey)
  · rintro ⟨primaryPubkey, htold⟩
    exact ⟨primaryPubkey, List.mem_append_left _ htold⟩

/-! ### What every step keeps -/

section

variable (h : w.Owned k phone)

include h

/-- **A step that tells nobody an agent id**, and has no new attempt that waits for an account: a row or a link that
is new comes from a profile under way. -/
theorem Watch.Owned.quiet {w' : Watch}
    (hentry : ∀ preAuth, w'.node.mem.pendingPreAuthData k = some preAuth → w'.last = some preAuth)
    (hattempts : ∀ i frame agentId preAuth, w'.node.mem.LinksAt i frame agentId preAuth →
      w.node.mem.LinksAt i frame agentId preAuth)
    (hprofiles : ∀ p ∈ w'.node.db.profiles, p ∈ w.node.db.profiles ∨
      ∃ q a, Write.profile q a ∈ w.node.mem.writes ∧ p = q.row a)
    (hlinks : ∀ l, l ∈ w'.node.db.links ∨ Write.link l ∈ w'.node.mem.writes →
      (l ∈ w.node.db.links ∨ Write.link l ∈ w.node.mem.writes) ∨
        ∃ q a, Write.profile q (some a) ∈ w.node.mem.writes ∧ l = ⟨q.agentId, a⟩)
    (haccounts : ∀ b ∈ w.node.db.accounts, b ∈ w'.node.db.accounts)
    (hwrites : ∀ p a, Write.profile p a ∈ w'.node.mem.writes → Write.profile p a ∈ w.node.mem.writes)
    (hanswers : ∀ k' agentId, w'.node.Told k' agentId ↔ w.node.Told k' agentId) : w'.Owned k phone := by
  refine ⟨hentry, fun i frame agentId preAuth hi => h.linking i frame agentId preAuth (hattempts _ _ _ _ hi),
    fun p hp hk => ?_, fun p accountId hp hk => ?_, fun p accountId hp => ?_, fun l hl => ?_,
    fun k₁ k₂ agentId h₁ h₂ => ?_, fun i frame agentId preAuth hi k' htold => ?_,
    fun i j frame frame' agentId preAuth preAuth' hi hj => ?_⟩
  · rcases hprofiles p hp with hp | ⟨q, a, hq, rfl⟩
    · obtain ⟨hphone, haccount⟩ := h.profile p hp hk
      exact ⟨hphone, fun a ha => (haccount a ha).mono haccounts⟩
    · obtain ⟨hphone, haccount⟩ := h.written q a hq hk
      exact ⟨hphone, fun a ha => (haccount a ha).mono haccounts⟩
  · obtain ⟨hphone, haccount⟩ := h.written p accountId (hwrites p accountId hp) hk
    exact ⟨hphone, fun a ha => (haccount a ha).mono haccounts⟩
  · exact (hanswers _ _).2 (h.told p accountId (hwrites p accountId hp))
  · rcases hlinks l hl with hl | ⟨q, a, hq, rfl⟩
    · obtain ⟨k', htold, haccount⟩ := h.owner l hl
      exact ⟨k', (hanswers _ _).2 htold, fun hk => (haccount hk).mono haccounts⟩
    · exact ⟨q.kLocalPubkey, (hanswers _ _).2 (h.told q (some a) hq),
        fun hk => ((h.written q (some a) hq hk).2 a rfl).mono haccounts⟩
  · exact h.one _ _ _ ((hanswers _ _).1 h₁) ((hanswers _ _).1 h₂)
  · exact h.untold i frame agentId preAuth (hattempts _ _ _ _ hi) k' ((hanswers _ _).1 htold)
  · exact h.apart i j frame frame' agentId preAuth preAuth' (hattempts _ _ _ _ hi) (hattempts _ _ _ _ hj)

theorem Watch.Owned.still {w' : Watch} (hdb : w'.node.db = w.node.db)
    (hentry : ∀ preAuth, w'.node.mem.pendingPreAuthData k = some preAuth → w'.last = some preAuth)
    (hattempts : ∀ i frame agentId preAuth, w'.node.mem.LinksAt i frame agentId preAuth →
      w.node.mem.LinksAt i frame agentId preAuth)
    (hwrites : ∀ u ∈ w'.node.mem.writes, u ∈ w.node.mem.writes)
    (hanswers : ∀ k' agentId, w'.node.Told k' agentId ↔ w.node.Told k' agentId) : w'.Owned k phone :=
  h.quiet hentry hattempts (fun _ hp => .inl (hdb ▸ hp))
    (fun _ hl => .inl (hl.imp (hdb ▸ ·) (hwrites _))) (fun _ hb => hdb ▸ hb) (fun _ _ hp => hwrites _ hp) hanswers

theorem Watch.Owned.refuse {i : ℕ} {frame : RegisterRequest} {answer : Answer}
    (hno : ∀ agentId primaryPubkey, answer ≠ .registerSuccess agentId primaryPubkey) :
    Watch.Owned k phone ⟨w.node.refuse i frame answer, w.last⟩ := by
  refine h.still rfl (fun preAuth hpreAuth => ?_) (fun j frame' agentId preAuth hj => ?_) (fun _ hu => hu)
    (told_finish hno)
  · have hpending : Function.update w.node.mem.pendingPreAuthData frame.kLocalPubkey none k = some preAuth := hpreAuth
    by_cases hk : k = frame.kLocalPubkey
    · rw [hk, Function.update_self] at hpending
      cases hpending
    · rw [Function.update_of_ne hk] at hpending
      exact h.entry preAuth hpending
  · exact (hj.of_put fun _ hdone => by cases hdone).1

theorem Watch.Owned.opened (frame : RegisterRequest) :
    Watch.Owned k phone ⟨{ w.node with mem := { w.node.mem with
      attempts := w.node.mem.attempts ++ [⟨frame, .waiting⟩] } }, w.last⟩ := by
  refine h.still rfl h.entry (fun j frame' agentId preAuth hj => ?_) (fun _ hu => hu) fun _ _ => Iff.rfl
  obtain ⟨dkg, hj⟩ := hj
  have happend : (w.node.mem.attempts ++ [⟨frame, .waiting⟩])[j]? = some ⟨frame', .linking agentId dkg preAuth⟩ := hj
  rw [List.getElem?_append] at happend
  split at happend
  · exact ⟨dkg, happend⟩
  · cases List.mem_singleton.1 (List.mem_of_getElem? happend)

theorem Watch.Owned.registerRequest (frame : RegisterRequest) (topologyOk : Bool) :
    Watch.Owned k phone ⟨w.node.registerRequest cfg frame topologyOk, w.last⟩ := by
  have hopened := h.opened frame
  unfold Node.registerRequest
  dsimp only
  split
  · exact hopened.refuse fun _ _ hno => by cases hno
  · split
    · exact hopened.refuse fun _ _ hno => by cases hno
    · split
      · exact hopened.still rfl hopened.entry (fun _ _ _ _ hj => hj) (fun _ hu => hu) fun _ _ => Iff.rfl
      · exact hopened.refuse fun _ _ hno => by cases hno

theorem Watch.Owned.dropResolver (key : String) :
    Watch.Owned k phone ⟨{ w.node with mem := { w.node.mem with
      pendingDkgComplete := Function.update w.node.mem.pendingDkgComplete key none } }, w.last⟩ :=
  h.still rfl h.entry (fun _ _ _ _ hj => hj) (fun _ hu => hu) fun _ _ => Iff.rfl

theorem Watch.Owned.timeout (i : ℕ) : Watch.Owned k phone ⟨w.node.timeout i, w.last⟩ := by
  unfold Node.timeout
  split
  next frame hi => exact (h.dropResolver frame.kLocalPubkey).refuse fun _ _ hno => by cases hno
  · exact h

/-- **The client is told an agent id that nobody else was told**, and the profile is written. -/
theorem Watch.Owned.register {i : ℕ} {frame : RegisterRequest} {dkg : DkgComplete}
    {agentId phoneStubHash : String} {accountId : Option String} {now : ℤ}
    (huntold : ∀ k', ¬ w.node.Told k' agentId)
    (honly : ∀ j frame' preAuth, w.node.mem.LinksAt j frame' agentId preAuth → j = i)
    (hphone : frame.kLocalPubkey = k →
      phoneStubHash = phone ∧ ∀ a, accountId = some a → w.node.db.AccountOf a phone) :
    Watch.Owned k phone ⟨w.node.register i frame dkg agentId phoneStubHash accountId now, w.last⟩ := by
  let node' := w.node.register i frame dkg agentId phoneStubHash accountId now
  have htold : ∀ k' id, node'.Told k' id ↔ w.node.Told k' id ∨ (k' = frame.kLocalPubkey ∧ id = agentId) := by
    intro k' id
    constructor
    · rintro ⟨primaryPubkey, hmem⟩
      rcases List.mem_append.1 hmem with hmem | hmem
      · exact .inl ⟨primaryPubkey, hmem⟩
      · obtain ⟨hkey, hanswer⟩ := Prod.mk.inj (List.mem_singleton.1 hmem)
        exact .inr ⟨hkey, (Answer.registerSuccess.inj hanswer).1⟩
    · rintro (⟨primaryPubkey, hmem⟩ | ⟨rfl, rfl⟩)
      · exact ⟨primaryPubkey, List.mem_append_left _ hmem⟩
      · exact ⟨dkg.primaryPubkey, List.mem_append_right _ List.mem_cons_self⟩
  have hattempts : ∀ j frame' id preAuth, node'.mem.LinksAt j frame' id preAuth →
      w.node.mem.LinksAt j frame' id preAuth ∧ j ≠ i := by
    intro j frame' id preAuth hj
    have hput : (w.node.mem.put i frame (.answered (.registerSuccess agentId dkg.primaryPubkey))).LinksAt j frame' id
      preAuth := hj
    exact hput.of_put fun _ hdone => by cases hdone
  have hwritten : ∀ p a, Write.profile p a ∈ node'.mem.writes → Write.profile p a ∈ w.node.mem.writes ∨
      (p.kLocalPubkey = frame.kLocalPubkey ∧ p.agentId = agentId ∧ p.phoneStubHash = phoneStubHash ∧
        a = accountId) := by
    intro p a hp
    rcases List.mem_append.1 hp with hp | hp
    · exact .inl hp
    · obtain ⟨rfl, rfl⟩ := Write.profile.inj (List.mem_singleton.1 hp)
      exact .inr ⟨rfl, rfl, rfl, rfl⟩
  refine ⟨h.entry, fun j frame' id preAuth hj => h.linking j frame' id preAuth (hattempts _ _ _ _ hj).1,
    h.profile, fun p a hp hk => ?_, fun p a hp => ?_,
    fun l hl => ?_, fun k₁ k₂ id h₁ h₂ => ?_, fun j frame' id preAuth hj k' hk' => ?_,
    fun j j' frame₁ frame₂ id preAuth₁ preAuth₂ hj hj' =>
      h.apart j j' frame₁ frame₂ id preAuth₁ preAuth₂ (hattempts _ _ _ _ hj).1 (hattempts _ _ _ _ hj').1⟩
  · rcases hwritten p a hp with hold | ⟨hkey, -, hstub, rfl⟩
    · exact h.written p a hold hk
    · rw [hstub]
      exact hphone (hkey.symm.trans hk)
  · rcases hwritten p a hp with hold | ⟨hkey, hid, -, -⟩
    · exact (htold _ _).2 (.inl (h.told p a hold))
    · exact (htold _ _).2 (.inr ⟨hkey, hid⟩)
  · have hl' : l ∈ w.node.db.links ∨ Write.link l ∈ w.node.mem.writes := by
      refine hl.imp_right fun hl => ?_
      rcases List.mem_append.1 hl with hl | hl
      · exact hl
      · cases List.mem_singleton.1 hl
    obtain ⟨k', hk', haccount⟩ := h.owner l hl'
    exact ⟨k', (htold _ _).2 (.inl hk'), haccount⟩
  · rcases (htold _ _).1 h₁ with hold₁ | ⟨hkey₁, hid⟩
    · rcases (htold _ _).1 h₂ with hold₂ | ⟨-, hid⟩
      · exact h.one _ _ _ hold₁ hold₂
      · exact absurd (hid ▸ hold₁) (huntold k₁)
    · rcases (htold _ _).1 h₂ with hold₂ | ⟨hkey₂, -⟩
      · exact absurd (hid ▸ hold₂) (huntold k₂)
      · exact hkey₁.trans hkey₂.symm
  · obtain ⟨hold, hji⟩ := hattempts _ _ _ _ hj
    rcases (htold _ _).1 hk' with htold' | ⟨-, hid⟩
    · exact h.untold j frame' id preAuth hold k' htold'
    · exact hji (honly j frame' preAuth (hid ▸ hold))

theorem Watch.Owned.dropPreAuth (key : String) :
    Watch.Owned k phone ⟨{ w.node with mem := w.node.mem.dropPreAuth key }, w.last⟩ := by
  refine h.still rfl (fun preAuth hpreAuth => ?_) (fun _ _ _ _ hj => hj) (fun _ hu => hu)
    fun _ _ => Iff.rfl
  have hpending : Function.update w.node.mem.pendingPreAuthData key none k = some preAuth := hpreAuth
  by_cases hk : k = key
  · rw [hk, Function.update_self] at hpending
    cases hpending
  · rw [Function.update_of_ne hk] at hpending
    exact h.entry preAuth hpending

/-- **From `dkg_complete` on.**  The operator is taken from the stash, or there is none and the key is another. -/
theorem Watch.Owned.resume {i : ℕ} {frame : RegisterRequest} {dkg : DkgComplete} {agentId : String}
    {now : ℤ} (hi : w.node.mem.attempts[i]? = some ⟨frame, .waiting⟩) (hfresh : ¬ w.node.Uses agentId)
    (hown : frame.kLocalPubkey = k → (∀ preAuth, w.last = some preAuth → preAuth.phoneStubHash = phone) ∧
      (w.node.mem.pendingPreAuthData k = none → frame.phoneStub = "")) :
    Watch.Owned k phone ⟨w.node.resume cfg i frame dkg agentId now, w.last⟩ := by
  have huntold : ∀ k', ¬ w.node.Told k' agentId := fun k' htold => hfresh (.inl ⟨k', htold⟩)
  have hlinks : ∀ j frame' preAuth, ¬ w.node.mem.LinksAt j frame' agentId preAuth := fun j frame' preAuth hj =>
    hfresh (.inr ⟨j, frame', preAuth, hj⟩)
  have hdrop : Watch.Owned k phone
      ⟨{ w.node with mem := w.node.mem.dropCommitment frame.kLocalPubkey }, w.last⟩ :=
    h.still rfl h.entry (fun _ _ _ _ hj => hj) (fun _ hu => hu) fun _ _ => Iff.rfl
  unfold Node.resume
  dsimp only
  split
  · exact hdrop.refuse fun _ _ hno => by cases hno
  · cases hstash : w.node.mem.pendingPreAuthData frame.kLocalPubkey with
    | none =>
      dsimp only
      split
      · exact hdrop.refuse fun _ _ hno => by cases hno
      next hstub =>
        refine (hdrop.dropPreAuth frame.kLocalPubkey).register huntold
          (fun j frame' preAuth hj => absurd hj (hlinks j frame' preAuth)) fun hk => ?_
        exact absurd ((hown hk).2 (hk ▸ hstash)) hstub
    | some preAuth =>
      have hdropped := hdrop.dropPreAuth frame.kLocalPubkey
      have hput : ∀ {j frame' id preAuth'},
          (w.node.mem.put i frame (.linking agentId dkg preAuth)).LinksAt j frame' id preAuth' →
            (w.node.mem.LinksAt j frame' id preAuth' ∧ j ≠ i) ∨ (j = i ∧ frame' = frame ∧
              ∃ dkg', Progress.linking agentId dkg preAuth = .linking id dkg' preAuth') := fun hj => hj.cases_put
      refine ⟨hdropped.entry, fun j frame' id preAuth' hj hk => ?_,
        h.profile, h.written, h.told, h.owner, h.one,
        fun j frame' id preAuth' hj k' htold => ?_, fun j j' frame₁ frame₂ id preAuth₁ preAuth₂ hj hj' => ?_⟩
      · rcases hput hj with ⟨hold, -⟩ | ⟨-, rfl, dkg', hprogress⟩
        · exact h.linking j frame' id preAuth' hold hk
        · obtain ⟨-, -, rfl⟩ := Progress.linking.inj hprogress
          exact (hown hk).1 preAuth (h.entry preAuth (hk ▸ hstash))
      · rcases hput hj with ⟨hold, -⟩ | ⟨-, -, dkg', hprogress⟩
        · exact h.untold j frame' id preAuth' hold k' htold
        · obtain ⟨hid, -, -⟩ := Progress.linking.inj hprogress
          exact huntold k' (hid ▸ htold)
      · rcases hput hj with ⟨hold, -⟩ | ⟨hji, -, dkg₁, hprogress⟩
        · rcases hput hj' with ⟨hold', -⟩ | ⟨-, -, dkg₂, hprogress'⟩
          · exact h.apart j j' frame₁ frame₂ id preAuth₁ preAuth₂ hold hold'
          · obtain ⟨hid, -, -⟩ := Progress.linking.inj hprogress'
            exact absurd (hid ▸ hold) (hlinks j frame₁ preAuth₁)
        · rcases hput hj' with ⟨hold', -⟩ | ⟨hj'i, -, -⟩
          · obtain ⟨hid, -, -⟩ := Progress.linking.inj hprogress
            exact absurd (hid ▸ hold') (hlinks j' frame₂ preAuth₂)
          · exact hji.trans hj'i.symm

theorem Watch.Owned.dkgComplete (hresolves : w.node.desk.Resolves) {authedPubkey agentId : String}
    {dkg : DkgComplete} {now : ℤ}
    (hown : w.LastIsOwn k phone (.dkgComplete authedPubkey dkg agentId now)) :
    Watch.Owned k phone ⟨w.node.dkgComplete cfg authedPubkey dkg agentId now, w.last⟩ := by
  obtain ⟨hfresh, hlast⟩ := hown
  unfold Node.dkgComplete
  cases hresolver : w.node.mem.pendingDkgComplete authedPubkey with
  | none => exact h
  | some i =>
    dsimp only
    split
    next frame hi =>
      refine (h.dropResolver authedPubkey).resume hi hfresh fun hk => ?_
      obtain ⟨a, ha, hkey⟩ := hresolves authedPubkey i hresolver
      obtain rfl := Option.some.inj (hi.symm.trans ha)
      have hauthed : authedPubkey = k := hkey.symm.trans hk
      exact hlast hauthed i frame (hauthed ▸ hresolver) hi
    · exact h.dropResolver authedPubkey

theorem Watch.Owned.linked (i : ℕ) (drawn : Option String) (now : ℤ) :
    Watch.Owned k phone ⟨w.node.linked i drawn now, w.last⟩ := by
  unfold Node.linked
  split
  next frame agentId dkg preAuth hi =>
    have hlinks : w.node.mem.LinksAt i frame agentId preAuth := ⟨dkg, hi⟩
    have huntold := h.untold i frame agentId preAuth hlinks
    have honly : ∀ j frame' preAuth', w.node.mem.LinksAt j frame' agentId preAuth' → j = i :=
      fun j frame' preAuth' hj => h.apart j i frame' frame agentId preAuth' preAuth hj hlinks
    split
    next db accountId hresolved =>
      obtain ⟨drawn', -, hresolved⟩ := Option.bind_eq_some_iff.1 hresolved
      obtain ⟨⟨b, hb, hid, hphone⟩, -, hprofiles, -, hdblinks⟩ := resolveOrCreateAccount_some hresolved
      have hresolvedOwned : Watch.Owned k phone ⟨{ w.node with db := db }, w.last⟩ :=
        h.quiet h.entry (fun _ _ _ _ hj => hj) (fun p hp => .inl (hprofiles ▸ hp))
          (fun l hl => .inl (hl.imp_left (hdblinks ▸ ·))) (fun b hb => mem_resolveOrCreateAccount hresolved hb)
          (fun _ _ hp => hp) fun _ _ => Iff.rfl
      refine hresolvedOwned.register huntold honly fun hk => ?_
      have hstub := h.linking i frame agentId preAuth hlinks hk
      exact ⟨hstub, fun a ha => ⟨b, hb, hid.trans (Option.some.inj ha), hphone.trans hstub⟩⟩
    · refine h.register huntold honly fun hk => ⟨h.linking i frame agentId preAuth hlinks hk, fun a ha => ?_⟩
      cases ha
  · exact h

/-- **A write lands.** -/
theorem Watch.Owned.land (i : ℕ) : Watch.Owned k phone ⟨w.node.land i, w.last⟩ := by
  unfold Node.land
  cases hi : w.node.mem.writes[i]? with
  | none => exact h
  | some u =>
    have hu : u ∈ w.node.mem.writes := List.mem_of_getElem? hi
    have herase : ∀ v ∈ w.node.mem.writes.eraseIdx i, v ∈ w.node.mem.writes := fun v hv => List.mem_of_mem_eraseIdx hv
    have hlinkErase : ∀ l a p, Write.profile p (some a) ∈ w.node.mem.writes →
        Write.link l ∈ w.node.mem.writes.eraseIdx i ++ [.link ⟨p.agentId, a⟩] →
          Write.link l ∈ w.node.mem.writes ∨
            ∃ q a, Write.profile q (some a) ∈ w.node.mem.writes ∧ l = ⟨q.agentId, a⟩ := by
      intro l a p hp hl
      rcases List.mem_append.1 hl with hl | hl
      · exact .inl (herase _ hl)
      · exact .inr ⟨p, a, hp, Write.link.inj (List.mem_singleton.1 hl)⟩
    have hprofileErase : ∀ q b l, Write.profile q b ∈ w.node.mem.writes.eraseIdx i ++ [Write.link l] →
        Write.profile q b ∈ w.node.mem.writes := by
      intro q b l hq
      rcases List.mem_append.1 hq with hq | hq
      · exact herase _ hq
      · cases List.mem_singleton.1 hq
    cases u with
    | link l =>
      refine h.quiet h.entry (fun _ _ _ _ hj => hj) (fun p hp => .inl ?_) (fun l' hl' => .inl ?_)
        (fun b hb => ?_) (fun _ _ hp => herase _ hp) fun _ _ => Iff.rfl
      · exact insertLink_profiles w.node.db l ▸ hp
      · rcases hl' with hl' | hl'
        · rcases mem_insertLink hl' with hl' | rfl
          · exact .inl hl'
          · exact .inr hu
        · exact .inr (herase _ hl')
      · exact (insertLink_accounts w.node.db l).symm ▸ hb
    | profile p accountId =>
      cases accountId with
      | none =>
        refine h.quiet h.entry (fun _ _ _ _ hj => hj) (fun q hq => ?_) (fun l hl => .inl ?_)
          (fun b hb => ?_) (fun _ _ hq => herase _ hq) fun _ _ => Iff.rfl
        · exact (mem_insertProfile.1 hq).imp_right fun hq => ⟨p, none, hu, hq.2⟩
        · exact hl.imp (insertProfile_links w.node.db (p.row none) ▸ ·) (herase _)
        · exact (insertProfile_accounts w.node.db (p.row none)).symm ▸ hb
      | some a =>
        dsimp only [Node.execute]
        split
        · refine h.quiet h.entry (fun _ _ _ _ hj => hj) (fun q hq => .inl hq) (fun l hl => ?_)
            (fun b hb => hb) (fun q b hq => hprofileErase q b _ hq) fun _ _ => Iff.rfl
          rcases hl with hl | hl
          · exact .inl (.inl hl)
          · exact (hlinkErase l a p hu hl).imp_left .inr
        · split
          · refine h.quiet h.entry (fun _ _ _ _ hj => hj) (fun q hq => ?_) (fun l hl => ?_)
              (fun b hb => ?_) (fun q b hq => hprofileErase q b _ hq) fun _ _ => Iff.rfl
            · exact (mem_insertProfile.1 hq).imp_right fun hq => ⟨p, some a, hu, hq.2⟩
            · rcases hl with hl | hl
              · exact .inl (.inl (insertProfile_links w.node.db (p.row (some a)) ▸ hl))
              · exact (hlinkErase l a p hu hl).imp_left .inr
            · exact (insertProfile_accounts w.node.db (p.row (some a))).symm ▸ hb
          · exact h.still rfl h.entry (fun _ _ _ _ hj => hj) herase fun _ _ => Iff.rfl

theorem Watch.Owned.stash (i : ℕ) :
    Watch.Owned k phone ⟨w.node.stash i, (w.node.stashes k (.stash i)).or w.last⟩ := by
  have hstashes : w.node.stashes k (.stash i) =
      w.node.mem.bound[i]?.bind fun b => if b.1 = k then some b.2 else none := rfl
  rw [hstashes]
  unfold Node.stash
  cases w.node.mem.bound[i]? with
  | none => exact h
  | some b =>
    obtain ⟨key, preAuth⟩ := b
    dsimp only [Option.bind_some]
    refine h.still rfl (fun preAuth' hpreAuth => ?_) (fun _ _ _ _ hj => hj) (fun _ hu => hu)
      fun _ _ => Iff.rfl
    have hpending : Function.update w.node.mem.pendingPreAuthData key (some preAuth) k = some preAuth' := hpreAuth
    dsimp only
    by_cases hk : key = k
    · rw [hk, Function.update_self] at hpending
      rw [if_pos hk, hpending]
      rfl
    · rw [Function.update_of_ne (Ne.symm hk)] at hpending
      rw [if_neg hk, Option.none_or]
      exact h.entry preAuth' hpending

theorem Watch.Owned.restart : Watch.Owned k phone ⟨w.node.restart cfg, w.last⟩ := by
  obtain ⟨hpending, -, -, hattempts, -, hwrites⟩ := Memory.load_idle cfg w.node.db
  refine h.still rfl (fun preAuth hpreAuth => ?_) (fun i frame agentId preAuth hi => ?_)
    (fun u hu => ?_) fun _ _ => Iff.rfl
  · have hnone : (Memory.load cfg w.node.db).pendingPreAuthData k = some preAuth := hpreAuth
    rw [hpending] at hnone
    cases hnone
  · obtain ⟨dkg, hi⟩ := hi
    have hnil : (Memory.load cfg w.node.db).attempts[i]? = some ⟨frame, .linking agentId dkg preAuth⟩ := hi
    rw [hattempts] at hnil
    cases hnil
  · have hnil : u ∈ (Memory.load cfg w.node.db).writes := hu
    rw [hwrites] at hnil
    cases hnil

/-- **One step.** -/
theorem Watch.Owned.step (hresolves : w.node.desk.Resolves) {e : Event} (hown : w.LastIsOwn k phone e) :
    (Watch.step cfg k w e).Owned k phone := by
  cases e with
  | round1 agentPubkey c =>
    show Watch.Owned k phone ⟨w.node.round1 agentPubkey c, w.last⟩
    unfold Node.round1
    cases hbind : w.node.db.bindNonce c.nonce agentPubkey with
    | mk db bound =>
      cases bound with
      | false => exact h
      | true =>
        have hprofiles := hbind ▸ bindNonce_profiles w.node.db c.nonce agentPubkey
        have hlinks := hbind ▸ bindNonce_links w.node.db c.nonce agentPubkey
        have haccounts := hbind ▸ bindNonce_accounts w.node.db c.nonce agentPubkey
        exact h.quiet h.entry (fun _ _ _ _ hj => hj) (fun _ hp => .inl (hprofiles ▸ hp))
          (fun _ hl => .inl (hl.imp_left (hlinks ▸ ·))) (fun _ hb => haccounts.symm ▸ hb) (fun _ _ hp => hp)
          fun _ _ => Iff.rfl
  | stash i => exact h.stash i
  | round3 agentPubkey c =>
    exact h.still rfl h.entry (fun _ _ _ _ hj => hj) (fun _ hu => hu) fun _ _ => Iff.rfl
  | registerRequest frame topologyOk => exact h.registerRequest frame topologyOk
  | timeout i => exact h.timeout i
  | dkgComplete authedPubkey dkg agentId now => exact h.dkgComplete hresolves hown
  | linked i drawn now => exact h.linked i drawn now
  | land i => exact h.land i
  | apply row => exact hown.elim
  | readThrough pubkey =>
    show Watch.Owned k phone ⟨w.node.readThrough cfg pubkey, w.last⟩
    unfold Node.readThrough
    split
    · exact h
    · split
      · exact h
      · exact h.still rfl h.entry (fun _ _ _ _ hj => hj) (fun _ hu => hu) fun _ _ => Iff.rfl
  | revoke authedPubkey r =>
    show Watch.Owned k phone ⟨w.node.revoke authedPubkey r, w.last⟩
    unfold Node.revoke
    cases w.node.mem.getProfile authedPubkey with
    | none => exact h
    | some p =>
      dsimp only
      split
      · exact h
      · exact h.quiet h.entry (fun _ _ _ _ hj => hj)
          (fun _ hp => .inl (insertRevocation_profiles w.node.db r ▸ hp))
          (fun _ hl => .inl (hl.imp_left (insertRevocation_links w.node.db r ▸ ·)))
          (fun _ hb => (insertRevocation_accounts w.node.db r).symm ▸ hb) (fun _ _ hp => hp) fun _ _ => Iff.rfl
  | suspend s =>
    exact h.quiet h.entry (fun _ _ _ _ hj => hj) (fun _ hp => .inl hp) (fun _ hl => .inl hl)
      (fun _ hb => hb) (fun _ _ hp => hp) fun _ _ => Iff.rfl
  | restart => exact h.restart

end

/-! ### Runs -/

theorem Watch.owned_start : Watch.Owned k phone {} :=
  ⟨fun _ h => (by cases h), fun _ _ _ _ h => (by obtain ⟨_, h⟩ := h; cases h),
    fun _ h => absurd h List.not_mem_nil, fun _ _ h => absurd h List.not_mem_nil,
    fun _ _ h => absurd h List.not_mem_nil, fun _ h => h.elim (absurd · List.not_mem_nil) (absurd · List.not_mem_nil),
    fun _ _ _ h => (by obtain ⟨_, h⟩ := h; cases h), fun _ _ _ _ h => (by obtain ⟨_, h⟩ := h; cases h),
    fun _ _ _ _ _ _ _ h => (by obtain ⟨_, h⟩ := h; cases h)⟩

theorem Watch.node_foldl (k : String) (events : List Event) (w : Watch) :
    (events.foldl (Watch.step cfg k) w).node = events.foldl (Node.step cfg) w.node := by
  induction events generalizing w with
  | nil => rfl
  | cons e rest ih => exact ih (Watch.step cfg k w e)

/-- **An agent is linked to its own operator.**  If the last first round that was let through under the key is for
the phone whenever a `dkg_complete` of the key finds its attempt waiting, agent ids are drawn anew and no rows come
from peers, then at all times the profile of the key has the phone, and the account and the link of it are of the
phone. -/
theorem ownOperator_run (cfg : Config) (k phone : String) (events : List Event)
    (hguard : Guarded (Watch.step cfg k) (Watch.LastIsOwn k phone) {} events) (m : ℕ) :
    ((events.take m).foldl (Node.step cfg) {}).OwnOperator k phone := by
  have howned := Guarded.invariant (P := fun w : Watch => w.Owned k phone ∧ w.node.desk.Resolves)
    (fun _ _ h hown => ⟨h.1.step h.2 hown, h.2.moves (step_moves _)⟩) ⟨Watch.owned_start, nofun⟩ hguard m
  have hnode : ((events.take m).foldl (Watch.step cfg k) {}).node = (events.take m).foldl (Node.step cfg) {} :=
    Watch.node_foldl k (events.take m) {}
  exact hnode ▸ howned.1.ownOperator

/-! ### A registration alone, and one with a first round of somebody else -/

def tokenConfig : Config := ⟨true, id⟩

/-- The capability of the operator is let through. -/
def ownFirstRound : List Event := [.round1 "K" ⟨"nonce", "own", none⟩, .stash 0]

/-- Somebody who does not have the key names it, with a capability of another phone. -/
def foreignFirstRound : List Event := [.round1 "K" ⟨"other", "foreign", none⟩, .stash 0]

/-- The request, the frames given, and everything that follows. -/
def registration (frames : List Event) : List Event :=
  .registerRequest ⟨"K", "", "ml-dsa"⟩ true :: frames ++
    [.dkgComplete "K" ⟨"P", "binding"⟩ "a" 0, .linked 0 (some "account") 0, .land 0, .land 0]

def operatorRow (phone : String) : ProfileRow :=
  ⟨"K", "P", "ml-dsa", phone, 0, some "account", some "a", some "binding"⟩

theorem ownOperator_alone : ((registration ownFirstRound).foldl (Node.step tokenConfig) {}).answers =
      [("K", .registerSuccess "a" "P")] ∧
    ((registration ownFirstRound).foldl (Node.step tokenConfig) {}).db.profiles = [operatorRow "own"] ∧
    ((registration ownFirstRound).foldl (Node.step tokenConfig) {}).OwnOperator "K" "own" := by
  have hguard : Guarded (Watch.step tokenConfig "K") (Watch.LastIsOwn "K" "own") {}
      (registration ownFirstRound) := by
    refine ⟨trivial, trivial, trivial, ⟨?_, fun _ i frame hi ha => ⟨fun preAuth hlast => ?_, fun hnone => ?_⟩⟩,
      trivial, trivial, trivial, trivial⟩
    · rintro (⟨k, primaryPubkey, htold⟩ | ⟨i, frame, preAuth, dkg, hi⟩)
      · cases htold
      · obtain rfl := Nat.lt_one_iff.1 (List.getElem?_eq_some_iff.1 hi).1
        cases hi
    · obtain rfl := Option.some.inj hlast
      rfl
    · cases hnone
  refine ⟨by decide, by decide, ?_⟩
  have hrun := ownOperator_run tokenConfig "K" "own" (registration ownFirstRound) hguard 7
  exact hrun

/-- **The agent gets the operator of somebody else.** -/
theorem ownOperator_foreign :
    ((registration (ownFirstRound ++ foreignFirstRound)).foldl (Node.step tokenConfig) {}).answers =
      [("K", .registerSuccess "a" "P")] ∧
    ¬ ((registration (ownFirstRound ++ foreignFirstRound)).foldl (Node.step tokenConfig) {}).OwnOperator
      "K" "own" := by
  refine ⟨by decide, fun h => ?_⟩
  have hrow : operatorRow "foreign" ∈
      ((registration (ownFirstRound ++ foreignFirstRound)).foldl (Node.step tokenConfig) {}).db.profiles := by
    decide
  exact absurd (h.profile _ hrow rfl).1 (by decide)

end Cello.Directory.Register
