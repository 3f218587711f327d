import Cello.Directory.Primary.Transfer
import Cello.Lib.GuardedRun

/-!
# The chain of releases

Who holds an agent is to change by releases alone, each by the holder of its time: a transfer that is accepted goes
over a row of the daemon that released it, and a release moves the row once.  The row is read before the nonce is
bound and put after the release is verified, and a nonce may come again from the same daemon.  So a transfer goes
over what another has put meanwhile, and a release that is presented again once the holder has come back moves it
again.

`oneChain_of_orderly` is for runs in which neither happens: no other transfer of the agent is put between a request's
read and its put, and no request whose release has been put finds the row as it wants it.
-/

namespace Cello.Directory.Primary

open Lib

/-! ### What is wanted of the changes -/

def Change.Moves (c : Change) : Prop := c.before ≠ some c.release.newDaemonId

instance (c : Change) : Decidable c.Moves := inferInstanceAs (Decidable (_ ≠ _))

structure OneChain (changes : List Change) : Prop where
  /-- Every accepted transfer goes over the row of the daemon that released. -/
  released : ∀ c ∈ changes, c.before = some c.release.oldDaemonId
  /-- A release moves the holder at most once. -/
  once : ∀ r, changes.countP (fun c => decide (c.release = r ∧ c.Moves)) ≤ 1

def IsChain : Option String → List Release → Prop
  | _, [] => True
  | holder, r :: rest => holder = some r.oldDaemonId ∧ IsChain (some r.newDaemonId) rest

def heldAfter (key : String) (holder : Option String) (changes : List Change) : Option String :=
  changes.foldl (fun h c => if c.release.kLocalPubkey = key then some c.release.newDaemonId else h) holder

theorem heldAfter_concat (key : String) (holder : Option String) (changes : List Change) (c : Change) :
    heldAfter key holder (changes ++ [c]) =
      if c.release.kLocalPubkey = key then some c.release.newDaemonId else heldAfter key holder changes := by
  rw [heldAfter, List.foldl_append]
  rfl

def GoesOver : (String → Option String) → List Change → Prop
  | _, [] => True
  | table, c :: rest =>
    c.before = table c.release.kLocalPubkey ∧
      GoesOver (Function.update table c.release.kLocalPubkey (some c.release.newDaemonId)) rest

theorem heldAfter_update (key : String) (table : String → Option String) (c : Change) (changes : List Change) :
    heldAfter key (Function.update table c.release.kLocalPubkey (some c.release.newDaemonId) key) changes =
      heldAfter key (table key) (c :: changes) := by
  rw [heldAfter, heldAfter, List.foldl_cons]
  by_cases hkey : c.release.kLocalPubkey = key
  · subst hkey
    rw [Function.update_self, if_pos rfl]
  · rw [Function.update_of_ne (Ne.symm hkey), if_neg hkey]

theorem goesOver_concat {table : String → Option String} {changes : List Change} {c : Change} :
    GoesOver table (changes ++ [c]) ↔ GoesOver table changes ∧
      c.before = heldAfter c.release.kLocalPubkey (table c.release.kLocalPubkey) changes := by
  induction changes generalizing table with
  | nil => exact ⟨fun h => ⟨trivial, h.1⟩, fun h => ⟨h.2, trivial⟩⟩
  | cons c' rest ih =>
    show (_ ∧ GoesOver _ (rest ++ [c])) ↔ _
    rw [ih, heldAfter_update]
    exact ⟨fun h => ⟨⟨h.1, h.2.1⟩, h.2.2⟩, fun h => ⟨h.1.1, h.1.2, h.2⟩⟩

theorem OneChain.isChain {table : String → Option String} {changes : List Change} (h : OneChain changes)
    (hover : GoesOver table changes) (key : String) :
    IsChain (table key)
      ((changes.filter fun c => decide (c.release.kLocalPubkey = key)).map Change.release) := by
  have hreleased := h.released
  clear h
  induction changes generalizing table with
  | nil => exact trivial
  | cons c rest ih =>
    have hrest := ih hover.2 fun c' hc' => hreleased c' (List.mem_cons_of_mem _ hc')
    by_cases hkey : c.release.kLocalPubkey = key
    · subst hkey
      rw [Function.update_self] at hrest
      rw [List.filter_cons_of_pos (by simp)]
      exact ⟨hover.1.symm.trans (hreleased c List.mem_cons_self), hrest⟩
    · rw [Function.update_of_ne (Ne.symm hkey)] at hrest
      rwa [List.filter_cons_of_neg (by simpa using hkey)]

/-- **What a chain goes on with**: a release of the holder that is new, or one that keeps the holder. -/
theorem oneChain_concat {changes : List Change} {c : Change} (h : OneChain changes) :
    OneChain (changes ++ [c]) ↔ c.before = some c.release.oldDaemonId ∧
      (c.release.oldDaemonId = c.release.newDaemonId ∨ ∀ c' ∈ changes, c'.release ≠ c.release) := by
  have hcount : ∀ r, (changes ++ [c]).countP (fun c => decide (c.release = r ∧ c.Moves)) =
      changes.countP (fun c => decide (c.release = r ∧ c.Moves)) + if c.release = r ∧ c.Moves then 1 else 0 := by
    intro r
    rw [List.countP_append, List.countP_singleton]
    simp only [decide_eq_true_eq]
  constructor
  · intro hnext
    have hbefore := hnext.released c (List.mem_append_right _ List.mem_cons_self)
    refine ⟨hbefore, or_iff_not_imp_left.2 fun hne c' hc' hrelease => ?_⟩
    -- both changes of the release move the holder
    have hmoves : ∀ c'' ∈ changes ++ [c], c''.release = c.release → c''.Moves := by
      intro c'' hc'' heq hno
      have hold := hnext.released c'' hc''
      rw [heq] at hold hno
      exact hne (Option.some.inj (hold.symm.trans hno))
    have hpos : 0 < changes.countP (fun c'' => decide (c''.release = c.release ∧ c''.Moves)) :=
      List.countP_pos_iff.2 ⟨c', hc', decide_eq_true ⟨hrelease, hmoves c' (List.mem_append_left _ hc') hrelease⟩⟩
    have honce := hnext.once c.release
    rw [hcount, if_pos ⟨rfl, hmoves c (List.mem_append_right _ List.mem_cons_self) rfl⟩] at honce
    omega
  · rintro ⟨hbefore, hfresh⟩
    constructor
    · intro c' hc'
      rcases List.mem_append.1 hc' with hc' | hc'
      · exact h.released c' hc'
      · rw [List.mem_singleton.1 hc']
        exact hbefore
    · intro r
      rw [hcount]
      split
      next hmoves =>
        obtain ⟨rfl, hmoves⟩ := hmoves
        have hnew : ∀ c' ∈ changes, c'.release ≠ c.release :=
          hfresh.resolve_left fun heq => hmoves (hbefore.trans (congrArg some heq))
        have hzero : changes.countP (fun c' => decide (c'.release = c.release ∧ c'.Moves)) = 0 := by
          rw [List.countP_eq_zero]
          intro c' hc' hboth
          exact hnew c' hc' (of_decide_eq_true hboth).1
        omega
      next => exact h.once r

/-! ### What requests have read -/

variable {cfg : Config} {node : Node} {e : Event}

def Follows (node : Node) (call : Waiting) : Prop :=
  call.seen ≤ node.changes.length ∧
    heldAfter call.frame.kLocalPubkey (some call.frame.oldDaemonId) (node.changes.drop call.seen) =
      node.primaryHolder call.frame.kLocalPubkey

/-- What holds in every run from a table. -/
structure Kept (table : String → Option String) (node : Node) : Prop where
  goes : GoesOver table node.changes
  holder : ∀ key, node.primaryHolder key = heldAfter key (table key) node.changes
  follows : ∀ call ∈ node.waiting, call.stage ≠ .getPrimaryHolder → Follows node call

/-- What one step does to the table: nothing, or a request whose release is verified puts its row. -/
inductive Node.Puts (node : Node) (e : Event) (node' : Node) : Prop where
  | nothing (hputs : ∀ i pk call, e = .answered i pk → node.waiting[i]? = some call →
        call.stage ≠ .upsertPrimaryHolder)
      (hholder : node'.primaryHolder = node.primaryHolder) (hchanges : node'.changes = node.changes)
      (hwaiting : ∀ call ∈ node'.waiting, call ∈ node.waiting ∨ call.stage = .getPrimaryHolder ∨
        (call.seen = node.changes.length ∧
          node.primaryHolder call.frame.kLocalPubkey = some call.frame.oldDaemonId ∧
          ∃ i pk c, e = .answered i pk ∧ node.waiting[i]? = some c ∧ c.stage = .getPrimaryHolder ∧
            c.frame = call.frame) ∨
        ∃ c ∈ node.waiting, c.stage ≠ .getPrimaryHolder ∧ c.frame = call.frame ∧ c.seen = call.seen)
  | row (i : ℕ) (pk : Option Bytes) (call : Waiting) (he : e = .answered i pk)
      (hcall : node.waiting[i]? = some call) (hstage : call.stage = .upsertPrimaryHolder)
      (hholder : node'.primaryHolder = (node.upsertPrimaryHolder call.frame.release).primaryHolder)
      (hchanges : node'.changes = (node.upsertPrimaryHolder call.frame.release).changes)
      (hwaiting : ∀ c ∈ node'.waiting, c ∈ node.waiting)

theorem mem_await {i : ℕ} {call call' : Waiting} (h : call' ∈ (node.await i call).waiting) :
    call' = call ∨ call' ∈ node.waiting := (List.mem_or_eq_of_mem_set h).symm

theorem mem_erase {i : ℕ} {call : Waiting} (h : call ∈ node.waiting.eraseIdx i) : call ∈ node.waiting :=
  List.mem_of_mem_eraseIdx h

theorem resume_puts {i : ℕ} {pk : Option Bytes} {call : Waiting} (hcall : node.waiting[i]? = some call) :
    node.Puts (.answered i pk) (node.resume cfg i call pk) := by
  have hmem : call ∈ node.waiting := List.mem_of_getElem? hcall
  have hputs : call.stage ≠ .upsertPrimaryHolder → ∀ j pk' call', Event.answered i pk = .answered j pk' →
      node.waiting[j]? = some call' → call'.stage ≠ .upsertPrimaryHolder := by
    rintro hstage j pk' call' heq hcall'
    obtain ⟨rfl, -⟩ := Event.answered.inj heq
    obtain rfl := Option.some.inj (hcall.symm.trans hcall')
    exact hstage
  have hfinish : ∀ reply, call.stage ≠ .upsertPrimaryHolder →
      node.Puts (.answered i pk) (node.finish i call.frame reply) := fun reply hstage =>
    .nothing (hputs hstage) rfl rfl fun c hc => .inl (mem_erase hc)
  have hgoes : ∀ bindings stage, call.stage ≠ .upsertPrimaryHolder → call.stage ≠ .getPrimaryHolder →
      node.Puts (.answered i pk)
        ({ node with nonceBindings := bindings }.await i { call with stage := stage }) := by
    intro bindings stage hstage hread
    refine .nothing (hputs hstage) rfl rfl fun c hc => ?_
    rcases mem_await hc with rfl | hc
    · exact .inr (.inr (.inr ⟨call, hmem, hread, rfl, rfl⟩))
    · exact .inl hc
  unfold Node.resume
  dsimp only
  cases hstage : call.stage with
  | getPrimaryHolder =>
    dsimp only
    split
    next hrow =>
      refine .nothing (hputs (by rw [hstage]; nofun)) rfl rfl fun c hc => ?_
      rcases mem_await hc with rfl | hc
      · exact .inr (.inr (.inl ⟨rfl, hrow, i, pk, call, rfl, hcall, hstage, rfl⟩))
      · exact .inl hc
    next => exact hfinish _ (by rw [hstage]; nofun)
  | bindNonce =>
    dsimp only
    split
    · exact hgoes _ _ (by rw [hstage]; nofun) (by rw [hstage]; nofun)
    · exact hgoes node.nonceBindings _ (by rw [hstage]; nofun) (by rw [hstage]; nofun)
  | boundNonce =>
    dsimp only
    split
    · exact hgoes node.nonceBindings _ (by rw [hstage]; nofun) (by rw [hstage]; nofun)
    · exact hfinish _ (by rw [hstage]; nofun)
  | resolvePrimaryPubkey =>
    dsimp only
    split
    · exact hfinish _ (by rw [hstage]; nofun)
    · split
      · exact hgoes node.nonceBindings _ (by rw [hstage]; nofun) (by rw [hstage]; nofun)
      · exact hfinish _ (by rw [hstage]; nofun)
  | upsertPrimaryHolder => exact .row i pk call rfl hcall hstage rfl rfl fun c hc => mem_erase hc

/-- **What a step does to the table.** -/
theorem step_puts (node : Node) (e : Event) : node.Puts e (node.step cfg e) := by
  cases e with
  | request authedPubkey frame now =>
    unfold Node.step Node.processPrimaryTransferRequest
    have hputs : ∀ i pk call, Event.request authedPubkey frame now = .answered i pk →
        node.waiting[i]? = some call → call.stage ≠ .upsertPrimaryHolder := by
      intro i pk call he
      cases he
    dsimp only
    split
    · exact .nothing hputs rfl rfl fun c hc => .inl hc
    · split
      · exact .nothing hputs rfl rfl fun c hc => .inl hc
      · split
        · refine .nothing hputs rfl rfl fun c hc => ?_
          rcases List.mem_append.1 hc with hc | hc
          · exact .inl hc
          · rw [List.mem_singleton.1 hc]
            exact .inr (.inl rfl)
        · exact .nothing hputs rfl rfl fun c hc => .inl hc
  | answered i pk =>
    cases hcall : node.waiting[i]? with
    | none =>
      have hsame : node.step cfg (.answered i pk) = node := by simp only [Node.step, hcall]
      rw [hsame]
      refine .nothing ?_ rfl rfl fun c hc => .inl hc
      rintro j pk' call' heq hcall'
      obtain ⟨rfl, -⟩ := Event.answered.inj heq
      rw [hcall] at hcall'
      cases hcall'
    | some call =>
      have hresume : node.step cfg (.answered i pk) = node.resume cfg i call pk := by simp only [Node.step, hcall]
      rw [hresume]
      exact resume_puts hcall
  | failed i =>
    unfold Node.step
    dsimp only
    split
    · exact .nothing (by nofun) rfl rfl fun c hc => .inl hc
    · unfold Node.fail
      split
      · exact .nothing (by nofun) rfl rfl fun c hc => .inl (mem_erase hc)
      · exact .nothing (by nofun) rfl rfl fun c hc => .inl (mem_erase hc)
  | restart => exact .nothing (by nofun) rfl rfl (by nofun)

theorem Kept.step {table : String → Option String} (h : Kept table node) : Kept table (node.step cfg e) := by
  have hputs : node.Puts e (node.step cfg e) := step_puts node e
  cases hputs with
  | nothing _ hholder hchanges hwaiting =>
    refine ⟨?_, fun key => ?_, fun call hcall hstage => ?_⟩
    · rw [hchanges]
      exact h.goes
    · rw [hholder, hchanges]
      exact h.holder key
    · show call.seen ≤ (node.step cfg e).changes.length ∧ _
      rw [hholder, hchanges]
      rcases hwaiting call hcall with hold | hnew | ⟨hseen, hrow, -⟩ | ⟨c, hc, hread, hframe, hseen⟩
      · exact h.follows call hold hstage
      · exact absurd hnew hstage
      · rw [hseen, List.drop_length, hrow]
        exact ⟨le_rfl, rfl⟩
      · rw [← hframe, ← hseen]
        exact h.follows c hc hread
  | row i pk call he hcall hput hholder hchanges hwaiting =>
    have happend : (node.step cfg e).changes =
        node.changes ++ [⟨call.frame.release, node.primaryHolder call.frame.kLocalPubkey⟩] := hchanges
    refine ⟨?_, fun key => ?_, fun c hc hstage => ?_⟩
    · rw [happend, goesOver_concat]
      exact ⟨h.goes, h.holder _⟩
    · rw [hholder, happend, heldAfter_concat]
      show Function.update node.primaryHolder call.frame.kLocalPubkey _ key =
        if call.frame.kLocalPubkey = key then _ else _
      by_cases hkey : call.frame.kLocalPubkey = key
      · subst hkey
        rw [Function.update_self, if_pos rfl]
      · rw [Function.update_of_ne (Ne.symm hkey), if_neg hkey]
        exact h.holder key
    · obtain ⟨hle, hrow⟩ := h.follows c (hwaiting c hc) hstage
      show c.seen ≤ (node.step cfg e).changes.length ∧ _
      rw [hholder, happend, List.length_append, List.drop_append_of_le_length hle, heldAfter_concat, hrow]
      refine ⟨by omega, ?_⟩
      show (if call.frame.kLocalPubkey = c.frame.kLocalPubkey then _ else _) =
        Function.update node.primaryHolder call.frame.kLocalPubkey _ c.frame.kLocalPubkey
      by_cases hkey : call.frame.kLocalPubkey = c.frame.kLocalPubkey
      · rw [if_pos hkey, ← hkey, Function.update_self]
      · rw [if_neg hkey, Function.update_of_ne (Ne.symm hkey)]

/-! ### Orderly runs -/

/-- **The condition on the schedule.**  A request that reads the row of its old daemon presents a release that has not
been put, unless it moves nothing; and between its read and its put no other transfer of the agent is put. -/
def Node.Orderly (node : Node) : Event → Prop
  | .answered i _ => ∀ call, node.waiting[i]? = some call →
      (call.stage = .getPrimaryHolder →
        node.primaryHolder call.frame.kLocalPubkey = some call.frame.oldDaemonId →
          call.frame.oldDaemonId = call.frame.newDaemonId ∨ ∀ c ∈ node.changes, c.release ≠ call.frame.release) ∧
      (call.stage = .upsertPrimaryHolder →
        ∀ c ∈ node.changes.drop call.seen, c.release.kLocalPubkey ≠ call.frame.kLocalPubkey)
  | _ => True

def Fresh (node : Node) (call : Waiting) : Prop :=
  call.seen ≤ node.changes.length ∧
    (call.frame.oldDaemonId = call.frame.newDaemonId ∨
      ∀ c ∈ node.changes.take call.seen, c.release ≠ call.frame.release)

theorem heldAfter_of_forall {key : String} {holder : Option String} {changes : List Change}
    (h : ∀ c ∈ changes, c.release.kLocalPubkey ≠ key) : heldAfter key holder changes = holder := by
  induction changes generalizing holder with
  | nil => rfl
  | cons c rest ih =>
    rw [heldAfter, List.foldl_cons, if_neg (h c List.mem_cons_self)]
    exact ih fun c' hc' => h c' (List.mem_cons_of_mem _ hc')

theorem fresh_step (h : ∀ call ∈ node.waiting, call.stage ≠ .getPrimaryHolder → Fresh node call)
    (horderly : node.Orderly e) :
    ∀ call ∈ (node.step cfg e).waiting, call.stage ≠ .getPrimaryHolder → Fresh (node.step cfg e) call := by
  have hputs : node.Puts e (node.step cfg e) := step_puts node e
  intro call hcall hstage
  unfold Fresh
  cases hputs with
  | nothing _ _ hchanges hwaiting =>
    rw [hchanges]
    rcases hwaiting call hcall with hold | hnew | ⟨hseen, hrow, i, pk, c, rfl, hc, hread, hframe⟩ |
      ⟨c, hc, hread, hframe, hseen⟩
    · exact h call hold hstage
    · exact absurd hnew hstage
    · have hfresh := (horderly c hc).1 hread
      rw [hframe] at hfresh
      rw [hseen, List.take_length]
      exact ⟨le_rfl, hfresh hrow⟩
    · rw [← hframe, ← hseen]
      exact h c hc hread
  | row i pk c he hc hput hholder hchanges hwaiting =>
    obtain ⟨hle, hfresh⟩ := h call (hwaiting call hcall) hstage
    have happend : (node.step cfg e).changes =
        node.changes ++ [⟨c.frame.release, node.primaryHolder c.frame.kLocalPubkey⟩] := hchanges
    rw [happend, List.take_append_of_le_length hle, List.length_append]
    exact ⟨hle.trans (Nat.le_add_right _ _), hfresh⟩

theorem oneChain_step {table : String → Option String} (hkept : Kept table node) (h : OneChain node.changes)
    (hfresh : ∀ call ∈ node.waiting, call.stage ≠ .getPrimaryHolder → Fresh node call) (horderly : node.Orderly e) :
    OneChain (node.step cfg e).changes := by
  have hputs : node.Puts e (node.step cfg e) := step_puts node e
  cases hputs with
  | nothing _ _ hchanges _ =>
    rw [hchanges]
    exact h
  | row i pk call he hcall hput hholder hchanges _ =>
    subst he
    have happend : (node.step cfg (.answered i pk)).changes =
        node.changes ++ [⟨call.frame.release, node.primaryHolder call.frame.kLocalPubkey⟩] := hchanges
    have hmem : call ∈ node.waiting := List.mem_of_getElem? hcall
    have hread : call.stage ≠ .getPrimaryHolder := by
      rw [hput]
      nofun
    have hbetween := (horderly call hcall).2 hput
    have hrow := (hkept.follows call hmem hread).2
    rw [heldAfter_of_forall hbetween] at hrow
    rw [happend, oneChain_concat h]
    refine ⟨hrow.symm, (hfresh call hmem hread).2.imp_right fun hbefore c hc heq => ?_⟩
    -- a change of the same release is of the same agent, so it was there before the read
    rw [← List.take_append_drop call.seen node.changes] at hc
    rcases List.mem_append.1 hc with hc | hc
    · exact hbefore c hc heq
    · exact hbetween c hc (congrArg Release.kLocalPubkey heq)

/-- A node as it starts, with its rows. -/
def Node.started (primaryHolder nonceBindings : String → Option String) : Node := { primaryHolder, nonceBindings }

theorem kept_started (primaryHolder nonceBindings : String → Option String) :
    Kept primaryHolder (Node.started primaryHolder nonceBindings) :=
  ⟨trivial, fun _ => rfl, by nofun⟩

theorem oneChain_nil : OneChain [] := ⟨by nofun, fun _ => Nat.zero_le _⟩

theorem orderly_invariant {cfg : Config} {primaryHolder nonceBindings : String → Option String} {events : List Event}
    (h : Guarded (Node.step cfg) Node.Orderly (Node.started primaryHolder nonceBindings) events) (m : ℕ) :
    Kept primaryHolder ((events.take m).foldl (Node.step cfg) (Node.started primaryHolder nonceBindings)) ∧
      OneChain ((events.take m).foldl (Node.step cfg) (Node.started primaryHolder nonceBindings)).changes := by
  have hall := Guarded.invariant (P := fun node => (Kept primaryHolder node ∧ OneChain node.changes) ∧
      ∀ call ∈ node.waiting, call.stage ≠ .getPrimaryHolder → Fresh node call)
    (fun node e hnode horderly => ⟨⟨hnode.1.1.step, oneChain_step hnode.1.1 hnode.1.2 hnode.2 horderly⟩,
      fresh_step hnode.2 horderly⟩)
    ⟨⟨kept_started primaryHolder nonceBindings, oneChain_nil⟩, by nofun⟩ h m
  exact hall.1

/-- **One chain of releases**, in every state of a run whose schedule is orderly: every accepted transfer goes over a
row of the daemon that released it, and a release moves the holder at most once. -/
theorem oneChain_of_orderly (cfg : Config) (primaryHolder nonceBindings : String → Option String)
    (events : List Event)
    (h : Guarded (Node.step cfg) Node.Orderly (Node.started primaryHolder nonceBindings) events) (m : ℕ) :
    OneChain ((events.take m).foldl (Node.step cfg) (Node.started primaryHolder nonceBindings)).changes :=
  (orderly_invariant h m).2

theorem holders_of_orderly (cfg : Config) (primaryHolder nonceBindings : String → Option String) (events : List Event)
    (h : Guarded (Node.step cfg) Node.Orderly (Node.started primaryHolder nonceBindings) events) (key : String) :
    IsChain (primaryHolder key)
        (((events.foldl (Node.step cfg) (Node.started primaryHolder nonceBindings)).changes.filter
          fun c => decide (c.release.kLocalPubkey = key)).map Change.release) ∧
      (events.foldl (Node.step cfg) (Node.started primaryHolder nonceBindings)).primaryHolder key =
        heldAfter key (primaryHolder key)
          (events.foldl (Node.step cfg) (Node.started primaryHolder nonceBindings)).changes := by
  have hend := orderly_invariant h events.length
  rw [List.take_length] at hend
  exact ⟨hend.2.isChain hend.1.goes key, hend.1.holder key⟩

/-! ### Releases that come again, and transfers that cross -/

def signature : String := String.ofList (List.replicate (2 * 64) 'a')

theorem ofHexDigits_replicate (n : ℕ) : Bytes.ofHexDigits (List.replicate (2 * n) 'a') = List.replicate n 0xaa := by
  induction n with
  | zero => rfl
  | succ n ih =>
    rw [Nat.mul_succ, List.replicate_succ, List.replicate_succ, List.replicate_succ, Bytes.ofHexDigits, ih]
    rfl

theorem ofHexDigits_digits (n : ℕ) :
    Bytes.ofHexDigits (((List.replicate (2 * n) 'a').takeWhile Bytes.isHexDigit).map Char.toLower) =
      List.replicate n 0xaa := by
  have hdigit : Bytes.isHexDigit (Char.ofNat 97) = true := rfl
  rw [List.takeWhile_replicate, if_pos hdigit, List.map_replicate]
  exact ofHexDigits_replicate n

theorem sigBytes_signature {frame : PrimaryTransferRequest} (h : frame.releaseSignature = signature) :
    sigBytes frame = List.replicate 64 0xaa := by
  have htext : frame.releaseSignature.toList = List.replicate (2 * 64) 'a' :=
    (congrArg String.toList h).trans String.toList_ofList
  rw [sigBytes, htext, ofHexDigits_digits]

/-- A release of an agent, to one daemon by another. -/
def transfer (newDaemonId oldDaemonId nonce : String) : PrimaryTransferRequest :=
  ⟨"agent", newDaemonId, oldDaemonId, signature, nonce, .fin 0⟩

/-- A group that has signed these releases and no others. -/
def signing (released : List PrimaryTransferRequest) : Config where
  verifySignature sig r key := decide (sig = List.replicate 64 0xaa ∧ key = [1] ∧ ∃ f ∈ released, f.release = r)
  nodeId := "node"
  pgPool := true

def heldBy (daemon : String) : String → Option String := fun key => if key = "agent" then some daemon else none

/-- A request that nothing crosses, until it is answered. -/
def alone (frame : PrimaryTransferRequest) (awaits : ℕ) : List Event :=
  .request "agent" frame 0 :: List.replicate awaits (.answered 0 (some [1]))

/-- A node that a transfer of the agent finds as it wants it. -/
structure Ready (cfg : Config) (node : Node) (frame : PrimaryTransferRequest) : Prop where
  agent : frame.kLocalPubkey = "agent"
  fresh : isStale 0 frame.timestamp = false
  pool : cfg.pgPool = true
  idle : node.waiting = []
  held : node.primaryHolder "agent" = some frame.oldDaemonId
  verified : releaseVerified cfg frame [1] = true

theorem alone_new {frame : PrimaryTransferRequest} (h : Ready cfg node frame)
    (hnonce : node.nonceBindings frame.nonce = none) :
    (alone frame 4).foldl (Node.step cfg) node =
      { node with
        primaryHolder := Function.update node.primaryHolder "agent" (some frame.newDaemonId)
        nonceBindings := Function.update node.nonceBindings frame.nonce (some frame.newDaemonId)
        sent := node.sent ++ [(frame, .ack cfg.nodeId)]
        changes := node.changes ++ [⟨frame.release, some frame.oldDaemonId⟩] } := by
  have hkey : frame.release.kLocalPubkey = "agent" := h.agent
  simp [alone, Node.step, Node.processPrimaryTransferRequest, Node.resume, Node.await, Node.finish, Node.send,
    Node.upsertPrimaryHolder, h.agent, h.fresh, h.pool, h.idle, h.held, h.verified, hnonce, hkey,
    List.replicate_succ]
  rfl

theorem alone_bound {frame : PrimaryTransferRequest} (h : Ready cfg node frame)
    (hnonce : node.nonceBindings frame.nonce = some frame.newDaemonId) :
    (alone frame 5).foldl (Node.step cfg) node =
      { node with
        primaryHolder := Function.update node.primaryHolder "agent" (some frame.newDaemonId)
        sent := node.sent ++ [(frame, .ack cfg.nodeId)]
        changes := node.changes ++ [⟨frame.release, some frame.oldDaemonId⟩] } := by
  have hkey : frame.release.kLocalPubkey = "agent" := h.agent
  simp [alone, Node.step, Node.processPrimaryTransferRequest, Node.resume, Node.await, Node.finish, Node.send,
    Node.upsertPrimaryHolder, h.agent, h.fresh, h.pool, h.idle, h.held, h.verified, hnonce, hkey,
    List.replicate_succ]
  rfl

theorem ready_transfer {released : List PrimaryTransferRequest} {newDaemonId oldDaemonId nonce : String}
    (hreleased : transfer newDaemonId oldDaemonId nonce ∈ released) (hidle : node.waiting = [])
    (hheld : node.primaryHolder "agent" = some oldDaemonId) :
    Ready (signing released) node (transfer newDaemonId oldDaemonId nonce) := by
  have hbytes :=
    sigBytes_signature (show (transfer newDaemonId oldDaemonId nonce).releaseSignature = signature from rfl)
  have hlength := (congrArg List.length hbytes).trans List.length_replicate
  refine ⟨rfl, ?_, rfl, hidle, hheld, Bool.and_eq_true_iff.2 ⟨decide_eq_true hlength, ?_⟩⟩
  · simp [transfer, isStale, PRIMARY_TRANSFER_FRESHNESS_MS]
  · simp only [signing, hbytes, decide_eq_true_eq, true_and]
    exact ⟨_, hreleased, rfl⟩

theorem orderly_alone {frame : PrimaryTransferRequest} (h : Ready cfg node frame)
    (hnonce : node.nonceBindings frame.nonce = none) (hnew : ∀ c ∈ node.changes, c.release ≠ frame.release) :
    Guarded (Node.step cfg) Node.Orderly node (alone frame 4) := by
  simp [alone, Guarded, Node.Orderly, Node.step, Node.processPrimaryTransferRequest, Node.resume, Node.await,
    h.agent, h.fresh, h.pool, h.idle, h.held, h.verified, hnonce, List.replicate_succ]
  exact .inr hnew

/-- `a` releases to `b`, and `b` back to `a`. -/
def thereAndBack : List Event := alone (transfer "b" "a" "n") 4 ++ alone (transfer "a" "b" "m") 4

/-- The group has signed both releases. -/
def both : Config := signing [transfer "b" "a" "n", transfer "a" "b" "m"]

theorem thereAndBack_orderly :
    Guarded (Node.step both) Node.Orderly (Node.started (heldBy "a") fun _ => none) thereAndBack := by
  have hthere : Ready both (Node.started (heldBy "a") fun _ => none) (transfer "b" "a" "n") :=
    ready_transfer List.mem_cons_self rfl rfl
  refine Guarded.append (orderly_alone hthere rfl (by nofun)) ?_
  rw [alone_new hthere rfl]
  refine orderly_alone (ready_transfer (List.mem_cons_of_mem _ List.mem_cons_self) rfl rfl)
    (by simp [Node.started, transfer]) fun c hc => ?_
  obtain rfl := List.mem_singleton.1 hc
  simp [transfer, PrimaryTransferRequest.release]

theorem thereAndBack_changes :
    (thereAndBack.foldl (Node.step both) (Node.started (heldBy "a") fun _ => none)).changes =
      [⟨(transfer "b" "a" "n").release, some "a"⟩, ⟨(transfer "a" "b" "m").release, some "b"⟩] := by
  rw [thereAndBack, both, List.foldl_append, alone_new (ready_transfer List.mem_cons_self rfl rfl) rfl,
    alone_new (ready_transfer (List.mem_cons_of_mem _ List.mem_cons_self) rfl rfl) (by simp [Node.started, transfer])]
  rfl

/-- The holder moves twice, by two releases. -/
theorem oneChain_of_orderly_thereAndBack :
    OneChain [⟨(transfer "b" "a" "n").release, some "a"⟩, ⟨(transfer "a" "b" "m").release, some "b"⟩] := by
  have hchain := oneChain_of_orderly both (heldBy "a") (fun _ => none) thereAndBack thereAndBack_orderly
    thereAndBack.length
  rwa [List.take_length, thereAndBack_changes] at hchain

theorem holders_of_orderly_thereAndBack :
    IsChain (some "a") [(transfer "b" "a" "n").release, (transfer "a" "b" "m").release] ∧
      (thereAndBack.foldl (Node.step both) (Node.started (heldBy "a") fun _ => none)).primaryHolder "agent" =
        some "a" := by
  have hheld := holders_of_orderly both (heldBy "a") (fun _ => none) thereAndBack thereAndBack_orderly "agent"
  rw [thereAndBack_changes] at hheld
  exact hheld

/-- **A release that comes again moves the holder again.**  `a` releases to `b`, `b` back to `a`, and within the
window the first frame is presented once more. -/
theorem release_again :
    ¬ OneChain ((alone (transfer "b" "a" "n") 4 ++
        (alone (transfer "a" "b" "m") 4 ++ alone (transfer "b" "a" "n") 5)).foldl
      (Node.step (signing [transfer "b" "a" "n", transfer "a" "b" "m"]))
      (Node.started (heldBy "a") fun _ => none)).changes := by
  intro h
  have hthere : transfer "b" "a" "n" ∈ [transfer "b" "a" "n", transfer "a" "b" "m"] := List.mem_cons_self
  have hback : transfer "a" "b" "m" ∈ [transfer "b" "a" "n", transfer "a" "b" "m"] :=
    List.mem_cons_of_mem _ List.mem_cons_self
  rw [List.foldl_append, alone_new (ready_transfer hthere rfl rfl) rfl, List.foldl_append,
    alone_new (ready_transfer hback rfl rfl) (by simp [Node.started, transfer]),
    alone_bound (ready_transfer hthere rfl rfl) (by simp [Node.started, transfer])] at h
  have honce := h.once (transfer "b" "a" "n").release
  simp [Node.started, transfer, PrimaryTransferRequest.release, Change.Moves] at honce

end Cello.Directory.Primary
