import Cello.Lib.Calls
import Cello.OperationsAgent.Registration.Trace

/-!
# Handlers and sweeps that cross

The handlers and the sweeps once more, as calls that wait for each of their queries and writes.  A call that
nothing crosses does what the engine does (`alone_turns`).
-/

namespace Cello.OperationsAgent.Registration

open Lib

/-- What the calls share. -/
structure Shared where
  memory : Memory := ⟨fun _ => [], fun _ => none, fun _ => none⟩
  db : Database := {}

namespace Shared

def apply (s : Shared) (w : Write) : Option Shared :=
  (w.apply s.db).map fun db => { s with db := db }

end Shared

abbrev RegistrationCall := Call Shared Write

/-- `dueReminderNumber`, with the time since the last one. -/
def dueReminderNumber (count : ℕ) (waited : ℤ) : Option ℕ :=
  if 2 ≤ count then none
  else if (if count = 0 then 10 * 60 * 1000 else 60 * 60 * 1000) ≤ waited then some (count + 1)
  else none

/-- `getContactPromptProgress`: the count. -/
def Database.contactPromptCount (db : Database) (id : String) : ℕ :=
  ((db.rows.find? fun r => decide (r.id = id)).bind fun r => r.stateData.contactPrompt).getD 0

/-- The record, with what is read of its row later: the salt, and then the addresses. -/
def RegistrationRow.reread (r : RegistrationRow) (db₁ db₂ : Database) : RegistrationRow :=
  let row₁ := db₁.rows.find? fun row => decide (row.id = r.id)
  let row₂ := db₂.rows.find? fun row => decide (row.id = r.id)
  { r with
    otpSalt := row₁.bind RegistrationRow.otpSalt
    stateData := (row₂.map RegistrationRow.stateData).getD {}
    emailStubHash := r.emailStubHash.or (row₂.bind RegistrationRow.emailStubHash) }

section

variable (ext : Externals) (ans : Answers)

/-- `#handleCompletedOrNew`. -/
def completedOrNewCall (user message phoneStubHash : String) : RegistrationCall :=
  .query (fun s => { s with memory := (handleCompletedOrNew ans s.memory s.db user message phoneStubHash).1 })
    fun s => .ofWrites (handleCompletedOrNew ans s.memory s.db user message phoneStubHash).2

/-- `handleMessage`. -/
def messageCall (record : RegistrationRow) (message user : String) : RegistrationCall :=
  .query id fun s₁ =>
    .query
      (fun s => { s with
        memory := (handleMessage ext ans s.memory s.db (record.reread s₁.db s.db) message user).1 })
      fun s => .ofWrites (handleMessage ext ans s.memory s.db (record.reread s₁.db s.db) message user).2

/-- `#handleInboundMessage`. -/
def inboundCall (contacts : String → Option StoredContact) (user message : String) : RegistrationCall :=
  .query id fun s =>
    match s.db.findActive user with
    | none => completedOrNewCall ans user message (identityHash ext contacts user)
    | some existing =>
      if existing.expiresAt < ans.now then
        .write (.transition existing.id .expired)
          (completedOrNewCall ans user message (identityHash ext contacts user))
      else messageCall ext ans existing message user

/-- `#runExpirySweep`. -/
def expirySweepCall : RegistrationCall :=
  .query id fun s => .ofWrites (expirySweep ans s.db)

end

/-- `#runContactPromptSweep`, over the registrations that await a contact as far as the process knows, with the
time that each has waited. -/
def contactPromptCall : List (String × ℤ) → RegistrationCall
  | [] => .done
  | (id, waited) :: rest =>
    .query (fun s => s) fun s =>
      match dueReminderNumber (s.db.contactPromptCount id) waited with
      | none => contactPromptCall rest
      | some n => .write (.recordContactPrompt id n) (.query (fun s => s) fun _ => contactPromptCall rest)

/-! ### Nothing crosses -/

variable {ext : Externals} {ans : Answers} {s : Shared} {user message phoneStubHash : String}
  {r : RegistrationRow} {db db' : Database}

theorem alone_ofWrites (ws : List Write) : ∀ s : Shared,
    (Call.ofWrites ws : RegistrationCall).alone Shared.apply s = { s with db := execute s.db ws } := by
  induction ws with
  | nil => exact fun s => rfl
  | cons w ws ih =>
    intro s
    unfold Call.ofWrites Call.alone execute Shared.apply
    cases happly : w.apply s.db with
    | none => rfl
    | some db => exact ih { s with db := db }

theorem find_id (hnodup : (db.rows.map RegistrationRow.id).Nodup) (hr : r ∈ db.rows) :
    (db.rows.find? fun row => decide (row.id = r.id)) = some r := by
  cases hfind : db.rows.find? (fun row => decide (row.id = r.id)) with
  | none =>
    have hnot := List.find?_eq_none.1 hfind r hr
    exact absurd (decide_eq_true rfl) hnot
  | some row =>
    have hid := List.find?_some hfind
    rw [List.inj_on_of_nodup_map hnodup (List.mem_of_find?_eq_some hfind) hr (of_decide_eq_true hid)]

theorem reread_self (hnodup : (db.rows.map RegistrationRow.id).Nodup) (hr : r ∈ db.rows) :
    r.reread db db = r := by
  unfold RegistrationRow.reread
  rw [find_id hnodup hr]
  simp

theorem findCompleted_expired {since : ℤ} (hnodup : (db.rows.map RegistrationRow.id).Nodup)
    (hr : r ∈ db.rows) (hactive : r.state.terminal = false)
    (happly : (Write.transition r.id .expired).apply db = some db') :
    db'.findCompleted user since = db.findCompleted user since := by
  have hrows := change_checked_some happly
  have hfilter : ∀ rows : List RegistrationRow, (∀ r' ∈ rows, r'.id = r.id → r' = r) →
      (updateRow r.id (·.transitioned .expired {}) rows).filter (fun r => decide (r.channelUserId = user) &&
        decide (r.state = .preAuthTokenIssued) && decide (since < r.createdAt)) =
      rows.filter (fun r => decide (r.channelUserId = user) && decide (r.state = .preAuthTokenIssued) &&
        decide (since < r.createdAt)) := by
    intro rows hsame
    induction rows with
    | nil => rfl
    | cons r' rows ih =>
      have hrest := ih fun r'' hr'' => hsame r'' (List.mem_cons_of_mem _ hr'')
      have hhead := hsame r' List.mem_cons_self
      unfold updateRow at hrest ⊢
      rw [List.map_cons, List.filter_cons, List.filter_cons, hrest]
      by_cases hid : r'.id = r.id
      · have hnot : r'.state ≠ .preAuthTokenIssued := fun hstate => by
          rw [hhead hid] at hstate
          rw [hstate] at hactive
          cases hactive
        rw [if_pos hid, if_neg (by simp [RegistrationRow.transitioned]), if_neg (by simp [hnot])]
      · rw [if_neg hid]
  unfold Database.findCompleted
  rw [hrows, hfilter db.rows fun r' hr' hid => List.inj_on_of_nodup_map hnodup hr' hr hid]

theorem expired_applies (hdistinct : db.hashesDistinct = true) (hr : r ∈ db.rows) :
    ∃ db', (Write.transition r.id .expired).apply db = some db' := by
  refine ⟨{ db with rows := updateRow r.id (·.transitioned .expired {}) db.rows }, ?_⟩
  have hsub : ∀ rows : List RegistrationRow,
      (((updateRow r.id (·.transitioned .expired {}) rows).filter fun r => !r.state.terminal).map
        RegistrationRow.phoneStubHash).Sublist
      ((rows.filter fun r => !r.state.terminal).map RegistrationRow.phoneStubHash) := by
    intro rows
    induction rows with
    | nil => exact List.Sublist.refl _
    | cons r' rows ih =>
      unfold updateRow at ih ⊢
      rw [List.map_cons, List.filter_cons, List.filter_cons]
      by_cases hid : r'.id = r.id
      · rw [if_pos hid, if_neg (by simp [RegistrationRow.transitioned, RegistrationState.terminal])]
        split
        · exact ih.trans (List.sublist_cons_self _ _)
        · exact ih
      · rw [if_neg hid]
        split
        · rw [List.map_cons, List.map_cons]
          exact ih.cons_cons _
        · exact ih
  have hkept : Database.hashesDistinct
      { db with rows := updateRow r.id (·.transitioned .expired {}) db.rows } = true := by
    unfold Database.hashesDistinct at hdistinct ⊢
    exact decide_eq_true ((of_decide_eq_true hdistinct).sublist (hsub db.rows))
  show (db.change r.id _).bind Database.checked = _
  rw [Database.change, if_pos (List.mem_map_of_mem hr), Option.bind_some, Database.checked, if_pos hkept]

theorem alone_completedOrNewCall (s : Shared) :
    (completedOrNewCall ans user message phoneStubHash).alone Shared.apply s =
      ⟨(handleCompletedOrNew ans s.memory s.db user message phoneStubHash).1,
        execute s.db (handleCompletedOrNew ans s.memory s.db user message phoneStubHash).2⟩ := by
  unfold completedOrNewCall Call.alone
  exact alone_ofWrites _ _

/-- **A message that nothing crosses** is handled as the engine handles it. -/
theorem alone_inboundCall {contacts : String → Option StoredContact}
    (hnodup : (s.db.rows.map RegistrationRow.id).Nodup) (hdistinct : s.db.hashesDistinct = true)
    (hmade : ans.writesMade ≠ some 0) :
    (inboundCall ext ans contacts user message).alone Shared.apply s =
      ⟨(handleInboundMessage ext ans contacts s.memory s.db user message).1,
        execute s.db (handleInboundMessage ext ans contacts s.memory s.db user message).2⟩ := by
  unfold inboundCall handleInboundMessage
  rw [Call.alone]
  dsimp only [id_eq]
  cases hactive : s.db.findActive user with
  | none => exact alone_completedOrNewCall s
  | some record =>
    have hrecord : record ∈ s.db.rows := List.mem_of_find?_eq_some hactive
    have hlive : record.state.terminal = false := by
      have hfound := List.find?_some hactive
      rw [Bool.and_eq_true, Bool.not_eq_true'] at hfound
      exact hfound.2
    dsimp only
    by_cases hexpired : record.expiresAt < ans.now
    · rw [if_pos hexpired, if_pos hexpired, if_neg hmade]
      obtain ⟨db', happly⟩ := expired_applies hdistinct hrecord
      have hsame : handleCompletedOrNew ans s.memory db' user message (identityHash ext contacts user) =
          handleCompletedOrNew ans s.memory s.db user message (identityHash ext contacts user) := by
        unfold handleCompletedOrNew
        rw [findCompleted_expired hnodup hrecord hlive happly]
      rw [Call.alone, Shared.apply, happly, Option.map_some]
      dsimp only
      rw [alone_completedOrNewCall, hsame, execute, happly]
    · rw [if_neg hexpired, if_neg hexpired]
      unfold messageCall
      rw [Call.alone, id_eq, Call.alone, reread_self hnodup hrecord, alone_ofWrites]

theorem alone_expirySweepCall (s : Shared) :
    (expirySweepCall ans).alone Shared.apply s = { s with db := execute s.db (expirySweep ans s.db) } := by
  unfold expirySweepCall Call.alone
  exact alone_ofWrites _ _

/-- What comes to the agent one after the other: a message, with what it meets, and the sweep. -/
inductive Turn where
  | inbound (ans : Answers) (made : ans.writesMade ≠ some 0) (contacts : String → Option StoredContact)
      (user message : String)
  | expirySweep (ans : Answers)

def Turn.call (ext : Externals) : Turn → RegistrationCall
  | inbound ans _ contacts user message => inboundCall ext ans contacts user message
  | expirySweep ans => expirySweepCall ans

/-- The turn as the engine takes it. -/
def Turn.handle (ext : Externals) (s : Shared) : Turn → Shared
  | inbound ans _ contacts user message =>
    ⟨(handleInboundMessage ext ans contacts s.memory s.db user message).1,
      execute s.db (handleInboundMessage ext ans contacts s.memory s.db user message).2⟩
  | expirySweep ans => { s with db := execute s.db (Registration.expirySweep ans s.db) }

theorem execute_keys {ws : List Write} (hnodup : (db.rows.map RegistrationRow.id).Nodup)
    (hdistinct : db.hashesDistinct = true) :
    ((execute db ws).rows.map RegistrationRow.id).Nodup ∧ (execute db ws).hashesDistinct = true := by
  have halong : Along (fun db => (db.rows.map RegistrationRow.id).Nodup ∧ db.hashesDistinct = true) db ws :=
    Along.of_invariant (fun w _ db db' h happly => ⟨apply_nodup happly h.1, apply_distinct happly h.2⟩)
      ⟨hnodup, hdistinct⟩
  exact halong.execute ⟨hnodup, hdistinct⟩

theorem alone_turns (ext : Externals) (turns : List Turn) :
    turns.foldl (fun s t => (t.call ext).alone Shared.apply s) {} = turns.foldl (Turn.handle ext) {} := by
  have hrun : ∀ s : Shared, (s.db.rows.map RegistrationRow.id).Nodup → s.db.hashesDistinct = true →
      turns.foldl (fun s t => (t.call ext).alone Shared.apply s) s = turns.foldl (Turn.handle ext) s := by
    induction turns with
    | nil => exact fun s _ _ => rfl
    | cons t rest ih =>
      intro s hnodup hdistinct
      have hturn : (t.call ext).alone Shared.apply s = t.handle ext s := by
        cases t with
        | inbound ans made contacts user message => exact alone_inboundCall hnodup hdistinct made
        | expirySweep ans => exact alone_expirySweepCall s
      rw [List.foldl_cons, List.foldl_cons, hturn]
      have hkeys : ((t.handle ext s).db.rows.map RegistrationRow.id).Nodup ∧
          (t.handle ext s).db.hashesDistinct = true := by
        cases t with
        | inbound ans made contacts user message => exact execute_keys hnodup hdistinct
        | expirySweep ans => exact execute_keys hnodup hdistinct
      exact ih _ hkeys.1 hkeys.2
  exact hrun {} List.nodup_nil rfl

end Cello.OperationsAgent.Registration
