import Cello.OperationsAgent.Registration.ActiveRegistration

/-!
# Contact reminders

The contact-prompt sweep of `engine.ts`, section by section, beside the handling of messages, which come one
after another: the registrations that the process remembers, the budget in the database, and what is sent.
-/

namespace Cello.OperationsAgent.Registration

open Lib

/-! ### Messages -/

/-- A section of a handler: a write, or what the process remembers of the user. -/
inductive HandlerStep where
  | write (w : Write)
  | remember (entry : Option (String × RegistrationState))

/-- The record that a handler returns: the last one that it has inserted or moved. -/
def returned (record : Option (String × RegistrationState)) (ws : List Write) :
    Option (String × RegistrationState) :=
  ws.foldl
    (fun last w =>
      match w with
      | .insert row => some (row.id, row.state)
      | w => w.movesTo.or last)
    record

/-- The writes, and then `#activeRecords` is updated with the record. -/
def remembering (record : Option (String × RegistrationState)) (ws : List Write) : List HandlerStep :=
  ws.map .write ++
    match returned record ws with
    | none => []
    | some (id, st) => [.remember (activeIn id st)]

/-- The gate throws, and with it the handler. -/
def gateThrows (ans : Answers) (mem : Memory) (record : RegistrationRow) (message user : String) : Bool :=
  match record.state with
  | .initial => (checkGate ans mem record.channelUserId).2.isNone
  | .awaitingWaitlistToken =>
    match ans.gate with
    | none => false
    | some gate =>
      decide (trim message ≠ "") &&
        match overTokenLimit mem user ans.now with
        | (_, true) => false
        | (mem, false) => (askGate mem user ans.now gate.redeem).2.isNone
  | _ => false

/-- `#handleInboundMessage`, in its sections. -/
def handlerSteps (ext : Externals) (ans : Answers) (contacts : String → Option StoredContact) (mem : Memory)
    (db : Database) (user message : String) : List HandlerStep :=
  match db.findActive user with
  | none => remembering none (handleCompletedOrNew ans mem db user message (identityHash ext contacts user)).2
  | some existing =>
    if existing.expiresAt < ans.now then
      .write (.transition existing.id .expired) :: .remember none ::
        remembering none (handleCompletedOrNew ans mem db user message (identityHash ext contacts user)).2
    else if gateThrows ans mem existing message user then []
    else
      remembering (some (existing.id, existing.state))
        (handleMessage ext ans mem db existing message user).2

/-! ### Sweeps -/

/-- Where a sweep is: between two entries, or at the entry of a user, in one of its awaits. -/
inductive Visit where
  | between
  | asked (user id : String)
  | decided (user id : String) (number : ℕ)
  | recorded (user id : String) (number : ℕ)
  | sent (user : String)
  /-- The row has been read back, and is not remembered yet. -/
  | refreshed (user : String) (row : Option (String × RegistrationState))
deriving DecidableEq

inductive Sent where
  | message (user : String)
  /-- A reminder, and the stored state of the registration when it is sent. -/
  | reminder (user : String) (stored : Option RegistrationState)
deriving DecidableEq

structure Desk where
  db : Database := {}
  memory : Memory := ⟨fun _ => [], fun _ => none, fun _ => none⟩
  /-- `#activeRecords`. -/
  active : String → Option (String × RegistrationState) := fun _ => none
  /-- The message in hand. -/
  handler : Option (String × List HandlerStep) := none
  sweeps : List Visit := []
  log : List Sent := []

inductive DeskEvent where
  | message (contacts : String → Option StoredContact) (user text : String) (answers : Answers)
  /-- The next section of the handler. -/
  | handle
  /-- The handler throws. -/
  | throws
  /-- The timer of the sweep. -/
  | tick
  /-- A sweep comes to the entry of a user. -/
  | visit (i : ℕ) (user : String)
  /-- The next section of a visit: the time that the user has waited, and whether the channel sends. -/
  | sweep (i : ℕ) (waited : ℤ) (sends : Bool)
  | sweepEnds (i : ℕ)
  | restart

def Database.stateOf (db : Database) (id : String) : Option RegistrationState :=
  (db.rows.find? fun r => decide (r.id = id)).map RegistrationRow.state

/-- `loadAllActive`: the last row of a user stays. -/
def loadActive (db : Database) (user : String) : Option (String × RegistrationState) :=
  (db.rows.reverse.find? fun r => decide (r.channelUserId = user) && !r.state.terminal).map
    fun r => (r.id, r.state)

namespace Desk

/-- The next section of the handler in hand. -/
def handle (d : Desk) : Desk :=
  match d.handler with
  | none => d
  | some (_, []) => { d with handler := none }
  | some (user, .write w :: rest) =>
    match w.apply d.db with
    | none => { d with handler := none }
    | some db => { d with db := db, handler := some (user, rest) }
  | some (user, .remember entry :: rest) =>
    { d with active := Function.update d.active user entry, handler := some (user, rest) }

/-- `#activeRecords`, with the row that a sweep has read back. -/
def withRow (d : Desk) (user : String) : Option (String × RegistrationState) →
    String → Option (String × RegistrationState)
  | none => d.active
  | some r => Function.update d.active user (some r)

/-- The next section of a visit. -/
def sweep (d : Desk) (i : ℕ) (waited : ℤ) (sends : Bool) : Visit → Desk
  | .between => d
  | .asked user id =>
    match dueReminderNumber (d.db.contactPromptCount id) waited with
    | none => { d with sweeps := d.sweeps.set i .between }
    | some n => { d with sweeps := d.sweeps.set i (.decided user id n) }
  | .decided user id n =>
    match (Write.recordContactPrompt id n).apply d.db with
    | none => { d with sweeps := d.sweeps.eraseIdx i }
    | some db => { d with db := db, sweeps := d.sweeps.set i (.recorded user id n) }
  | .recorded user id _ =>
    if sends then
      { d with
        sweeps := d.sweeps.set i (.sent user)
        log := d.log ++ [.reminder user (d.db.stateOf id)] }
    else { d with sweeps := d.sweeps.eraseIdx i }
  | .sent user =>
    { d with sweeps := d.sweeps.set i (.refreshed user ((d.db.findActive user).map fun r => (r.id, r.state))) }
  | .refreshed user row =>
    { d with sweeps := d.sweeps.set i .between, active := d.withRow user row }

def step (ext : Externals) (d : Desk) : DeskEvent → Desk
  | .message contacts user text ans =>
    -- The adapter hands the next message over when the last one is handled.
    if d.handler.isSome then d
    else
      { d with
        memory := (handleInboundMessage ext ans contacts d.memory d.db user text).1
        handler := some (user, handlerSteps ext ans contacts d.memory d.db user text)
        log := d.log ++ [.message user] }
  | .handle => d.handle
  | .throws => { d with handler := none }
  | .tick => { d with sweeps := d.sweeps ++ [.between] }
  | .visit i user =>
    match d.sweeps[i]?, d.active user with
    | some .between, some (id, .awaitingContact) => { d with sweeps := d.sweeps.set i (.asked user id) }
    | _, _ => d
  | .sweep i waited sends =>
    match d.sweeps[i]? with
    | none => d
    | some v => d.sweep i waited sends v
  | .sweepEnds i => { d with sweeps := d.sweeps.eraseIdx i }
  | .restart => { db := d.db, active := loadActive d.db, log := d.log }

end Desk

/-! ### The law -/

def Sent.reminds (user : String) : Sent → Bool
  | .reminder user' _ => decide (user' = user)
  | .message _ => false

/-- **At most two reminders between two messages of a user**, each while the contact is awaited. -/
structure RemindersBounded (log : List Sent) : Prop where
  two : ∀ user before between after, log = before ++ between ++ after → .message user ∉ between →
    between.countP (Sent.reminds user) ≤ 2
  awaited : ∀ user stored, .reminder user stored ∈ log → stored = some .awaitingContact

/-! ### The condition -/

def Visit.of (user : String) : Visit → Bool
  | .asked user' _ | .decided user' _ _ | .recorded user' _ _ | .refreshed user' _ => decide (user' = user)
  | .between | .sent _ => false

def Desk.Knows (d : Desk) (user : String) : Prop :=
  ∀ id, d.active user = some (id, .awaitingContact) →
    ∃ r ∈ d.db.rows, r.id = id ∧ r.channelUserId = user ∧ r.state = .awaitingContact

/-- **Nothing crosses a visit**: sweeps do not overlap, no message of a user is in hand while a sweep is about to
remind them or has read their row back and not remembered it, and no handler throws while the process remembers an
awaited contact that is not awaited any more. -/
def Unhurried (d : Desk) : DeskEvent → Prop
  | .tick => d.sweeps = []
  | .message _ user _ _ => ∀ v ∈ d.sweeps, v.of user = false
  | .visit _ user => d.handler.map Prod.fst ≠ some user
  | .sweep i _ _ => ∀ user, d.sweeps[i]? = some (.sent user) → d.handler.map Prod.fst ≠ some user
  | .throws => ∀ h, d.handler = some h → d.Knows h.1
  | .handle => ∀ user w rest, d.handler = some (user, .write w :: rest) → w.apply d.db = none → d.Knows user
  | _ => True

/-! ### Since the last message -/

def sinceMessage (user : String) (log : List Sent) : ℕ :=
  log.foldl (fun n o => if o = .message user then 0 else if o.reminds user then n + 1 else n) 0

theorem sinceMessage_snoc (user : String) (log : List Sent) (o : Sent) : sinceMessage user (log ++ [o]) =
    if o = .message user then 0 else if o.reminds user then sinceMessage user log + 1
      else sinceMessage user log := by
  unfold sinceMessage
  rw [List.foldl_append]
  rfl

theorem foldl_between {user : String} {between : List Sent} (h : .message user ∉ between) (n : ℕ) :
    between.foldl (fun n o => if o = .message user then 0 else if o.reminds user then n + 1 else n) n =
      n + between.countP (Sent.reminds user) := by
  induction between generalizing n with
  | nil => rfl
  | cons o between ih =>
    have hne : o ≠ .message user := fun ho => h (ho ▸ List.mem_cons_self)
    have hrest : .message user ∉ between := fun ho => h (List.mem_cons_of_mem _ ho)
    rw [List.foldl_cons, List.countP_cons, if_neg hne, ih hrest]
    by_cases hreminds : o.reminds user = true
    · rw [if_pos hreminds, if_pos hreminds]
      omega
    · rw [if_neg hreminds, if_neg hreminds]
      rfl

theorem two_of_sinceMessage {log : List Sent} {user : String}
    (h : ∀ before after, log = before ++ after → sinceMessage user before ≤ 2) {before between after : List Sent}
    (hlog : log = before ++ between ++ after) (hbetween : .message user ∉ between) :
    between.countP (Sent.reminds user) ≤ 2 := by
  have hthis := h (before ++ between) after hlog
  unfold sinceMessage at hthis
  rw [List.foldl_append, foldl_between hbetween] at hthis
  omega

/-! ### The writes are those of the engine -/

def handlerWrites (steps : List HandlerStep) : List Write :=
  steps.filterMap fun
    | .write w => some w
    | .remember _ => none

theorem handlerWrites_remembering (record : Option (String × RegistrationState)) (ws : List Write) :
    handlerWrites (remembering record ws) = ws := by
  unfold handlerWrites remembering
  rw [List.filterMap_append, List.filterMap_map]
  have hwrites : (fun w : Write => some w) = (fun
    | .write w => some w
    | .remember _ => none) ∘ HandlerStep.write := rfl
  rw [← hwrites, List.filterMap_some]
  split
  · exact List.append_nil _
  · exact List.append_nil _

theorem gateThrows_writes {ext : Externals} {ans : Answers} {mem : Memory} {db : Database}
    {record : RegistrationRow} {message user : String} (h : gateThrows ans mem record message user = true) :
    (handleMessage ext ans mem db record message user).2 = [] := by
  unfold gateThrows at h
  unfold handleMessage
  cases hstate : record.state <;> rw [hstate] at h
  case initial =>
    dsimp only at h ⊢
    unfold recoverFromInitial
    split
    · rfl
    next hgate =>
      rw [hgate] at h
      cases h
    next hgate =>
      rw [hgate] at h
      cases h
  case awaitingWaitlistToken =>
    dsimp only at h ⊢
    unfold handleAwaitingWaitlistToken
    cases hgate : ans.gate with
    | none => rfl
    | some gate =>
      rw [hgate] at h
      dsimp only at h ⊢
      split
      · rfl
      · split
        · rfl
        next mem' hlimit =>
          rw [hlimit] at h
          simp only [Bool.and_eq_true] at h
          split
          · rfl
          · rfl
          next hredeem =>
            rw [hredeem] at h
            cases h.2
  all_goals cases h

theorem handlerWrites_handlerSteps {ext : Externals} {ans : Answers}
    {contacts : String → Option StoredContact} {mem : Memory} {db : Database} {user message : String}
    (hmade : ans.writesMade ≠ some 0) :
    handlerWrites (handlerSteps ext ans contacts mem db user message) =
      (handleInboundMessage ext ans contacts mem db user message).2 := by
  unfold handlerSteps handleInboundMessage
  cases db.findActive user with
  | none => exact handlerWrites_remembering _ _
  | some record =>
    dsimp only
    by_cases hexpired : record.expiresAt < ans.now
    · rw [if_pos hexpired, if_pos hexpired, if_neg hmade]
      exact congrArg (_ :: ·) (handlerWrites_remembering _ _)
    · rw [if_neg hexpired, if_neg hexpired]
      cases hthrows : gateThrows ans mem record message user with
      | true =>
        rw [if_pos rfl, gateThrows_writes hthrows]
        rfl
      | false =>
        rw [if_neg (by decide)]
        exact handlerWrites_remembering _ _

/-! ### What a handler does to the active registration -/

/-- **What is left of a handler goes with what is active**: it moves what is active, adds a registration where none
is, and what it remembers is what is active then.  `known` is whether the process knows by now. -/
def Tracks (user : String) : Option (String × RegistrationState) → Prop → List HandlerStep → Prop
  | _, known, [] => known
  | a, _, .remember entry :: rest => entry = a ∧ Tracks user a True rest
  | a, known, .write w :: rest =>
    match w with
    | .insert row => a = none ∧ row.channelUserId = user ∧ row.state.terminal = false ∧
        Tracks user (some (row.id, row.state)) False rest
    | .recordOtpSend _ _ => Tracks user a known rest
    | w =>
      ∃ id st, a = some (id, st) ∧ (∃ f, w.change = some (id, f)) ∧
        match w.movesTo with
        | none => Tracks user a known rest
        | some (_, st') => Tracks user (activeIn id st') False rest

variable {ext : Externals} {ans : Answers} {contacts : String → Option StoredContact} {mem : Memory}
  {db db' : Database} {user message id : String} {st : RegistrationState} {ws : List Write} {w : Write}
  {a : Option (String × RegistrationState)}

theorem tracks_about {known : Prop} (h : About id ws) (hlive : st.terminal = false) :
    Tracks user (some (id, st)) known (remembering (some (id, st)) ws) := by
  have hactive : ∀ st : RegistrationState, st.terminal = false → activeIn id st = some (id, st) := by
    intro st hst
    rw [activeIn, if_neg (by simp [hst])]
  induction ws generalizing st known with
  | nil => exact ⟨hactive st hlive, trivial⟩
  | cons w ws ih =>
    have hrest : About id ws := by
      refine ⟨fun w' hw' => h.only w' (List.mem_cons_of_mem _ hw'),
        fun w' hw' => h.kept w' (List.mem_cons_of_mem _ hw'), fun w' hw' => ?_⟩
      cases ws with
      | nil => cases hw'
      | cons w'' ws =>
        exact h.last w' (by rw [List.dropLast_cons_cons]; exact List.mem_cons_of_mem _ hw')
    have honly := h.only w List.mem_cons_self
    have hmove : ∀ st' : RegistrationState, w.movesTo = some (id, st') →
        Tracks user (activeIn id st') False (remembering (some (id, st')) ws) := by
      intro st' hmoves
      cases hst : st'.terminal with
      | false =>
        rw [hactive st' hst]
        exact ih hrest hst
      | true =>
        cases ws with
        | nil => exact ⟨rfl, trivial⟩
        | cons w' ws =>
          have hcalm := h.last w (by rw [List.dropLast_cons_cons]; exact List.mem_cons_self) id st' hmoves
          rw [hst] at hcalm
          cases hcalm
    cases w with
    | insert row => exact absurd rfl (h.kept _ List.mem_cons_self row)
    | recordOtpSend user' t => exact ih hrest hlive
    | transition id' st' u =>
      obtain rfl := honly id' _ rfl
      exact ⟨_, st, rfl, ⟨_, rfl⟩, hmove st' rfl⟩
    | transitionOnOtpLockout id' =>
      obtain rfl := honly id' _ rfl
      exact ⟨_, st, rfl, ⟨_, rfl⟩, hmove .awaitingEmail rfl⟩
    | incrementOtpAttempt id' =>
      obtain rfl := honly id' _ rfl
      exact ⟨_, st, rfl, ⟨_, rfl⟩, ih hrest hlive⟩
    | recordContactPrompt id' n =>
      obtain rfl := honly id' _ rfl
      exact ⟨_, st, rfl, ⟨_, rfl⟩, ih hrest hlive⟩

theorem tracks_fresh (h : Fresh user id ws) : Tracks user none True (remembering none ws) := by
  cases h with
  | nil => exact trivial
  | new hid huser hrow hws =>
    subst hid
    exact ⟨rfl, huser, hrow, tracks_about hws hrow⟩

theorem tracks_handlerSteps (h : ActiveIs db user a) :
    Tracks user a True (handlerSteps ext ans contacts mem db user message) := by
  unfold handlerSteps
  cases hfind : db.findActive user with
  | none =>
    rw [h.of_findActive_none hfind]
    exact tracks_fresh fresh_handleCompletedOrNew
  | some record =>
    have hlive := (findActive_live hfind).2
    rw [h.of_findActive hfind]
    dsimp only
    split
    · exact ⟨record.id, record.state, rfl, ⟨_, rfl⟩, rfl, tracks_fresh fresh_handleCompletedOrNew⟩
    · split
      · exact trivial
      · exact tracks_about about_handleMessage hlive

end Cello.OperationsAgent.Registration
