import Cello.OperationsAgent.Registration.StateMachine

/-!
# The registration engine

`packages/operations-agent/src/registration/engine.ts`, with the adapter in front of it: what becomes of the
database, of what the process remembers and of the contacts, when an update arrives, when a sweep runs,
and when the process starts again.
-/

namespace Cello.OperationsAgent.Registration

def reregistrationWindowMs : ℤ := 30 * 24 * 60 * 60 * 1000

/-- The engine, its database and its adapter, and the updates received. -/
structure World where
  contacts : String → Option StoredContact := fun _ => none
  memory : Memory := ⟨fun _ => [], fun _ => none, fun _ => none⟩
  db : Database := {}
  received : List TelegramUpdate := []

section

variable (ext : Externals) (ans : Answers)

def Answers.cut (writes : List Write) : List Write :=
  match ans.writesMade with
  | none => writes
  | some n => writes.take n

/-- `phoneStubHash`, from the identity or from the id in its place. -/
def identityHash (contacts : String → Option StoredContact) (user : String) : String :=
  hashPhone ext (normalizePhone ((resolveIdentity contacts user).getD user))

/-- `#handleCompletedOrNew`. -/
def handleCompletedOrNew (mem : Memory) (db : Database) (user message phoneStubHash : String) :
    Memory × List Write :=
  match db.findCompleted user (ans.now - reregistrationWindowMs) with
  | none => handleNewUser ans mem user phoneStubHash
  | some completed =>
    if (mem.pendingReregistration user).isSome ∧ message = "CONFIRM" then
      handleExistingUser ans
        { mem with pendingReregistration := Function.update mem.pendingReregistration user none }
        user phoneStubHash completed.emailStubHash
    else if (mem.pendingReregistration user).isSome then (mem, [])
    else
      ({ mem with
          pendingReregistration := Function.update mem.pendingReregistration user (some ans.now) }, [])

/-- `#handleInboundMessage`. -/
def handleInboundMessage (contacts : String → Option StoredContact) (mem : Memory) (db : Database)
    (user message : String) : Memory × List Write :=
  match db.findActive user with
  | none => handleCompletedOrNew ans mem db user message (identityHash ext contacts user)
  | some existing =>
    if existing.expiresAt < ans.now then
      if ans.writesMade = some 0 then (mem, [])
      else
        match handleCompletedOrNew ans mem db user message (identityHash ext contacts user) with
        | (mem', writes) => (mem', .transition existing.id .expired :: writes)
    else handleMessage ext ans mem db existing message user

/-- `#runExpirySweep`. -/
def expirySweep (db : Database) : List Write :=
  (db.rows.filter fun r => !r.state.terminal && decide (r.expiresAt < ans.now)).map
    fun r => .transition r.id .expired

inductive Event where
  /-- An update from Telegram, and what its handling meets. -/
  | update (update : TelegramUpdate) (answers : Answers)
  | expirySweep (answers : Answers)
  /-- `resendContactPrompt`. -/
  | resendContactPrompt (id : String) (reminderNumber : ℕ)
  /-- `#sweepStalePendingReregistrations`, at a time that leaves these entries. -/
  | pendingSweep (keep : String → Bool)
  /-- The process starts again: only the database is kept. -/
  | restart

/-- One event. -/
def World.step (w : World) : Event → World
  | .update update ans =>
    match processUpdate w.contacts update with
    | (contacts, none) => { w with contacts := contacts, received := w.received ++ [update] }
    | (contacts, some (user, message)) =>
      match handleInboundMessage ext ans contacts w.memory w.db user message with
      | (memory, writes) =>
        { contacts := contacts
          memory := memory
          db := execute w.db (ans.cut writes)
          received := w.received ++ [update] }
  | .expirySweep ans => { w with db := execute w.db (ans.cut (expirySweep ans w.db)) }
  | .resendContactPrompt id n => { w with db := execute w.db [.recordContactPrompt id n] }
  | .pendingSweep keep =>
    { w with memory := { w.memory with
        pendingReregistration := fun u => if keep u then w.memory.pendingReregistration u else none } }
  | .restart => { contacts := fun _ => none, db := w.db, received := w.received }

end

end Cello.OperationsAgent.Registration
