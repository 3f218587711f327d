import Mathlib.Data.List.Nodup
import Mathlib.Data.Int.Notation

/-!
# The registrations

`packages/operations-agent/src/registration/repository.ts` over the table of `V24__registrations.sql`: the
rows, and each write as a change of the database.  A write that the database refuses is thrown, and what a
handler would have written after it is not written.

The chain hash and the time of the last change are left out, since no decision is made on them.
-/

namespace Cello.OperationsAgent.Registration

inductive RegistrationState where
  | initial
  | awaitingWaitlistToken
  | awaitingContact
  | phoneConfirmed
  | awaitingEmail
  | awaitingEmailOtp
  | emailConfirmed
  | preAuthTokenIssued
  | expired
  | failed
deriving DecidableEq, Repr

namespace RegistrationState

/-- The states that no message leads out of. -/
def terminal : RegistrationState → Bool
  | preAuthTokenIssued | expired | failed => true
  | _ => false

/-- The states from `PHONE_CONFIRMED` on. -/
def phoneVerified : RegistrationState → Bool
  | phoneConfirmed | awaitingEmail | awaitingEmailOtp | emailConfirmed | preAuthTokenIssued => true
  | _ => false

end RegistrationState

/-- `state_data`. -/
structure StateData where
  expectedEmailStubHash : Option String := none
  contactPrompt : Option ℕ := none
deriving DecidableEq, Repr

structure RegistrationRow where
  id : String
  phoneStubHash : String
  channelUserId : String
  state : RegistrationState
  stateData : StateData := {}
  emailStubHash : Option String := none
  otpHash : Option String := none
  otpSalt : Option String := none
  otpExpiresAt : Option ℤ := none
  otpAttemptCount : ℕ := 0
  createdAt : ℤ
  expiresAt : ℤ
deriving DecidableEq, Repr

/-- The columns of a transition; what is not given is kept. -/
structure Updates where
  phoneStubHash : Option String := none
  emailStubHash : Option String := none
  otpHash : Option String := none
  otpSalt : Option String := none
  otpExpiresAt : Option ℤ := none
  otpAttemptCount : Option ℕ := none
  stateData : Option StateData := none
  clearOtp : Bool := false
deriving DecidableEq, Repr

/-- `registrations` and `otp_send_log`. -/
structure Database where
  rows : List RegistrationRow := []
  otpSends : List (String × ℤ) := []
deriving DecidableEq, Repr

namespace Database

variable (db : Database)

/-- `findActiveByChannelUser`. -/
def findActive (user : String) : Option RegistrationRow :=
  db.rows.find? fun r => decide (r.channelUserId = user) && !r.state.terminal

/-- `findCompletedByChannelUser`: the latest completed registration since `since`. -/
def findCompleted (user : String) (since : ℤ) : Option RegistrationRow :=
  (db.rows.filter fun r => decide (r.channelUserId = user) && decide (r.state = .preAuthTokenIssued) &&
    decide (since < r.createdAt)).foldl
      (fun best r =>
        if (best.map RegistrationRow.createdAt).any (fun t => decide (r.createdAt ≤ t)) then best
        else some r)
      none

/-- `countOtpSendsSince`. -/
def countOtpSends (user : String) (since : ℤ) : ℕ :=
  (db.otpSends.filter fun e => decide (e.1 = user) && decide (since < e.2)).length

/-- `idx_registrations_phone_stub_hash_active`: one active row for each hash. -/
def hashesDistinct : Bool :=
  decide ((db.rows.filter fun r => !r.state.terminal).map RegistrationRow.phoneStubHash).Nodup

end Database

/-! ### Writes -/

inductive Write where
  | insert (row : RegistrationRow)
  | transition (id : String) (state : RegistrationState) (updates : Updates := {})
  | transitionOnOtpLockout (id : String)
  | incrementOtpAttempt (id : String)
  | recordContactPrompt (id : String) (count : ℕ)
  | recordOtpSend (user : String) (at' : ℤ)
deriving DecidableEq, Repr

/-- The row after `transition`. -/
def RegistrationRow.transitioned (r : RegistrationRow) (state : RegistrationState) (u : Updates) :
    RegistrationRow :=
  { r with
    state := state
    phoneStubHash := u.phoneStubHash.getD r.phoneStubHash
    emailStubHash := u.emailStubHash.or r.emailStubHash
    otpHash := if u.clearOtp then none else u.otpHash.or r.otpHash
    otpSalt := if u.clearOtp then none else u.otpSalt.or r.otpSalt
    otpExpiresAt := if u.clearOtp then none else u.otpExpiresAt.or r.otpExpiresAt
    otpAttemptCount := u.otpAttemptCount.getD r.otpAttemptCount
    stateData := u.stateData.getD r.stateData }

/-- The row after `transitionOnOtpLockout`. -/
def RegistrationRow.lockedOut (r : RegistrationRow) : RegistrationRow :=
  { r with
    state := .awaitingEmail
    otpHash := none
    otpSalt := none
    otpExpiresAt := none
    otpAttemptCount := 0 }

def updateRow (id : String) (f : RegistrationRow → RegistrationRow) (rows : List RegistrationRow) :
    List RegistrationRow :=
  rows.map fun r => if r.id = id then f r else r

def Database.checked (db : Database) : Option Database := if db.hashesDistinct then some db else none

/-- The database with one row changed; `none` where there is no such row. -/
def Database.change (db : Database) (id : String) (f : RegistrationRow → RegistrationRow) :
    Option Database :=
  if id ∈ db.rows.map RegistrationRow.id then some { db with rows := updateRow id f db.rows } else none

/-- The row after `incrementOtpAttempt`. -/
def RegistrationRow.attempted (r : RegistrationRow) : RegistrationRow :=
  { r with otpAttemptCount := r.otpAttemptCount + 1 }

/-- The row after `recordContactPrompt`. -/
def RegistrationRow.prompted (count : ℕ) (r : RegistrationRow) : RegistrationRow :=
  { r with stateData := { r.stateData with contactPrompt := some count } }

/-- The database after a write; `none` where the write throws. -/
def Write.apply (db : Database) : Write → Option Database
  | .insert row =>
    if row.id ∈ db.rows.map RegistrationRow.id then none
    else Database.checked { db with rows := db.rows ++ [row] }
  | .transition id state u => (db.change id (·.transitioned state u)).bind Database.checked
  | .transitionOnOtpLockout id => (db.change id RegistrationRow.lockedOut).bind Database.checked
  | .incrementOtpAttempt id => db.change id RegistrationRow.attempted
  | .recordContactPrompt id count =>
    some { db with rows := updateRow id (RegistrationRow.prompted count) db.rows }
  | .recordOtpSend user t => some { db with otpSends := db.otpSends ++ [(user, t)] }

/-- The writes of a handler, up to the first that throws. -/
def execute : Database → List Write → Database
  | db, [] => db
  | db, w :: rest =>
    match w.apply db with
    | none => db
    | some db' => execute db' rest

/-! ### What a write does to the rows -/

/-- The row that a write changes, and how. -/
def Write.change : Write → Option (String × (RegistrationRow → RegistrationRow))
  | .insert _ | .recordOtpSend _ _ => none
  | .transition id state u => some (id, (·.transitioned state u))
  | .transitionOnOtpLockout id => some (id, RegistrationRow.lockedOut)
  | .incrementOtpAttempt id => some (id, RegistrationRow.attempted)
  | .recordContactPrompt id count => some (id, RegistrationRow.prompted count)

theorem mem_updateRow {id : String} {f : RegistrationRow → RegistrationRow}
    {rows : List RegistrationRow} {r : RegistrationRow} :
    r ∈ updateRow id f rows ↔ ∃ r₀ ∈ rows, (if r₀.id = id then f r₀ else r₀) = r :=
  List.mem_map

theorem checked_some {db db' : Database} (h : db.checked = some db') : db' = db := by
  unfold Database.checked at h
  split at h
  · exact (Option.some.inj h).symm
  · cases h

theorem change_some {db db' : Database} {id : String} {f : RegistrationRow → RegistrationRow}
    (h : db.change id f = some db') : db'.rows = updateRow id f db.rows := by
  unfold Database.change at h
  split at h
  · exact Option.some.inj h ▸ rfl
  · cases h

theorem change_checked_some {db db' : Database} {id : String} {f : RegistrationRow → RegistrationRow}
    (h : (db.change id f).bind Database.checked = some db') : db'.rows = updateRow id f db.rows := by
  obtain ⟨mid, hmid, hchecked⟩ := Option.bind_eq_some_iff.1 h
  rw [checked_some hchecked, change_some hmid]

theorem apply_rows {db db' : Database} {w : Write} (h : w.apply db = some db') :
    (∃ row : RegistrationRow, w = .insert row ∧ row.id ∉ db.rows.map RegistrationRow.id ∧
      db'.rows = db.rows ++ [row]) ∨
    (∃ (id : String) (f : RegistrationRow → RegistrationRow), w.change = some (id, f) ∧
      db'.rows = updateRow id f db.rows) ∨
    (w.change = none ∧ db'.rows = db.rows) := by
  cases w with
  | insert row =>
    rw [Write.apply] at h
    split at h
    · cases h
    · next hfresh => exact .inl ⟨row, rfl, hfresh, by rw [checked_some h]⟩
  | transition id state u => exact .inr (.inl ⟨id, _, rfl, change_checked_some h⟩)
  | transitionOnOtpLockout id => exact .inr (.inl ⟨id, _, rfl, change_checked_some h⟩)
  | incrementOtpAttempt id => exact .inr (.inl ⟨id, _, rfl, change_some h⟩)
  | recordContactPrompt id count =>
    exact .inr (.inl ⟨id, _, rfl, Option.some.inj h ▸ rfl⟩)
  | recordOtpSend user t => exact .inr (.inr ⟨rfl, Option.some.inj h ▸ rfl⟩)

theorem change_keeps {w : Write} {id : String} {f : RegistrationRow → RegistrationRow}
    (h : w.change = some (id, f)) (r : RegistrationRow) :
    (f r).id = r.id ∧ (f r).channelUserId = r.channelUserId := by
  cases w <;> cases h <;> exact ⟨rfl, rfl⟩

theorem updateRow_ids {id : String} {f : RegistrationRow → RegistrationRow}
    (hf : ∀ r : RegistrationRow, (f r).id = r.id) (rows : List RegistrationRow) :
    (updateRow id f rows).map RegistrationRow.id = rows.map RegistrationRow.id := by
  unfold updateRow
  rw [List.map_map]
  refine List.map_congr_left fun r _ => ?_
  dsimp only [Function.comp_apply]
  split
  · exact hf r
  · rfl

theorem apply_nodup {db db' : Database} {w : Write} (h : w.apply db = some db')
    (hnodup : (db.rows.map RegistrationRow.id).Nodup) : (db'.rows.map RegistrationRow.id).Nodup := by
  obtain ⟨row, _, hfresh, hrows⟩ | ⟨id, f, hchange, hrows⟩ | ⟨_, hrows⟩ := apply_rows h
  · rw [hrows, List.map_append, List.map_singleton, ← List.concat_eq_append]
    exact hnodup.concat hfresh
  · rw [hrows, updateRow_ids (fun r => (change_keeps hchange r).1)]
    exact hnodup
  · rw [hrows]
    exact hnodup

/-! ### What holds along the writes of a handler -/

/-- `P` holds of the database after each write that is made. -/
inductive Along (P : Database → Prop) : Database → List Write → Prop
  | nil (db : Database) : Along P db []
  | cons {db : Database} {w : Write} {rest : List Write}
      (first : ∀ db', w.apply db = some db' → P db')
      (others : ∀ db', w.apply db = some db' → Along P db' rest) : Along P db (w :: rest)

variable {P : Database → Prop} {db : Database} {ws : List Write}

theorem Along.take (h : Along P db ws) : ∀ n, Along P db (ws.take n) := by
  induction h with
  | nil db =>
    intro n
    rw [List.take_nil]
    exact .nil db
  | cons first _ ih =>
    intro n
    cases n with
    | zero => exact .nil _
    | succ n => exact .cons first fun db' hw => ih db' hw n

theorem Along.execute (h : Along P db ws) (hdb : P db) : P (execute db ws) := by
  induction h with
  | nil db => exact hdb
  | @cons db w rest first _ ih =>
    unfold Registration.execute
    cases hw : w.apply db with
    | none => exact hdb
    | some db' => exact ih db' hw (first db' hw)

theorem Along.of_invariant (hkeep : ∀ w ∈ ws, ∀ db db', P db → w.apply db = some db' → P db')
    (hdb : P db) : Along P db ws := by
  induction ws generalizing db with
  | nil => exact .nil db
  | cons w rest ih =>
    have hfirst : ∀ db', w.apply db = some db' → P db' := fun db' hw =>
      hkeep w List.mem_cons_self db db' hdb hw
    exact .cons hfirst fun db' hw =>
      ih (fun w' hw' => hkeep w' (List.mem_cons_of_mem _ hw')) (hfirst db' hw)

theorem Along.mono {Q : Database → Prop} (hPQ : ∀ db, P db → Q db) (h : Along P db ws) :
    Along Q db ws := by
  induction h with
  | nil db => exact .nil db
  | cons first _ ih => exact .cons (fun db' hw => hPQ db' (first db' hw)) ih

end Cello.OperationsAgent.Registration
