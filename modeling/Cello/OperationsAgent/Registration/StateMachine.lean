import Cello.OperationsAgent.Registration.Repository
import Cello.OperationsAgent.Telegram

/-!
# The registration state machine

`packages/operations-agent/src/registration/state-machine.ts`.  A handler reads its record once and makes
its writes in order, so it is the list of its writes here, with what the process remembers of the waitlist
gate beside it.  The gate, the delivery of codes and the directory answer from outside (`Answers`), and
anything that throws ends the list of the writes that are made.

What is sent to the user is left out.
-/

namespace Cello.OperationsAgent.Registration

open Cello.Directory.ChainStore (isSpace)

/-! ### What answers from outside -/

/-- The hash and the case mapping of the platform. -/
structure Externals where
  sha256 : String → String
  toLowerCase : String → String

/-- The waitlist gate; `none` where a call throws. -/
structure GateAnswers where
  check : Option Bool
  redeem : Option Bool
deriving DecidableEq, Repr

/-- What one message meets: the time, the answers of other services, and the ids and codes drawn. -/
structure Answers where
  now : ℤ
  gate : Option GateAnswers
  id : String
  otp : String
  otpSalt : String
  otpDelivered : Bool
  preAuthIssued : Bool
  /-- How many of its writes a handler makes before something else throws. -/
  writesMade : Option ℕ
deriving DecidableEq, Repr

/-- What the process remembers. -/
structure Memory where
  tokenAttempts : String → List ℤ
  gateFaultAt : String → Option ℤ
  pendingReregistration : String → Option ℤ

/-! ### Texts -/

/-- `s.trim()`. -/
def trim (s : String) : String :=
  String.ofList (((s.toList.dropWhile isSpace).reverse.dropWhile isSpace).reverse)

/-- `normalizePhone`: the digits, behind a leading plus. -/
def normalizePhone (raw : String) : String :=
  match raw.toList with
  | '+' :: rest => String.ofList ('+' :: rest.filter Char.isDigit)
  | l => String.ofList (l.filter Char.isDigit)

def hashPhone (ext : Externals) (normalizedPhone : String) : String := ext.sha256 normalizedPhone

def hashEmail (ext : Externals) (email : String) : String := ext.sha256 (ext.toLowerCase (trim email))

def hashOtp (ext : Externals) (otp salt : String) : String := ext.sha256 (otp ++ salt)

/-- `isValidEmail`: one `@` that is not the first character, and a dot inside the domain. -/
def isValidEmail (s : String) : Bool :=
  let l := s.toList
  let domain := (l.dropWhile (fun c => decide (c ≠ '@'))).drop 1
  let dot := domain.idxOf '.'
  decide (l.count '@' = 1) && decide (0 < l.idxOf '@') && decide (0 < dot) &&
    decide (dot + 1 < domain.length)

/-! ### Limits -/

def otpTtlMs : ℤ := 15 * 60 * 1000
def maxOtpAttempts : ℕ := 3
def maxTokenAttempts : ℕ := 5
def tokenAttemptWindowMs : ℤ := 60 * 60 * 1000
def gateFaultCooldownMs : ℤ := 60 * 1000
def registrationTtlMs : ℤ := 7 * 24 * 60 * 60 * 1000
def otpRateLimitPerHour : ℕ := 5
def otpRateWindowMs : ℤ := 60 * 60 * 1000

/-- `#overTokenLimit`. -/
def overTokenLimit (mem : Memory) (user : String) (now : ℤ) : Memory × Bool :=
  let live := fun u => (mem.tokenAttempts u).filter fun t => decide (now - tokenAttemptWindowMs < t)
  if maxTokenAttempts ≤ (live user).length then ({ mem with tokenAttempts := live }, true)
  else ({ mem with tokenAttempts := Function.update live user (live user ++ [now]) }, false)

/-- `#refundTokenAttempt`. -/
def refundTokenAttempt (mem : Memory) (user : String) : Memory :=
  { mem with
    tokenAttempts := Function.update mem.tokenAttempts user (mem.tokenAttempts user).dropLast }

/-- `#askGate`: no answer where the gate throws or has thrown a moment ago. -/
def askGate (mem : Memory) (user : String) (now : ℤ) (answer : Option Bool) : Memory × Option Bool :=
  let faults := fun u => (mem.gateFaultAt u).filter fun t => decide (now - t < gateFaultCooldownMs)
  match faults user, answer with
  | some _, _ => ({ mem with gateFaultAt := faults }, none)
  | none, some decision =>
    ({ mem with gateFaultAt := Function.update faults user none }, some decision)
  | none, none => ({ mem with gateFaultAt := Function.update faults user (some now) }, none)

/-! ### Handlers -/

section

variable (ext : Externals) (ans : Answers)

/-- A fresh record. -/
def newRow (user phoneStubHash : String) (state : RegistrationState) : RegistrationRow where
  id := ans.id
  phoneStubHash := phoneStubHash
  channelUserId := user
  state := state
  createdAt := ans.now
  expiresAt := ans.now + registrationTtlMs

/-- The gate's word on a user: `none` where it cannot be had, and `true` where there is no gate. -/
def checkGate (mem : Memory) (user : String) : Memory × Option Bool :=
  match ans.gate with
  | none => (mem, some true)
  | some gate => askGate mem user ans.now gate.check

def handleNewUser (mem : Memory) (user phoneStubHash : String) : Memory × List Write :=
  match checkGate ans mem user with
  | (mem, none) => (mem, [])
  | (mem, some allowed) =>
    (mem, [.insert (newRow ans user phoneStubHash
      (if allowed then .awaitingContact else .awaitingWaitlistToken))])

def handleExistingUser (mem : Memory) (user phoneStubHash : String)
    (expectedEmailStubHash : Option String) : Memory × List Write :=
  match checkGate ans mem user with
  | (mem, none) => (mem, [])
  | (mem, some false) =>
    (mem, [.insert (newRow ans user phoneStubHash .initial), .transition ans.id .awaitingWaitlistToken])
  | (mem, some true) =>
    (mem, .insert (newRow ans user phoneStubHash .awaitingContact) ::
      match expectedEmailStubHash.filter fun h => decide (h ≠ "") with
      | none => []
      | some h =>
        [.transition ans.id .awaitingContact { stateData := some { expectedEmailStubHash := some h } }])

/-- `#handleAwaitingWaitlistToken`: what the user typed is a token. -/
def handleAwaitingWaitlistToken (mem : Memory) (record : RegistrationRow) (message user : String) :
    Memory × List Write :=
  match ans.gate with
  | none => (mem, [])
  | some gate =>
    if trim message = "" then (mem, [])
    else
      match overTokenLimit mem user ans.now with
      | (mem, true) => (mem, [])
      | (mem, false) =>
        match askGate mem user ans.now gate.redeem with
        | (mem, none) => (refundTokenAttempt mem user, [])
        | (mem, some false) => (mem, [])
        | (mem, some true) => (mem, [.transition record.id .awaitingContact])

/-- `#handleAwaitingContact`: a text that names the user and a phone number is their contact. -/
def handleAwaitingContact (record : RegistrationRow) (message user : String) : List Write :=
  match contactMatch message with
  | none => [.recordContactPrompt record.id 0]
  | some (contactUserId, phoneNumber) =>
    if contactUserId ≠ user then []
    else
      [.transition record.id .phoneConfirmed
          { phoneStubHash := some (hashPhone ext (normalizePhone phoneNumber)) },
        .transition record.id .awaitingEmail]

/-- `#recoverFromInitial`: the gate is asked again, and the message is taken as if the contact were
awaited. -/
def recoverFromInitial (mem : Memory) (record : RegistrationRow) (message user : String) :
    Memory × List Write :=
  match checkGate ans mem record.channelUserId with
  | (mem, none) => (mem, [])
  | (mem, some false) => (mem, [.transition record.id .awaitingWaitlistToken])
  | (mem, some true) =>
    (mem, .transition record.id .awaitingContact :: handleAwaitingContact ext record message user)

/-- `#handleAwaitingEmail`. -/
def handleAwaitingEmail (db : Database) (record : RegistrationRow) (message user : String) :
    List Write :=
  if !isValidEmail (trim message) then []
  else if otpRateLimitPerHour ≤ db.countOtpSends user (ans.now - otpRateWindowMs) then []
  else
    .transition record.id .awaitingEmailOtp
        { emailStubHash := some (hashEmail ext (trim message))
          otpHash := some (hashOtp ext ans.otp ans.otpSalt)
          otpSalt := some ans.otpSalt
          otpExpiresAt := some (ans.now + otpTtlMs)
          otpAttemptCount := some 0 } ::
      if ans.otpDelivered then [.recordOtpSend user ans.now]
      else [.transition record.id .awaitingEmail { clearOtp := true }]

def issuePreAuth (record : RegistrationRow) : List Write :=
  if ans.preAuthIssued then [.transition record.id .preAuthTokenIssued] else []

def reenterEmail (record : RegistrationRow) : List Write :=
  [.transition record.id .awaitingEmail { clearOtp := true, otpAttemptCount := some 0 }]

/-- `#handleAwaitingEmailOtp`. -/
def handleAwaitingEmailOtp (record : RegistrationRow) (message : String) : List Write :=
  match record.otpHash.filter (fun h => decide (h ≠ "")),
    record.otpSalt.filter (fun s => decide (s ≠ "")) with
  | none, _ => reenterEmail record
  | some otpHash, salt =>
    if (record.otpExpiresAt.getD 0) < ans.now then reenterEmail record
    else
      match salt with
      | none => reenterEmail record
      | some salt =>
        if hashOtp ext (trim message) salt ≠ otpHash then
          if maxOtpAttempts ≤ record.otpAttemptCount + 1 then [.transitionOnOtpLockout record.id]
          else [.incrementOtpAttempt record.id]
        else
          match record.stateData.expectedEmailStubHash.filter (fun h => decide (h ≠ "")),
            record.emailStubHash.filter (fun h => decide (h ≠ "")) with
          | some expected, some actual =>
            if actual ≠ expected then [.transition record.id .awaitingEmail { clearOtp := true }]
            else .transition record.id .emailConfirmed { clearOtp := true } :: issuePreAuth ans record
          | _, _ =>
            .transition record.id .emailConfirmed { clearOtp := true } :: issuePreAuth ans record

/-- `handleMessage`. -/
def handleMessage (mem : Memory) (db : Database) (record : RegistrationRow) (message user : String) :
    Memory × List Write :=
  match record.state with
  | .awaitingWaitlistToken => handleAwaitingWaitlistToken ans mem record message user
  | .awaitingContact => (mem, handleAwaitingContact ext record message user)
  | .awaitingEmail => (mem, handleAwaitingEmail ext ans db record message user)
  | .awaitingEmailOtp => (mem, handleAwaitingEmailOtp ext ans record message)
  | .preAuthTokenIssued | .expired | .failed => (mem, [])
  | .initial => recoverFromInitial ext ans mem record message user
  | .phoneConfirmed => (mem, [.transition record.id .awaitingEmail])
  | .emailConfirmed => (mem, issuePreAuth ans record)

end

end Cello.OperationsAgent.Registration
