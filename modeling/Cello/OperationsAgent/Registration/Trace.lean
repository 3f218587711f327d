import Cello.Lib.NotedWrites
import Cello.OperationsAgent.Registration.Engine

/-!
# What an observer notes of the registrations

The handlers once more, with notes between their writes: who is let through, which code is stored for which
address, which candidate is compared with it, and what a token is requested for.  Their writes are the writes
of the state machine (`writes_handleInboundMessage`), so a run with notes is a run of the engine
(`traceStep_world`).
-/

namespace Cello.OperationsAgent.Registration

open Lib

/-- Why a registration goes on to the contact step. -/
inductive Admission where
  | checked
  | redeemed
  | ungated
deriving DecidableEq, Repr

inductive Note where
  | admitted (id : String) (how : Admission)
  /-- A registration that a CONFIRM has started, with the address of the completed one. -/
  | confirmed (id : String) (emailStubHash : Option String)
  | storedOtp (id email otp salt : String) (at' : ℤ)
  | comparedOtp (id candidate : String) (correct : Bool) (at' : ℤ)
  | requestedToken (id phoneStubHash emailStubHash : String)
deriving DecidableEq, Repr

abbrev Act := Action Write Note

namespace Trace

section

variable (ext : Externals) (ans : Answers)

def admission : Admission := if ans.gate.isSome then .checked else .ungated

def handleNewUser (mem : Memory) (user phoneStubHash : String) : List Act :=
  match (checkGate ans mem user).2 with
  | none => []
  | some true => [.write (.insert (newRow ans user phoneStubHash .awaitingContact))
      [.admitted ans.id (admission ans)]]
  | some false => [.silent (.insert (newRow ans user phoneStubHash .awaitingWaitlistToken))]

def handleExistingUser (mem : Memory) (user phoneStubHash : String)
    (expectedEmailStubHash : Option String) : List Act :=
  match (checkGate ans mem user).2 with
  | none => []
  | some false =>
    [.write (.insert (newRow ans user phoneStubHash .initial)) [.confirmed ans.id expectedEmailStubHash],
      .silent (.transition ans.id .awaitingWaitlistToken)]
  | some true =>
    .write (.insert (newRow ans user phoneStubHash .awaitingContact))
        [.confirmed ans.id expectedEmailStubHash, .admitted ans.id (admission ans)] ::
      match expectedEmailStubHash.filter fun h => decide (h ≠ "") with
      | none => []
      | some h => [.silent (.transition ans.id .awaitingContact
          { stateData := some { expectedEmailStubHash := some h } })]

def handleAwaitingWaitlistToken (mem : Memory) (record : RegistrationRow) (message user : String) :
    List Act :=
  match ans.gate with
  | none => []
  | some gate =>
    if trim message = "" then []
    else
      match overTokenLimit mem user ans.now with
      | (_, true) => []
      | (mem, false) =>
        match (askGate mem user ans.now gate.redeem).2 with
        | some true => [.write (.transition record.id .awaitingContact) [.admitted record.id .redeemed]]
        | _ => []

def handleAwaitingContact (record : RegistrationRow) (message user : String) : List Act :=
  (Registration.handleAwaitingContact ext record message user).map .silent

def recoverFromInitial (mem : Memory) (record : RegistrationRow) (message user : String) : List Act :=
  match (checkGate ans mem record.channelUserId).2 with
  | none => []
  | some false => [.silent (.transition record.id .awaitingWaitlistToken)]
  | some true =>
    .write (.transition record.id .awaitingContact) [.admitted record.id (admission ans)] ::
      handleAwaitingContact ext record message user

def handleAwaitingEmail (db : Database) (record : RegistrationRow) (message user : String) : List Act :=
  if !isValidEmail (trim message) then []
  else if otpRateLimitPerHour ≤ db.countOtpSends user (ans.now - otpRateWindowMs) then []
  else
    .write (.transition record.id .awaitingEmailOtp
        { emailStubHash := some (hashEmail ext (trim message))
          otpHash := some (hashOtp ext ans.otp ans.otpSalt)
          otpSalt := some ans.otpSalt
          otpExpiresAt := some (ans.now + otpTtlMs)
          otpAttemptCount := some 0 })
        [.storedOtp record.id (trim message) ans.otp ans.otpSalt ans.now] ::
      if ans.otpDelivered then [.silent (.recordOtpSend user ans.now)]
      else [.silent (.transition record.id .awaitingEmail { clearOtp := true })]

def requestToken (record : RegistrationRow) : List Act :=
  .note (.requestedToken record.id record.phoneStubHash (record.emailStubHash.getD "")) ::
    (issuePreAuth ans record).map .silent

def confirmEmail (record : RegistrationRow) : List Act :=
  .silent (.transition record.id .emailConfirmed { clearOtp := true }) :: requestToken ans record

def handleAwaitingEmailOtp (record : RegistrationRow) (message : String) : List Act :=
  match record.otpHash.filter (fun h => decide (h ≠ "")),
    record.otpSalt.filter (fun s => decide (s ≠ "")) with
  | none, _ => (reenterEmail record).map .silent
  | some otpHash, salt =>
    if (record.otpExpiresAt.getD 0) < ans.now then (reenterEmail record).map .silent
    else
      match salt with
      | none => (reenterEmail record).map .silent
      | some salt =>
        if hashOtp ext (trim message) salt ≠ otpHash then
          .note (.comparedOtp record.id (trim message) false ans.now) ::
            if maxOtpAttempts ≤ record.otpAttemptCount + 1 then
              [.silent (.transitionOnOtpLockout record.id)]
            else [.silent (.incrementOtpAttempt record.id)]
        else
          .note (.comparedOtp record.id (trim message) true ans.now) ::
            match record.stateData.expectedEmailStubHash.filter (fun h => decide (h ≠ "")),
              record.emailStubHash.filter (fun h => decide (h ≠ "")) with
            | some expected, some actual =>
              if actual ≠ expected then [.silent (.transition record.id .awaitingEmail { clearOtp := true })]
              else confirmEmail ans record
            | _, _ => confirmEmail ans record

def handleMessage (mem : Memory) (db : Database) (record : RegistrationRow) (message user : String) :
    List Act :=
  match record.state with
  | .awaitingWaitlistToken => handleAwaitingWaitlistToken ans mem record message user
  | .awaitingContact => handleAwaitingContact ext record message user
  | .awaitingEmail => handleAwaitingEmail ext ans db record message user
  | .awaitingEmailOtp => handleAwaitingEmailOtp ext ans record message
  | .preAuthTokenIssued | .expired | .failed => []
  | .initial => recoverFromInitial ext ans mem record message user
  | .phoneConfirmed => [.silent (.transition record.id .awaitingEmail)]
  | .emailConfirmed => requestToken ans record

def handleCompletedOrNew (mem : Memory) (db : Database) (user message phoneStubHash : String) : List Act :=
  match db.findCompleted user (ans.now - reregistrationWindowMs) with
  | none => handleNewUser ans mem user phoneStubHash
  | some completed =>
    if (mem.pendingReregistration user).isSome ∧ message = "CONFIRM" then
      handleExistingUser ans
        { mem with pendingReregistration := Function.update mem.pendingReregistration user none }
        user phoneStubHash completed.emailStubHash
    else []

def handleInboundMessage (contacts : String → Option StoredContact) (mem : Memory) (db : Database)
    (user message : String) : List Act :=
  match db.findActive user with
  | none => handleCompletedOrNew ans mem db user message (identityHash ext contacts user)
  | some existing =>
    if existing.expiresAt < ans.now then
      if ans.writesMade = some 0 then []
      else
        .silent (.transition existing.id .expired) ::
          handleCompletedOrNew ans mem db user message (identityHash ext contacts user)
    else handleMessage ext ans mem db existing message user

end

/-! ### The writes are those of the state machine -/

section

variable {ext : Externals} {ans : Answers} {mem : Memory} {db : Database} {record : RegistrationRow}
  {message user phoneStubHash : String}

theorem writes_handleNewUser : Action.writes (handleNewUser ans mem user phoneStubHash) =
    (Registration.handleNewUser ans mem user phoneStubHash).2 := by
  unfold handleNewUser Registration.handleNewUser
  obtain ⟨mem', answer⟩ := checkGate ans mem user
  rcases answer with _ | _ | _ <;> rfl

theorem writes_handleExistingUser {expected : Option String} :
    Action.writes (handleExistingUser ans mem user phoneStubHash expected) =
      (Registration.handleExistingUser ans mem user phoneStubHash expected).2 := by
  unfold handleExistingUser Registration.handleExistingUser
  obtain ⟨mem', answer⟩ := checkGate ans mem user
  rcases answer with _ | _ | _
  · rfl
  · rfl
  · dsimp only
    rw [Action.writes_write]
    cases expected.filter fun h => decide (h ≠ "") <;> rfl

theorem writes_handleAwaitingWaitlistToken :
    Action.writes (handleAwaitingWaitlistToken ans mem record message user) =
      (Registration.handleAwaitingWaitlistToken ans mem record message user).2 := by
  unfold handleAwaitingWaitlistToken Registration.handleAwaitingWaitlistToken
  cases ans.gate with
  | none => rfl
  | some gate =>
    dsimp only
    split
    · rfl
    · obtain ⟨mem', limited⟩ := overTokenLimit mem user ans.now
      cases limited with
      | true => rfl
      | false =>
        dsimp only
        obtain ⟨mem'', answer⟩ := askGate mem' user ans.now gate.redeem
        rcases answer with _ | _ | _ <;> rfl

theorem writes_handleAwaitingContact : Action.writes (handleAwaitingContact ext record message user) =
    Registration.handleAwaitingContact ext record message user := Action.writes_silent _

theorem writes_recoverFromInitial :
    Action.writes (recoverFromInitial ext ans mem record message user) =
      (Registration.recoverFromInitial ext ans mem record message user).2 := by
  unfold recoverFromInitial Registration.recoverFromInitial
  obtain ⟨mem', answer⟩ := checkGate ans mem record.channelUserId
  rcases answer with _ | _ | _
  · rfl
  · rfl
  · dsimp only
    rw [Action.writes_write, writes_handleAwaitingContact]

theorem writes_handleAwaitingEmail : Action.writes (handleAwaitingEmail ext ans db record message user) =
    Registration.handleAwaitingEmail ext ans db record message user := by
  unfold handleAwaitingEmail Registration.handleAwaitingEmail
  split
  · rfl
  · split
    · rfl
    · rw [Action.writes_write]
      cases ans.otpDelivered <;> rfl

theorem writes_requestToken : Action.writes (requestToken ans record) = issuePreAuth ans record := by
  unfold requestToken
  rw [Action.writes_note, Action.writes_silent]

theorem writes_confirmEmail : Action.writes (confirmEmail ans record) =
    .transition record.id .emailConfirmed { clearOtp := true } :: issuePreAuth ans record := by
  unfold confirmEmail
  rw [Action.writes_write, writes_requestToken]

theorem writes_handleAwaitingEmailOtp : Action.writes (handleAwaitingEmailOtp ext ans record message) =
    Registration.handleAwaitingEmailOtp ext ans record message := by
  unfold handleAwaitingEmailOtp Registration.handleAwaitingEmailOtp
  generalize (record.otpHash.filter fun h => decide (h ≠ "")) = otpHash
  generalize (record.otpSalt.filter fun h => decide (h ≠ "")) = salt
  cases otpHash with
  | none => exact Action.writes_silent _
  | some otpHash =>
    dsimp only
    by_cases hexpired : record.otpExpiresAt.getD 0 < ans.now
    · rw [if_pos hexpired, if_pos hexpired]
      exact Action.writes_silent _
    · rw [if_neg hexpired, if_neg hexpired]
      cases salt with
      | none => exact Action.writes_silent _
      | some salt =>
        dsimp only
        by_cases hwrong : hashOtp ext (trim message) salt ≠ otpHash
        · rw [if_pos hwrong, if_pos hwrong, Action.writes_note]
          split <;> rfl
        · rw [if_neg hwrong, if_neg hwrong, Action.writes_note]
          generalize (record.stateData.expectedEmailStubHash.filter fun h => decide (h ≠ "")) = expected
          generalize (record.emailStubHash.filter fun h => decide (h ≠ "")) = actual
          rcases expected with _ | expected <;> rcases actual with _ | actual
          · exact writes_confirmEmail
          · exact writes_confirmEmail
          · exact writes_confirmEmail
          · dsimp only
            split
            · rfl
            · exact writes_confirmEmail

theorem writes_handleMessage : Action.writes (handleMessage ext ans mem db record message user) =
    (Registration.handleMessage ext ans mem db record message user).2 := by
  unfold handleMessage Registration.handleMessage
  cases record.state with
  | awaitingWaitlistToken => exact writes_handleAwaitingWaitlistToken
  | awaitingContact => exact writes_handleAwaitingContact
  | awaitingEmail =>
    dsimp only
    exact writes_handleAwaitingEmail
  | awaitingEmailOtp =>
    dsimp only
    exact writes_handleAwaitingEmailOtp
  | initial => exact writes_recoverFromInitial
  | emailConfirmed =>
    show Action.writes (requestToken ans record) = issuePreAuth ans record
    exact writes_requestToken
  | phoneConfirmed => rfl
  | preAuthTokenIssued => rfl
  | expired => rfl
  | failed => rfl

theorem writes_handleCompletedOrNew :
    Action.writes (handleCompletedOrNew ans mem db user message phoneStubHash) =
      (Registration.handleCompletedOrNew ans mem db user message phoneStubHash).2 := by
  unfold handleCompletedOrNew Registration.handleCompletedOrNew
  cases db.findCompleted user (ans.now - reregistrationWindowMs) with
  | none => exact writes_handleNewUser
  | some completed =>
    dsimp only
    by_cases hconfirm : (mem.pendingReregistration user).isSome ∧ message = "CONFIRM"
    · rw [if_pos hconfirm, if_pos hconfirm]
      exact writes_handleExistingUser
    · rw [if_neg hconfirm, if_neg hconfirm]
      split <;> rfl

theorem writes_handleInboundMessage {contacts : String → Option StoredContact} :
    Action.writes (handleInboundMessage ext ans contacts mem db user message) =
      (Registration.handleInboundMessage ext ans contacts mem db user message).2 := by
  unfold handleInboundMessage Registration.handleInboundMessage
  cases db.findActive user with
  | none => exact writes_handleCompletedOrNew
  | some existing =>
    dsimp only
    by_cases hexpired : existing.expiresAt < ans.now
    · rw [if_pos hexpired, if_pos hexpired]
      by_cases hstopped : ans.writesMade = some 0
      · rw [if_pos hstopped, if_pos hstopped]
        rfl
      · rw [if_neg hstopped, if_neg hstopped, Action.writes_write, writes_handleCompletedOrNew]
    · rw [if_neg hexpired, if_neg hexpired]
      exact writes_handleMessage

theorem perform_db {acts : List Act} : ∀ {db : Database} {l : List Note} (n : Option ℕ),
    (Action.perform (fun db w => Write.apply db w) n db l acts).1 =
      execute db (match n with
        | none => Action.writes acts
        | some n => (Action.writes acts).take n) := by
  induction acts with
  | nil =>
    intro db l n
    cases n <;> simp [Action.perform, execute]
  | cons a rest ih =>
    intro db l n
    cases a with
    | note m =>
      unfold Action.perform
      exact ih n
    | write w notes =>
      rw [Action.writes_write]
      cases n with
      | none =>
        unfold Action.perform execute
        cases w.apply db with
        | none => rfl
        | some db' => exact ih none
      | some n =>
        cases n with
        | zero => rfl
        | succ n =>
          dsimp only
          unfold Action.perform
          rw [List.take_succ_cons, execute]
          cases w.apply db with
          | none => rfl
          | some db' => exact ih (some n)

end

end Trace

/-! ### Runs with notes -/

section

variable (ext : Externals)

def noted (ans : Answers) (contacts : String → Option StoredContact) (mem : Memory) (db : Database)
    (notes : List Note) (user message : String) : Database × List Note :=
  Action.perform (fun db w => Write.apply db w) ans.writesMade db notes
    (Trace.handleInboundMessage ext ans contacts mem db user message)

/-- One event, and what is noted of it. -/
def traceStep (s : World × List Note) (e : Event) : World × List Note :=
  (s.1.step ext e,
    match e with
    | .update update ans =>
      match processUpdate s.1.contacts update with
      | (_, none) => s.2
      | (contacts, some (user, message)) =>
        (noted ext ans contacts s.1.memory s.1.db s.2 user message).2
    | _ => s.2)

/-- A run from the start. -/
def traceRun (events : List Event) : World × List Note := events.foldl (traceStep ext) ({}, [])

end

variable {ext : Externals}

theorem noted_db (ans : Answers) (contacts : String → Option StoredContact) (mem : Memory) (db : Database)
    (notes : List Note) (user message : String) : (noted ext ans contacts mem db notes user message).1 =
      execute db (ans.cut (handleInboundMessage ext ans contacts mem db user message).2) := by
  unfold noted Answers.cut
  refine (Trace.perform_db ans.writesMade).trans (congrArg (execute db) ?_)
  cases ans.writesMade with
  | none => exact Trace.writes_handleInboundMessage
  | some n => exact congrArg (List.take n) Trace.writes_handleInboundMessage

/-- **The rule of invariants for runs with notes**: a message keeps the property, and so do the sweeps. -/
theorem traceStep_invariant {P : Database → List Note → Prop} {s : World × List Note} {e : Event}
    (hmessage : ∀ update ans contacts user message, e = .update update ans →
      processUpdate s.1.contacts update = (contacts, some (user, message)) →
      P (noted ext ans contacts s.1.memory s.1.db s.2 user message).1
        (noted ext ans contacts s.1.memory s.1.db s.2 user message).2)
    (hexpired : ∀ id db db', P db s.2 → Write.apply db (.transition id .expired) = some db' → P db' s.2)
    (hprompt : ∀ id n db db', P db s.2 → Write.apply db (.recordContactPrompt id n) = some db' → P db' s.2)
    (h : P s.1.db s.2) : P (traceStep ext s e).1.db (traceStep ext s e).2 := by
  cases e with
  | update update ans =>
    have hthis := hmessage update ans
    unfold traceStep World.step
    dsimp only
    generalize hprocess : processUpdate s.1.contacts update = result
    obtain ⟨contacts, message⟩ := result
    cases message with
    | none => exact h
    | some message =>
      obtain ⟨user, message⟩ := message
      have hnoted := hthis contacts user message rfl hprocess
      rw [noted_db] at hnoted
      exact hnoted
  | expirySweep ans =>
    have hall : Along (fun db => P db s.2) s.1.db (expirySweep ans s.1.db) := by
      refine Along.of_invariant (fun w hw db db' hdb happly => ?_) h
      obtain ⟨r, -, rfl⟩ := List.mem_map.1 hw
      exact hexpired r.id db db' hdb happly
    show P (execute s.1.db (ans.cut (expirySweep ans s.1.db))) s.2
    unfold Answers.cut
    split
    · exact hall.execute h
    · exact (hall.take _).execute h
  | resendContactPrompt id n =>
    have hall : Along (fun db => P db s.2) s.1.db [.recordContactPrompt id n] := by
      refine Along.of_invariant (fun w hw db db' hdb happly => ?_) h
      rw [List.mem_singleton.1 hw] at happly
      exact hprompt id n db db' hdb happly
    exact hall.execute h
  | pendingSweep keep => exact h
  | restart => exact h

/-! ### Rows -/

variable {db db' : Database} {w : Write}

theorem mem_updateRow_iff {id : String} {f : RegistrationRow → RegistrationRow}
    {rows : List RegistrationRow} {r : RegistrationRow} : r ∈ updateRow id f rows ↔
      (∃ r₀ ∈ rows, r₀.id = id ∧ f r₀ = r) ∨ (r ∈ rows ∧ r.id ≠ id) := by
  rw [mem_updateRow]
  constructor
  · rintro ⟨r₀, hr₀, rfl⟩
    split
    next hid => exact .inl ⟨r₀, hr₀, hid, rfl⟩
    next hid => exact .inr ⟨hr₀, hid⟩
  · rintro (⟨r₀, hr₀, hid, rfl⟩ | ⟨hr, hid⟩)
    · exact ⟨r₀, hr₀, if_pos hid⟩
    · exact ⟨r, hr, if_neg hid⟩

theorem forall_rows_of_apply {Q R : RegistrationRow → Prop} (happly : w.apply db = some db')
    (h : ∀ r ∈ db.rows, Q r)
    (hinsert : ∀ row, w = .insert row → R row)
    (hchange : ∀ id f, w.change = some (id, f) → ∀ r ∈ db.rows, r.id = id → Q r → R (f r))
    (hother : ∀ r ∈ db.rows, (∀ id f, w.change = some (id, f) → r.id ≠ id) → Q r → R r) :
    ∀ r ∈ db'.rows, R r := by
  intro r hr
  obtain ⟨row, rfl, -, hrows⟩ | ⟨id, f, hwrite, hrows⟩ | ⟨hnone, hrows⟩ := apply_rows happly
  · rw [hrows] at hr
    rcases List.mem_append.1 hr with hr | hr
    · refine hother r hr (fun id f hf => ?_) (h r hr)
      cases hf
    · rw [List.mem_singleton.1 hr]
      exact hinsert row rfl
  · rw [hrows] at hr
    rcases mem_updateRow_iff.1 hr with ⟨r₀, hr₀, hid, rfl⟩ | ⟨hr, hid⟩
    · exact hchange id f hwrite r₀ hr₀ hid (h r₀ hr₀)
    · refine hother r hr (fun id' f' hf => ?_) (h r hr)
      rw [hwrite] at hf
      exact (Prod.mk.inj (Option.some.inj hf)).1 ▸ hid
  · rw [hrows] at hr
    refine hother r hr (fun id f hf => ?_) (h r hr)
    rw [hnone] at hf
    cases hf

theorem insert_rows {row : RegistrationRow} (happly : (Write.insert row).apply db = some db') :
    row.id ∉ db.rows.map RegistrationRow.id ∧ db'.rows = db.rows ++ [row] := by
  rw [Write.apply] at happly
  split at happly
  · cases happly
  next hfresh => exact ⟨hfresh, by rw [checked_some happly]⟩

theorem mem_of_findCompleted {since : ℤ} {completed : RegistrationRow}
    (h : db.findCompleted user since = some completed) : completed ∈ db.rows := by
  unfold Database.findCompleted at h
  have hfold : ∀ (rows : List RegistrationRow) (best : Option RegistrationRow),
      (∀ r, best = some r → r ∈ db.rows) → (∀ r ∈ rows, r ∈ db.rows) → ∀ completed,
        rows.foldl (fun best r =>
          if (best.map RegistrationRow.createdAt).any (fun t => decide (r.createdAt ≤ t)) then best
          else some r) best = some completed → completed ∈ db.rows := by
    intro rows
    induction rows with
    | nil => exact fun best hbest _ completed hcompleted => hbest completed hcompleted
    | cons r rows ih =>
      intro best hbest hrows completed hcompleted
      refine ih _ (fun r' hr' => ?_) (fun r' hr' => hrows r' (List.mem_cons_of_mem _ hr')) completed hcompleted
      dsimp only at hr'
      split at hr'
      · exact hbest r' hr'
      · exact Option.some.inj hr' ▸ hrows r List.mem_cons_self
  exact hfold _ none (fun r hr => by cases hr) (fun r hr => List.mem_of_mem_filter hr) completed h

/-! ### The index -/

theorem activeHashes_updateRow {id : String} {f : RegistrationRow → RegistrationRow} {rows : List RegistrationRow}
    (hf : ∀ r ∈ rows, r.id = id →
      (f r).state.terminal = r.state.terminal ∧ (f r).phoneStubHash = r.phoneStubHash) :
    ((updateRow id f rows).filter fun r => !r.state.terminal).map RegistrationRow.phoneStubHash =
      (rows.filter fun r => !r.state.terminal).map RegistrationRow.phoneStubHash := by
  induction rows with
  | nil => rfl
  | cons r rows ih =>
    have hrest := ih fun s hs => hf s (List.mem_cons_of_mem _ hs)
    have hhead : (if r.id = id then f r else r).state.terminal = r.state.terminal ∧
        (if r.id = id then f r else r).phoneStubHash = r.phoneStubHash := by
      split
      next hid => exact hf r List.mem_cons_self hid
      · exact ⟨rfl, rfl⟩
    show ((((if r.id = id then f r else r) :: updateRow id f rows).filter fun r => !r.state.terminal)).map
      RegistrationRow.phoneStubHash = _
    rw [List.filter_cons, List.filter_cons, hhead.1]
    split
    · rw [List.map_cons, List.map_cons, hhead.2, hrest]
    · exact hrest

theorem checked_distinct (h : db.checked = some db') : db'.hashesDistinct = true := by
  unfold Database.checked at h
  split at h
  next hdistinct => exact Option.some.inj h ▸ hdistinct
  · cases h

/-- **Every write keeps the index.** -/
theorem apply_distinct (happly : w.apply db = some db') (h : db.hashesDistinct = true) :
    db'.hashesDistinct = true := by
  have hkeep : ∀ (id : String) (f : RegistrationRow → RegistrationRow),
      (∀ r, (f r).state = r.state ∧ (f r).phoneStubHash = r.phoneStubHash) →
        db'.rows = updateRow id f db.rows → db'.hashesDistinct = true := by
    intro id f hf hrows
    unfold Database.hashesDistinct at h ⊢
    rw [hrows, activeHashes_updateRow fun r _ _ => ⟨congrArg _ (hf r).1, (hf r).2⟩]
    exact h
  cases w with
  | insert row =>
    rw [Write.apply] at happly
    split at happly
    · cases happly
    · exact checked_distinct happly
  | transition id st u =>
    obtain ⟨mid, -, hchecked⟩ := Option.bind_eq_some_iff.1 happly
    exact checked_distinct hchecked
  | transitionOnOtpLockout id =>
    obtain ⟨mid, -, hchecked⟩ := Option.bind_eq_some_iff.1 happly
    exact checked_distinct hchecked
  | incrementOtpAttempt id =>
    exact hkeep id RegistrationRow.attempted (fun r => ⟨rfl, rfl⟩) (change_some happly)
  | recordContactPrompt id count =>
    exact hkeep id (RegistrationRow.prompted count) (fun r => ⟨rfl, rfl⟩) (Option.some.inj happly ▸ rfl)
  | recordOtpSend user t =>
    obtain rfl := Option.some.inj happly
    exact h

end Cello.OperationsAgent.Registration
