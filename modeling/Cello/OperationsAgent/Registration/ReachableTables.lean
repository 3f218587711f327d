import Cello.OperationsAgent.Registration.ReminderBudget

/-!
# The tables that the engine reaches

What holds of the registrations after any run of the engine: ids and active hashes are different, a user has at
most one active registration, and every address that is stored or expected is one that somebody has entered.
-/

namespace Cello.OperationsAgent.Registration

section

variable (ext : Externals)

def EnteredHash (h : String) : Prop := ∃ m, isValidEmail (trim m) = true ∧ hashEmail ext (trim m) = h

/-- A row of a user of the channel, with addresses that can be entered. -/
structure RowReached (r : RegistrationRow) : Prop where
  user : ∃ id : ℤ, r.channelUserId = senderText id
  stored : ∀ h, r.emailStubHash = some h → EnteredHash ext h
  expected : ∀ h, r.stateData.expectedEmailStubHash = some h → EnteredHash ext h

structure TableReached (db : Database) : Prop where
  nodup : (db.rows.map RegistrationRow.id).Nodup
  distinct : db.hashesDistinct = true
  one : ∀ user, ∃ a, ActiveIs db user a
  rows : ∀ r ∈ db.rows, RowReached ext r

/-- A write of rows and addresses like these, and of codes sent at such times. -/
def Write.Reaches (sent : ℤ → Prop) : Write → Prop
  | .insert row => RowReached ext row
  | .transition _ _ u => (∀ h, u.emailStubHash = some h → EnteredHash ext h) ∧
      ∀ sd h, u.stateData = some sd → sd.expectedEmailStubHash = some h → EnteredHash ext h
  | .recordOtpSend _ t => sent t
  | _ => True

end

variable {ext : Externals} {ans : Answers} {contacts : String → Option StoredContact} {mem : Memory}
  {db db' : Database} {record : RegistrationRow} {user message phoneStubHash : String} {w : Write}
  {sent : ℤ → Prop}

theorem rows_reached (happly : w.apply db = some db') (hw : w.Reaches ext sent)
    (h : ∀ r ∈ db.rows, RowReached ext r) : ∀ r ∈ db'.rows, RowReached ext r := by
  refine forall_rows_of_apply happly h (fun row hrow => by subst hrow; exact hw) (fun id f hf r _ _ hr => ?_)
    fun r _ _ hr => hr
  cases w <;> cases hf
  case transition st u =>
    refine ⟨hr.user, fun hash hhash => ?_, fun hash hhash => ?_⟩
    · rcases Option.or_eq_some_iff.1 hhash with hhash | ⟨-, hhash⟩
      · exact hw.1 hash hhash
      · exact hr.stored hash hhash
    · have hdata : (u.stateData.getD r.stateData).expectedEmailStubHash = some hash := hhash
      cases hu : u.stateData with
      | none =>
        rw [hu, Option.getD_none] at hdata
        exact hr.expected hash hdata
      | some sd =>
        rw [hu, Option.getD_some] at hdata
        exact hw.2 sd hash hu hdata
  all_goals exact ⟨hr.user, hr.stored, hr.expected⟩

/-! ### The writes of the handlers -/

theorem reaches_transition {id : String} {st : RegistrationState} {u : Updates} (hemail : u.emailStubHash = none)
    (hdata : u.stateData = none) : (Write.transition id st u).Reaches ext sent := by
  refine ⟨fun h hh => ?_, fun sd h hsd => ?_⟩
  · rw [hemail] at hh
    cases hh
  · rw [hdata] at hsd
    cases hsd

theorem reaches_newRow {st : RegistrationState} (huser : ∃ id : ℤ, user = senderText id) :
    (Write.insert (newRow ans user phoneStubHash st)).Reaches ext sent :=
  ⟨huser, fun _ hh => (by cases hh), fun _ hh => (by cases hh)⟩

theorem reaches_handleCompletedOrNew (huser : ∃ id : ℤ, user = senderText id)
    (hrows : ∀ r ∈ db.rows, RowReached ext r) :
    ∀ w ∈ (handleCompletedOrNew ans mem db user message phoneStubHash).2, w.Reaches ext sent := by
  unfold handleCompletedOrNew
  intro w hw
  cases hcompleted : db.findCompleted user (ans.now - reregistrationWindowMs) with
  | none =>
    rw [hcompleted] at hw
    dsimp only at hw
    unfold handleNewUser at hw
    split at hw
    · cases hw
    · rw [List.mem_singleton.1 hw]
      exact reaches_newRow huser
  | some completed =>
    rw [hcompleted] at hw
    dsimp only at hw
    split at hw
    · unfold handleExistingUser at hw
      split at hw
      · cases hw
      · rcases List.mem_pair.1 hw with rfl | rfl
        · exact reaches_newRow huser
        · exact reaches_transition rfl rfl
      · rcases List.mem_cons.1 hw with rfl | hw
        · exact reaches_newRow huser
        · split at hw
          · cases hw
          next e he =>
            rw [List.mem_singleton.1 hw]
            refine ⟨fun h hh => (by cases hh), fun sd h hsd hh => ?_⟩
            cases hsd
            obtain rfl := Option.some.inj hh
            exact (hrows completed (mem_of_findCompleted hcompleted)).stored e (Option.filter_eq_some_iff.1 he).1
    · split at hw <;> cases hw

theorem reaches_handleAwaitingContact :
    ∀ w ∈ handleAwaitingContact ext record message user, w.Reaches ext sent := by
  unfold handleAwaitingContact
  intro w hw
  split at hw
  · rw [List.mem_singleton.1 hw]
    exact trivial
  · split at hw
    · cases hw
    · rcases List.mem_pair.1 hw with rfl | rfl <;> exact reaches_transition rfl rfl

theorem reaches_handleAwaitingEmail (hsent : sent ans.now) :
    ∀ w ∈ handleAwaitingEmail ext ans db record message user, w.Reaches ext sent := by
  unfold handleAwaitingEmail
  intro w hw
  cases hvalid : isValidEmail (trim message) with
  | false =>
    rw [hvalid] at hw
    cases hw
  | true =>
    rw [hvalid, if_neg (by decide)] at hw
    split at hw
    · cases hw
    · rcases List.mem_cons.1 hw with rfl | hw
      · refine ⟨fun h hh => ?_, fun sd h hsd => by cases hsd⟩
        exact ⟨message, hvalid, Option.some.inj hh⟩
      · split at hw
        · rw [List.mem_singleton.1 hw]
          exact hsent
        · rw [List.mem_singleton.1 hw]
          exact reaches_transition rfl rfl

theorem reaches_issuePreAuth : ∀ w ∈ issuePreAuth ans record, w.Reaches ext sent := by
  unfold issuePreAuth
  intro w hw
  split at hw
  · rw [List.mem_singleton.1 hw]
    exact reaches_transition rfl rfl
  · cases hw

theorem reaches_handleAwaitingEmailOtp :
    ∀ w ∈ handleAwaitingEmailOtp ext ans record message, w.Reaches ext sent := by
  have hback : ∀ w ∈ reenterEmail record, w.Reaches ext sent := fun w hw => by
    rw [List.mem_singleton.1 hw]
    exact reaches_transition rfl rfl
  have hconfirm : ∀ w ∈ (.transition record.id .emailConfirmed { clearOtp := true } ::
      issuePreAuth ans record : List Write), w.Reaches ext sent :=
    List.forall_mem_cons.2 ⟨reaches_transition rfl rfl, reaches_issuePreAuth⟩
  unfold handleAwaitingEmailOtp
  split
  · exact hback
  · split
    · exact hback
    · split
      · exact hback
      · split
        · split
          · exact List.forall_mem_singleton.2 trivial
          · exact List.forall_mem_singleton.2 trivial
        · split
          · split
            · exact List.forall_mem_singleton.2 (reaches_transition rfl rfl)
            · exact hconfirm
          · exact hconfirm

theorem reaches_handleMessage (hsent : sent ans.now) :
    ∀ w ∈ (handleMessage ext ans mem db record message user).2, w.Reaches ext sent := by
  unfold handleMessage
  cases record.state with
  | awaitingWaitlistToken =>
    dsimp only
    unfold handleAwaitingWaitlistToken
    intro w hw
    split at hw
    · cases hw
    · split at hw
      · cases hw
      · split at hw
        · cases hw
        · split at hw
          · cases hw
          · cases hw
          · rw [List.mem_singleton.1 hw]
            exact reaches_transition rfl rfl
  | awaitingContact => exact reaches_handleAwaitingContact
  | awaitingEmail =>
    dsimp only
    exact reaches_handleAwaitingEmail hsent
  | awaitingEmailOtp =>
    dsimp only
    exact reaches_handleAwaitingEmailOtp
  | initial =>
    dsimp only
    unfold recoverFromInitial
    intro w hw
    split at hw
    · cases hw
    · rw [List.mem_singleton.1 hw]
      exact reaches_transition rfl rfl
    · rcases List.mem_cons.1 hw with rfl | hw
      · exact reaches_transition rfl rfl
      · exact reaches_handleAwaitingContact w hw
  | phoneConfirmed => exact List.forall_mem_singleton.2 (reaches_transition rfl rfl)
  | emailConfirmed => exact reaches_issuePreAuth
  | preAuthTokenIssued => exact fun w hw => absurd hw List.not_mem_nil
  | expired => exact fun w hw => absurd hw List.not_mem_nil
  | failed => exact fun w hw => absurd hw List.not_mem_nil

theorem reaches_handleInboundMessage (hsent : sent ans.now) (huser : ∃ id : ℤ, user = senderText id)
    (hrows : ∀ r ∈ db.rows, RowReached ext r) :
    ∀ w ∈ (handleInboundMessage ext ans contacts mem db user message).2, w.Reaches ext sent := by
  unfold handleInboundMessage
  split
  · exact reaches_handleCompletedOrNew huser hrows
  · split
    · split
      · exact fun w hw => absurd hw List.not_mem_nil
      · exact List.forall_mem_cons.2 ⟨reaches_transition rfl rfl, reaches_handleCompletedOrNew huser hrows⟩
    · exact reaches_handleMessage hsent

/-! ### One active registration -/

theorem Tracks.terminalsKept {steps : List HandlerStep} {a : Option (String × RegistrationState)} {known : Prop}
    (htracks : Tracks user a known (.write w :: steps)) (hactive : ActiveIs db user a)
    (hnodup : (db.rows.map RegistrationRow.id).Nodup) (happly : w.apply db = some db') : TerminalsKept db db' := by
  intro r hr hterminal
  obtain ⟨r', hr', hid, hstate | hmoves⟩ := apply_keeps_row happly hr
  · exact ⟨r', hr', hid, hstate⟩
  · have hthis : ∃ id st, a = some (id, st) ∧ ∃ f, w.change = some (id, f) := by
      cases w with
      | insert row => cases hmoves
      | recordOtpSend user t => cases hmoves
      | transition id st u =>
        obtain ⟨id, st, ha, hf, -⟩ := htracks
        exact ⟨id, st, ha, hf⟩
      | transitionOnOtpLockout id =>
        obtain ⟨id, st, ha, hf, -⟩ := htracks
        exact ⟨id, st, ha, hf⟩
      | incrementOtpAttempt id => cases hmoves
      | recordContactPrompt id n => cases hmoves
    obtain ⟨id, st, rfl, f, hf⟩ := hthis
    obtain ⟨f', hf'⟩ := change_of_movesTo hmoves
    rw [hf] at hf'
    obtain ⟨r₁, hr₁, hid₁, hstate₁, -, hlive⟩ := hactive.row
    have hsame : r₁ = r :=
      List.inj_on_of_nodup_map hnodup hr₁ hr (hid₁.trans (Prod.mk.inj (Option.some.inj hf')).1)
    rw [hsame] at hstate₁
    rw [hstate₁, hlive] at hterminal
    cases hterminal

/-- Different ids, and at most one active registration for each user. -/
structure OneEach (db : Database) : Prop where
  nodup : (db.rows.map RegistrationRow.id).Nodup
  one : ∀ user, ∃ a, ActiveIs db user a

/-- What was terminal is as it was. -/
structure Kept (db₀ db : Database) : Prop extends OneEach db where
  terminals : TerminalsKept db₀ db

theorem along_tracks {db₀ : Database} {steps : List HandlerStep} : ∀ {db : Database}
    {a : Option (String × RegistrationState)} {known : Prop}, Tracks user a known steps → ActiveIs db user a →
      Kept db₀ db → Along (Kept db₀) db (handlerWrites steps) := by
  induction steps with
  | nil => exact fun _ _ _ => .nil _
  | cons step rest ih =>
    intro db a known htracks hactive hkept
    cases step with
    | remember entry => exact ih htracks.2 hactive hkept
    | write w =>
      have hnext : ∀ db', w.apply db = some db' → Kept db₀ db' := by
        intro db' happly
        refine ⟨⟨apply_nodup happly hkept.nodup, fun user' => ?_⟩,
          hkept.terminals.trans (htracks.terminalsKept hactive hkept.nodup happly)⟩
        by_cases hsame : user = user'
        · obtain ⟨a', -, hactive', -⟩ := htracks.wrote hactive hkept.nodup happly
          exact ⟨a', hsame ▸ hactive'⟩
        · obtain ⟨b, hb⟩ := hkept.one user'
          exact ⟨b, (htracks.others hactive hkept.nodup happly hsame hb).1⟩
      refine .cons hnext fun db' happly => ?_
      obtain ⟨a', known', hactive', -, htracks'⟩ := htracks.wrote hactive hkept.nodup happly
      exact ih htracks' hactive' (hnext db' happly)

theorem ActiveIs.ended {id : String} {st : RegistrationState} {u : Updates}
    {a : Option (String × RegistrationState)} (h : ActiveIs db user a)
    (hnodup : (db.rows.map RegistrationRow.id).Nodup) (hst : st.terminal = true)
    (happly : (Write.transition id st u).apply db = some db') : ∃ b, ActiveIs db' user b := by
  by_cases hthis : ∃ st₀, a = some (id, st₀)
  · obtain ⟨st₀, rfl⟩ := hthis
    exact ⟨_, h.moved hnodup happly rfl⟩
  · refine ⟨a, fun id' st' => ?_⟩
    rw [exists_row_apply (P := fun i s v => i = id' ∧ s = st' ∧ v = user ∧ st'.terminal = false) happly]
    constructor
    · intro ha
      obtain ⟨r, hr, hid, hstate, huser, hlive⟩ := (h id' st').1 ha
      refine .inr ⟨r, hr, hid, ?_, huser, hlive⟩
      have hne : id ≠ r.id := fun hsame => hthis ⟨st', by rw [ha, hsame, hid]⟩
      exact (if_neg hne).trans hstate
    · rintro (⟨row, hrow, -⟩ | ⟨r, hr, hid, hstate, huser, hlive⟩)
      · cases hrow
      · by_cases hsame : id = r.id
        · have hmoved : (Write.transition id st u).stateOf r = st := if_pos hsame
          rw [hmoved] at hstate
          rw [← hstate, hst] at hlive
          cases hlive
        · have hkept : (Write.transition id st u).stateOf r = r.state := if_neg hsame
          rw [hkept] at hstate
          exact (h id' st').2 ⟨r, hr, hid, hstate, huser, hlive⟩

/-! ### Runs -/

theorem TableReached.oneEach (h : TableReached ext db) : OneEach db := ⟨h.nodup, h.one⟩

theorem TableReached.execute {ws : List Write} (h : TableReached ext db) (halong : Along OneEach db ws)
    (hws : ∀ w ∈ ws, w.Reaches ext sent) (ans : Answers) : TableReached ext (execute db (ans.cut ws)) := by
  have hrows : Along (fun db => db.hashesDistinct = true ∧ ∀ r ∈ db.rows, RowReached ext r) db ws := by
    refine Along.of_invariant (fun w hw db₁ db₂ hdb happly => ?_) ⟨h.distinct, h.rows⟩
    exact ⟨apply_distinct happly hdb.1, rows_reached happly (hws w hw) hdb.2⟩
  have hcut : ∀ {P : Database → Prop}, Along P db ws → P db → P (Registration.execute db (ans.cut ws)) := by
    intro P halong hdb
    unfold Answers.cut
    split
    · exact halong.execute hdb
    · exact (halong.take _).execute hdb
  obtain ⟨hdistinct, hrow⟩ := hcut hrows ⟨h.distinct, h.rows⟩
  exact ⟨(hcut halong h.oneEach).nodup, hdistinct, (hcut halong h.oneEach).one, hrow⟩

def FromUser (user : String) (u : TelegramUpdate) : Prop :=
  ∃ msg id, u.message = some msg ∧ msg.fromId = some id ∧ senderText id = user

theorem FromUser.exists_id {update : TelegramUpdate} (h : FromUser user update) : ∃ id : ℤ, user = senderText id := by
  obtain ⟨_, id, -, -, rfl⟩ := h
  exact ⟨id, rfl⟩

theorem FromUser.unique {update : TelegramUpdate} {user' : String} (h : FromUser user update)
    (h' : FromUser user' update) : user = user' := by
  obtain ⟨msg, id, hmsg, hid, rfl⟩ := h
  obtain ⟨msg', id', hmsg', hid', rfl⟩ := h'
  rw [hmsg] at hmsg'
  rw [← Option.some.inj hmsg', hid] at hid'
  rw [Option.some.inj hid']

theorem processUpdate_user {contacts contacts' : String → Option StoredContact} {update : TelegramUpdate}
    (h : processUpdate contacts update = (contacts', some (user, message))) : FromUser user update := by
  unfold processUpdate at h
  split at h
  · cases h
  next msg hmsg =>
    split at h
    · cases h
    next id hid =>
      split at h
      · dsimp only at h
        split at h <;> exact ⟨msg, id, hmsg, hid, (Prod.mk.inj (Option.some.inj (Prod.mk.inj h).2)).1⟩
      · split at h
        · cases h
        · split at h
          · cases h
          · exact ⟨msg, id, hmsg, hid, (Prod.mk.inj (Option.some.inj (Prod.mk.inj h).2)).1⟩

theorem TableReached.along_inbound (h : TableReached ext db) (hmade : ans.writesMade ≠ some 0) :
    Along (Kept db) db (handleInboundMessage ext ans contacts mem db user message).2 := by
  obtain ⟨a, hactive⟩ := h.one user
  have htracks : Tracks user a True (handlerSteps ext ans contacts mem db user message) :=
    tracks_handlerSteps hactive
  rw [← handlerWrites_handlerSteps hmade]
  exact along_tracks htracks hactive ⟨h.oneEach, TerminalsKept.refl db⟩

/-- **One event keeps it**, wherever the process stops. -/
theorem TableReached.step {w : World} (h : TableReached ext w.db) (e : Event) :
    TableReached ext (w.step ext e).db := by
  cases e with
  | update update ans =>
    unfold World.step
    dsimp only
    split
    · exact h
    next contacts user message hprocess =>
      by_cases hmade : ans.writesMade = some 0
      · dsimp only
        rw [Answers.cut, hmade]
        exact h
      · have hws : ∀ write ∈ (handleInboundMessage ext ans contacts w.memory w.db user message).2,
            write.Reaches ext fun _ => True :=
          reaches_handleInboundMessage trivial (processUpdate_user hprocess).exists_id h.rows
        exact h.execute ((h.along_inbound hmade).mono fun db hkept => hkept.toOneEach) hws ans
  | expirySweep ans =>
    have hws : ∀ write ∈ expirySweep ans w.db, write.Reaches ext fun _ => True := by
      intro write hwrite
      obtain ⟨r, -, rfl⟩ := List.mem_map.1 hwrite
      exact reaches_transition rfl rfl
    refine h.execute (Along.of_invariant (fun write hwrite db₁ db₂ hdb happly => ?_) h.oneEach) hws ans
    obtain ⟨r, -, rfl⟩ := List.mem_map.1 hwrite
    refine ⟨apply_nodup happly hdb.nodup, fun user => ?_⟩
    obtain ⟨a, hactive⟩ := hdb.one user
    exact hactive.ended hdb.nodup rfl happly
  | resendContactPrompt id n =>
    have hws : ∀ write ∈ [Write.recordContactPrompt id n], write.Reaches ext fun _ => True := by
      intro write hwrite
      rw [List.mem_singleton.1 hwrite]
      exact trivial
    refine h.execute (Along.of_invariant (fun write hwrite db₁ db₂ hdb happly => ?_) h.oneEach) hws plainAnswers
    rw [List.mem_singleton.1 hwrite] at happly
    refine ⟨apply_nodup happly hdb.nodup, fun user => ?_⟩
    obtain ⟨a, hactive⟩ := hdb.one user
    exact ⟨a, hactive.still happly rfl fun row hrow => by cases hrow⟩
  | pendingSweep keep => exact h
  | restart => exact h

theorem tableReached_run (events : List Event) :
    TableReached ext (events.foldl (World.step ext) {}).db := by
  have hrun : ∀ (events : List Event) (w : World), TableReached ext w.db →
      TableReached ext (events.foldl (World.step ext) w).db := by
    intro events
    induction events with
    | nil => exact fun w h => h
    | cons e events ih => exact fun w h => ih _ (h.step e)
  refine hrun events {} ⟨List.nodup_nil, by decide, fun user => ⟨none, fun id st => ?_⟩, fun r hr =>
    absurd hr List.not_mem_nil⟩
  constructor
  · exact fun h => by cases h
  · rintro ⟨r, hr, -⟩
    exact absurd hr List.not_mem_nil

end Cello.OperationsAgent.Registration
