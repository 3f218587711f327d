import Cello.OperationsAgent.Registration.Completion

/-!
# No registration is a dead end

A registration that has more than an hour left can be completed by its user, whatever has happened so far
(`no_dead_end`); with less left it can be, unless a limit holds the user back to the end (`deadEnd_limited`).
-/

namespace Cello.OperationsAgent.Registration

/-! ### The law -/

def Event.time : Event → Option ℤ
  | .update _ ans => some ans.now
  | _ => none

/-- No update of a run comes after a time. -/
def UpTo (T : ℤ) (events : List Event) : Prop := ∀ e ∈ events, ∀ now ∈ e.time, now ≤ T

/-- The engine after a run. -/
def World.after (ext : Externals) (events : List Event) : World := events.foldl (World.step ext) {}

/-- **A run leaves a registration that its user cannot complete any more**, though it has not expired. -/
def DeadEnd (ext : Externals) (events : List Event) : Prop :=
  ∃ r ∈ (World.after ext events).db.rows, r.state.terminal = false ∧ ∃ T, UpTo T events ∧ T ≤ r.expiresAt ∧
    ¬ CanComplete ext (World.after ext events) r.channelUserId r.id T

variable {ext : Externals} {ans : Answers} {mem : Memory} {contacts : String → Option StoredContact} {w : World}
  {db db' : Database} {r record : RegistrationRow} {user message phoneStubHash : String} {T : ℤ}

/-! ### Limits end -/

/-- What the process remembers is not later than a time. -/
structure MemoryUpTo (T : ℤ) (mem : Memory) : Prop where
  tokens : ∀ user, ∀ t ∈ mem.tokenAttempts user, t ≤ T
  gate : ∀ user since, mem.gateFaultAt user = some since → since ≤ T

theorem MemoryUpTo.overTokenLimit (h : MemoryUpTo T mem) (user : String) {now : ℤ} (hnow : now ≤ T) :
    MemoryUpTo T (overTokenLimit mem user now).1 := by
  unfold Registration.overTokenLimit
  dsimp only
  split
  · exact ⟨fun u t ht => h.tokens u t (List.mem_of_mem_filter ht), h.gate⟩
  · refine ⟨fun u t ht => ?_, h.gate⟩
    by_cases hu : u = user
    · subst hu
      dsimp only at ht
      rw [Function.update_self] at ht
      rcases List.mem_append.1 ht with ht | ht
      · exact h.tokens u t (List.mem_of_mem_filter ht)
      · exact List.mem_singleton.1 ht ▸ hnow
    · dsimp only at ht
      rw [Function.update_of_ne hu] at ht
      exact h.tokens u t (List.mem_of_mem_filter ht)

theorem MemoryUpTo.refundTokenAttempt (h : MemoryUpTo T mem) : MemoryUpTo T (refundTokenAttempt mem user) := by
  refine ⟨fun u t ht => ?_, h.gate⟩
  unfold Registration.refundTokenAttempt at ht
  by_cases hu : u = user
  · subst hu
    dsimp only at ht
    rw [Function.update_self] at ht
    exact h.tokens u t ((List.dropLast_sublist _).subset ht)
  · dsimp only at ht
    rw [Function.update_of_ne hu] at ht
    exact h.tokens u t ht

theorem MemoryUpTo.askGate (h : MemoryUpTo T mem) (user : String) {now : ℤ} (hnow : now ≤ T) (answer : Option Bool) :
    MemoryUpTo T (askGate mem user now answer).1 := by
  unfold Registration.askGate
  dsimp only
  have hkept : ∀ u since, (mem.gateFaultAt u).filter (fun t => decide (now - t < gateFaultCooldownMs)) = some since →
      since ≤ T := fun u since hsince => h.gate u since (Option.filter_eq_some_iff.1 hsince).1
  split
  · exact ⟨h.tokens, hkept⟩
  · refine ⟨h.tokens, fun u since hsince => ?_⟩
    by_cases hu : u = user
    · subst hu
      dsimp only at hsince
      rw [Function.update_self] at hsince
      cases hsince
    · dsimp only at hsince
      rw [Function.update_of_ne hu] at hsince
      exact hkept u since hsince
  · refine ⟨h.tokens, fun u since hsince => ?_⟩
    by_cases hu : u = user
    · subst hu
      dsimp only at hsince
      rw [Function.update_self] at hsince
      exact Option.some.inj hsince ▸ hnow
    · dsimp only at hsince
      rw [Function.update_of_ne hu] at hsince
      exact hkept u since hsince

theorem MemoryUpTo.checkGate (h : MemoryUpTo T mem) (user : String) (hnow : ans.now ≤ T) :
    MemoryUpTo T (checkGate ans mem user).1 := by
  unfold Registration.checkGate
  split
  · exact h
  · exact h.askGate user hnow _

theorem MemoryUpTo.handleAwaitingWaitlistToken (h : MemoryUpTo T mem) (hnow : ans.now ≤ T) :
    MemoryUpTo T (handleAwaitingWaitlistToken ans mem record message user).1 := by
  unfold Registration.handleAwaitingWaitlistToken
  split
  · exact h
  next gate _ =>
    split
    · exact h
    · split
      next mem' hlimit =>
        have hmem' := h.overTokenLimit user hnow
        rw [hlimit] at hmem'
        exact hmem'
      next mem' hlimit =>
        have hmem' := h.overTokenLimit user hnow
        rw [hlimit] at hmem'
        have hasked := hmem'.askGate user hnow gate.redeem
        split
        next heq =>
          rw [heq] at hasked
          exact hasked.refundTokenAttempt
        next heq =>
          rw [heq] at hasked
          exact hasked
        next heq =>
          rw [heq] at hasked
          exact hasked

theorem MemoryUpTo.handleMessage (h : MemoryUpTo T mem) (hnow : ans.now ≤ T) :
    MemoryUpTo T (handleMessage ext ans mem db record message user).1 := by
  unfold Registration.handleMessage
  cases record.state with
  | awaitingWaitlistToken => exact h.handleAwaitingWaitlistToken hnow
  | initial =>
    dsimp only
    have hasked := h.checkGate record.channelUserId hnow
    unfold recoverFromInitial
    split
    next heq =>
      rw [heq] at hasked
      exact hasked
    next heq =>
      rw [heq] at hasked
      exact hasked
    next heq =>
      rw [heq] at hasked
      exact hasked
  | awaitingContact => exact h
  | phoneConfirmed => exact h
  | awaitingEmail => exact h
  | awaitingEmailOtp => exact h
  | emailConfirmed => exact h
  | preAuthTokenIssued => exact h
  | expired => exact h
  | failed => exact h

theorem MemoryUpTo.handleCompletedOrNew (h : MemoryUpTo T mem) (hnow : ans.now ≤ T) :
    MemoryUpTo T (handleCompletedOrNew ans mem db user message phoneStubHash).1 := by
  unfold Registration.handleCompletedOrNew
  split
  · have hasked := h.checkGate user hnow
    unfold handleNewUser
    split
    next heq =>
      rw [heq] at hasked
      exact hasked
    next heq =>
      rw [heq] at hasked
      exact hasked
  · split
    · have hforgot : MemoryUpTo T { mem with
          pendingReregistration := Function.update mem.pendingReregistration user none } := ⟨h.tokens, h.gate⟩
      have hasked := hforgot.checkGate user hnow
      unfold handleExistingUser
      split
      next heq =>
        rw [heq] at hasked
        exact hasked
      next heq =>
        rw [heq] at hasked
        exact hasked
      next heq =>
        rw [heq] at hasked
        exact hasked
    · split
      · exact h
      · exact ⟨h.tokens, h.gate⟩

theorem MemoryUpTo.handleInboundMessage (h : MemoryUpTo T mem) (hnow : ans.now ≤ T) :
    MemoryUpTo T (handleInboundMessage ext ans contacts mem db user message).1 := by
  unfold Registration.handleInboundMessage
  split
  · exact h.handleCompletedOrNew hnow
  · split
    · split
      · exact h
      · exact h.handleCompletedOrNew hnow
    · exact h.handleMessage hnow

/-- Every time that limits look at. -/
structure TimesUpTo (T : ℤ) (w : World) : Prop where
  memory : MemoryUpTo T w.memory
  sends : ∀ e ∈ w.db.otpSends, e.2 ≤ T

theorem sends_of_apply {write : Write} {sent : ℤ → Prop} (happly : write.apply db = some db')
    (hwrite : write.Reaches ext sent) (h : ∀ e ∈ db.otpSends, sent e.2) : ∀ e ∈ db'.otpSends, sent e.2 := by
  have hchecked : ∀ {db₁ db₂ : Database}, db₁.checked = some db₂ → db₂.otpSends = db₁.otpSends :=
    fun hdb => by rw [checked_some hdb]
  have hchange : ∀ {id : String} {f : RegistrationRow → RegistrationRow} {db₂ : Database},
      db.change id f = some db₂ → db₂.otpSends = db.otpSends := by
    intro id f db₂ hdb
    unfold Database.change at hdb
    split at hdb
    · exact Option.some.inj hdb ▸ rfl
    · cases hdb
  cases write with
  | insert row =>
    rw [Write.apply] at happly
    split at happly
    · cases happly
    · rw [hchecked happly]
      exact h
  | transition id st u =>
    obtain ⟨mid, hmid, hdb⟩ := Option.bind_eq_some_iff.1 happly
    rw [hchecked hdb, hchange hmid]
    exact h
  | transitionOnOtpLockout id =>
    obtain ⟨mid, hmid, hdb⟩ := Option.bind_eq_some_iff.1 happly
    rw [hchecked hdb, hchange hmid]
    exact h
  | incrementOtpAttempt id =>
    rw [hchange happly]
    exact h
  | recordContactPrompt id n =>
    obtain rfl := Option.some.inj happly
    exact h
  | recordOtpSend user t =>
    obtain rfl := Option.some.inj happly
    intro e he
    rcases List.mem_append.1 he with he | he
    · exact h e he
    · rw [List.mem_singleton.1 he]
      exact hwrite

theorem sends_of_execute {ws : List Write} {sent : ℤ → Prop} (hws : ∀ write ∈ ws, write.Reaches ext sent)
    (h : ∀ e ∈ db.otpSends, sent e.2) : ∀ e ∈ (execute db (ans.cut ws)).otpSends, sent e.2 := by
  have hall : Along (fun db => ∀ e ∈ db.otpSends, sent e.2) db ws :=
    Along.of_invariant (fun write hwrite _ _ hdb happly => sends_of_apply happly (hws write hwrite) hdb) h
  unfold Answers.cut
  split
  · exact hall.execute h
  · exact (hall.take _).execute h

theorem TimesUpTo.step {e : Event} (h : TimesUpTo T w) (hreached : TableReached ext w.db)
    (htime : ∀ now, e.time = some now → now ≤ T) : TimesUpTo T (w.step ext e) := by
  cases e with
  | update update ans =>
    have hnow : ans.now ≤ T := htime ans.now rfl
    unfold World.step
    dsimp only
    split
    · exact ⟨h.memory, h.sends⟩
    next contacts user message hprocess =>
      have hws : ∀ write ∈ (handleInboundMessage ext ans contacts w.memory w.db user message).2,
          write.Reaches ext (· ≤ T) :=
        reaches_handleInboundMessage hnow (processUpdate_user hprocess).exists_id hreached.rows
      exact ⟨h.memory.handleInboundMessage hnow, sends_of_execute hws h.sends⟩
  | expirySweep ans =>
    have hws : ∀ write ∈ expirySweep ans w.db, write.Reaches ext (· ≤ T) := by
      intro write hwrite
      obtain ⟨r, -, rfl⟩ := List.mem_map.1 hwrite
      exact reaches_transition rfl rfl
    exact ⟨h.memory, sends_of_execute hws h.sends⟩
  | resendContactPrompt id n => exact ⟨h.memory, h.sends⟩
  | pendingSweep keep => exact ⟨⟨h.memory.tokens, h.memory.gate⟩, h.sends⟩
  | restart => exact ⟨⟨fun user t ht => absurd ht List.not_mem_nil, fun user since hsince => by cases hsince⟩, h.sends⟩

theorem timesUpTo_after {events : List Event} (hT : UpTo T events) : TimesUpTo T (World.after ext events) := by
  have hrun : ∀ (events : List Event) (w : World), UpTo T events → TableReached ext w.db → TimesUpTo T w →
      TimesUpTo T (events.foldl (World.step ext) w) := by
    intro events
    induction events with
    | nil => exact fun w _ _ h => h
    | cons e events ih =>
      intro w hT hreached h
      exact ih _ (fun e' he' => hT e' (List.mem_cons_of_mem _ he')) (hreached.step e)
        (h.step hreached (hT e List.mem_cons_self))
  exact hrun events {} hT (tableReached_run []) ⟨⟨fun user t ht => absurd ht List.not_mem_nil,
    fun user since hsince => by cases hsince⟩, fun e he => absurd he List.not_mem_nil⟩

theorem TimesUpTo.unlimited (h : TimesUpTo T w) (r : RegistrationRow) :
    Unlimited ext w r (T + otpRateWindowMs) := by
  have hhour : tokenAttemptWindowMs = otpRateWindowMs := rfl
  generalize huser : r.channelUserId = user
  refine ⟨fun _ => ?_, fun _ since hsince => ?_, fun _ _ => ?_⟩ <;> rw [huser] at *
  · have hnone : ((w.memory.tokenAttempts user).filter fun t =>
        decide (T + otpRateWindowMs - tokenAttemptWindowMs < t)) = [] := by
      refine List.filter_eq_nil_iff.2 fun t ht hlive => ?_
      have hold := h.memory.tokens user t ht
      have hless := of_decide_eq_true hlive
      omega
    unfold overTokenLimit
    dsimp only
    rw [if_neg (by rw [hnone]; decide)]
  · have hold := h.memory.gate user since hsince
    have hshort : gateFaultCooldownMs ≤ otpRateWindowMs := by decide
    omega
  · have hnone : (w.db.otpSends.filter fun e =>
        decide (e.1 = user) && decide (T + otpRateWindowMs - otpRateWindowMs < e.2)) = [] := by
      refine List.filter_eq_nil_iff.2 fun e he hlive => ?_
      have hold := h.sends e he
      have hless := of_decide_eq_true (Bool.and_eq_true_iff.1 hlive).2
      omega
    unfold Database.countOtpSends
    rw [hnone]
    decide

/-- **No dead end**: after every run, a registration that is not terminal can be completed by its user from every
time before it expires at which no limit holds them back, and so it can an hour after the last message. -/
theorem no_dead_end (ext : Externals) (hsha : ∀ s, ext.sha256 s ≠ "") (phones : List String)
    (hphones : ∀ p ∈ phones, IsPhone p) (hhashes : (phones.map fun p => hashPhone ext (normalizePhone p)).Nodup)
    (events : List Event) (hmany : (World.after ext events).db.rows.length < phones.length) (r : RegistrationRow)
    (hr : r ∈ (World.after ext events).db.rows) (hlive : r.state.terminal = false) :
    (∀ t ≤ r.expiresAt, Unlimited ext (World.after ext events) r t →
      CanComplete ext (World.after ext events) r.channelUserId r.id t) ∧
    ∀ T, UpTo T events → T + otpRateWindowMs ≤ r.expiresAt →
      CanComplete ext (World.after ext events) r.channelUserId r.id (T + otpRateWindowMs) := by
  have hreached : TableReached ext (World.after ext events).db := tableReached_run events
  obtain ⟨uid, huser⟩ := (hreached.rows r hr).user
  obtain ⟨phone, hphone, hfree⟩ := exists_freePhone hhashes hmany r.id
  have hall : ∀ t ≤ r.expiresAt, Unlimited ext (World.after ext events) r t →
      CanComplete ext (World.after ext events) r.channelUserId r.id t := by
    intro t ht hunlimited
    rw [huser]
    exact canComplete hsha ⟨hreached.sole hr hlive, huser, ht, (hreached.rows r hr).expected⟩ hunlimited
      (hphones phone hphone) hfree
  exact ⟨hall, fun T hT ht => hall _ ht ((timesUpTo_after hT).unlimited r)⟩

/-- A user who has said hello can complete the registration at once. -/
theorem no_dead_end_hello :
    CanComplete plainExternals (World.after plainExternals [.update (typedUpdate 42 "hi") plainAnswers]) "42"
      "registration" 0 := by
  have hrow : ∃ r ∈ (World.after plainExternals [.update (typedUpdate 42 "hi") plainAnswers]).db.rows,
      r.id = "registration" ∧ r.channelUserId = "42" ∧ r.state.terminal = false ∧ 0 ≤ r.expiresAt := by decide
  obtain ⟨r, hr, hid, huser, hlive, hexpires⟩ := hrow
  have hsha : ∀ s, plainExternals.sha256 s ≠ "" := digests.hex_ne_empty
  have hphones : ∀ p ∈ ["+15550100", "+15550101"], IsPhone p := by
    have hchars : ∀ p ∈ ["+15550100", "+15550101"],
        p ≠ "" ∧ p.toList.all (fun c => !Directory.ChainStore.isSpace c) = true ∧ ':' ∉ p.toList := by decide
    intro p hp
    obtain ⟨hne, hspace, hcolon⟩ := hchars p hp
    exact ⟨⟨hne, fun c hc => by simpa using List.all_eq_true.1 hspace c hc⟩, hcolon⟩
  have hunlimited : Unlimited plainExternals
      (World.after plainExternals [.update (typedUpdate 42 "hi") plainAnswers]) r 0 := by
    refine ⟨fun _ => ?_, fun _ since hsince => ?_, fun _ _ => ?_⟩
    · rw [huser]
      decide
    · cases hsince
    · rw [huser]
      decide
  have hcan := (no_dead_end plainExternals hsha ["+15550100", "+15550101"] hphones (by decide)
    [.update (typedUpdate 42 "hi") plainAnswers] (by decide) r hr hlive).1 0 hexpires hunlimited
  rwa [huser, hid] at hcan

/-! ### Limits that last -/

/-- A registration that has expired, and its table. -/
structure Ended (ext : Externals) (w : World) (id : String) : Prop where
  reached : TableReached ext w.db
  row : ∃ r ∈ w.db.rows, r.id = id ∧ r.state = .expired

theorem Ended.step {id : String} (h : Ended ext w id) (u : TelegramUpdate) (hmade : ans.writesMade = none) :
    Ended ext (w.step ext (.update u ans)) id := by
  refine ⟨h.reached.step _, ?_⟩
  obtain ⟨r, hr, hid, hstate⟩ := h.row
  unfold World.step
  dsimp only
  split
  · exact ⟨r, hr, hid, hstate⟩
  next contacts user message _ =>
    have halong : Along (Kept w.db) w.db (handleInboundMessage ext ans contacts w.memory w.db user message).2 :=
      h.reached.along_inbound (by rw [hmade]; decide)
    have hkept := halong.execute ⟨h.reached.oneEach, TerminalsKept.refl _⟩
    obtain ⟨r', hr', hid', hstate'⟩ := hkept.terminals r hr (by rw [hstate]; rfl)
    dsimp only
    rw [Answers.cut, hmade]
    exact ⟨r', hr', hid'.trans hid, hstate'.trans hstate⟩

theorem Ended.not_issued {id : String} (h : Ended ext w id) : ¬ Issued w.db id := by
  rintro ⟨r, hr, hid, hstate⟩
  obtain ⟨r', hr', hid', hstate'⟩ := h.row
  rw [List.inj_on_of_nodup_map h.reached.nodup hr hr' (hid.trans hid'.symm), hstate'] at hstate
  cases hstate

theorem execute_expired {ws : List Write} (h : TableReached ext db) (hr : r ∈ db.rows)
    (hlive : r.state.terminal = false) (hfresh : Fresh r.channelUserId ans.id ws) :
    ∃ r' ∈ (execute db (.transition r.id .expired :: ws)).rows, r'.id = r.id ∧ r'.state = .expired := by
  have hsole := h.sole hr hlive
  have happly : (Write.transition r.id .expired).apply db =
      some { db with rows := updateRow r.id (·.transitioned .expired {}) db.rows } :=
    hsole.change_applies (f := (·.transitioned .expired {})) (fun _ => rfl) fun hterminal => by cases hterminal
  rw [execute_cons happly]
  obtain ⟨a, hactive⟩ := h.one r.channelUserId
  obtain rfl := hactive.of_findActive hsole.findActive
  have hnone : ActiveIs { db with rows := updateRow r.id (·.transitioned .expired {}) db.rows } r.channelUserId none :=
    hactive.moved h.nodup happly rfl
  have hone : OneEach { db with rows := updateRow r.id (·.transitioned .expired {}) db.rows } := by
    refine ⟨apply_nodup happly h.nodup, fun user => ?_⟩
    obtain ⟨b, hb⟩ := h.one user
    exact hb.ended h.nodup rfl happly
  have halong := along_tracks (tracks_fresh hfresh) hnone ⟨hone, TerminalsKept.refl _⟩
  rw [handlerWrites_remembering] at halong
  obtain ⟨r', hr', hid, hstate⟩ := (halong.execute ⟨hone, TerminalsKept.refl _⟩).terminals
    (r.transitioned .expired {}) hsole.mem_changed rfl
  exact ⟨r', hr', hid, hstate⟩

/-- A user who is held back: as long as the registration has not expired, no message of theirs writes anything, and
`M` goes on to hold of what the process remembers. -/
def HeldBack (ext : Externals) (db : Database) (r : RegistrationRow) (M : Memory → Prop) : Prop :=
  ∀ mem ans message, M mem → Healthy ans → ans.now ≤ r.expiresAt →
    (handleMessage ext ans mem db r message r.channelUserId).2 = [] ∧
      M (handleMessage ext ans mem db r message r.channelUserId).1

/-- One message of a user who is held back. -/
theorem HeldBack.step {M : Memory → Prop} {u : TelegramUpdate} (h : HeldBack ext w.db r M)
    (hreached : TableReached ext w.db) (hr : r ∈ w.db.rows) (hlive : r.state.terminal = false) (hM : M w.memory)
    (hans : Healthy ans) (hfrom : FromUser r.channelUserId u) :
    ((w.step ext (.update u ans)).db = w.db ∧ M (w.step ext (.update u ans)).memory) ∨
      Ended ext (w.step ext (.update u ans)) r.id := by
  have hfind : w.db.findActive r.channelUserId = some r := (hreached.sole hr hlive).findActive
  have hall : ∀ ws, ans.cut ws = ws := fun ws => by rw [Answers.cut, hans.made]
  have hafter := hreached.step (.update u ans)
  have hmessage : ∀ contacts called, processUpdate w.contacts u = (contacts, some called) → ∃ message,
      called = (r.channelUserId, message) := fun contacts called hprocess =>
    ⟨called.2, Prod.ext ((processUpdate_user hprocess).unique hfrom) rfl⟩
  unfold World.step at hafter ⊢
  dsimp only at hafter ⊢
  cases hprocess : processUpdate w.contacts u with
  | mk contacts called =>
    cases called with
    | none => exact .inl ⟨rfl, hM⟩
    | some called =>
      obtain ⟨message, rfl⟩ := hmessage contacts called hprocess
      rw [hprocess] at hafter
      dsimp only at hafter ⊢
      by_cases hexpired : r.expiresAt < ans.now
      · refine .inr ⟨hafter, ?_⟩
        have hwrites : (handleInboundMessage ext ans contacts w.memory w.db r.channelUserId message).2 =
            .transition r.id .expired :: (handleCompletedOrNew ans w.memory w.db r.channelUserId message
              (identityHash ext contacts r.channelUserId)).2 := by
          unfold handleInboundMessage
          rw [hfind]
          dsimp only
          rw [if_pos hexpired, if_neg (by rw [hans.made]; decide)]
        dsimp only
        rw [hall, hwrites]
        exact execute_expired hreached hr hlive fresh_handleCompletedOrNew
      · refine .inl ?_
        obtain ⟨hnothing, hnext⟩ := h w.memory ans message hM hans (not_lt.1 hexpired)
        have hhandle : handleInboundMessage ext ans contacts w.memory w.db r.channelUserId message =
            handleMessage ext ans w.memory w.db r message r.channelUserId := by
          unfold handleInboundMessage
          rw [hfind]
          dsimp only
          rw [if_neg hexpired]
        rw [hhandle, hall, hnothing]
        exact ⟨rfl, hnext⟩

/-- **A user who is held back to the end cannot complete the registration.** -/
theorem HeldBack.not_completes {M : Memory → Prop} {t : ℤ} (h : HeldBack ext w.db r M)
    (hreached : TableReached ext w.db) (hr : r ∈ w.db.rows) (hlive : r.state.terminal = false) (hM : M w.memory) :
    ¬ CanComplete ext w r.channelUserId r.id t := by
  have hrun : ∀ (messages : List (TelegramUpdate × ℤ)) (draw : ℕ → Answers) (w' : World), (∀ i, Healthy (draw i)) →
      (∀ m ∈ messages, FromUser r.channelUserId m.1) →
        ((w'.db = w.db ∧ M w'.memory) ∨ Ended ext w' r.id) → ¬ Issued (w'.afterMessages ext draw messages).db r.id := by
    intro messages
    induction messages with
    | nil =>
      rintro draw w' - - (⟨hdb, -⟩ | hended)
      · rintro ⟨r', hr', hid, hstate⟩
        have hr'' : r' ∈ w.db.rows := by
          rw [← hdb]
          exact hr'
        rw [(hreached.sole hr hlive).eq_of_id hr'' hid] at hstate
        rw [hstate] at hlive
        cases hlive
      · exact hended.not_issued
    | cons m messages ih =>
      intro draw w' hdraw hfrom hw'
      refine ih (fun i => draw (i + 1)) _ (fun i => hdraw (i + 1))
        (fun m' hm' => hfrom m' (List.mem_cons_of_mem _ hm')) ?_
      rcases hw' with ⟨hdb, hM'⟩ | hended
      · rw [← hdb] at h hreached hr ⊢
        exact h.step hreached hr hlive hM' ((hdraw 0).at m.2) (hfrom m List.mem_cons_self)
      · exact .inr (hended.step m.1 (hdraw 0).made)
  intro hcan
  have hhealthy : Healthy { plainAnswers with gate := some ⟨some true, some true⟩ } :=
    ⟨rfl, ⟨by decide, List.all_eq_true.1 (show "123456".toList.all Char.isDigit = true by decide)⟩, by decide, rfl, rfl,
      rfl⟩
  obtain ⟨messages, hmessages, -, hissued⟩ := hcan (fun _ => _) fun _ => hhealthy
  exact hrun messages _ w (fun _ => hhealthy) (fun m hm => (hmessages m hm).1) (.inl ⟨rfl, hM⟩) hissued

theorem heldBack_codes (hstate : r.state = .awaitingEmail)
    (hcodes : otpRateLimitPerHour ≤ db.countOtpSends r.channelUserId (r.expiresAt - otpRateWindowMs)) :
    HeldBack ext db r fun _ => True := by
  intro mem ans message _ _ hnow
  have hmany : otpRateLimitPerHour ≤ db.countOtpSends r.channelUserId (ans.now - otpRateWindowMs) := by
    refine hcodes.trans (List.Sublist.length_le (List.monotone_filter_right _ fun e he => ?_))
    rw [Bool.and_eq_true, decide_eq_true_eq, decide_eq_true_eq] at he ⊢
    exact ⟨he.1, by omega⟩
  unfold handleMessage
  rw [hstate]
  dsimp only
  refine ⟨?_, trivial⟩
  unfold handleAwaitingEmail
  cases isValidEmail (trim message) with
  | false => rfl
  | true => rw [if_neg (by decide), if_pos hmany]

theorem heldBack_gate (hstate : r.state = .awaitingWaitlistToken) : HeldBack ext db r fun mem =>
    ∃ since, mem.gateFaultAt r.channelUserId = some since ∧ r.expiresAt < since + gateFaultCooldownMs := by
  rintro mem ans message ⟨since, hsince, hlater⟩ hans hnow
  unfold handleMessage
  rw [hstate]
  dsimp only
  unfold handleAwaitingWaitlistToken
  rw [hans.gate]
  dsimp only
  split
  · exact ⟨rfl, since, hsince, hlater⟩
  have hsame := overTokenLimit_gate mem r.channelUserId ans.now
  cases hover : overTokenLimit mem r.channelUserId ans.now with
  | mk mem' limited =>
    rw [hover] at hsame
    cases limited with
    | true => exact ⟨rfl, since, hsame ▸ hsince, hlater⟩
    | false =>
      have hrecent : (mem'.gateFaultAt r.channelUserId).filter
          (fun t => decide (ans.now - t < gateFaultCooldownMs)) = some since := by
        rw [show mem'.gateFaultAt = mem.gateFaultAt from hsame, hsince, Option.filter_some,
          if_pos (decide_eq_true (by omega))]
      dsimp only
      unfold askGate
      dsimp only
      rw [hrecent]
      exact ⟨rfl, since, hrecent, hlater⟩

theorem heldBack_tokens (hstate : r.state = .awaitingWaitlistToken) : HeldBack ext db r fun mem =>
    maxTokenAttempts ≤ ((mem.tokenAttempts r.channelUserId).filter
      fun t => decide (r.expiresAt - tokenAttemptWindowMs < t)).length := by
  intro mem ans message hmany hans hnow
  have hrecent : ∀ l : List ℤ, (l.filter fun t => decide (ans.now - tokenAttemptWindowMs < t)).filter
      (fun t => decide (r.expiresAt - tokenAttemptWindowMs < t)) =
        l.filter fun t => decide (r.expiresAt - tokenAttemptWindowMs < t) := by
    intro l
    rw [List.filter_filter]
    refine List.filter_congr fun t _ => ?_
    rw [Bool.and_eq_left_iff_imp, decide_eq_true_eq, decide_eq_true_eq]
    intro hlive
    omega
  have hlimit : maxTokenAttempts ≤ ((mem.tokenAttempts r.channelUserId).filter
      fun t => decide (ans.now - tokenAttemptWindowMs < t)).length := by
    rw [← hrecent] at hmany
    exact hmany.trans (List.length_filter_le _ _)
  unfold handleMessage
  rw [hstate]
  dsimp only
  unfold handleAwaitingWaitlistToken
  rw [hans.gate]
  dsimp only
  split
  · exact ⟨rfl, hmany⟩
  · unfold overTokenLimit
    dsimp only
    rw [if_pos hlimit]
    refine ⟨rfl, ?_⟩
    dsimp only
    rw [hrecent]
    exact hmany

/-! ### Limits reached before the end -/

def nearEnd : ℤ := registrationTtlMs - 10 * 60 * 1000

def codeSpent : List Event :=
  ["a@b.co", "000000", "000000", "000000"].map fun text =>
    .update (typedUpdate 42 text) { plainAnswers with now := nearEnd }

/-- Five codes in the last ten minutes. -/
def codesSpent : List Event :=
  .update (typedUpdate 42 "hi") plainAnswers :: .update (sharedUpdate 42 "+15550100") plainAnswers ::
    (List.replicate 5 codeSpent).flatten

def refusedFirst : Event :=
  .update (typedUpdate 42 "hi") { plainAnswers with gate := some ⟨some false, some false⟩ }

/-- The gate fails half a minute before the end. -/
def gateFailed : List Event :=
  [refusedFirst, .update (typedUpdate 42 "token")
    { plainAnswers with now := registrationTtlMs - 30 * 1000, gate := some ⟨none, none⟩ }]

/-- Five wrong tokens in the last ten minutes. -/
def tokensSpent : List Event :=
  refusedFirst :: List.replicate 5 (.update (typedUpdate 42 "token")
    { plainAnswers with now := nearEnd, gate := some ⟨some false, some false⟩ })

/-- **Limits that last to the end**: of the codes sent, of the gate that has failed, and of the tokens tried. -/
theorem deadEnd_limited : DeadEnd plainExternals codesSpent ∧ DeadEnd plainExternals gateFailed ∧
    DeadEnd plainExternals tokensSpent := by
  refine ⟨?_, ?_, ?_⟩
  · have hrow : ∃ r ∈ (World.after plainExternals codesSpent).db.rows, r.state = .awaitingEmail ∧
        nearEnd ≤ r.expiresAt ∧ otpRateLimitPerHour ≤ (World.after plainExternals codesSpent).db.countOtpSends
          r.channelUserId (r.expiresAt - otpRateWindowMs) := by decide +kernel
    obtain ⟨r, hr, hstate, htime, hcodes⟩ := hrow
    have hbefore : ∀ e ∈ codesSpent, ∀ now ∈ e.time, now ≤ nearEnd := by decide
    have hlive : r.state.terminal = false := by rw [hstate]; rfl
    exact ⟨r, hr, hlive, nearEnd, hbefore, htime,
      (heldBack_codes hstate hcodes).not_completes (tableReached_run _) hr hlive trivial⟩
  · have hrow : ∃ r ∈ (World.after plainExternals gateFailed).db.rows, r.state = .awaitingWaitlistToken ∧
        r.channelUserId = "42" ∧ r.expiresAt = registrationTtlMs := by decide
    have hsince : (World.after plainExternals gateFailed).memory.gateFaultAt "42" =
        some (registrationTtlMs - 30 * 1000) := by decide
    obtain ⟨r, hr, hstate, huser, hexpires⟩ := hrow
    have hbefore : ∀ e ∈ gateFailed, ∀ now ∈ e.time, now ≤ registrationTtlMs := by decide
    have hlive : r.state.terminal = false := by rw [hstate]; rfl
    refine ⟨r, hr, hlive, registrationTtlMs, hbefore, hexpires.ge,
      (heldBack_gate hstate).not_completes (tableReached_run _) hr hlive ⟨_, huser ▸ hsince, ?_⟩⟩
    rw [hexpires]
    decide
  · have hrow : ∃ r ∈ (World.after plainExternals tokensSpent).db.rows, r.state = .awaitingWaitlistToken ∧
        nearEnd ≤ r.expiresAt ∧ maxTokenAttempts ≤
          (((World.after plainExternals tokensSpent).memory.tokenAttempts r.channelUserId).filter
            fun t => decide (r.expiresAt - tokenAttemptWindowMs < t)).length := by decide
    obtain ⟨r, hr, hstate, htime, htokens⟩ := hrow
    have hbefore : ∀ e ∈ tokensSpent, ∀ now ∈ e.time, now ≤ nearEnd := by decide
    have hlive : r.state.terminal = false := by rw [hstate]; rfl
    exact ⟨r, hr, hlive, nearEnd, hbefore, htime,
      (heldBack_tokens hstate).not_completes (tableReached_run _) hr hlive htokens⟩

end Cello.OperationsAgent.Registration
