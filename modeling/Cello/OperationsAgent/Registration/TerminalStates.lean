import Cello.OperationsAgent.Registration.Calls
import Cello.OperationsAgent.Registration.PhoneVerified

/-!
# Terminal states

A registration that has reached a terminal state stays in it (`terminal_final`), however the handlers and the
sweeps cross, where no call ends a registration that another call in flight may still move: a transition is an
update by id, from what was read earlier.
-/

namespace Cello.OperationsAgent.Registration

open Lib

/-! ### Moves -/

def Write.movesTo : Write → Option (String × RegistrationState)
  | .transition id st _ => some (id, st)
  | .transitionOnOtpLockout id => some (id, .awaitingEmail)
  | _ => none

/-- **A call may still move a registration** to a state, one that is not its own new one. -/
inductive MayMove (id : String) (st : RegistrationState) : RegistrationCall → Prop
  | query {f : Shared → Shared} {k : Shared → RegistrationCall} (s : Shared) (h : MayMove id st (k s)) :
      MayMove id st (.query f k)
  | here {w : Write} {k : RegistrationCall} (h : w.movesTo = some (id, st)) : MayMove id st (.write w k)
  | later {w : Write} {k : RegistrationCall} (h : MayMove id st k)
      (hother : ∀ row, w = .insert row → row.id ≠ id) : MayMove id st (.write w k)

def Proper : RegistrationCall → Prop
  | .done => True
  | .query f k => (∀ s, (f s).db = s.db) ∧ ∀ s, Proper (k s)
  | .write w k => (∀ row, w = .insert row → row.state.terminal = false) ∧
      (∀ id st, w.movesTo = some (id, st) → st.terminal = true → ∀ st', MayMove id st' k → st' = st) ∧ Proper k

/-! ### The runs and the condition -/

/-- What happens to the calls in flight. -/
inductive Crossing where
  | message (contacts : String → Option StoredContact) (user text : String) (answers : Answers)
  | expirySweep (answers : Answers)
  | contactPromptSweep (visits : List (String × ℤ))
  | step (i : ℕ)
  | stop (i : ℕ)
  | restart

section

variable (ext : Externals)

def Crossing.event : Crossing → PoolEvent Shared Write
  | .message contacts user text ans => .start (inboundCall ext ans contacts user text)
  | .expirySweep ans => .start (expirySweepCall ans)
  | .contactPromptSweep visits => .start (contactPromptCall visits)
  | .step i => .step i
  | .stop i => .stop i
  | .restart => .restart fun s => { db := s.db }

/-- One crossing. -/
def crossStep (p : Pool Shared Write) (e : Crossing) : Pool Shared Write :=
  p.step Shared.apply (e.event ext)

/-- The calls in flight after some crossings. -/
def crossRun (events : List Crossing) : Pool Shared Write := events.foldl (crossStep ext) ⟨{}, []⟩

end

/-- **No call ends a registration that another may still move.** -/
def EndsAlone (p : Pool Shared Write) : Crossing → Prop
  | .step i => ∀ w k id st, p.calls[i]? = some (.write w k) → w.movesTo = some (id, st) →
      st.terminal = true → ∀ j c, j ≠ i → p.calls[j]? = some c → ∀ st', MayMove id st' c → st' = st
  | _ => True

/-- **The terminal registrations are final**: each is there later, in the same state. -/
def TerminalFinal (db db' : Database) : Prop :=
  ∀ r ∈ db.rows, r.state.terminal = true →
    (∃ r' ∈ db'.rows, r'.id = r.id) ∧ ∀ r' ∈ db'.rows, r'.id = r.id → r'.state = r.state

/-! ### The writes of a handler -/

variable {ext : Externals} {ans : Answers} {mem : Memory} {db : Database} {record : RegistrationRow}
  {user message phoneStubHash id : String} {st : RegistrationState} {ws : List Write} {w : Write}

theorem mayMove_ofWrites (h : MayMove id st (.ofWrites ws)) : ∃ w ∈ ws, w.movesTo = some (id, st) := by
  induction ws with
  | nil => cases h
  | cons w ws ih =>
    cases h with
    | here h => exact ⟨w, List.mem_cons_self, h⟩
    | later h _ =>
      obtain ⟨w', hw', hmoves⟩ := ih h
      exact ⟨w', List.mem_cons_of_mem _ hw', hmoves⟩

/-- The writes of a call that deals with one registration, and ends it at most as the last thing. -/
structure About (id : String) (ws : List Write) : Prop where
  only : ∀ w ∈ ws, ∀ id' f, w.change = some (id', f) → id' = id
  kept : ∀ w ∈ ws, ∀ row, w ≠ .insert row
  last : ∀ w ∈ ws.dropLast, ∀ id' st, w.movesTo = some (id', st) → st.terminal = false

theorem About.proper (h : About id ws) : Proper (.ofWrites ws) := by
  induction ws with
  | nil => exact trivial
  | cons w ws ih =>
    refine ⟨fun row hw => absurd hw (h.kept w List.mem_cons_self row), fun id' st hmoves hterminal st' hlater => ?_,
      ih ⟨fun w' hw' => h.only w' (List.mem_cons_of_mem _ hw'),
        fun w' hw' => h.kept w' (List.mem_cons_of_mem _ hw'), fun w' hw' => ?_⟩⟩
    · cases ws with
      | nil => cases hlater
      | cons w' ws =>
        have hcalm := h.last w (by rw [List.dropLast_cons_cons]; exact List.mem_cons_self) id' st hmoves
        rw [hcalm] at hterminal
        cases hterminal
    · cases ws with
      | nil => cases hw'
      | cons w'' ws =>
        exact h.last w' (by rw [List.dropLast_cons_cons]; exact List.mem_cons_of_mem _ hw')

theorem change_of_movesTo (h : w.movesTo = some (id, st)) : ∃ f, w.change = some (id, f) := by
  cases w <;> cases h
  case transition u => exact ⟨_, rfl⟩
  case transitionOnOtpLockout => exact ⟨_, rfl⟩

theorem About.mayMove {id' : String} (h : About id' ws) (hmoves : MayMove id st (.ofWrites ws)) : id = id' := by
  obtain ⟨w, hw, hthis⟩ := mayMove_ofWrites hmoves
  obtain ⟨f, hchange⟩ := change_of_movesTo hthis
  exact h.only w hw id f hchange

theorem about_nil : About id [] :=
  ⟨fun _ h => absurd h List.not_mem_nil, fun _ h => absurd h List.not_mem_nil,
    fun _ h => absurd h List.not_mem_nil⟩

theorem about_one (honly : ∀ id' f, w.change = some (id', f) → id' = id) (hkept : ∀ row, w ≠ .insert row) :
    About id [w] :=
  ⟨fun _ h => List.mem_singleton.1 h ▸ honly, fun _ h => List.mem_singleton.1 h ▸ hkept,
    fun _ h => absurd h List.not_mem_nil⟩

theorem About.cons (honly : ∀ id' f, w.change = some (id', f) → id' = id)
    (hcalm : ∀ id' st, w.movesTo = some (id', st) → st.terminal = false)
    (hkept : ∀ row, w ≠ .insert row) (h : About id ws) : About id (w :: ws) := by
  refine ⟨fun w' hw' => ?_, fun w' hw' => ?_, fun w' hw' => ?_⟩
  · rcases List.mem_cons.1 hw' with rfl | hw'
    · exact honly
    · exact h.only w' hw'
  · rcases List.mem_cons.1 hw' with rfl | hw'
    · exact hkept
    · exact h.kept w' hw'
  · cases ws with
    | nil => cases hw'
    | cons w'' ws =>
      rw [List.dropLast_cons_cons] at hw'
      rcases List.mem_cons.1 hw' with rfl | hw'
      · exact hcalm
      · exact h.last w' hw'

theorem about_transition (st : RegistrationState) (u : Updates) : About id [.transition id st u] :=
  about_one (fun id' f h => by cases h; rfl) fun row => nofun

theorem About.transition (h : About id ws) (hst : st.terminal = false) (u : Updates) :
    About id (.transition id st u :: ws) :=
  h.cons (fun id' f h => by cases h; rfl) (fun id' st' hmoves => by cases hmoves; exact hst) fun row => nofun

theorem about_handleAwaitingContact : About record.id (handleAwaitingContact ext record message user) := by
  unfold handleAwaitingContact
  split
  · exact about_one (fun id' f h => by cases h; rfl) fun row => nofun
  · split
    · exact about_nil
    · exact (about_transition _ _).transition rfl _

theorem about_handleAwaitingEmail : About record.id (handleAwaitingEmail ext ans db record message user) := by
  unfold handleAwaitingEmail
  split
  · exact about_nil
  · split
    · exact about_nil
    · split
      · have hsent : About record.id [.recordOtpSend user ans.now] :=
          about_one (fun id' st h => by cases h) fun row => nofun
        exact hsent.transition rfl _
      · exact (about_transition _ _).transition rfl _

theorem about_issuePreAuth : About record.id (issuePreAuth ans record) := by
  unfold issuePreAuth
  split
  · exact about_transition _ _
  · exact about_nil

theorem about_handleAwaitingEmailOtp : About record.id (handleAwaitingEmailOtp ext ans record message) := by
  have hconfirm : About record.id (.transition record.id .emailConfirmed { clearOtp := true } ::
      issuePreAuth ans record) := about_issuePreAuth.transition rfl _
  unfold handleAwaitingEmailOtp
  split
  · exact about_transition _ _
  · split
    · exact about_transition _ _
    · split
      · exact about_transition _ _
      · split
        · split
          · exact about_one (fun id' f h => by cases h; rfl) fun row => nofun
          · exact about_one (fun id' f h => by cases h; rfl) fun row => nofun
        · split
          · split
            · exact about_transition _ _
            · exact hconfirm
          · exact hconfirm

theorem about_handleAwaitingWaitlistToken :
    About record.id (handleAwaitingWaitlistToken ans mem record message user).2 := by
  unfold handleAwaitingWaitlistToken
  split
  · exact about_nil
  · split
    · exact about_nil
    · split
      · exact about_nil
      · split
        · exact about_nil
        · exact about_nil
        · exact about_transition _ _

theorem about_recoverFromInitial : About record.id (recoverFromInitial ext ans mem record message user).2 := by
  unfold recoverFromInitial
  split
  · exact about_nil
  · exact about_transition _ _
  · exact about_handleAwaitingContact.transition rfl _

theorem about_handleMessage : About record.id (handleMessage ext ans mem db record message user).2 := by
  unfold handleMessage
  cases record.state with
  | awaitingWaitlistToken => exact about_handleAwaitingWaitlistToken
  | awaitingContact => exact about_handleAwaitingContact
  | awaitingEmail =>
    dsimp only
    exact about_handleAwaitingEmail
  | awaitingEmailOtp =>
    dsimp only
    exact about_handleAwaitingEmailOtp
  | initial => exact about_recoverFromInitial
  | phoneConfirmed => exact about_transition _ _
  | emailConfirmed => exact about_issuePreAuth
  | preAuthTokenIssued => exact about_nil
  | expired => exact about_nil
  | failed => exact about_nil

/-! ### The writes of a new registration -/

/-- The writes that start with a new registration, if there are any, and deal with it. -/
inductive Fresh (user id : String) : List Write → Prop
  | nil : Fresh user id []
  | new {row : RegistrationRow} {ws : List Write} (hid : row.id = id) (huser : row.channelUserId = user)
      (hrow : row.state.terminal = false) (hws : About id ws) : Fresh user id (.insert row :: ws)

theorem Fresh.proper (h : Fresh user id ws) : Proper (.ofWrites ws) := by
  cases h with
  | nil => exact trivial
  | new hid huser hrow hws =>
    exact ⟨fun row' hw => Write.insert.inj hw ▸ hrow, fun id' st hmoves => (by cases hmoves), hws.proper⟩

theorem Fresh.mayMove {id' : String} (h : Fresh user id' ws) : ¬ MayMove id st (.ofWrites ws) := by
  intro hmoves
  cases h with
  | nil => cases hmoves
  | new hid huser hrow hws =>
    cases hmoves with
    | here h => cases h
    | later h hother => exact hother _ rfl (hid.trans (hws.mayMove h).symm)

theorem fresh_handleCompletedOrNew :
    Fresh user ans.id (handleCompletedOrNew ans mem db user message phoneStubHash).2 := by
  unfold handleCompletedOrNew
  cases db.findCompleted user (ans.now - reregistrationWindowMs) with
  | none =>
    dsimp only
    unfold handleNewUser
    split
    · exact .nil
    · refine .new rfl rfl ?_ about_nil
      show RegistrationState.terminal (if _ then _ else _) = false
      split <;> rfl
  | some completed =>
    dsimp only
    split
    · unfold handleExistingUser
      split
      · exact .nil
      · exact .new rfl rfl rfl (about_transition _ _)
      · refine .new rfl rfl rfl ?_
        split
        · exact about_nil
        · exact about_transition _ _
    · split
      · exact .nil
      · exact .nil

/-! ### The calls -/

theorem proper_completedOrNewCall : Proper (completedOrNewCall ans user message phoneStubHash) :=
  ⟨fun _ => rfl, fun _ => fresh_handleCompletedOrNew.proper⟩

theorem mayMove_completedOrNewCall :
    ¬ MayMove id st (completedOrNewCall ans user message phoneStubHash) := by
  rintro (⟨s, h⟩ | _ | _)
  exact fresh_handleCompletedOrNew.mayMove h

theorem proper_messageCall : Proper (messageCall ext ans record message user) :=
  ⟨fun _ => rfl, fun _ => ⟨fun _ => rfl, fun _ => about_handleMessage.proper⟩⟩

theorem mayMove_messageCall (h : MayMove id st (messageCall ext ans record message user)) : id = record.id := by
  obtain ⟨s₁, h⟩ := h
  obtain ⟨s, h⟩ := h
  have habout : About (record.reread s₁.db s.db).id
      (handleMessage ext ans s.memory s.db (record.reread s₁.db s.db) message user).2 := about_handleMessage
  exact habout.mayMove h

theorem proper_inboundCall {contacts : String → Option StoredContact} :
    Proper (inboundCall ext ans contacts user message) := by
  refine ⟨fun _ => rfl, fun s => ?_⟩
  dsimp only
  split
  · exact proper_completedOrNewCall
  · split
    · refine ⟨fun row hw => (by cases hw), fun id st _ _ st' hlater => ?_, proper_completedOrNewCall⟩
      exact absurd hlater mayMove_completedOrNewCall
    · exact proper_messageCall

theorem proper_expire (rows : List RegistrationRow) :
    Proper (.ofWrites (rows.map fun r => .transition r.id .expired)) := by
  induction rows with
  | nil => exact trivial
  | cons r rows ih =>
    refine ⟨fun row hw => (by cases hw), fun id st hmoves _ st' hlater => ?_, ih⟩
    obtain ⟨-, rfl⟩ := Prod.mk.inj (Option.some.inj hmoves)
    obtain ⟨w, hw, hmoves'⟩ := mayMove_ofWrites hlater
    obtain ⟨r', -, rfl⟩ := List.mem_map.1 hw
    exact (Prod.mk.inj (Option.some.inj hmoves')).2.symm

theorem proper_contactPromptCall (visits : List (String × ℤ)) : Proper (contactPromptCall visits) := by
  induction visits with
  | nil => exact trivial
  | cons visit rest ih =>
    refine ⟨fun _ => rfl, fun s => ?_⟩
    dsimp only
    split
    · exact ih
    · exact ⟨fun row hw => (by cases hw), fun id st hmoves => (by cases hmoves), fun _ => rfl, fun _ => ih⟩

theorem mayMove_contactPromptCall (visits : List (String × ℤ)) : ¬ MayMove id st (contactPromptCall visits) := by
  induction visits with
  | nil => nofun
  | cons visit rest ih =>
    rintro (⟨s, h⟩ | _ | _)
    dsimp only at h
    split at h
    · exact ih h
    · cases h with
      | here h => cases h
      | later h _ =>
        obtain ⟨s', h⟩ := h
        exact ih h

/-! ### Every crossing -/

/-- What is known of the calls in flight: they are proper, and a terminal registration is at most moved to where
it is. -/
structure Settled (p : Pool Shared Write) : Prop where
  nodup : (p.shared.db.rows.map RegistrationRow.id).Nodup
  proper : ∀ c ∈ p.calls, Proper c
  settled : ∀ r ∈ p.shared.db.rows, r.state.terminal = true → ∀ c ∈ p.calls, ∀ st, MayMove r.id st c → st = r.state

section

variable {db' : Database} {r : RegistrationRow} {p : Pool Shared Write}

theorem change_state {f : RegistrationRow → RegistrationRow} (h : w.change = some (id, f)) (hid : r.id = id) :
    (f r).id = r.id ∧ ((f r).state = r.state ∨ w.movesTo = some (r.id, (f r).state)) := by
  subst hid
  cases w <;> cases h
  case transition => exact ⟨rfl, .inr rfl⟩
  case transitionOnOtpLockout => exact ⟨rfl, .inr rfl⟩
  case incrementOtpAttempt => exact ⟨rfl, .inl rfl⟩
  case recordContactPrompt => exact ⟨rfl, .inl rfl⟩

theorem row_of_apply (happly : w.apply db = some db') (hr : r ∈ db'.rows) :
    w = .insert r ∨ ∃ r₀ ∈ db.rows, r₀.id = r.id ∧ (r.state = r₀.state ∨ w.movesTo = some (r.id, r.state)) := by
  have hall : ∀ r ∈ db'.rows, w = .insert r ∨
      ∃ r₀ ∈ db.rows, r₀.id = r.id ∧ (r.state = r₀.state ∨ w.movesTo = some (r.id, r.state)) := by
    refine forall_rows_of_apply (Q := fun r => r ∈ db.rows) happly (fun r hr => hr) (fun row hw => .inl hw)
      (fun id f hw r hr hid _ => ?_) fun r hr _ _ => .inr ⟨r, hr, rfl, .inl rfl⟩
    obtain ⟨hsame, hstate⟩ := change_state hw hid
    refine .inr ⟨r, hr, hsame.symm, ?_⟩
    rw [hsame]
    exact hstate
  exact hall r hr

theorem apply_keeps_row (happly : w.apply db = some db') (hr : r ∈ db.rows) :
    ∃ r' ∈ db'.rows, r'.id = r.id ∧ (r'.state = r.state ∨ w.movesTo = some (r.id, r'.state)) := by
  obtain ⟨row, -, -, hrows⟩ | ⟨id, f, hchange, hrows⟩ | ⟨-, hrows⟩ := apply_rows happly
  · exact ⟨r, hrows ▸ List.mem_append_left _ hr, rfl, .inl rfl⟩
  · by_cases hid : r.id = id
    · obtain ⟨hsame, hstate⟩ := change_state hchange hid
      exact ⟨f r, hrows ▸ mem_updateRow_iff.2 (.inl ⟨r, hr, hid, rfl⟩), hsame, hstate⟩
    · exact ⟨r, hrows ▸ mem_updateRow_iff.2 (.inr ⟨hr, hid⟩), rfl, .inl rfl⟩
  · exact ⟨r, hrows ▸ hr, rfl, .inl rfl⟩

def TerminalsKept (db db' : Database) : Prop :=
  ∀ r ∈ db.rows, r.state.terminal = true → ∃ r' ∈ db'.rows, r'.id = r.id ∧ r'.state = r.state

theorem TerminalsKept.refl (db : Database) : TerminalsKept db db := fun r hr _ => ⟨r, hr, rfl, rfl⟩

theorem TerminalsKept.trans {db'' : Database} (h : TerminalsKept db db') (h' : TerminalsKept db' db'') :
    TerminalsKept db db'' := by
  intro r hr hterminal
  obtain ⟨r', hr', hid, hstate⟩ := h r hr hterminal
  obtain ⟨r'', hr'', hid', hstate'⟩ := h' r' hr' (hstate ▸ hterminal)
  exact ⟨r'', hr'', hid'.trans hid, hstate'.trans hstate⟩

/-- A call starts. -/
theorem Settled.start (h : Settled p) {f : Shared → Shared} {k : Shared → RegistrationCall}
    (hproper : Proper (.query f k))
    (hmoves : ∀ r ∈ p.shared.db.rows, r.state.terminal = true → ∀ st, ¬ MayMove r.id st (k p.shared)) :
    Settled (p.step Shared.apply (.start (.query f k))) ∧
      TerminalsKept p.shared.db (p.step Shared.apply (.start (.query f k))).shared.db := by
  have hdb : (p.step Shared.apply (.start (.query f k))).shared.db = p.shared.db := hproper.1 p.shared
  refine ⟨⟨?_, fun c hc => ?_, fun r hr hterminal c hc st hmove => ?_⟩, ?_⟩
  · rw [hdb]
    exact h.nodup
  · rcases Pool.mem_started hc with rfl | hc
    · exact hproper.2 p.shared
    · exact h.proper c hc
  · rw [hdb] at hr
    rcases Pool.mem_started hc with rfl | hc
    · exact absurd hmove (hmoves r hr hterminal st)
    · exact h.settled r hr hterminal c hc st hmove
  · rw [hdb]
    exact TerminalsKept.refl _

theorem Settled.ended (h : Settled p) (i : ℕ) : Settled ⟨p.shared, Pool.put p.calls i .done⟩ := by
  have hcalls : ∀ c ∈ Pool.put p.calls i .done, c = .done ∨ c ∈ p.calls := fun c hc =>
    (Pool.mem_put hc).imp_right fun ⟨_, _, hj⟩ => List.mem_of_getElem? hj
  refine ⟨h.nodup, fun c hc => ?_, fun r hr hterminal c hc st hmove => ?_⟩
  · rcases hcalls c hc with rfl | hc
    · exact trivial
    · exact h.proper c hc
  · rcases hcalls c hc with rfl | hc
    · cases hmove
    · exact h.settled r hr hterminal c hc st hmove

theorem Settled.write (h : Settled p) {i : ℕ} {k : RegistrationCall} {s' : Shared}
    (hcall : p.calls[i]? = some (.write w k)) (halone : EndsAlone p (.step i))
    (happly : Shared.apply p.shared w = some s') :
    Settled ⟨s', Pool.put p.calls i k⟩ ∧ TerminalsKept p.shared.db s'.db := by
  obtain ⟨db', hdb, rfl⟩ := Option.map_eq_some_iff.1 happly
  have hmem : (.write w k : RegistrationCall) ∈ p.calls := List.mem_of_getElem? hcall
  obtain ⟨hinsert, hlast, hrest⟩ := h.proper _ hmem
  refine ⟨⟨apply_nodup hdb h.nodup, fun c hc => ?_, fun r hr hterminal c hc st hmove => ?_⟩,
    fun r hr hterminal => ?_⟩
  · rcases Pool.mem_put hc with rfl | ⟨j, -, hj⟩
    · exact hrest
    · exact h.proper c (List.mem_of_getElem? hj)
  · rcases row_of_apply hdb hr with hnew | ⟨r₀, hr₀, hid, hstate⟩
    · rw [hinsert r hnew] at hterminal
      cases hterminal
    · rcases hstate with hstate | hmoved
      · rcases Pool.mem_put hc with rfl | ⟨j, -, hj⟩
        · have hlater : MayMove r₀.id st (.write w c) := by
            refine .later (hid ▸ hmove) fun row hw hrow => ?_
            subst hw
            exact (insert_rows hdb).1 (hrow ▸ List.mem_map_of_mem hr₀)
          rw [hstate]
          exact h.settled r₀ hr₀ (hstate ▸ hterminal) _ hmem st hlater
        · rw [hstate]
          exact h.settled r₀ hr₀ (hstate ▸ hterminal) c (List.mem_of_getElem? hj) st (hid ▸ hmove)
      · rcases Pool.mem_put hc with rfl | ⟨j, hji, hj⟩
        · exact hlast r.id r.state hmoved hterminal st hmove
        · exact halone w k r.id r.state hcall hmoved hterminal j c hji hj st hmove
  · obtain ⟨r', hr', hid, hstate⟩ := apply_keeps_row hdb hr
    refine ⟨r', hr', hid, ?_⟩
    rcases hstate with hstate | hmoved
    · exact hstate
    · exact h.settled r hr hterminal _ hmem r'.state (.here hmoved)

end

theorem findActive_live {user : String} (h : db.findActive user = some record) :
    record ∈ db.rows ∧ record.state.terminal = false := by
  have hfound := List.find?_some h
  rw [Bool.and_eq_true, Bool.not_eq_true'] at hfound
  exact ⟨List.mem_of_find?_eq_some h, hfound.2⟩

theorem terminal_ne {r : RegistrationRow} (hnodup : (db.rows.map RegistrationRow.id).Nodup)
    (hrecord : record ∈ db.rows) (hlive : record.state.terminal = false) (hr : r ∈ db.rows)
    (hterminal : r.state.terminal = true) : r.id ≠ record.id := by
  intro hid
  rw [List.inj_on_of_nodup_map hnodup hr hrecord hid, hlive] at hterminal
  cases hterminal

/-- **One crossing keeps the terminal registrations**, unless it ends one that another call may still move. -/
theorem Settled.step {p : Pool Shared Write} {e : Crossing} (h : Settled p) (halone : EndsAlone p e) :
    Settled (crossStep ext p e) ∧ TerminalsKept p.shared.db (crossStep ext p e).shared.db := by
  cases e with
  | message contacts user text ans =>
    refine h.start proper_inboundCall fun r hr hterminal st hmove => ?_
    cases hactive : p.shared.db.findActive user with
    | none =>
      rw [hactive] at hmove
      exact mayMove_completedOrNewCall hmove
    | some record =>
      rw [hactive] at hmove
      obtain ⟨hrecord, hlive⟩ := findActive_live hactive
      have hne := terminal_ne h.nodup hrecord hlive hr hterminal
      dsimp only at hmove
      split at hmove
      · cases hmove with
        | here hmove => exact hne (Prod.mk.inj (Option.some.inj hmove)).1.symm
        | later hmove _ => exact mayMove_completedOrNewCall hmove
      · exact hne (mayMove_messageCall hmove)
  | expirySweep ans =>
    refine h.start ⟨fun _ => rfl, fun s => proper_expire _⟩ fun r hr hterminal st hmove => ?_
    obtain ⟨w, hw, hmoves⟩ := mayMove_ofWrites hmove
    obtain ⟨record, hrecord, rfl⟩ := List.mem_map.1 hw
    obtain ⟨hrecord, hcondition⟩ := List.mem_filter.1 hrecord
    rw [Bool.and_eq_true, Bool.not_eq_true'] at hcondition
    exact terminal_ne h.nodup hrecord hcondition.1 hr hterminal (Prod.mk.inj (Option.some.inj hmoves)).1.symm
  | contactPromptSweep visits =>
    cases visits with
    | nil => exact ⟨h, TerminalsKept.refl _⟩
    | cons visit rest =>
      refine h.start (proper_contactPromptCall (visit :: rest)) fun r _ _ st hmove => ?_
      exact mayMove_contactPromptCall (visit :: rest) (.query p.shared hmove)
  | step i =>
    unfold crossStep Crossing.event Pool.step
    dsimp only
    cases hcall : p.calls[i]? with
    | none => exact ⟨h, TerminalsKept.refl _⟩
    | some c =>
      have hmem : c ∈ p.calls := List.mem_of_getElem? hcall
      cases c with
      | done => exact ⟨h.ended i, TerminalsKept.refl _⟩
      | query f k =>
        have hdb : (f p.shared).db = p.shared.db := (h.proper _ hmem).1 p.shared
        show Settled ⟨f p.shared, Pool.put p.calls i (k p.shared)⟩ ∧ TerminalsKept p.shared.db (f p.shared).db
        refine ⟨⟨?_, fun c hc => ?_, fun r hr hterminal c hc st hmove => ?_⟩, ?_⟩
        · rw [hdb]
          exact h.nodup
        · rcases Pool.mem_put hc with rfl | ⟨j, -, hj⟩
          · exact (h.proper _ hmem).2 p.shared
          · exact h.proper c (List.mem_of_getElem? hj)
        · rw [hdb] at hr
          rcases Pool.mem_put hc with rfl | ⟨j, -, hj⟩
          · exact h.settled r hr hterminal _ hmem st (.query p.shared hmove)
          · exact h.settled r hr hterminal c (List.mem_of_getElem? hj) st hmove
        · rw [hdb]
          exact TerminalsKept.refl _
      | write w k =>
        cases happly : Shared.apply p.shared w with
        | none =>
          simp only [Call.advance, happly]
          exact ⟨h.ended i, TerminalsKept.refl _⟩
        | some s' =>
          simp only [Call.advance, happly]
          exact h.write hcall halone happly
  | stop i =>
    refine ⟨⟨h.nodup, fun c hc => h.proper c (List.mem_of_mem_eraseIdx hc),
      fun r hr hterminal c hc => h.settled r hr hterminal c (List.mem_of_mem_eraseIdx hc)⟩,
      TerminalsKept.refl _⟩
  | restart =>
    exact ⟨⟨h.nodup, fun c hc => absurd hc List.not_mem_nil, fun r _ _ c hc => absurd hc List.not_mem_nil⟩,
      TerminalsKept.refl _⟩

/-- **Terminal states are final.**  However the messages, the expiry sweeps and the contact-prompt sweeps cross
at their queries and writes, and wherever calls stop and the process starts again: if no call ends a registration
that another call may still move, a registration that has reached a terminal state never changes it again. -/
theorem terminal_final (ext : Externals) (events : List Crossing)
    (hguard : Guarded (crossStep ext) EndsAlone ⟨{}, []⟩ events) {i j : ℕ} (hij : i ≤ j) :
    TerminalFinal (crossRun ext (events.take i)).shared.db (crossRun ext (events.take j)).shared.db := by
  have hstart : Settled ⟨{}, []⟩ :=
    ⟨List.nodup_nil, fun c hc => absurd hc List.not_mem_nil, fun r hr => absurd hr List.not_mem_nil⟩
  have hi : Settled (crossRun ext (events.take i)) :=
    Guarded.invariant (fun p e h halone => (h.step halone).1) hstart hguard i
  have hj := Guarded.invariant_from
    (P := fun p => Settled p ∧ TerminalsKept (crossRun ext (events.take i)).shared.db p.shared.db)
    (fun p e h halone => ⟨(h.1.step halone).1, h.2.trans (h.1.step halone).2⟩) hguard hij
    ⟨hi, TerminalsKept.refl _⟩
  intro r hr hterminal
  obtain ⟨r', hr', hid, hstate⟩ := hj.2 r hr hterminal
  refine ⟨⟨r', hr', hid⟩, fun r'' hr'' hid' => ?_⟩
  obtain rfl : r'' = r' := List.inj_on_of_nodup_map hj.1.nodup hr'' hr' (hid'.trans hid.symm)
  exact hstate

/-! ### A sweep that crosses nothing, and one that crosses the last message -/

def handledAt (now : ℤ) (text : String) : List Crossing :=
  .message (fun _ => none) "42" text { plainAnswers with now := now } :: List.replicate 4 (.step 0)

def sweptAlone : List Crossing :=
  handledAt 0 "hi" ++ [.expirySweep { plainAnswers with now := registrationTtlMs + 1 }, .step 0] ++
    [.message (fun _ => none) "42" "hi" { plainAnswers with now := registrationTtlMs + 2, id := "second" },
      .step 0, .step 0]

def sweptAcross : List Crossing :=
  handledAt 0 "hi" ++ handledAt 0 "CONTACT:42:+15550100" ++ handledAt (registrationTtlMs - 2000) "a@b.co" ++
    [.message (fun _ => none) "42" "123456" { plainAnswers with now := registrationTtlMs - 1000 }, .step 0, .step 0,
      .expirySweep { plainAnswers with now := registrationTtlMs + 1 }, .step 0, .step 0, .step 0]

theorem endsAlone_of_single {p : Pool Shared Write} (h : p.calls.length ≤ 1) (e : Crossing) : EndsAlone p e := by
  cases e with
  | step i =>
    intro w k id st hi _ _ j c hji hj
    have hlt := (List.getElem?_eq_some_iff.1 hi).1
    have hlt' := (List.getElem?_eq_some_iff.1 hj).1
    omega
  | message => exact trivial
  | expirySweep => exact trivial
  | contactPromptSweep => exact trivial
  | stop => exact trivial
  | restart => exact trivial

/-- The registration that was swept stays expired. -/
theorem terminal_final_swept :
    (crossRun plainExternals (sweptAlone.take 7)).shared.db.rows.map RegistrationRow.state = [.expired] ∧
      TerminalFinal (crossRun plainExternals (sweptAlone.take 7)).shared.db
        (crossRun plainExternals (sweptAlone.take 10)).shared.db := by
  have hsingle : ∀ m < 10, (crossRun plainExternals (sweptAlone.take m)).calls.length ≤ 1 := by decide
  have hguard : Guarded (crossStep plainExternals) EndsAlone ⟨{}, []⟩ sweptAlone := by
    refine Guarded.of_forall fun m e hm => endsAlone_of_single (hsingle m ?_) e
    exact (List.getElem?_eq_some_iff.1 hm).1
  exact ⟨by decide, terminal_final plainExternals sweptAlone hguard (by decide)⟩

/-- **A completed registration is turned into an expired one.** -/
theorem terminal_final_across : ¬ TerminalFinal (crossRun plainExternals (sweptAcross.take 21)).shared.db
    (crossRun plainExternals (sweptAcross.take 22)).shared.db := by
  intro h
  have hbefore : ∃ r ∈ (crossRun plainExternals (sweptAcross.take 21)).shared.db.rows,
      r.id = "registration" ∧ r.state = .preAuthTokenIssued := by decide
  have hafter : ∃ r ∈ (crossRun plainExternals (sweptAcross.take 22)).shared.db.rows,
      r.id = "registration" ∧ r.state = .expired := by decide
  obtain ⟨r, hr, hid, hstate⟩ := hbefore
  obtain ⟨r', hr', hid', hstate'⟩ := hafter
  have hsame := (h r hr (by rw [hstate]; rfl)).2 r' hr' (hid'.trans hid.symm)
  rw [hstate, hstate'] at hsame
  cases hsame

end Cello.OperationsAgent.Registration
