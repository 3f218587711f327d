import Cello.OperationsAgent.Registration.Reminders

/-!
# The budget of reminders

Between two messages of a user at most two reminders go out, each while the contact is awaited
(`reminders_bounded`), where sweeps do not overlap, no message of a user crosses the visit of a sweep, and no
handler stops before the process has learnt that the contact is not awaited any more.
-/

namespace Cello.OperationsAgent.Registration

open Lib

variable {ext : Externals} {ans : Answers} {contacts : String → Option StoredContact} {mem : Memory}
  {db db' : Database} {user message id : String} {st : RegistrationState} {ws : List Write} {w : Write}
  {a : Option (String × RegistrationState)}

/-! ### What is known of the desk -/

def Known (d : Desk) (user : String) (a : Option (String × RegistrationState)) : Prop :=
  ∀ id, d.active user = some (id, .awaitingContact) → a = some (id, .awaitingContact)

def Recorded (d : Desk) (user : String) (a : Option (String × RegistrationState)) : Prop :=
  ∀ id, a = some (id, .awaitingContact) → sinceMessage user d.log ≤ d.db.contactPromptCount id

/-- What is known at the entry of a user. -/
def VisitOk (d : Desk) : Visit → Prop
  | .between | .sent _ => True
  | .asked user id => ActiveIs d.db user (some (id, .awaitingContact))
  | .decided user id n => ActiveIs d.db user (some (id, .awaitingContact)) ∧
      d.db.contactPromptCount id + 1 = n ∧ n ≤ 2
  | .recorded user id n => ActiveIs d.db user (some (id, .awaitingContact)) ∧
      d.db.contactPromptCount id = n ∧ sinceMessage user d.log + 1 ≤ n ∧ n ≤ 2
  | .refreshed user row => ∀ r, row = some r → ActiveIs d.db user (some r)

structure DeskInv (d : Desk) : Prop where
  nodup : (d.db.rows.map RegistrationRow.id).Nodup
  one : d.sweeps.length ≤ 1
  idle : ∀ user, (∀ h, d.handler = some h → h.1 ≠ user) →
    ∃ a, ActiveIs d.db user a ∧ Known d user a ∧ Recorded d user a
  busy : ∀ user steps, d.handler = some (user, steps) → sinceMessage user d.log = 0 ∧
    ∃ a known, ActiveIs d.db user a ∧ (known → Known d user a) ∧ Tracks user a known steps
  visits : ∀ v ∈ d.sweeps, VisitOk d v ∧ ∀ user, v.of user = true → ∀ h, d.handler = some h → h.1 ≠ user
  two : ∀ user before after, d.log = before ++ after → sinceMessage user before ≤ 2
  awaited : ∀ user stored, .reminder user stored ∈ d.log → stored = some .awaitingContact

/-! ### The handler -/

variable {d d' : Desk} {steps rest : List HandlerStep}

theorem Tracks.others {known : Prop} (htracks : Tracks user a known (.write w :: rest))
    (hactive : ActiveIs db user a) (hnodup : (db.rows.map RegistrationRow.id).Nodup)
    (happly : w.apply db = some db') {other : String} (hother : user ≠ other)
    {b : Option (String × RegistrationState)} (hb : ActiveIs db other b) : ActiveIs db' other b ∧
      ∀ id, b = some (id, .awaitingContact) → db'.contactPromptCount id = db.contactPromptCount id := by
  have howner : ∀ id st, a = some (id, st) → ∀ r ∈ db.rows, r.id = id → r.channelUserId ≠ other := by
    intro id st ha r hr hid
    subst ha
    rw [hactive.user_of_id hnodup hr hid]
    exact hother
  have hcount : (∀ id f, w.change = some (id, f) → ∃ st, a = some (id, st)) →
      ∀ id, b = some (id, .awaitingContact) → db'.contactPromptCount id = db.contactPromptCount id := by
    intro hchange id hid
    subst hid
    obtain ⟨r, hr, hrid, -, huser, -⟩ := hb.row
    refine contactPromptCount_other happly (hrid ▸ List.mem_map_of_mem hr) fun f hf => ?_
    obtain ⟨st, ha⟩ := hchange id f hf
    exact howner id st ha r hr hrid huser
  have hmoved : ∀ {id : String} {st : RegistrationState} {f : RegistrationRow → RegistrationRow},
      a = some (id, st) → w.change = some (id, f) → (∀ row, w ≠ .insert row) →
        ActiveIs db' other b ∧ ∀ id, b = some (id, .awaitingContact) →
          db'.contactPromptCount id = db.contactPromptCount id := by
    intro id st f ha hchange hkept
    refine ⟨hb.other happly (fun row hw => absurd hw (hkept row)) fun id' st' hmoves r hr hid => ?_,
      hcount fun id' f' hf => ?_⟩
    · obtain ⟨f', hf'⟩ := change_of_movesTo hmoves
      rw [hchange] at hf'
      exact howner id st ha r hr (hid.trans (Prod.mk.inj (Option.some.inj hf')).1.symm)
    · rw [hchange] at hf
      exact ⟨st, (Prod.mk.inj (Option.some.inj hf)).1 ▸ ha⟩
  cases w with
  | insert row =>
    obtain ⟨-, huser, -⟩ := htracks
    refine ⟨hb.other happly (fun row' hw => ?_) fun id st hmoves => (by cases hmoves),
      hcount fun id f hf => by cases hf⟩
    rw [← Write.insert.inj hw, huser]
    exact hother
  | recordOtpSend user' t =>
    exact ⟨hb.still happly rfl fun row => nofun, hcount fun id f hf => by cases hf⟩
  | transition id' st' u =>
    obtain ⟨id, st, ha, ⟨f, hf⟩, -⟩ := htracks
    exact hmoved ha hf fun row => nofun
  | transitionOnOtpLockout id' =>
    obtain ⟨id, st, ha, ⟨f, hf⟩, -⟩ := htracks
    exact hmoved ha hf fun row => nofun
  | incrementOtpAttempt id' =>
    obtain ⟨id, st, ha, ⟨f, hf⟩, -⟩ := htracks
    exact hmoved ha hf fun row => nofun
  | recordContactPrompt id' n =>
    obtain ⟨id, st, ha, ⟨f, hf⟩, -⟩ := htracks
    exact hmoved ha hf fun row => nofun

theorem Tracks.moved {known : Prop} (hactive : ActiveIs db user a) (hnodup : (db.rows.map RegistrationRow.id).Nodup)
    (happly : w.apply db = some db') (h : ∃ id st, a = some (id, st) ∧ (∃ f, w.change = some (id, f)) ∧
      match w.movesTo with
      | none => Tracks user a known rest
      | some (_, st') => Tracks user (activeIn id st') False rest) (hkept : ∀ row, w ≠ .insert row) :
    ∃ a' known', ActiveIs db' user a' ∧ (known' → known ∧ a' = a) ∧ Tracks user a' known' rest := by
  obtain ⟨id, st, rfl, ⟨f, hf⟩, hrest⟩ := h
  cases hmoves : w.movesTo with
  | none =>
    rw [hmoves] at hrest
    exact ⟨_, known, hactive.still happly hmoves hkept, fun hknown => ⟨hknown, rfl⟩, hrest⟩
  | some m =>
    obtain ⟨id', st'⟩ := m
    rw [hmoves] at hrest
    obtain ⟨f', hf'⟩ := change_of_movesTo hmoves
    rw [hf] at hf'
    obtain rfl := (Prod.mk.inj (Option.some.inj hf')).1
    exact ⟨_, False, hactive.moved hnodup happly hmoves, False.elim, hrest⟩

theorem Tracks.wrote {known : Prop} (htracks : Tracks user a known (.write w :: rest))
    (hactive : ActiveIs db user a) (hnodup : (db.rows.map RegistrationRow.id).Nodup)
    (happly : w.apply db = some db') : ∃ a' known', ActiveIs db' user a' ∧ (known' → known ∧ a' = a) ∧
      Tracks user a' known' rest := by
  cases w with
  | insert row =>
    obtain ⟨rfl, huser, hlive, hrest⟩ := htracks
    exact ⟨_, False, hactive.inserted huser hlive happly, False.elim, hrest⟩
  | recordOtpSend user' t =>
    exact ⟨a, known, hactive.still happly rfl fun row => nofun, fun hknown => ⟨hknown, rfl⟩, htracks⟩
  | transition id' st' u => exact Tracks.moved hactive hnodup happly htracks fun row => nofun
  | transitionOnOtpLockout id' => exact Tracks.moved hactive hnodup happly htracks fun row => nofun
  | incrementOtpAttempt id' => exact Tracks.moved hactive hnodup happly htracks fun row => nofun
  | recordContactPrompt id' n => exact Tracks.moved hactive hnodup happly htracks fun row => nofun

theorem Desk.Knows.known (h : d.Knows user) (hactive : ActiveIs d.db user a) : Known d user a := by
  intro id hid
  obtain ⟨r, hr, hrid, huser, hstate⟩ := h id hid
  exact (hactive id .awaitingContact).2 ⟨r, hr, hrid, hstate, huser, rfl⟩

theorem DeskInv.released (h : DeskInv d) (hhandler : d.handler = some (user, steps))
    (hknown : ∀ a, ActiveIs d.db user a → Known d user a) : DeskInv { d with handler := none } := by
  obtain ⟨hsince, a, -, hactive, -⟩ := h.busy user steps hhandler
  refine ⟨h.nodup, h.one, fun user' _ => ?_, fun _ _ hh => (by cases hh),
    fun v hv => ⟨(h.visits v hv).1, fun _ _ _ hh => (by cases hh)⟩, h.two, h.awaited⟩
  by_cases hsame : user = user'
  · subst hsame
    refine ⟨a, hactive, hknown a hactive, fun id _ => ?_⟩
    rw [hsince]
    exact Nat.zero_le _
  · exact h.idle user' fun hh hhh => by rw [hhandler] at hhh; cases hhh; exact hsame

/-- A write that leaves the rows of the visited user alone. -/
theorem VisitOk.wrote {v : Visit} {db' : Database} {handler : Option (String × List HandlerStep)} (h : VisitOk d v)
    (hothers : ∀ user, v.of user = true → ∀ b, ActiveIs d.db user b → ActiveIs db' user b ∧
      ∀ id, b = some (id, .awaitingContact) → db'.contactPromptCount id = d.db.contactPromptCount id) :
    VisitOk { d with db := db', handler := handler } v := by
  cases v with
  | between => exact trivial
  | sent => exact trivial
  | asked user id => exact (hothers user (decide_eq_true rfl) _ h).1
  | decided user id n =>
    obtain ⟨hactive, hcount⟩ := hothers user (decide_eq_true rfl) _ h.1
    refine ⟨hactive, ?_, h.2.2⟩
    show db'.contactPromptCount id + 1 = n
    rw [hcount id rfl]
    exact h.2.1
  | recorded user id n =>
    obtain ⟨hactive, hcount⟩ := hothers user (decide_eq_true rfl) _ h.1
    refine ⟨hactive, ?_, h.2.2⟩
    show db'.contactPromptCount id = n
    rw [hcount id rfl]
    exact h.2.1
  | refreshed user row => exact fun r hr => (hothers user (decide_eq_true rfl) _ (h r hr)).1

theorem DeskInv.handle (h : DeskInv d) (hguard : ∀ user w rest, d.handler = some (user, .write w :: rest) →
    w.apply d.db = none → d.Knows user) : DeskInv d.handle := by
  unfold Desk.handle
  cases hhandler : d.handler with
  | none => exact h
  | some hand =>
    obtain ⟨user, steps⟩ := hand
    obtain ⟨hsince, a, known, hactive, hknown, htracks⟩ := h.busy user steps hhandler
    have hother : ∀ user', user ≠ user' → ∀ hh, d.handler = some hh → hh.1 ≠ user' := fun user' hne hh hhh => by
      rw [hhandler] at hhh
      cases hhh
      exact hne
    have hclear : ∀ v ∈ d.sweeps, ∀ user', v.of user' = true → user ≠ user' := fun v hv user' hof =>
      (h.visits v hv).2 user' hof _ hhandler
    cases steps with
    | nil =>
      refine h.released hhandler fun b hb => ?_
      rw [hb.unique hactive]
      exact hknown htracks
    | cons step rest =>
      cases step with
      | remember entry =>
        obtain ⟨rfl, hrest⟩ := htracks
        refine ⟨h.nodup, h.one, fun user' huser' => ?_, fun user' steps' hh => ?_,
          fun v hv => ⟨(h.visits v hv).1, fun user' hof hh hhh => ?_⟩, h.two, h.awaited⟩
        · have hne : user ≠ user' := huser' _ rfl
          obtain ⟨b, hb, hbknown, hbrecorded⟩ := h.idle user' (hother user' hne)
          refine ⟨b, hb, fun id hid => hbknown id ?_, hbrecorded⟩
          rw [← hid]
          exact (Function.update_of_ne (Ne.symm hne) _ _).symm
        · cases hh
          refine ⟨hsince, entry, True, hactive, fun _ id hid => ?_, hrest⟩
          have hremembered : Function.update d.active user entry user = some (id, .awaitingContact) := hid
          rw [Function.update_self] at hremembered
          exact hremembered
        · cases hhh
          exact hclear v hv user' hof
      | write w =>
        cases happly : w.apply d.db with
        | none =>
          simp only [happly]
          exact h.released hhandler fun b hb => (hguard user w rest hhandler happly).known hb
        | some db' =>
          simp only [happly]
          refine ⟨apply_nodup happly h.nodup, h.one, fun user' huser' => ?_, fun user' steps' hh => ?_,
            fun v hv => ⟨?_, fun user' hof hh hhh => ?_⟩, h.two, h.awaited⟩
          · have hne : user ≠ user' := huser' _ rfl
            obtain ⟨b, hb, hbknown, hbrecorded⟩ := h.idle user' (hother user' hne)
            obtain ⟨hb', hcount⟩ := htracks.others hactive h.nodup happly hne hb
            refine ⟨b, hb', hbknown, fun id hid => ?_⟩
            show _ ≤ db'.contactPromptCount id
            rw [hcount id hid]
            exact hbrecorded id hid
          · cases hh
            obtain ⟨a', known', hactive', hknown', htracks'⟩ := htracks.wrote hactive h.nodup happly
            refine ⟨hsince, a', known', hactive', fun hk => ?_, htracks'⟩
            obtain ⟨hk, rfl⟩ := hknown' hk
            exact hknown hk
          · exact (h.visits v hv).1.wrote fun user' hof b hb =>
              htracks.others hactive h.nodup happly (hclear v hv user' hof) hb
          · cases hhh
            exact hclear v hv user' hof

/-! ### The log -/

theorem two_snoc {log : List Sent} {o : Sent}
    (h : ∀ user before after, log = before ++ after → sinceMessage user before ≤ 2)
    (hnow : ∀ user, sinceMessage user (log ++ [o]) ≤ 2) (user : String) (before after : List Sent)
    (hlog : log ++ [o] = before ++ after) : sinceMessage user before ≤ 2 := by
  rcases List.eq_nil_or_concat after with rfl | ⟨after, o', rfl⟩
  · rw [List.append_nil] at hlog
    exact hlog ▸ hnow user
  · rw [List.concat_eq_append, ← List.append_assoc] at hlog
    exact h user before after (List.append_inj' hlog rfl).1

theorem sinceMessage_message (log : List Sent) (user user' : String) :
    sinceMessage user' (log ++ [.message user]) = if user = user' then 0 else sinceMessage user' log := by
  rw [sinceMessage_snoc]
  by_cases hsame : user = user'
  · rw [if_pos hsame, if_pos (congrArg Sent.message hsame)]
  · rw [if_neg hsame, if_neg fun h => hsame (Sent.message.inj h)]
    rfl

theorem sinceMessage_reminder (log : List Sent) (user user' : String) (stored : Option RegistrationState) :
    sinceMessage user' (log ++ [.reminder user stored]) =
      if user = user' then sinceMessage user' log + 1 else sinceMessage user' log := by
  rw [sinceMessage_snoc, if_neg nofun, Sent.reminds]
  by_cases hsame : user = user'
  · rw [if_pos hsame, if_pos (decide_eq_true hsame)]
  · rw [if_neg hsame, if_neg fun h => hsame (of_decide_eq_true h)]

/-! ### A message starts -/

theorem DeskInv.starts (h : DeskInv d) (hfree : ∀ v ∈ d.sweeps, v.of user = false) :
    DeskInv (d.step ext (.message contacts user message ans)) := by
  unfold Desk.step
  cases hhandler : d.handler with
  | some hand =>
    simp only [Option.isSome_some, if_true]
    exact h
  | none =>
    simp only [Option.isSome_none, Bool.false_eq_true, if_false]
    have hidle : ∀ user', ∀ hh, d.handler = some hh → hh.1 ≠ user' := fun user' hh hhh => by
      rw [hhandler] at hhh
      cases hhh
    refine ⟨h.nodup, h.one, fun user' huser' => ?_, fun user' steps' hh => ?_, fun v hv => ⟨?_, fun user' hof => ?_⟩,
      two_snoc h.two fun user' => ?_, fun user' stored hmem => ?_⟩
    · have hne : user ≠ user' := huser' _ rfl
      obtain ⟨b, hb, hbknown, hbrecorded⟩ := h.idle user' (hidle user')
      refine ⟨b, hb, hbknown, fun id hid => ?_⟩
      show sinceMessage user' (d.log ++ [.message user]) ≤ _
      rw [sinceMessage_message, if_neg hne]
      exact hbrecorded id hid
    · cases hh
      obtain ⟨a, hactive, hknown, -⟩ := h.idle user (hidle user)
      refine ⟨?_, a, True, hactive, fun _ => hknown, tracks_handlerSteps hactive⟩
      show sinceMessage user (d.log ++ [.message user]) = 0
      rw [sinceMessage_message, if_pos rfl]
    · have hvisit := (h.visits v hv).1
      cases v with
      | between => exact trivial
      | sent => exact trivial
      | asked user' id => exact hvisit
      | decided user' id n => exact hvisit
      | refreshed user' row => exact hvisit
      | recorded user' id n =>
        have hne : user ≠ user' := fun hsame => by
          have hthis := hfree _ hv
          rw [hsame] at hthis
          exact absurd rfl (of_decide_eq_false hthis)
        refine ⟨hvisit.1, hvisit.2.1, ?_, hvisit.2.2.2⟩
        show sinceMessage user' (d.log ++ [.message user]) + 1 ≤ n
        rw [sinceMessage_message, if_neg hne]
        exact hvisit.2.2.1
    · intro hh hhh hsame
      cases hhh
      have hthis := hfree v hv
      rw [show user = user' from hsame, hof] at hthis
      cases hthis
    · rw [sinceMessage_message]
      split
      · exact Nat.zero_le _
      · exact h.two user' d.log [] (List.append_nil _).symm
    · rcases List.mem_append.1 hmem with hmem | hmem
      · exact h.awaited user' stored hmem
      · cases List.mem_singleton.1 hmem

/-! ### A sweep -/

theorem DeskInv.only {v : Visit} {i : ℕ} (h : DeskInv d) (hi : d.sweeps[i]? = some v) :
    d.sweeps = [v] ∧ i = 0 := by
  obtain ⟨hlt, hv⟩ := List.getElem?_eq_some_iff.1 hi
  have hone := h.one
  obtain ⟨v', hv'⟩ := List.length_eq_one_iff.1 (show d.sweeps.length = 1 by omega)
  obtain rfl : i = 0 := by omega
  simp only [hv', List.getElem_cons_zero] at hv
  exact ⟨hv ▸ hv', rfl⟩

theorem DeskInv.sweeps {sweeps : List Visit} (h : DeskInv d) (hone : sweeps.length ≤ 1)
    (hvisits : ∀ v ∈ sweeps, VisitOk d v ∧ ∀ user, v.of user = true → ∀ h, d.handler = some h → h.1 ≠ user) :
    DeskInv { d with sweeps := sweeps } := by
  refine ⟨h.nodup, hone, h.idle, h.busy, fun v hv => ⟨?_, (hvisits v hv).2⟩, h.two, h.awaited⟩
  have hvisit := (hvisits v hv).1
  cases v <;> exact hvisit

theorem DeskInv.erased (h : DeskInv d) (i : ℕ) : DeskInv { d with sweeps := d.sweeps.eraseIdx i } :=
  h.sweeps ((List.length_eraseIdx_le _ _).trans h.one) fun v hv => h.visits v (List.mem_of_mem_eraseIdx hv)

theorem DeskInv.visit (h : DeskInv d) {i : ℕ} (hfree : ∀ hh, d.handler = some hh → hh.1 ≠ user) :
    DeskInv (d.step ext (.visit i user)) := by
  unfold Desk.step
  dsimp only
  split
  next id hi hactive =>
    obtain ⟨hsweeps, rfl⟩ := h.only hi
    obtain ⟨a, ha, hknown, -⟩ := h.idle user hfree
    obtain rfl := hknown id hactive
    rw [hsweeps]
    refine h.sweeps (Nat.le_refl 1) fun v hv => ?_
    obtain rfl := List.mem_singleton.1 hv
    refine ⟨ha, fun user' hof => ?_⟩
    obtain rfl : user = user' := of_decide_eq_true hof
    exact hfree
  · exact h

theorem due_some {count n : ℕ} {waited : ℤ} (h : dueReminderNumber count waited = some n) :
    count + 1 = n ∧ n ≤ 2 := by
  unfold dueReminderNumber at h
  split at h
  · cases h
  next hbudget =>
    have hlt : count < 2 := not_le.1 hbudget
    generalize (if count = 0 then (10 * 60 * 1000 : ℤ) else 60 * 60 * 1000) = required at h
    split at h
    · have hn := Option.some.inj h
      omega
    · cases h

/-- **The budget is spent before the reminder is sent.** -/
theorem DeskInv.record {number : ℕ} (h : DeskInv d) (hsweeps : d.sweeps = [.decided user id number])
    (happly : (Write.recordContactPrompt id number).apply d.db = some db') :
    DeskInv { d with db := db', sweeps := [.recorded user id number] } := by
  obtain ⟨⟨hactive, hcount, htwo⟩, hfree⟩ := h.visits (.decided user id number)
    (hsweeps ▸ List.mem_cons_self)
  have hclear := hfree user (decide_eq_true rfl)
  have hstill : ∀ {user' a}, ActiveIs d.db user' a → ActiveIs db' user' a := fun ha =>
    ha.still happly rfl fun row => nofun
  obtain ⟨r, hr, hrid, -⟩ := hactive.row
  have hid : id ∈ d.db.rows.map RegistrationRow.id := hrid ▸ List.mem_map_of_mem hr
  have hthis : db'.contactPromptCount id = number := contactPromptCount_recorded happly hid
  have hothers : ∀ id', id' ∈ d.db.rows.map RegistrationRow.id → id' ≠ id →
      db'.contactPromptCount id' = d.db.contactPromptCount id' := fun id' hid' hne =>
    contactPromptCount_other happly hid' fun f hf => hne (Prod.mk.inj (Option.some.inj hf)).1.symm
  refine ⟨apply_nodup happly h.nodup, Nat.le_refl 1, fun user' huser' => ?_, fun user' steps hh => ?_,
    fun v hv => ?_, h.two, h.awaited⟩
  · obtain ⟨a, ha, hknown, hrecorded⟩ := h.idle user' huser'
    refine ⟨a, hstill ha, hknown, fun id' hid' => ?_⟩
    show sinceMessage user' d.log ≤ db'.contactPromptCount id'
    have hbefore := hrecorded id' hid'
    by_cases hsame : id' = id
    · subst hsame
      omega
    · subst hid'
      obtain ⟨r', hr', hrid', -⟩ := ha.row
      rw [hothers id' (hrid' ▸ List.mem_map_of_mem hr') hsame]
      exact hbefore
  · obtain ⟨hsince, a, known, ha, hknown, htracks⟩ := h.busy user' steps hh
    exact ⟨hsince, a, known, hstill ha, hknown, htracks⟩
  · obtain rfl := List.mem_singleton.1 hv
    obtain ⟨a, ha, -, hrecorded⟩ := h.idle user hclear
    have hbefore := hrecorded id (ha.unique hactive)
    refine ⟨⟨hstill hactive, hthis, ?_, htwo⟩, fun user' hof => ?_⟩
    · show sinceMessage user d.log + 1 ≤ number
      omega
    · obtain rfl : user = user' := of_decide_eq_true hof
      exact hclear

theorem stateOf_active (hnodup : (db.rows.map RegistrationRow.id).Nodup)
    (h : ActiveIs db user (some (id, st))) : db.stateOf id = some st := by
  obtain ⟨r, hr, rfl, rfl, -, -⟩ := h.row
  unfold Database.stateOf
  rw [find_id hnodup hr]
  rfl

/-- **A reminder is sent.** -/
theorem DeskInv.remind {number : ℕ} (h : DeskInv d) (hsweeps : d.sweeps = [.recorded user id number]) :
    DeskInv { d with sweeps := [.sent user], log := d.log ++ [.reminder user (d.db.stateOf id)] } := by
  obtain ⟨⟨hactive, hcount, hsince, htwo⟩, hfree⟩ := h.visits (.recorded user id number)
    (hsweeps ▸ List.mem_cons_self)
  have hclear := hfree user (decide_eq_true rfl)
  refine ⟨h.nodup, Nat.le_refl 1, fun user' huser' => ?_, fun user' steps hh => ?_, fun v hv => ?_,
    two_snoc h.two fun user' => ?_, fun user' stored hmem => ?_⟩
  · obtain ⟨a, ha, hknown, hrecorded⟩ := h.idle user' huser'
    refine ⟨a, ha, hknown, fun id' hid' => ?_⟩
    show sinceMessage user' (d.log ++ [.reminder user (d.db.stateOf id)]) ≤ _
    rw [sinceMessage_reminder]
    have hbefore := hrecorded id' hid'
    split
    next hsame =>
      subst hsame
      have hthis := ha.unique hactive
      rw [hid'] at hthis
      obtain rfl := (Prod.mk.inj (Option.some.inj hthis)).1
      show _ ≤ d.db.contactPromptCount id'
      omega
    · exact hbefore
  · obtain ⟨hzero, a, known, ha, hknown, htracks⟩ := h.busy user' steps hh
    have hne : user' ≠ user := hclear _ hh
    refine ⟨?_, a, known, ha, hknown, htracks⟩
    show sinceMessage user' (d.log ++ [.reminder user (d.db.stateOf id)]) = 0
    rw [sinceMessage_reminder, if_neg (Ne.symm hne)]
    exact hzero
  · obtain rfl := List.mem_singleton.1 hv
    exact ⟨trivial, fun user' hof => (by cases hof)⟩
  · rw [sinceMessage_reminder]
    split
    next hsame =>
      subst hsame
      omega
    · exact h.two user' d.log [] (List.append_nil _).symm
  · rcases List.mem_append.1 hmem with hmem | hmem
    · exact h.awaited user' stored hmem
    · cases List.mem_singleton.1 hmem
      exact stateOf_active h.nodup hactive

theorem DeskInv.refreshed {row : Option (String × RegistrationState)} (h : DeskInv d)
    (hsweeps : d.sweeps = [.refreshed user row]) :
    DeskInv { d with sweeps := [.between], active := d.withRow user row } := by
  have hread := (h.visits (.refreshed user row) (hsweeps ▸ List.mem_cons_self)).1
  have hknown : ∀ user' a, ActiveIs d.db user' a → Known d user' a → Known
      { d with sweeps := [.between], active := d.withRow user row } user' a := by
    intro user' a ha hknown id hid
    dsimp only at hid
    cases row with
    | none => exact hknown id hid
    | some r =>
      rw [Desk.withRow] at hid
      by_cases hsame : user' = user
      · subst hsame
        rw [Function.update_self] at hid
        rw [ha.unique (hread r rfl), hid]
      · rw [Function.update_of_ne hsame] at hid
        exact hknown id hid
  refine ⟨h.nodup, Nat.le_refl 1, fun user' huser' => ?_, fun user' steps hh => ?_, fun v hv => ?_, h.two,
    h.awaited⟩
  · obtain ⟨a, ha, hthis, hrecorded⟩ := h.idle user' huser'
    exact ⟨a, ha, hknown user' a ha hthis, hrecorded⟩
  · obtain ⟨hsince, a, known, ha, hthis, htracks⟩ := h.busy user' steps hh
    exact ⟨hsince, a, known, ha, fun hk => hknown user' a ha (hthis hk), htracks⟩
  · obtain rfl := List.mem_singleton.1 hv
    exact ⟨trivial, fun user' hof => (by cases hof)⟩

theorem DeskInv.sweep {v : Visit} {i : ℕ} {waited : ℤ} {sends : Bool} (h : DeskInv d)
    (hfree : ∀ user, v = .sent user → ∀ hh, d.handler = some hh → hh.1 ≠ user) (hi : d.sweeps[i]? = some v) :
    DeskInv (d.sweep i waited sends v) := by
  obtain ⟨hsweeps, rfl⟩ := h.only hi
  have hvisit := h.visits v (hsweeps ▸ List.mem_cons_self)
  unfold Desk.sweep
  cases v with
  | between => exact h
  | asked user id =>
    dsimp only
    rw [hsweeps]
    cases hdue : dueReminderNumber (d.db.contactPromptCount id) waited with
    | none =>
      refine h.sweeps (Nat.le_refl 1) fun v hv => ?_
      obtain rfl := List.mem_singleton.1 hv
      exact ⟨trivial, fun user' hof => (by cases hof)⟩
    | some n =>
      refine h.sweeps (Nat.le_refl 1) fun v hv => ?_
      obtain rfl := List.mem_singleton.1 hv
      exact ⟨⟨hvisit.1, due_some hdue⟩, hvisit.2⟩
  | decided user id n =>
    dsimp only
    split
    · exact h.erased 0
    next db' happly =>
      rw [hsweeps]
      exact h.record hsweeps happly
  | recorded user id n =>
    dsimp only
    split
    · rw [hsweeps]
      exact h.remind hsweeps
    · exact h.erased 0
  | sent user =>
    dsimp only
    rw [hsweeps]
    obtain ⟨a, ha, -⟩ := h.idle user (hfree user rfl)
    refine h.sweeps (Nat.le_refl 1) fun v hv => ?_
    obtain rfl := List.mem_singleton.1 hv
    refine ⟨fun r hr => ?_, fun user' hof => ?_⟩
    · obtain ⟨row, hfind, rfl⟩ := Option.map_eq_some_iff.1 hr
      exact ha.of_findActive hfind ▸ ha
    · obtain rfl : user = user' := of_decide_eq_true hof
      exact hfree user rfl
  | refreshed user row =>
    dsimp only
    rw [hsweeps]
    exact h.refreshed hsweeps

/-! ### The process starts again -/

theorem loadActive_some (hactive : ActiveIs db user a) (h : loadActive db user = some (id, st)) :
    a = some (id, st) := by
  obtain ⟨r, hfind, hr⟩ := Option.map_eq_some_iff.1 h
  have hmem := List.mem_reverse.1 (List.mem_of_find?_eq_some hfind)
  have hfound := List.find?_some hfind
  rw [Bool.and_eq_true, decide_eq_true_eq, Bool.not_eq_true'] at hfound
  cases hr
  exact (hactive r.id r.state).2 ⟨r, hmem, rfl, rfl, hfound.1, hfound.2⟩

theorem DeskInv.restarted (h : DeskInv d) :
    DeskInv { db := d.db, active := loadActive d.db, log := d.log } := by
  refine ⟨h.nodup, Nat.zero_le 1, fun user _ => ?_, fun _ _ hh => (by cases hh),
    fun v hv => absurd hv List.not_mem_nil, h.two, h.awaited⟩
  by_cases hbusy : ∀ hh, d.handler = some hh → hh.1 ≠ user
  · obtain ⟨a, ha, -, hrecorded⟩ := h.idle user hbusy
    exact ⟨a, ha, fun id hid => loadActive_some ha hid, hrecorded⟩
  · push Not at hbusy
    obtain ⟨⟨user', steps⟩, hhandler, rfl⟩ := hbusy
    obtain ⟨hsince, a, -, ha, -⟩ := h.busy user' steps hhandler
    refine ⟨a, ha, fun id hid => loadActive_some ha hid, fun id _ => ?_⟩
    show sinceMessage user' d.log ≤ _
    rw [hsince]
    exact Nat.zero_le _

/-! ### Runs -/

theorem DeskInv.step {e : DeskEvent} (h : DeskInv d) (hguard : Unhurried d e) : DeskInv (d.step ext e) := by
  cases e with
  | message contacts user text ans => exact h.starts hguard
  | handle => exact h.handle hguard
  | throws =>
    unfold Desk.step
    cases hhandler : d.handler with
    | none =>
      have hsame : { d with handler := none } = d := by rw [← hhandler]
      rw [hsame]
      exact h
    | some hand =>
      obtain ⟨user, steps⟩ := hand
      exact h.released hhandler fun b hb => (hguard _ hhandler).known hb
  | tick =>
    unfold Desk.step
    have hnone : d.sweeps = [] := hguard
    rw [hnone]
    refine h.sweeps (Nat.le_refl 1) fun v hv => ?_
    obtain rfl := List.mem_singleton.1 hv
    exact ⟨trivial, fun user hof => (by cases hof)⟩
  | visit i user =>
    refine h.visit fun hh hhh hsame => hguard ?_
    rw [hhh, Option.map_some, hsame]
  | sweep i waited sends =>
    unfold Desk.step
    dsimp only
    split
    · exact h
    next v hi =>
      refine h.sweep (fun user hv hh hhh hsame => hguard user (hv ▸ hi) ?_) hi
      rw [hhh, Option.map_some, hsame]
  | sweepEnds i => exact h.erased i
  | restart => exact h.restarted

/-- The desk after some events. -/
def deskRun (ext : Externals) (events : List DeskEvent) : Desk := events.foldl (Desk.step ext) {}

/-- **Contact reminders are bounded.**  In every run of messages, sweeps, failures and restarts in which nothing
crosses a visit, at most two reminders go out between two messages of a user, each while the contact is awaited. -/
theorem reminders_bounded (ext : Externals) (events : List DeskEvent)
    (hguard : Guarded (Desk.step ext) Unhurried {} events) : RemindersBounded (deskRun ext events).log := by
  have hstart : DeskInv {} := by
    refine ⟨List.nodup_nil, Nat.zero_le 1, fun user _ => ⟨none, fun id st => ?_, fun id hid => (by cases hid),
      fun id hid => (by cases hid)⟩, fun _ _ hh => (by cases hh), fun v hv => absurd hv List.not_mem_nil,
      fun user before after hlog => ?_, fun user stored hmem => absurd hmem List.not_mem_nil⟩
    · refine ⟨fun h => (by cases h), ?_⟩
      rintro ⟨r, hr, -⟩
      exact absurd hr List.not_mem_nil
    · obtain ⟨rfl, -⟩ := List.append_eq_nil_iff.1 hlog.symm
      exact Nat.zero_le 2
  have hrun := Guarded.invariant (P := DeskInv) (fun d e h hguard => h.step hguard) hstart hguard events.length
  rw [List.take_length] at hrun
  exact ⟨fun user before between after hlog hbetween => two_of_sinceMessage (hrun.two user) hlog hbetween,
    hrun.awaited⟩

/-! ### Two reminders, and three -/

/-- The condition, as it is computed for a run in which no handler throws. -/
def unhurried (d : Desk) : DeskEvent → Bool
  | .tick => d.sweeps.isEmpty
  | .message _ user _ _ => d.sweeps.all fun v => !v.of user
  | .visit _ user => decide (d.handler.map Prod.fst ≠ some user)
  | .sweep i _ _ =>
    match d.sweeps[i]? with
    | some (.sent user) => decide (d.handler.map Prod.fst ≠ some user)
    | _ => true
  | .throws => false
  | .handle =>
    match d.handler with
    | some (_, .write w :: _) => (w.apply d.db).isSome
    | _ => true
  | _ => true

def unhurriedRun (ext : Externals) : Desk → List DeskEvent → Bool
  | _, [] => true
  | d, e :: rest => unhurried d e && unhurriedRun ext (d.step ext e) rest

theorem unhurried_sound {d : Desk} {e : DeskEvent} (h : unhurried d e = true) : Unhurried d e := by
  cases e with
  | tick => exact List.isEmpty_iff.1 h
  | message contacts user text ans =>
    intro v hv
    have hthis := List.all_eq_true.1 h v hv
    rw [Bool.not_eq_true'] at hthis
    exact hthis
  | visit i user =>
    have hthis : d.handler.map Prod.fst ≠ some user := of_decide_eq_true h
    exact hthis
  | throws => cases h
  | handle =>
    intro user w rest hhandler hnone
    unfold unhurried at h
    rw [hhandler] at h
    dsimp only at h
    rw [hnone] at h
    cases h
  | sweep i waited sends =>
    intro user hsent
    unfold unhurried at h
    dsimp only at h
    rw [hsent] at h
    exact of_decide_eq_true h
  | sweepEnds => exact trivial
  | restart => exact trivial

theorem unhurriedRun_sound {ext : Externals} : ∀ {events : List DeskEvent} {d : Desk},
    unhurriedRun ext d events = true → Guarded (Desk.step ext) Unhurried d events := by
  intro events
  induction events with
  | nil => exact fun _ => trivial
  | cons e rest ih =>
    intro d h
    rw [unhurriedRun, Bool.and_eq_true] at h
    exact ⟨unhurried_sound h.1, ih h.2⟩

def helloOnly : List DeskEvent :=
  [.message (fun _ => none) "42" "hi" plainAnswers, .handle, .handle, .handle]

def visited (waited : ℤ) : List DeskEvent :=
  [.tick, .visit 0 "42", .sweep 0 waited true, .sweep 0 waited true, .sweep 0 waited true, .sweep 0 waited true,
    .sweep 0 waited true, .sweepEnds 0]

/-- One sweep after another. -/
def sweptInTurn : List DeskEvent :=
  helloOnly ++ visited (10 * 60 * 1000) ++ visited (60 * 60 * 1000) ++ visited (60 * 60 * 1000)

/-- A second sweep reads the budget before the first has spent it. -/
def sweptTwice : List DeskEvent :=
  helloOnly ++ [.tick, .visit 0 "42", .tick, .visit 1 "42", .sweep 0 (10 * 60 * 1000) true,
    .sweep 1 (10 * 60 * 1000) true, .sweep 0 0 true, .sweep 1 0 true, .sweep 0 0 true, .sweep 1 0 true,
    .sweep 0 0 true, .sweep 1 0 true, .sweep 0 0 true, .sweep 1 0 true, .sweepEnds 1, .sweepEnds 0] ++
    visited (60 * 60 * 1000)

/-- The bot goes quiet after two reminders. -/
theorem reminders_bounded_inTurn :
    (deskRun plainExternals sweptInTurn).log = [.message "42", .reminder "42" (some .awaitingContact),
      .reminder "42" (some .awaitingContact)] ∧ RemindersBounded (deskRun plainExternals sweptInTurn).log :=
  ⟨by decide, reminders_bounded plainExternals sweptInTurn (unhurriedRun_sound (by decide))⟩

/-- **Three reminders**: two sweeps that overlap spend one and the same reminder, and the second one follows. -/
theorem reminders_bounded_twice : ¬ RemindersBounded (deskRun plainExternals sweptTwice).log := by
  intro h
  have hlog : (deskRun plainExternals sweptTwice).log = [.message "42"] ++
      [.reminder "42" (some .awaitingContact), .reminder "42" (some .awaitingContact),
        .reminder "42" (some .awaitingContact)] ++ [] := by decide
  have htwo := h.two "42" _ _ _ hlog (by decide)
  exact absurd htwo (by decide)

end Cello.OperationsAgent.Registration
