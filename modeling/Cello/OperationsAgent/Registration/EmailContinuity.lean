import Cello.OperationsAgent.Registration.PhoneVerified
import Cello.OperationsAgent.Registration.Trace

/-!
# One address for all agents of a user

A registration that a CONFIRM has started goes with the address of the completed one (`tokens_continuous`).
The address is stored by a second write, and not at all where the gate refuses, so this holds where the gate
does not refuse and the process does not stop between the two writes.
-/

namespace Cello.OperationsAgent.Registration

open Lib

/-! ### The law and the condition -/

/-- **Every token of a registration that a CONFIRM has started is requested for the expected address.** -/
def Continuous (notes : List Note) : Prop :=
  ∀ id e, .confirmed id (some e) ∈ notes → ∀ phone hash, .requestedToken id phone hash ∈ notes → hash = e

/-- The completed registration that the CONFIRM of a user is about. -/
def confirming (ans : Answers) (mem : Memory) (db : Database) (user message : String) :
    Option RegistrationRow :=
  if (mem.pendingReregistration user).isSome ∧ message = "CONFIRM" ∧
      (db.findActive user).all (fun existing => decide (existing.expiresAt < ans.now)) then
    db.findCompleted user (ans.now - reregistrationWindowMs)
  else none

def writesUpToRow (db : Database) (user : String) : ℕ :=
  match db.findActive user with
  | none => 1
  | some _ => 2

/-- The expected address is stored with the new row: the gate does not refuse, and the process does not stop
in between. -/
def StoresExpected (s : World × List Note) : Event → Prop
  | .update update ans => ∀ user message completed,
      (processUpdate s.1.contacts update).2 = some (user, message) →
      confirming ans s.1.memory s.1.db user message = some completed → completed.emailStubHash ≠ none →
        (checkGate ans s.1.memory user).2 ≠ some false ∧
          ans.writesMade ≠ some (writesUpToRow s.1.db user)
  | _ => True

/-! ### What is known of a row -/

structure Continues (notes : List Note) (r : RegistrationRow) : Prop where
  nonempty : ∀ h, r.emailStubHash = some h → h ≠ ""
  pending : r.state = .awaitingEmailOtp → r.emailStubHash ≠ none
  expected : ∀ e, .confirmed r.id (some e) ∈ notes → r.stateData.expectedEmailStubHash = some e
  verified : ∀ e, .confirmed r.id (some e) ∈ notes → r.state = .emailConfirmed → r.emailStubHash = some e

structure ContInv (db : Database) (notes : List Note) : Prop where
  nodup : (db.rows.map RegistrationRow.id).Nodup
  distinct : db.hashesDistinct = true
  rows : ∀ r ∈ db.rows, Continues notes r
  confirmed : ∀ id e, .confirmed id (some e) ∈ notes → id ∈ db.rows.map RegistrationRow.id ∧ e ≠ ""
  requested : ∀ id phone hash, .requestedToken id phone hash ∈ notes →
    id ∈ db.rows.map RegistrationRow.id
  continuous : Continuous notes

namespace Note

def plain : Note → Bool
  | .confirmed _ (some _) | .requestedToken _ _ _ => false
  | _ => true

end Note

variable {ext : Externals} {db db' : Database} {notes more : List Note} {r : RegistrationRow} {w : Write}
  {id : String}

theorem plain_confirmed {e : String} (hmore : ∀ n ∈ more, n.plain = true)
    (h : .confirmed id (some e) ∈ notes ++ more) : .confirmed id (some e) ∈ notes := by
  rcases List.mem_append.1 h with h | h
  · exact h
  · cases hmore _ h

theorem plain_requested {phone hash : String} (hmore : ∀ n ∈ more, n.plain = true)
    (h : .requestedToken id phone hash ∈ notes ++ more) : .requestedToken id phone hash ∈ notes := by
  rcases List.mem_append.1 h with h | h
  · exact h
  · cases hmore _ h

theorem Continues.append (h : Continues notes r) (hmore : ∀ n ∈ more, n.plain = true) :
    Continues (notes ++ more) r :=
  ⟨h.nonempty, h.pending, fun e he => h.expected e (plain_confirmed hmore he),
    fun e he => h.verified e (plain_confirmed hmore he)⟩

theorem apply_ids (happly : w.apply db = some db') (hid : id ∈ db.rows.map RegistrationRow.id) :
    id ∈ db'.rows.map RegistrationRow.id := by
  obtain ⟨row, -, -, hrows⟩ | ⟨id', f, hchange, hrows⟩ | ⟨-, hrows⟩ := apply_rows happly
  · rw [hrows, List.map_append]
    exact List.mem_append_left _ hid
  · rw [hrows, updateRow_ids fun r => (change_keeps hchange r).1]
    exact hid
  · rw [hrows]
    exact hid

/-! ### Writes that leave the expected address alone -/

def Write.Steady : Write → Prop
  | .insert row => row.emailStubHash = none ∧ row.state ≠ .awaitingEmailOtp
  | .transition _ st u => u.stateData = none ∧ st ≠ .emailConfirmed ∧
      (st = .awaitingEmailOtp → u.emailStubHash ≠ none) ∧ ∀ h, u.emailStubHash = some h → h ≠ ""
  | _ => True

theorem Continues.steady {f : RegistrationRow → RegistrationRow} (h : Continues notes r)
    (hchange : w.change = some (id, f)) (hsteady : w.Steady) : Continues notes (f r) := by
  cases w <;> cases hchange
  case transition st u =>
    obtain ⟨hdata, hconfirmed, hotp, hnonempty⟩ := hsteady
    refine ⟨fun hash hhash => ?_, fun hs => ?_, fun e he => ?_, fun e _ hs => absurd hs hconfirmed⟩
    · rcases Option.or_eq_some_iff.1 hhash with hhash | ⟨-, hhash⟩
      · exact hnonempty hash hhash
      · exact h.nonempty hash hhash
    · intro hnone
      exact hotp hs (Option.or_eq_none_iff.1 hnone).1
    · show (u.stateData.getD r.stateData).expectedEmailStubHash = some e
      rw [hdata]
      exact h.expected e he
  case transitionOnOtpLockout =>
    exact ⟨h.nonempty, fun hs => RegistrationState.noConfusion hs, h.expected,
      fun e _ hs => RegistrationState.noConfusion hs⟩
  case incrementOtpAttempt => exact ⟨h.nonempty, h.pending, h.expected, h.verified⟩
  case recordContactPrompt => exact ⟨h.nonempty, h.pending, h.expected, h.verified⟩

theorem ContInv.steady (h : ContInv db notes) (happly : w.apply db = some db') (hsteady : w.Steady)
    (hmore : ∀ n ∈ more, n.plain = true) : ContInv db' (notes ++ more) := by
  refine ⟨apply_nodup happly h.nodup, apply_distinct happly h.distinct, ?_, fun id e he => ?_,
    fun id phone hash hr => ?_, fun id e he phone hash hr => ?_⟩
  · refine forall_rows_of_apply happly h.rows (fun row hw => ?_)
      (fun id f hw r _ _ hr => (hr.append hmore).steady hw hsteady) fun r _ _ hr => hr.append hmore
    subst hw
    have hnew : ∀ e, .confirmed row.id (some e) ∉ notes ++ more := fun e he =>
      (insert_rows happly).1 (h.confirmed _ e (plain_confirmed hmore he)).1
    refine ⟨fun hash hhash => ?_, fun hs => absurd hs hsteady.2, fun e he => absurd he (hnew e),
      fun e he => absurd he (hnew e)⟩
    rw [hsteady.1] at hhash
    cases hhash
  · have hbefore := h.confirmed id e (plain_confirmed hmore he)
    exact ⟨apply_ids happly hbefore.1, hbefore.2⟩
  · exact apply_ids happly (h.requested id phone hash (plain_requested hmore hr))
  · exact h.continuous id e (plain_confirmed hmore he) phone hash (plain_requested hmore hr)

/-! ### The handlers -/

def SteadyAct : Act → Prop
  | .write w ns => w.Steady ∧ ∀ n ∈ ns, n.plain = true
  | .note n => n.plain = true

abbrev KeepsContinuity (db : Database) (notes : List Note) (acts : List Act) : Prop :=
  Action.Keeps (fun db w => Write.apply db w) ContInv db notes acts

theorem ContInv.append (h : ContInv db notes) (hmore : ∀ n ∈ more, n.plain = true) :
    ContInv db (notes ++ more) :=
  ⟨h.nodup, h.distinct, fun r hr => (h.rows r hr).append hmore,
    fun id e he => h.confirmed id e (plain_confirmed hmore he),
    fun id phone hash hr => h.requested id phone hash (plain_requested hmore hr),
    fun id e he phone hash hr => h.continuous id e (plain_confirmed hmore he) phone hash
      (plain_requested hmore hr)⟩

theorem ContInv.keeps_steady {acts : List Act} (h : ContInv db notes) (hacts : ∀ a ∈ acts, SteadyAct a) :
    KeepsContinuity db notes acts := by
  induction acts generalizing db notes with
  | nil => exact .nil
  | cons a rest ih =>
    have hrest : ∀ a ∈ rest, SteadyAct a := fun a ha => hacts a (List.mem_cons_of_mem _ ha)
    have hfirst := hacts a List.mem_cons_self
    cases a with
    | note n =>
      have hnoted : ContInv db (notes ++ [n]) := h.append fun m hm => List.mem_singleton.1 hm ▸ hfirst
      exact .note hnoted (ih hnoted hrest)
    | write w ns =>
      have hnext : ∀ db', w.apply db = some db' → ContInv db' (notes ++ ns) := fun db' happly =>
        h.steady happly hfirst.1 hfirst.2
      exact .write hnext fun db' happly => ih (hnext db' happly) hrest

variable {ans : Answers} {mem : Memory} {record : RegistrationRow} {message user phoneStubHash : String}

theorem steady_silent {ws : List Write} (h : ∀ w ∈ ws, w.Steady) :
    ∀ a ∈ ws.map (Action.silent : Write → Act), SteadyAct a := by
  intro a ha
  obtain ⟨w, hw, rfl⟩ := List.mem_map.1 ha
  exact ⟨h w hw, fun n hn => absurd hn List.not_mem_nil⟩

theorem steady_transition {st : RegistrationState} {u : Updates} (hdata : u.stateData = none)
    (hemail : u.emailStubHash = none) (hotp : st ≠ .awaitingEmailOtp) (hconfirmed : st ≠ .emailConfirmed) :
    (Write.transition id st u).Steady := by
  refine ⟨hdata, hconfirmed, fun hs => absurd hs hotp, fun h hh => ?_⟩
  rw [hemail] at hh
  cases hh

theorem steady_handleNewUser : ∀ a ∈ Trace.handleNewUser ans mem user phoneStubHash, SteadyAct a := by
  unfold Trace.handleNewUser
  intro a ha
  split at ha
  · cases ha
  · rw [List.mem_singleton.1 ha]
    exact ⟨⟨rfl, by simp [newRow]⟩, by simp [Note.plain]⟩
  · rw [List.mem_singleton.1 ha]
    exact ⟨⟨rfl, by simp [newRow]⟩, by simp⟩

theorem steady_handleAwaitingWaitlistToken :
    ∀ a ∈ Trace.handleAwaitingWaitlistToken ans mem record message user, SteadyAct a := by
  unfold Trace.handleAwaitingWaitlistToken
  intro a ha
  split at ha
  · cases ha
  · split at ha
    · cases ha
    · split at ha
      · cases ha
      · split at ha
        · rw [List.mem_singleton.1 ha]
          exact ⟨steady_transition rfl rfl (by decide) (by decide), by simp [Note.plain]⟩
        · cases ha

theorem steady_handleAwaitingContact :
    ∀ a ∈ Trace.handleAwaitingContact ext record message user, SteadyAct a := by
  refine steady_silent fun w hw => ?_
  unfold handleAwaitingContact at hw
  split at hw
  · rw [List.mem_singleton.1 hw]
    exact trivial
  · split at hw
    · cases hw
    · rcases List.mem_cons.1 hw with rfl | hw
      · exact steady_transition rfl rfl (by decide) (by decide)
      · rw [List.mem_singleton.1 hw]
        exact steady_transition rfl rfl (by decide) (by decide)

theorem steady_recoverFromInitial :
    ∀ a ∈ Trace.recoverFromInitial ext ans mem record message user, SteadyAct a := by
  unfold Trace.recoverFromInitial
  intro a ha
  split at ha
  · cases ha
  · rw [List.mem_singleton.1 ha]
    exact ⟨steady_transition rfl rfl (by decide) (by decide), by simp⟩
  · rcases List.mem_cons.1 ha with rfl | ha
    · exact ⟨steady_transition rfl rfl (by decide) (by decide), by simp [Note.plain]⟩
    · exact steady_handleAwaitingContact a ha

theorem steady_handleAwaitingEmail (hsha : ∀ s, ext.sha256 s ≠ "") :
    ∀ a ∈ Trace.handleAwaitingEmail ext ans db record message user, SteadyAct a := by
  unfold Trace.handleAwaitingEmail
  intro a ha
  split at ha
  · cases ha
  · split at ha
    · cases ha
    · rcases List.mem_cons.1 ha with rfl | ha
      · refine ⟨⟨rfl, by decide, fun _ => Option.some_ne_none _, fun h hh => ?_⟩, by simp [Note.plain]⟩
        rw [← Option.some.inj hh]
        exact hsha _
      · split at ha
        · rw [List.mem_singleton.1 ha]
          exact ⟨trivial, by simp⟩
        · rw [List.mem_singleton.1 ha]
          exact ⟨steady_transition rfl rfl (by decide) (by decide), by simp⟩

theorem steady_reenterEmail : ∀ a ∈ (reenterEmail record).map (Action.silent : Write → Act), SteadyAct a := by
  refine steady_silent fun w hw => ?_
  rw [List.mem_singleton.1 hw]
  exact steady_transition rfl rfl (by decide) (by decide)

/-! ### A verified address -/

section

variable (h : ContInv db notes)

include h

theorem ContInv.keeps_requestToken (hrecord : record.id ∈ db.rows.map RegistrationRow.id)
    (hexpected : ∀ e, .confirmed record.id (some e) ∈ notes → record.emailStubHash = some e) :
    KeepsContinuity db notes (Trace.requestToken ans record) := by
  have hrequested : ContInv db (notes ++
      [.requestedToken record.id record.phoneStubHash (record.emailStubHash.getD "")]) := by
    have hconfirmed : ∀ id e, .confirmed id (some e) ∈ notes ++
        [Note.requestedToken record.id record.phoneStubHash (record.emailStubHash.getD "")] →
          .confirmed id (some e) ∈ notes := fun id e he => by
      rcases List.mem_append.1 he with he | he
      · exact he
      · cases List.mem_singleton.1 he
    refine ⟨h.nodup, h.distinct, fun r hr => ?_, fun id e he => h.confirmed id e (hconfirmed id e he),
      fun id phone hash hr => ?_, fun id e he phone hash hr => ?_⟩
    · have hrow := h.rows r hr
      exact ⟨hrow.nonempty, hrow.pending, fun e he => hrow.expected e (hconfirmed _ e he),
        fun e he => hrow.verified e (hconfirmed _ e he)⟩
    · rcases List.mem_append.1 hr with hr | hr
      · exact h.requested id phone hash hr
      · cases List.mem_singleton.1 hr
        exact hrecord
    · rcases List.mem_append.1 hr with hr | hr
      · exact h.continuous id e (hconfirmed id e he) phone hash hr
      · cases List.mem_singleton.1 hr
        rw [hexpected e (hconfirmed _ e he), Option.getD_some]
  refine .note hrequested (hrequested.keeps_steady (steady_silent fun w hw => ?_))
  unfold issuePreAuth at hw
  split at hw
  · rw [List.mem_singleton.1 hw]
    exact steady_transition rfl rfl (by decide) (by decide)
  · cases hw

theorem ContInv.keeps_confirmEmail (hrecord : record ∈ db.rows)
    (hexpected : ∀ e, .confirmed record.id (some e) ∈ notes → record.emailStubHash = some e) :
    KeepsContinuity db notes (Trace.confirmEmail ans record) := by
  have hnext : ∀ db', (Write.transition record.id .emailConfirmed { clearOtp := true }).apply db = some db' →
      ContInv db' (notes ++ []) := by
    intro db' happly
    rw [List.append_nil]
    refine ⟨apply_nodup happly h.nodup, apply_distinct happly h.distinct, ?_, fun id e he => ?_,
      fun id phone hash hr => apply_ids happly (h.requested id phone hash hr), h.continuous⟩
    · refine forall_rows_of_apply happly h.rows (fun row hw => by cases hw) (fun id f hw r hr hid hrow => ?_)
        fun r _ _ hr => hr
      cases hw
      obtain rfl : r = record := List.inj_on_of_nodup_map h.nodup hr hrecord hid
      exact ⟨hrow.nonempty, fun hs => RegistrationState.noConfusion hs, hrow.expected,
        fun e he _ => hexpected e he⟩
    · have hbefore := h.confirmed id e he
      exact ⟨apply_ids happly hbefore.1, hbefore.2⟩
  refine .write hnext fun db' happly => (hnext db' happly).keeps_requestToken ?_ fun e he => ?_
  · exact apply_ids happly (List.mem_map_of_mem hrecord)
  · rw [List.append_nil] at he
    exact hexpected e he

/-- **The continuity check**: the address that is verified is the expected one. -/
theorem ContInv.keeps_handleAwaitingEmailOtp (hrecord : record ∈ db.rows)
    (hstate : record.state = .awaitingEmailOtp) :
    KeepsContinuity db notes (Trace.handleAwaitingEmailOtp ext ans record message) := by
  have hrow := h.rows record hrecord
  unfold Trace.handleAwaitingEmailOtp
  generalize (record.otpHash.filter fun h => decide (h ≠ "")) = otpHash
  generalize (record.otpSalt.filter fun h => decide (h ≠ "")) = salt
  cases otpHash with
  | none => exact h.keeps_steady steady_reenterEmail
  | some otpHash =>
    dsimp only
    by_cases hexpired : record.otpExpiresAt.getD 0 < ans.now
    · rw [if_pos hexpired]
      exact h.keeps_steady steady_reenterEmail
    · rw [if_neg hexpired]
      cases salt with
      | none => exact h.keeps_steady steady_reenterEmail
      | some salt =>
        dsimp only
        by_cases hwrong : hashOtp ext (trim message) salt ≠ otpHash
        · rw [if_pos hwrong]
          have hcompared : ∀ a ∈ [Action.note (Note.comparedOtp record.id (trim message) false ans.now),
              .silent (if maxOtpAttempts ≤ record.otpAttemptCount + 1 then .transitionOnOtpLockout record.id
                else .incrementOtpAttempt record.id)], SteadyAct a := by
            intro a ha
            rcases List.mem_pair.1 ha with rfl | rfl
            · rfl
            · refine ⟨?_, fun n hn => absurd hn List.not_mem_nil⟩
              split <;> trivial
          have hkept := h.keeps_steady hcompared
          split at hkept
          next hlast =>
            rw [if_pos hlast]
            exact hkept
          next hlast =>
            rw [if_neg hlast]
            exact hkept
        · rw [if_neg hwrong]
          have hcompared : ContInv db (notes ++ [.comparedOtp record.id (trim message) true ans.now]) :=
            h.append fun n hn => by rw [List.mem_singleton.1 hn]; rfl
          refine .note hcompared ?_
          have hexpected : ∀ e, .confirmed record.id (some e) ∈
              notes ++ [.comparedOtp record.id (trim message) true ans.now] →
                record.stateData.expectedEmailStubHash = some e ∧ e ≠ "" := fun e he =>
            ⟨(hcompared.rows record hrecord).expected e he, (hcompared.confirmed _ e he).2⟩
          cases hcheck : record.stateData.expectedEmailStubHash.filter fun h => decide (h ≠ "") with
          | none =>
            refine hcompared.keeps_confirmEmail hrecord fun e he => ?_
            obtain ⟨hdata, hne⟩ := hexpected e he
            rw [hdata, Option.filter_some, if_pos (by simpa using hne)] at hcheck
            cases hcheck
          | some expected =>
            have hexpectedEq : record.stateData.expectedEmailStubHash = some expected :=
              (Option.filter_eq_some_iff.1 hcheck).1
            cases hactual : record.emailStubHash.filter fun h => decide (h ≠ "") with
            | none =>
              obtain ⟨hash, hhash⟩ := Option.ne_none_iff_exists'.1 (hrow.pending hstate)
              rw [hhash, Option.filter_some, if_pos (by simpa using hrow.nonempty hash hhash)] at hactual
              cases hactual
            | some actual =>
              have hactualEq : record.emailStubHash = some actual := (Option.filter_eq_some_iff.1 hactual).1
              dsimp only
              by_cases hdiffers : actual ≠ expected
              · rw [if_pos hdiffers]
                refine hcompared.keeps_steady fun a ha => ?_
                rw [List.mem_singleton.1 ha]
                exact ⟨steady_transition rfl rfl (by decide) (by decide), by simp⟩
              · rw [if_neg hdiffers]
                refine hcompared.keeps_confirmEmail hrecord fun e he => ?_
                have hdata := (hexpected e he).1
                rw [hexpectedEq] at hdata
                rw [hactualEq, not_not.1 hdiffers, hdata]

theorem ContInv.keeps_handleMessage (hsha : ∀ s, ext.sha256 s ≠ "") (hrecord : record ∈ db.rows) :
    KeepsContinuity db notes (Trace.handleMessage ext ans mem db record message user) := by
  have hrow := h.rows record hrecord
  unfold Trace.handleMessage
  cases hstate : record.state with
  | awaitingWaitlistToken => exact h.keeps_steady steady_handleAwaitingWaitlistToken
  | awaitingContact => exact h.keeps_steady steady_handleAwaitingContact
  | awaitingEmail =>
    dsimp only
    exact h.keeps_steady (steady_handleAwaitingEmail hsha)
  | awaitingEmailOtp =>
    dsimp only
    exact h.keeps_handleAwaitingEmailOtp hrecord hstate
  | initial => exact h.keeps_steady steady_recoverFromInitial
  | phoneConfirmed =>
    refine h.keeps_steady fun a ha => ?_
    rw [List.mem_singleton.1 ha]
    exact ⟨steady_transition rfl rfl (by decide) (by decide), by simp⟩
  | emailConfirmed =>
    dsimp only
    exact h.keeps_requestToken (List.mem_map_of_mem hrecord) fun e he => hrow.verified e he hstate
  | preAuthTokenIssued => exact .nil
  | expired => exact .nil
  | failed => exact .nil

end

/-! ### A CONFIRM -/

def confirmActs (ans : Answers) (user phoneStubHash e : String) : List Act :=
  [.write (.insert (newRow ans user phoneStubHash .awaitingContact))
      [.confirmed ans.id (some e), .admitted ans.id (Trace.admission ans)],
    .silent (.transition ans.id .awaitingContact { stateData := some { expectedEmailStubHash := some e } })]

def confirmNotes (ans : Answers) (e : String) : List Note :=
  [.confirmed ans.id (some e), .admitted ans.id (Trace.admission ans)]

theorem confirmed_new {e e' : String} (h : .confirmed id (some e') ∈ notes ++ confirmNotes ans e) :
    .confirmed id (some e') ∈ notes ∨ (id = ans.id ∧ e' = e) := by
  rcases List.mem_append.1 h with h | h
  · exact .inl h
  · rcases List.mem_pair.1 h with h | h
    · cases h
      exact .inr ⟨rfl, rfl⟩
    · cases h

theorem requested_new {e phone hash : String} (h : .requestedToken id phone hash ∈ notes ++ confirmNotes ans e) :
    .requestedToken id phone hash ∈ notes := by
  rcases List.mem_append.1 h with h | h
  · exact h
  · rcases List.mem_pair.1 h with h | h <;> cases h

theorem Continues.other {e : String} (h : Continues notes r) (hne : r.id ≠ ans.id) :
    Continues (notes ++ confirmNotes ans e) r := by
  have hbefore : ∀ e', .confirmed r.id (some e') ∈ notes ++ confirmNotes ans e →
      .confirmed r.id (some e') ∈ notes := fun e' h' => (confirmed_new h').resolve_right fun hthis => hne hthis.1
  exact ⟨h.nonempty, h.pending, fun e' h' => h.expected e' (hbefore e' h'),
    fun e' h' => h.verified e' (hbefore e' h')⟩

/-- **The expected address is stored with the new row.** -/
theorem ContInv.stored {e : String} {mid : Database} (h : ContInv db notes) (he : e ≠ "")
    (hinsert : (Write.insert (newRow ans user phoneStubHash .awaitingContact)).apply db = some mid)
    (hstore : (Write.transition ans.id .awaitingContact
      { stateData := some { expectedEmailStubHash := some e } }).apply mid = some db') :
    ContInv db' (notes ++ confirmNotes ans e) := by
  obtain ⟨hfresh, hmid⟩ := insert_rows hinsert
  have hids : ∀ {id}, id ∈ db.rows.map RegistrationRow.id → id ∈ db'.rows.map RegistrationRow.id :=
    fun hid => apply_ids hstore (apply_ids hinsert hid)
  have hnew : ans.id ∈ mid.rows.map RegistrationRow.id := by
    rw [hmid, List.map_append]
    exact List.mem_append_right _ List.mem_cons_self
  refine ⟨apply_nodup hstore (apply_nodup hinsert h.nodup),
    apply_distinct hstore (apply_distinct hinsert h.distinct), fun r hr => ?_, fun id e' h' => ?_,
    fun id phone hash h' => hids (h.requested id phone hash (requested_new h')), fun id e' h' phone hash hr => ?_⟩
  · rw [change_checked_some hstore, mem_updateRow_iff, hmid] at hr
    rcases hr with ⟨r₀, hr₀, hid, rfl⟩ | ⟨hr, hid⟩
    · rcases List.mem_append.1 hr₀ with hr₀ | hr₀
      · have hold := List.mem_map_of_mem (f := RegistrationRow.id) hr₀
        rw [hid] at hold
        exact absurd hold hfresh
      · cases List.mem_singleton.1 hr₀
        refine ⟨fun hash hhash => absurd hhash.symm (Option.some_ne_none hash),
          fun hs => RegistrationState.noConfusion hs, fun e' h' => ?_, fun e' _ hs => RegistrationState.noConfusion hs⟩
        rcases confirmed_new h' with h' | ⟨-, rfl⟩
        · exact absurd (h.confirmed _ e' h').1 hfresh
        · rfl
    · rcases List.mem_append.1 hr with hr | hr
      · exact (h.rows r hr).other hid
      · cases List.mem_singleton.1 hr
        exact absurd rfl hid
  · rcases confirmed_new h' with h' | ⟨rfl, rfl⟩
    · exact ⟨hids (h.confirmed id e' h').1, (h.confirmed id e' h').2⟩
    · exact ⟨apply_ids hstore hnew, he⟩
  · rcases confirmed_new h' with h' | ⟨rfl, rfl⟩
    · exact h.continuous id e' h' phone hash (requested_new hr)
    · exact absurd (h.requested _ phone hash (requested_new hr)) hfresh

theorem stores_applies {e : String} {mid : Database} (hdistinct : mid.hashesDistinct = true)
    (hinsert : (Write.insert (newRow ans user phoneStubHash .awaitingContact)).apply db = some mid) :
    ∃ db', (Write.transition ans.id .awaitingContact
      { stateData := some { expectedEmailStubHash := some e } }).apply mid = some db' := by
  obtain ⟨hfresh, hmid⟩ := insert_rows hinsert
  have hid : ans.id ∈ mid.rows.map RegistrationRow.id := by
    rw [hmid, List.map_append]
    exact List.mem_append_right _ List.mem_cons_self
  have hkept : ∀ r ∈ mid.rows, r.id = ans.id →
      (r.transitioned .awaitingContact
        { stateData := some { expectedEmailStubHash := some e } }).state.terminal = r.state.terminal ∧
      (r.transitioned .awaitingContact
        { stateData := some { expectedEmailStubHash := some e } }).phoneStubHash = r.phoneStubHash := by
    intro r hr hrid
    rw [hmid] at hr
    rcases List.mem_append.1 hr with hr | hr
    · have hold := List.mem_map_of_mem (f := RegistrationRow.id) hr
      rw [hrid] at hold
      exact absurd hold hfresh
    · cases List.mem_singleton.1 hr
      exact ⟨rfl, rfl⟩
  refine ⟨{ mid with rows := updateRow ans.id (·.transitioned .awaitingContact
    { stateData := some { expectedEmailStubHash := some e } }) mid.rows }, ?_⟩
  show (mid.change ans.id _).bind Database.checked = _
  rw [Database.change, if_pos hid, Option.bind_some, Database.checked, if_pos]
  unfold Database.hashesDistinct at hdistinct ⊢
  rw [activeHashes_updateRow hkept]
  exact hdistinct

theorem ContInv.perform_confirm {e : String} {n : Option ℕ} (h : ContInv db notes) (he : e ≠ "")
    (hn : n ≠ some 1) :
    ContInv
      (Action.perform (fun db w => Write.apply db w) n db notes (confirmActs ans user phoneStubHash e)).1
      (Action.perform (fun db w => Write.apply db w) n db notes (confirmActs ans user phoneStubHash e)).2 := by
  cases hinsert : (Write.insert (newRow ans user phoneStubHash .awaitingContact)).apply db with
  | none =>
    have hnothing : Action.perform (fun db w => Write.apply db w) n db notes
        (confirmActs ans user phoneStubHash e) = (db, notes) := by
      rcases n with _ | _ | n <;> simp only [Action.perform, confirmActs, hinsert]
    rw [hnothing]
    exact h
  | some mid =>
    obtain ⟨db', hstore⟩ := stores_applies (e := e) (apply_distinct hinsert h.distinct) hinsert
    have hboth := h.stored he hinsert hstore
    rcases n with _ | _ | _ | n
    · simp only [Action.perform, confirmActs, hinsert, hstore, List.append_nil]
      exact hboth
    · exact h
    · exact absurd rfl hn
    · simp only [Action.perform, confirmActs, hinsert, hstore, List.append_nil]
      exact hboth

theorem ContInv.perform_handleExistingUser {expected : Option String} {n : Option ℕ} (h : ContInv db notes)
    (hnonempty : ∀ e, expected = some e → e ≠ "")
    (hstores : expected ≠ none → (checkGate ans mem user).2 ≠ some false ∧ n ≠ some 1) :
    ContInv
      (Action.perform (fun db w => Write.apply db w) n db notes
        (Trace.handleExistingUser ans mem user phoneStubHash expected)).1
      (Action.perform (fun db w => Write.apply db w) n db notes
        (Trace.handleExistingUser ans mem user phoneStubHash expected)).2 := by
  cases expected with
  | none =>
    refine Action.Keeps.perform (h.keeps_steady fun a ha => ?_) h n
    unfold Trace.handleExistingUser at ha
    split at ha
    · cases ha
    · rcases List.mem_pair.1 ha with rfl | rfl
      · exact ⟨⟨rfl, by simp [newRow]⟩, by simp [Note.plain]⟩
      · exact ⟨steady_transition rfl rfl (by decide) (by decide), by simp⟩
    · rw [List.mem_singleton.1 ha]
      exact ⟨⟨rfl, by simp [newRow]⟩, by simp [Note.plain]⟩
  | some e =>
    obtain ⟨hgate, hn⟩ := hstores (Option.some_ne_none e)
    have he := hnonempty e rfl
    unfold Trace.handleExistingUser
    split
    · exact Action.Keeps.nil.perform h n
    next hrefused => exact absurd hrefused hgate
    · rw [Option.filter_some, if_pos (by simpa using he)]
      exact h.perform_confirm he hn

theorem checkGate_pending (pending : String → Option ℤ) :
    (checkGate ans { mem with pendingReregistration := pending } user).2 = (checkGate ans mem user).2 := by
  unfold checkGate
  cases ans.gate with
  | none => rfl
  | some gate =>
    show (askGate _ user ans.now gate.check).2 = (askGate mem user ans.now gate.check).2
    unfold askGate
    dsimp only
    generalize (mem.gateFaultAt user).filter _ = fault
    cases fault <;> cases gate.check <;> rfl

theorem ContInv.perform_handleCompletedOrNew {before : Database} {n : Option ℕ} (h : ContInv db notes)
    (hbefore : ∀ r ∈ before.rows, ∀ e, r.emailStubHash = some e → e ≠ "")
    (hstores : ∀ completed, before.findCompleted user (ans.now - reregistrationWindowMs) = some completed →
      (mem.pendingReregistration user).isSome → message = "CONFIRM" → completed.emailStubHash ≠ none →
        (checkGate ans mem user).2 ≠ some false ∧ n ≠ some 1) :
    ContInv
      (Action.perform (fun db w => Write.apply db w) n db notes
        (Trace.handleCompletedOrNew ans mem before user message phoneStubHash)).1
      (Action.perform (fun db w => Write.apply db w) n db notes
        (Trace.handleCompletedOrNew ans mem before user message phoneStubHash)).2 := by
  unfold Trace.handleCompletedOrNew
  cases hcompleted : before.findCompleted user (ans.now - reregistrationWindowMs) with
  | none => exact Action.Keeps.perform (h.keeps_steady steady_handleNewUser) h n
  | some completed =>
    dsimp only
    split
    next hconfirm =>
      refine h.perform_handleExistingUser (hbefore completed (mem_of_findCompleted hcompleted)) fun hsome => ?_
      rw [checkGate_pending]
      exact hstores completed hcompleted hconfirm.1 hconfirm.2 hsome
    · exact Action.Keeps.nil.perform h n

/-! ### Runs -/

theorem confirming_some {completed : RegistrationRow} (hpending : (mem.pendingReregistration user).isSome)
    (hmessage : message = "CONFIRM")
    (hlive : (db.findActive user).all (fun existing => decide (existing.expiresAt < ans.now)) = true)
    (hcompleted : db.findCompleted user (ans.now - reregistrationWindowMs) = some completed) :
    confirming ans mem db user message = some completed := by
  unfold confirming
  rw [if_pos ⟨hpending, hmessage, hlive⟩, hcompleted]

/-- **A message keeps what is known**, if a CONFIRM in it stores the expected address. -/
theorem ContInv.inbound (hsha : ∀ s, ext.sha256 s ≠ "") (h : ContInv db notes)
    {contacts : String → Option StoredContact}
    (hstores : ∀ completed, confirming ans mem db user message = some completed →
      completed.emailStubHash ≠ none →
        (checkGate ans mem user).2 ≠ some false ∧ ans.writesMade ≠ some (writesUpToRow db user)) :
    ContInv (noted ext ans contacts mem db notes user message).1
      (noted ext ans contacts mem db notes user message).2 := by
  have hnonempty : ∀ r ∈ db.rows, ∀ e, r.emailStubHash = some e → e ≠ "" := fun r hr e he =>
    (h.rows r hr).nonempty e he
  unfold Registration.noted Trace.handleInboundMessage
  unfold writesUpToRow at hstores
  cases hactive : db.findActive user with
  | none =>
    rw [hactive] at hstores
    refine h.perform_handleCompletedOrNew hnonempty fun completed hcompleted hpending hmessage => ?_
    exact hstores completed (confirming_some hpending hmessage (by rw [hactive]; rfl) hcompleted)
  | some record =>
    rw [hactive] at hstores
    have hrecord : record ∈ db.rows := List.mem_of_find?_eq_some hactive
    dsimp only at hstores ⊢
    by_cases hexpired : record.expiresAt < ans.now
    · rw [if_pos hexpired]
      split
      · exact Action.Keeps.nil.perform h _
      · rcases Action.perform_write (fun db w => Write.apply db w) ans.writesMade db notes
          (.transition record.id .expired) []
          (Trace.handleCompletedOrNew ans mem db user message (identityHash ext contacts user))
          with hstopped | ⟨db', n', happly, hn, hrest⟩
        · rw [hstopped]
          exact h
        · have hended : ContInv db' (notes ++ []) := h.steady happly
            (steady_transition rfl rfl (by decide) (by decide)) fun n hn => absurd hn List.not_mem_nil
          rw [hrest]
          refine hended.perform_handleCompletedOrNew hnonempty fun completed hcompleted hpending hmessage hsome => ?_
          have hlive : (db.findActive user).all (fun existing => decide (existing.expiresAt < ans.now)) = true := by
            rw [hactive]
            exact decide_eq_true hexpired
          obtain ⟨hgate, hmade⟩ := hstores completed (confirming_some hpending hmessage hlive hcompleted) hsome
          refine ⟨hgate, fun hone => hmade ?_⟩
          rw [hn, hone]
          rfl
    · rw [if_neg hexpired]
      exact (h.keeps_handleMessage hsha hrecord).perform h _

theorem ContInv.step (hsha : ∀ s, ext.sha256 s ≠ "") {s : World × List Note} {e : Event}
    (h : ContInv s.1.db s.2) (hstores : StoresExpected s e) :
    ContInv (traceStep ext s e).1.db (traceStep ext s e).2 := by
  have hsilent : ∀ {w : Write} {db db' : Database}, ContInv db s.2 → w.Steady → w.apply db = some db' →
      ContInv db' s.2 := by
    intro w db db' hdb hsteady happly
    have hkept : ContInv db' (s.2 ++ []) := hdb.steady happly hsteady fun n hn => absurd hn List.not_mem_nil
    rw [List.append_nil] at hkept
    exact hkept
  apply traceStep_invariant
  · intro update ans contacts user message he hprocess
    subst he
    refine h.inbound hsha fun completed hcompleted hsome => ?_
    have hsent : (processUpdate s.1.contacts update).2 = some (user, message) := by rw [hprocess]
    exact hstores user message completed hsent hcompleted hsome
  · intro id db db' hdb happly
    exact hsilent hdb (steady_transition rfl rfl (by decide) (by decide)) happly
  · intro id n db db' hdb happly
    exact hsilent (w := .recordContactPrompt id n) hdb trivial happly
  · exact h

/-- **One address for all agents of a user.**  In every run in which no CONFIRM is refused by the gate, and
none stops behind its new row, each token of a registration that a CONFIRM has started is requested with the
address of the completed registration. -/
theorem tokens_continuous (ext : Externals) (hsha : ∀ s, ext.sha256 s ≠ "") (events : List Event)
    (hguard : Guarded (traceStep ext) StoresExpected ({}, []) events) :
    Continuous (traceRun ext events).2 := by
  have hstart : ContInv {} [] :=
    ⟨List.nodup_nil, by decide, fun r hr => absurd hr List.not_mem_nil,
      fun id e he => absurd he List.not_mem_nil, fun id phone hash hr => absurd hr List.not_mem_nil,
      fun id e he => absurd he List.not_mem_nil⟩
  have hrun := Guarded.invariant (P := fun s : World × List Note => ContInv s.1.db s.2)
    (fun s e h hstores => h.step hsha hstores) hstart hguard events.length
  rw [List.take_length] at hrun
  exact hrun.continuous

/-! ### A second agent, with the same address and with another one -/

def gatedAnswers (id : String) (check : Bool) : Answers :=
  { plainAnswers with id := id, gate := some ⟨some check, some true⟩ }

def typing (text : String) (ans : Answers) : Event := .update (typedUpdate 42 text) ans

def sharing (ans : Answers) : Event := .update (sharedUpdate 42 "+15550100") ans

def firstAgent : List Event :=
  [typing "hi" (gatedAnswers "first" true), sharing (gatedAnswers "first" true),
    typing "a@b.co" (gatedAnswers "first" true), typing "123456" (gatedAnswers "first" true),
    typing "hi" (gatedAnswers "first" true)]

def secondAgent (email : String) : List Event :=
  [sharing (gatedAnswers "second" true), typing email (gatedAnswers "second" true),
    typing "123456" (gatedAnswers "second" true)]

def sameEmail : List Event := firstAgent ++ typing "CONFIRM" (gatedAnswers "second" true) :: secondAgent "a@b.co"

/-- The gate refuses the CONFIRM, and a token of the waitlist is redeemed. -/
def otherEmail : List Event :=
  firstAgent ++ typing "CONFIRM" (gatedAnswers "second" false) ::
    typing "TOKEN" (gatedAnswers "second" false) :: secondAgent "x@y.zz"

theorem notes_sameEmail : (traceRun plainExternals sameEmail).2 =
    [.admitted "first" .checked, .storedOtp "first" "a@b.co" "123456" "salt" 0,
      .comparedOtp "first" "123456" true 0, .requestedToken "first" (digests.hex "+15550100") (digests.hex "a@b.co"),
      .confirmed "second" (some (digests.hex "a@b.co")), .admitted "second" .checked,
      .storedOtp "second" "a@b.co" "123456" "salt" 0, .comparedOtp "second" "123456" true 0,
      .requestedToken "second" (digests.hex "+15550100") (digests.hex "a@b.co")] := by decide

theorem notes_otherEmail : (traceRun plainExternals otherEmail).2 =
    [.admitted "first" .checked, .storedOtp "first" "a@b.co" "123456" "salt" 0,
      .comparedOtp "first" "123456" true 0, .requestedToken "first" (digests.hex "+15550100") (digests.hex "a@b.co"),
      .confirmed "second" (some (digests.hex "a@b.co")), .admitted "second" .redeemed,
      .storedOtp "second" "x@y.zz" "123456" "salt" 0, .comparedOtp "second" "123456" true 0,
      .requestedToken "second" (digests.hex "+15550100") (digests.hex "x@y.zz")] := by decide

theorem checkGate_admits (id : String) : (checkGate (gatedAnswers id true) mem user).2 ≠ some false := by
  unfold checkGate gatedAnswers askGate
  dsimp only
  generalize (mem.gateFaultAt user).filter _ = fault
  cases fault <;> simp

/-- The second agent has the address of the first. -/
theorem tokens_continuous_same :
    .confirmed "second" (some (digests.hex "a@b.co")) ∈ (traceRun plainExternals sameEmail).2 ∧
      Continuous (traceRun plainExternals sameEmail).2 := by
  have hadmits : ∀ e ∈ sameEmail, ∃ u id, e = .update u (gatedAnswers id true) := by
    intro e he
    simp only [sameEmail, firstAgent, secondAgent, typing, sharing, List.cons_append, List.nil_append,
      List.mem_cons, List.not_mem_nil, or_false] at he
    rcases he with rfl | rfl | rfl | rfl | rfl | rfl | rfl | rfl | rfl <;> exact ⟨_, _, rfl⟩
  have hguard : Guarded (traceStep plainExternals) StoresExpected ({}, []) sameEmail := by
    refine Guarded.of_forall fun m e hm => ?_
    obtain ⟨u, id, rfl⟩ := hadmits e (List.mem_of_getElem? hm)
    exact fun user message completed _ _ _ => ⟨checkGate_admits id, by simp [gatedAnswers, plainAnswers]⟩
  have hsha : ∀ s, plainExternals.sha256 s ≠ "" := digests.hex_ne_empty
  refine ⟨?_, tokens_continuous plainExternals hsha sameEmail hguard⟩
  rw [notes_sameEmail]
  simp

/-- **A refusal forgets the expected address.**  The gate refuses the CONFIRM, the user redeems a token of the
waitlist, and the token is requested for another address. -/
theorem tokens_continuous_refused : ¬ Continuous (traceRun plainExternals otherEmail).2 := by
  intro h
  rw [notes_otherEmail] at h
  have hconfirmed :=
    h "second" (digests.hex "a@b.co") (by simp) (digests.hex "+15550100") (digests.hex "x@y.zz") (by simp)
  exact absurd hconfirmed (by decide)

end Cello.OperationsAgent.Registration
