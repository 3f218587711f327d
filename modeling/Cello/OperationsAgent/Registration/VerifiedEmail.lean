import Mathlib.Data.List.Count
import Cello.OperationsAgent.Registration.PhoneVerified
import Cello.OperationsAgent.Registration.Trace

/-!
# Verified addresses

A token is requested for the address to which the last code belongs, once the code has been entered in time
and before three wrong candidates (`tokens_certified`).  A candidate is compared first and counted after it,
so this holds where the process does not stop in between.
-/

namespace Cello.OperationsAgent.Registration

open Lib

/-! ### The law -/

namespace Note

def storesOtpOf (id : String) : Note → Bool
  | .storedOtp id' _ _ _ _ => decide (id' = id)
  | _ => false

def wrongOtpOf (id : String) : Note → Bool
  | .comparedOtp id' _ correct _ => decide (id' = id) && !correct
  | _ => false

def quiet : Note → Bool
  | .admitted _ _ | .confirmed _ _ => true
  | _ => false

end Note

def wrongCandidates (id : String) (notes : List Note) : ℕ := notes.countP (Note.wrongOtpOf id)

/-- The registration was let through to the contact step. -/
def Admitted (notes : List Note) (id : String) : Prop := ∃ how, .admitted id how ∈ notes

section

variable (ext : Externals)

def EmailVerified (notes : List Note) (id emailStubHash : String) : Prop :=
  ∃ before email otp salt t since t' after,
    notes = before ++ .storedOtp id email otp salt t :: (since ++ .comparedOtp id otp true t' :: after) ∧
      hashEmail ext email = emailStubHash ∧ t' ≤ t + otpTtlMs ∧
      (∀ n ∈ since, n.storesOtpOf id = false) ∧ wrongCandidates id since < maxOtpAttempts

/-- **Every token is requested for a verified address** of a registration that was let through. -/
def TokensCertified (notes : List Note) : Prop :=
  ∀ pre id phone hash post, notes = pre ++ .requestedToken id phone hash :: post →
    EmailVerified ext pre id hash ∧ Admitted pre id

/-- No candidate has the hash of a code that it is not. -/
def NoOtpCollision (notes : List Note) : Prop :=
  ∀ id candidate t, .comparedOtp id candidate true t ∈ notes →
    ∀ id' email otp salt t', .storedOtp id' email otp salt t' ∈ notes →
      hashOtp ext candidate salt = hashOtp ext otp salt → candidate = otp

/-! ### The condition -/

/-- The message is a wrong candidate for the code of its sender. -/
def wrongCandidate (ans : Answers) (db : Database) (user message : String) : Bool :=
  match db.findActive user with
  | none => false
  | some record =>
    !decide (record.expiresAt < ans.now) && decide (record.state = .awaitingEmailOtp) &&
      match record.otpHash.filter (fun h => decide (h ≠ "")),
        record.otpSalt.filter (fun s => decide (s ≠ "")) with
      | some otpHash, some salt => !decide (record.otpExpiresAt.getD 0 < ans.now) &&
          decide (hashOtp ext (trim message) salt ≠ otpHash)
      | _, _ => false

/-- A wrong candidate is counted: the process does not stop before that. -/
def CountsWrong (s : World × List Note) : Event → Prop
  | .update update ans => ∀ user message, (processUpdate s.1.contacts update).2 = some (user, message) →
      wrongCandidate ext ans s.1.db user message = true → ans.writesMade ≠ some 0
  | _ => True

/-! ### What is known of a row -/

/-- A verified address, as far as the hash of the code tells. -/
def HashVerified (notes : List Note) (id emailStubHash : String) : Prop :=
  ∃ before email otp salt t since candidate t' after,
    notes = before ++ .storedOtp id email otp salt t :: (since ++ .comparedOtp id candidate true t' :: after) ∧
      hashEmail ext email = emailStubHash ∧ hashOtp ext candidate salt = hashOtp ext otp salt ∧
      t' ≤ t + otpTtlMs ∧ (∀ n ∈ since, n.storesOtpOf id = false) ∧
      wrongCandidates id since < maxOtpAttempts

/-- **A code is pending**: the columns are those of the last code, and the wrong candidates are counted. -/
def Pending (notes : List Note) (r : RegistrationRow) : Prop :=
  ∃ before email otp salt t since,
    notes = before ++ .storedOtp r.id email otp salt t :: since ∧
      r.emailStubHash = some (hashEmail ext email) ∧ r.otpHash = some (hashOtp ext otp salt) ∧
      r.otpSalt = some salt ∧ r.otpExpiresAt = some (t + otpTtlMs) ∧
      (∀ n ∈ since, n.storesOtpOf r.id = false) ∧ wrongCandidates r.id since = r.otpAttemptCount ∧
      r.otpAttemptCount < maxOtpAttempts

def RegistrationState.letThrough : RegistrationState → Bool
  | .awaitingContact | .phoneConfirmed | .awaitingEmail | .awaitingEmailOtp | .emailConfirmed
  | .preAuthTokenIssued => true
  | .initial | .awaitingWaitlistToken | .expired | .failed => false

structure RowOk (notes : List Note) (r : RegistrationRow) : Prop where
  admitted : r.state.letThrough = true → Admitted notes r.id
  pending : r.state = .awaitingEmailOtp → Pending ext notes r
  verified : r.state = .emailConfirmed → HashVerified ext notes r.id (r.emailStubHash.getD "")

def TokensHashCertified (notes : List Note) : Prop :=
  ∀ pre id phone hash post, notes = pre ++ .requestedToken id phone hash :: post →
    HashVerified ext pre id hash ∧ Admitted pre id

structure EmailInv (db : Database) (notes : List Note) : Prop where
  nodup : (db.rows.map RegistrationRow.id).Nodup
  distinct : db.hashesDistinct = true
  rows : ∀ r ∈ db.rows, RowOk ext notes r
  certified : TokensHashCertified ext notes

end

variable {ext : Externals} {db db' : Database} {notes more : List Note} {r : RegistrationRow} {w : Write}
  {id : String}

/-! ### More notes -/

theorem Admitted.append (h : Admitted notes id) (more : List Note) : Admitted (notes ++ more) id := by
  obtain ⟨how, hmem⟩ := h
  exact ⟨how, List.mem_append_left _ hmem⟩

theorem HashVerified.append {hash : String} (h : HashVerified ext notes id hash) (more : List Note) :
    HashVerified ext (notes ++ more) id hash := by
  obtain ⟨before, email, otp, salt, t, since, candidate, t', after, rfl, hrest⟩ := h
  refine ⟨before, email, otp, salt, t, since, candidate, t', after ++ more, ?_, hrest⟩
  simp only [List.append_assoc, List.cons_append]

theorem Pending.append (h : Pending ext notes r)
    (hmore : ∀ n ∈ more, n.storesOtpOf r.id = false ∧ n.wrongOtpOf r.id = false) :
    Pending ext (notes ++ more) r := by
  obtain ⟨before, email, otp, salt, t, since, rfl, hhash, hotp, hsalt, hexpires, hsince, hcount, hlt⟩ := h
  refine ⟨before, email, otp, salt, t, since ++ more, ?_, hhash, hotp, hsalt, hexpires, fun n hn => ?_, ?_, hlt⟩
  · simp only [List.append_assoc, List.cons_append]
  · rcases List.mem_append.1 hn with hn | hn
    · exact hsince n hn
    · exact (hmore n hn).1
  · have hzero : more.countP (Note.wrongOtpOf r.id) = 0 := by
      rw [List.countP_eq_zero]
      intro n hn hwrong
      rw [(hmore n hn).2] at hwrong
      cases hwrong
    unfold wrongCandidates at hcount ⊢
    rw [List.countP_append, hzero, Nat.add_zero, hcount]

theorem RowOk.append (h : RowOk ext notes r)
    (hmore : ∀ n ∈ more, n.storesOtpOf r.id = false ∧ n.wrongOtpOf r.id = false) :
    RowOk ext (notes ++ more) r :=
  ⟨fun hs => (h.admitted hs).append more, fun hs => (h.pending hs).append hmore,
    fun hs => (h.verified hs).append more⟩

theorem quiet_other {n : Note} (h : n.quiet = true) (id : String) :
    n.storesOtpOf id = false ∧ n.wrongOtpOf id = false := by
  cases n with
  | admitted => exact ⟨rfl, rfl⟩
  | confirmed => exact ⟨rfl, rfl⟩
  | storedOtp => cases h
  | comparedOtp => cases h
  | requestedToken => cases h

theorem rowOk_of_plain (hotp : r.state ≠ .awaitingEmailOtp) (hconfirmed : r.state ≠ .emailConfirmed)
    (hadm : r.state.letThrough = true → Admitted notes r.id) : RowOk ext notes r :=
  ⟨hadm, fun h => absurd h hotp, fun h => absurd h hconfirmed⟩

theorem certified_append (h : TokensHashCertified ext notes)
    (hmore : ∀ n ∈ more, ∀ id phone hash, n = .requestedToken id phone hash →
      HashVerified ext notes id hash ∧ Admitted notes id) : TokensHashCertified ext (notes ++ more) := by
  intro pre id phone hash post heq
  rcases List.append_eq_append_iff.1 heq with ⟨mid, rfl, hmid⟩ | ⟨mid, rfl, hmid⟩
  · obtain ⟨hverified, hadm⟩ := hmore (.requestedToken id phone hash)
      (hmid ▸ List.mem_append_right _ List.mem_cons_self) id phone hash rfl
    exact ⟨hverified.append mid, hadm.append mid⟩
  · cases mid with
    | nil =>
      obtain ⟨hverified, hadm⟩ := hmore (.requestedToken id phone hash)
        ((show .requestedToken id phone hash :: post = more from hmid) ▸ List.mem_cons_self) id phone hash rfl
      rw [List.append_nil] at hverified hadm
      exact ⟨hverified, hadm⟩
    | cons n mid =>
      obtain ⟨rfl, rfl⟩ := List.cons.inj hmid
      exact h pre id phone hash mid rfl

/-! ### Writes that say nothing of codes -/

namespace Write

/-- A write on a registration after which no code of it is pending and no address confirmed. -/
def plain (id : String) : Write → Bool
  | .insert row => decide (row.id = id) && decide (row.state ≠ .awaitingEmailOtp) &&
      decide (row.state ≠ .emailConfirmed)
  | .transition id' st _ => decide (id' = id) && decide (st ≠ .awaitingEmailOtp) &&
      decide (st ≠ .emailConfirmed)
  | .transitionOnOtpLockout id' => decide (id' = id)
  | .recordContactPrompt _ _ | .recordOtpSend _ _ => true
  | .incrementOtpAttempt _ => false

def letsThrough : Write → Bool
  | .insert row => row.state.letThrough
  | .transition _ st _ => st.letThrough
  | .transitionOnOtpLockout _ => true
  | _ => false

end Write

theorem RowOk.plain_change {id' : String} {f : RegistrationRow → RegistrationRow} (h : RowOk ext notes r)
    (hchange : w.change = some (id', f)) (hid : r.id = id') (hplain : w.plain id = true)
    (hadm : w.letsThrough = true → Admitted notes id) : RowOk ext notes (f r) := by
  cases w <;> cases hchange
  case transition st u =>
    simp only [Write.plain, Bool.and_eq_true, decide_eq_true_eq] at hplain
    obtain ⟨⟨rfl, hotp⟩, hconfirmed⟩ := hplain
    exact rowOk_of_plain hotp hconfirmed fun hs => hid ▸ hadm hs
  case transitionOnOtpLockout =>
    obtain rfl := of_decide_eq_true hplain
    exact rowOk_of_plain (by simp [RegistrationRow.lockedOut]) (by simp [RegistrationRow.lockedOut])
      fun _ => hid ▸ hadm rfl
  case incrementOtpAttempt => cases hplain
  case recordContactPrompt => exact ⟨h.admitted, h.pending, h.verified⟩

theorem EmailInv.plain (h : EmailInv ext db notes) (happly : w.apply db = some db')
    (hplain : w.plain id = true) (hquiet : ∀ n ∈ more, n.quiet = true)
    (hadm : w.letsThrough = true → Admitted (notes ++ more) id) : EmailInv ext db' (notes ++ more) := by
  refine ⟨apply_nodup happly h.nodup, apply_distinct happly h.distinct, ?_, ?_⟩
  · refine forall_rows_of_apply happly h.rows (fun row hw => ?_) (fun id' f hw r _ hid hr => ?_)
      fun r _ _ hr => hr.append fun n hn => quiet_other (hquiet n hn) r.id
    · subst hw
      simp only [Write.plain, Bool.and_eq_true, decide_eq_true_eq] at hplain
      obtain ⟨⟨rfl, hotp⟩, hconfirmed⟩ := hplain
      exact rowOk_of_plain hotp hconfirmed hadm
    · have hrow := hr.append fun n hn => quiet_other (hquiet n hn) r.id
      exact hrow.plain_change hw hid hplain hadm
  · refine certified_append h.certified fun n hn id phone hash heq => ?_
    have hq := hquiet n hn
    rw [heq] at hq
    cases hq

theorem EmailInv.keeps_plain {ws : List Write} (h : EmailInv ext db notes)
    (hws : ∀ w ∈ ws, w.plain id = true ∧ (w.letsThrough = true → Admitted notes id)) :
    Action.Keeps (fun db w => Write.apply db w) (EmailInv ext) db notes (ws.map .silent) := by
  refine Action.Keeps.of_silent (fun w hw db db' hdb happly => ?_) h
  obtain ⟨hplain, hadm⟩ := hws w hw
  have hkept : EmailInv ext db' (notes ++ []) := by
    apply hdb.plain happly hplain fun n hn => absurd hn List.not_mem_nil
    rw [List.append_nil]
    exact hadm
  rw [List.append_nil] at hkept
  exact hkept

/-! ### The handlers -/

variable {ans : Answers} {mem : Memory} {record : RegistrationRow} {message user phoneStubHash : String}

abbrev KeepsEmail (ext : Externals) (db : Database) (notes : List Note) (acts : List Act) : Prop :=
  Action.Keeps (fun db w => Write.apply db w) (EmailInv ext) db notes acts

theorem EmailInv.keeps_write {rest : List Act} (h : EmailInv ext db notes) (id : String)
    (hplain : w.plain id = true) (hquiet : ∀ n ∈ more, n.quiet = true)
    (hadm : w.letsThrough = true → Admitted (notes ++ more) id)
    (hrest : ∀ db', EmailInv ext db' (notes ++ more) → KeepsEmail ext db' (notes ++ more) rest) :
    KeepsEmail ext db notes (.write w more :: rest) := by
  have hnext : ∀ db', w.apply db = some db' → EmailInv ext db' (notes ++ more) := fun db' happly =>
    h.plain happly hplain hquiet hadm
  exact .write hnext fun db' happly => hrest db' (hnext db' happly)

theorem admitted_mem {how : Admission} (h : .admitted id how ∈ more) : Admitted (notes ++ more) id :=
  ⟨how, List.mem_append_right _ h⟩

theorem EmailInv.keeps_handleNewUser (h : EmailInv ext db notes) :
    KeepsEmail ext db notes (Trace.handleNewUser ans mem user phoneStubHash) := by
  unfold Trace.handleNewUser
  split
  · exact .nil
  · exact h.keeps_write ans.id (by simp [Write.plain, newRow]) (by simp [Note.quiet])
      (fun _ => admitted_mem List.mem_cons_self) fun _ _ => .nil
  · exact h.keeps_write ans.id (by simp [Write.plain, newRow]) (fun n hn => absurd hn List.not_mem_nil)
      (fun hs => by cases hs) fun _ _ => .nil

theorem EmailInv.keeps_handleExistingUser {expected : Option String} (h : EmailInv ext db notes) :
    KeepsEmail ext db notes (Trace.handleExistingUser ans mem user phoneStubHash expected) := by
  unfold Trace.handleExistingUser
  split
  · exact .nil
  · refine h.keeps_write ans.id (by simp [Write.plain, newRow]) (by simp [Note.quiet])
      (fun hs => by cases hs) fun db' hdb' => ?_
    have hws : ∀ w ∈ [Write.transition ans.id .awaitingWaitlistToken], w.plain ans.id = true ∧
        (w.letsThrough = true → Admitted (notes ++ [.confirmed ans.id expected]) ans.id) := by
      simp [Write.plain, Write.letsThrough, RegistrationState.letThrough]
    exact hdb'.keeps_plain hws
  · have hadm : Admitted (notes ++ [.confirmed ans.id expected, .admitted ans.id (Trace.admission ans)])
        ans.id := admitted_mem (List.mem_cons_of_mem _ List.mem_cons_self)
    refine h.keeps_write ans.id (by simp [Write.plain, newRow]) (by simp [Note.quiet]) (fun _ => hadm)
      fun db' hdb' => ?_
    split
    · exact .nil
    next email _ =>
      have hws : ∀ w ∈ [Write.transition ans.id .awaitingContact
            { stateData := some { expectedEmailStubHash := some email } }], w.plain ans.id = true ∧
          (w.letsThrough = true → Admitted (notes ++ [.confirmed ans.id expected,
            .admitted ans.id (Trace.admission ans)]) ans.id) := by
        intro w hw
        rw [List.mem_singleton.1 hw]
        exact ⟨by simp [Write.plain], fun _ => hadm⟩
      exact hdb'.keeps_plain hws

theorem EmailInv.keeps_handleAwaitingWaitlistToken (h : EmailInv ext db notes) :
    KeepsEmail ext db notes (Trace.handleAwaitingWaitlistToken ans mem record message user) := by
  unfold Trace.handleAwaitingWaitlistToken
  split
  · exact .nil
  · split
    · exact .nil
    · split
      · exact .nil
      · split
        · exact h.keeps_write record.id (by simp [Write.plain]) (by simp [Note.quiet])
            (fun _ => admitted_mem List.mem_cons_self) fun _ _ => .nil
        · exact .nil

theorem plain_handleAwaitingContact : ∀ w ∈ handleAwaitingContact ext record message user,
    w.plain record.id = true := by
  intro w hw
  unfold handleAwaitingContact at hw
  split at hw
  · rw [List.mem_singleton.1 hw]
    rfl
  · split at hw
    · cases hw
    · rcases List.mem_cons.1 hw with rfl | hw
      · simp [Write.plain]
      · rw [List.mem_singleton.1 hw]
        simp [Write.plain]

theorem EmailInv.keeps_handleAwaitingContact (h : EmailInv ext db notes) (hadm : Admitted notes record.id) :
    KeepsEmail ext db notes (Trace.handleAwaitingContact ext record message user) := by
  have hplain : ∀ w ∈ handleAwaitingContact ext record message user, w.plain record.id = true ∧
      (w.letsThrough = true → Admitted notes record.id) := by
    intro w hw
    exact ⟨plain_handleAwaitingContact w hw, fun _ => hadm⟩
  exact h.keeps_plain hplain

theorem EmailInv.keeps_recoverFromInitial (h : EmailInv ext db notes) :
    KeepsEmail ext db notes (Trace.recoverFromInitial ext ans mem record message user) := by
  unfold Trace.recoverFromInitial
  split
  · exact .nil
  · exact h.keeps_write record.id (by simp [Write.plain]) (fun n hn => absurd hn List.not_mem_nil)
      (fun hs => by cases hs) fun _ _ => .nil
  · have hadm : Admitted (notes ++ [.admitted record.id (Trace.admission ans)]) record.id :=
      admitted_mem List.mem_cons_self
    exact h.keeps_write record.id (by simp [Write.plain]) (by simp [Note.quiet]) (fun _ => hadm)
      fun db' hdb' => hdb'.keeps_handleAwaitingContact hadm

theorem EmailInv.stored {email otp salt : String} {t : ℤ} (h : EmailInv ext db notes)
    (hadm : Admitted notes id)
    (happly : (Write.transition id .awaitingEmailOtp
        { emailStubHash := some (hashEmail ext email)
          otpHash := some (hashOtp ext otp salt)
          otpSalt := some salt
          otpExpiresAt := some (t + otpTtlMs)
          otpAttemptCount := some 0 }).apply db = some db') :
    EmailInv ext db' (notes ++ [.storedOtp id email otp salt t]) := by
  refine ⟨apply_nodup happly h.nodup, apply_distinct happly h.distinct, ?_, ?_⟩
  · refine forall_rows_of_apply happly h.rows (fun row hw => by cases hw) (fun id' f hw r _ hid hr => ?_)
      fun r _ hother hr => hr.append fun n hn => ?_
    · cases hw
      subst hid
      refine ⟨fun _ => hadm.append _, fun _ => ?_, fun hs => by cases hs⟩
      refine ⟨notes, email, otp, salt, t, [], rfl, rfl, rfl, rfl, rfl, ?_, rfl, (by decide : 0 < maxOtpAttempts)⟩
      exact fun n hn => absurd hn List.not_mem_nil
    · rw [List.mem_singleton.1 hn]
      exact ⟨decide_eq_false (Ne.symm (hother _ _ rfl)), rfl⟩
  · refine certified_append h.certified fun n hn id phone hash heq => ?_
    rw [List.mem_singleton.1 hn] at heq
    cases heq

theorem EmailInv.keeps_handleAwaitingEmail (h : EmailInv ext db notes) (hadm : Admitted notes record.id) :
    KeepsEmail ext db notes (Trace.handleAwaitingEmail ext ans db record message user) := by
  unfold Trace.handleAwaitingEmail
  cases hvalid : isValidEmail (trim message) with
  | false =>
    rw [if_pos (by rfl)]
    exact .nil
  | true =>
    rw [if_neg (by decide)]
    by_cases hlimit : otpRateLimitPerHour ≤ db.countOtpSends user (ans.now - otpRateWindowMs)
    · rw [if_pos hlimit]
      exact .nil
    · rw [if_neg hlimit]
      refine .write (fun db' happly => h.stored hadm happly) fun db' happly => ?_
      have hdb' := h.stored hadm happly
      have hadm' := hadm.append [.storedOtp record.id (trim message) ans.otp ans.otpSalt ans.now]
      have hafter : ∀ w ∈ [Write.recordOtpSend user ans.now,
          .transition record.id .awaitingEmail { clearOtp := true }], w.plain record.id = true ∧
            (w.letsThrough = true → Admitted
              (notes ++ [.storedOtp record.id (trim message) ans.otp ans.otpSalt ans.now]) record.id) := by
        simp [Write.plain, Write.letsThrough, hadm']
      cases ans.otpDelivered with
      | true =>
        have hsent : ∀ w ∈ [Write.recordOtpSend user ans.now], _ := fun w hw =>
          hafter w (List.mem_cons.2 (.inl (List.mem_singleton.1 hw)))
        exact hdb'.keeps_plain hsent
      | false =>
        have hback : ∀ w ∈ [Write.transition record.id .awaitingEmail { clearOtp := true }], _ :=
          fun w hw => hafter w (List.mem_cons_of_mem _ hw)
        exact hdb'.keeps_plain hback

/-! ### A candidate -/

theorem Pending.verified {otpHash salt candidate : String} {now : ℤ} (h : Pending ext notes record)
    (hotp : record.otpHash.filter (fun h => decide (h ≠ "")) = some otpHash)
    (hsalt : record.otpSalt.filter (fun s => decide (s ≠ "")) = some salt)
    (hlive : ¬record.otpExpiresAt.getD 0 < now) (hright : hashOtp ext candidate salt = otpHash) :
    HashVerified ext (notes ++ [.comparedOtp record.id candidate true now]) record.id
      (record.emailStubHash.getD "") := by
  obtain ⟨before, email, otp, salt', t, since, rfl, hemail, hstored, hsalt', hexpires, hsince, hcount, hlt⟩ := h
  rw [hstored] at hotp
  rw [hsalt'] at hsalt
  rw [hexpires, Option.getD_some] at hlive
  have hhash : hashOtp ext otp salt' = otpHash := Option.some.inj (Option.filter_eq_some_iff.1 hotp).1
  have hsame : salt' = salt := Option.some.inj (Option.filter_eq_some_iff.1 hsalt).1
  subst hsame
  refine ⟨before, email, otp, salt', t, since, candidate, now, [], ?_, ?_, hright.trans hhash.symm,
    not_lt.1 hlive, hsince, hcount ▸ hlt⟩
  · rw [List.append_assoc, List.cons_append]
  · rw [hemail, Option.getD_some]

section

variable (h : EmailInv ext db notes)

include h

theorem EmailInv.compared (id candidate : String) (t : ℤ) :
    EmailInv ext db (notes ++ [.comparedOtp id candidate true t]) := by
  refine ⟨h.nodup, h.distinct, fun r hr => (h.rows r hr).append fun n hn => ?_, ?_⟩
  · rw [List.mem_singleton.1 hn]
    exact ⟨rfl, Bool.and_false _⟩
  · refine certified_append h.certified fun n hn id phone hash heq => ?_
    rw [List.mem_singleton.1 hn] at heq
    cases heq

theorem EmailInv.confirmed {u : Updates} (hrecord : record ∈ db.rows)
    (hverified : HashVerified ext notes record.id (record.emailStubHash.getD ""))
    (hadm : Admitted notes record.id) (hu : u.emailStubHash = none)
    (happly : (Write.transition record.id .emailConfirmed u).apply db = some db') :
    EmailInv ext db' notes := by
  refine ⟨apply_nodup happly h.nodup, apply_distinct happly h.distinct, ?_, h.certified⟩
  refine forall_rows_of_apply happly h.rows (fun row hw => by cases hw) (fun id' f hw r hr hid _ => ?_)
    fun r _ _ hr => hr
  cases hw
  obtain rfl : r = record := List.inj_on_of_nodup_map h.nodup hr hrecord hid
  refine ⟨fun _ => hadm, fun hs => RegistrationState.noConfusion hs, fun _ => ?_⟩
  show HashVerified ext notes r.id ((u.emailStubHash.or r.emailStubHash).getD "")
  rw [hu]
  exact hverified

theorem EmailInv.keeps_requestToken
    (hverified : HashVerified ext notes record.id (record.emailStubHash.getD ""))
    (hadm : Admitted notes record.id) : KeepsEmail ext db notes (Trace.requestToken ans record) := by
  have hrequested : EmailInv ext db (notes ++
      [.requestedToken record.id record.phoneStubHash (record.emailStubHash.getD "")]) := by
    refine ⟨h.nodup, h.distinct, fun r hr => (h.rows r hr).append fun n hn => ?_, ?_⟩
    · rw [List.mem_singleton.1 hn]
      exact ⟨rfl, rfl⟩
    · refine certified_append h.certified fun n hn id phone hash heq => ?_
      rw [List.mem_singleton.1 hn] at heq
      cases heq
      exact ⟨hverified, hadm⟩
  have hissued : ∀ w ∈ issuePreAuth ans record, w.plain record.id = true ∧ (w.letsThrough = true →
      Admitted (notes ++ [.requestedToken record.id record.phoneStubHash
        (record.emailStubHash.getD "")]) record.id) := by
    intro w hw
    unfold issuePreAuth at hw
    split at hw
    · rw [List.mem_singleton.1 hw]
      exact ⟨by simp [Write.plain], fun _ => hadm.append _⟩
    · cases hw
  exact .note hrequested (hrequested.keeps_plain hissued)

theorem EmailInv.keeps_confirmEmail (ans : Answers) (hrecord : record ∈ db.rows)
    (hverified : HashVerified ext notes record.id (record.emailStubHash.getD ""))
    (hadm : Admitted notes record.id) : KeepsEmail ext db notes (Trace.confirmEmail ans record) := by
  have hnext : ∀ db', (Write.transition record.id .emailConfirmed { clearOtp := true }).apply db = some db' →
      EmailInv ext db' (notes ++ []) := by
    intro db' happly
    rw [List.append_nil]
    exact h.confirmed hrecord hverified hadm rfl happly
  refine .write hnext fun db' happly => ?_
  have hdb' := hnext db' happly
  rw [List.append_nil] at hdb' ⊢
  exact hdb'.keeps_requestToken hverified hadm

theorem EmailInv.keeps_reenterEmail (hadm : Admitted notes record.id) :
    KeepsEmail ext db notes ((reenterEmail record).map .silent) := by
  have hback : ∀ w ∈ reenterEmail record, w.plain record.id = true ∧
      (w.letsThrough = true → Admitted notes record.id) := by
    intro w hw
    rw [List.mem_singleton.1 hw]
    exact ⟨by simp [Write.plain], fun _ => hadm⟩
  exact h.keeps_plain hback

theorem EmailInv.keeps_handleAwaitingEmailOtp (hrecord : record ∈ db.rows)
    (hpending : Pending ext notes record) (hadm : Admitted notes record.id)
    (hnotWrong : ∀ otpHash salt, record.otpHash.filter (fun h => decide (h ≠ "")) = some otpHash →
      record.otpSalt.filter (fun s => decide (s ≠ "")) = some salt →
        ¬record.otpExpiresAt.getD 0 < ans.now → hashOtp ext (trim message) salt = otpHash) :
    KeepsEmail ext db notes (Trace.handleAwaitingEmailOtp ext ans record message) := by
  unfold Trace.handleAwaitingEmailOtp
  cases hotp : record.otpHash.filter fun h => decide (h ≠ "") with
  | none => exact h.keeps_reenterEmail hadm
  | some otpHash =>
    dsimp only
    by_cases hexpired : record.otpExpiresAt.getD 0 < ans.now
    · rw [if_pos hexpired]
      exact h.keeps_reenterEmail hadm
    · rw [if_neg hexpired]
      cases hsalt : record.otpSalt.filter fun s => decide (s ≠ "") with
      | none => exact h.keeps_reenterEmail hadm
      | some salt =>
        dsimp only
        have hright := hnotWrong otpHash salt hotp hsalt hexpired
        rw [if_neg (not_not.2 hright)]
        have hcompared := h.compared record.id (trim message) ans.now
        have hverified := hpending.verified hotp hsalt hexpired hright
        have hadm' := hadm.append [.comparedOtp record.id (trim message) true ans.now]
        have hback : ∀ w ∈ [Write.transition record.id .awaitingEmail { clearOtp := true }],
            w.plain record.id = true ∧ (w.letsThrough = true →
              Admitted (notes ++ [.comparedOtp record.id (trim message) true ans.now]) record.id) := by
          intro w hw
          rw [List.mem_singleton.1 hw]
          exact ⟨by simp [Write.plain], fun _ => hadm'⟩
        have hconfirm := hcompared.keeps_confirmEmail ans hrecord hverified hadm'
        generalize (record.stateData.expectedEmailStubHash.filter fun h => decide (h ≠ "")) = expected
        generalize (record.emailStubHash.filter fun h => decide (h ≠ "")) = actual
        rcases expected with _ | expected <;> rcases actual with _ | actual
        · exact .note hcompared hconfirm
        · exact .note hcompared hconfirm
        · exact .note hcompared hconfirm
        · dsimp only
          split
          · exact .note hcompared (hcompared.keeps_plain hback)
          · exact .note hcompared hconfirm

end

/-! ### A wrong candidate -/

def countWrong (record : RegistrationRow) : Write :=
  if maxOtpAttempts ≤ record.otpAttemptCount + 1 then .transitionOnOtpLockout record.id
  else .incrementOtpAttempt record.id

theorem handleAwaitingEmailOtp_wrong {otpHash salt : String}
    (hotp : record.otpHash.filter (fun h => decide (h ≠ "")) = some otpHash)
    (hsalt : record.otpSalt.filter (fun s => decide (s ≠ "")) = some salt)
    (hlive : ¬record.otpExpiresAt.getD 0 < ans.now) (hwrong : hashOtp ext (trim message) salt ≠ otpHash) :
    Trace.handleAwaitingEmailOtp ext ans record message =
      [.note (.comparedOtp record.id (trim message) false ans.now), .silent (countWrong record)] := by
  unfold Trace.handleAwaitingEmailOtp countWrong
  rw [hotp, hsalt]
  dsimp only
  rw [if_neg hlive, if_pos hwrong]
  split <;> rfl

/-- **A wrong candidate is counted**, and with the last one the code is gone. -/
theorem EmailInv.counted (candidate : String) (t : ℤ) (h : EmailInv ext db notes)
    (hrecord : record ∈ db.rows) (hpending : Pending ext notes record) (hadm : Admitted notes record.id)
    (happly : (countWrong record).apply db = some db') :
    EmailInv ext db' (notes ++ [.comparedOtp record.id candidate false t]) := by
  have hchange : ∃ f, (countWrong record).change = some (record.id, f) ∧
      RowOk ext (notes ++ [.comparedOtp record.id candidate false t]) (f record) := by
    unfold countWrong
    by_cases hlast : maxOtpAttempts ≤ record.otpAttemptCount + 1
    · rw [if_pos hlast]
      have hlocked : record.lockedOut.state = .awaitingEmail := rfl
      exact ⟨_, rfl, rowOk_of_plain (by simp [hlocked]) (by simp [hlocked]) fun _ => hadm.append _⟩
    · rw [if_neg hlast]
      refine ⟨_, rfl, fun _ => hadm.append _, fun _ => ?_, fun hs => ?_⟩
      · obtain ⟨before, email, otp, salt, t', since, rfl, hemail, hotp, hsalt, hexpires, hsince, hcount, -⟩ :=
          hpending
        refine ⟨before, email, otp, salt, t', since ++ [.comparedOtp record.id candidate false t], ?_, hemail,
          hotp, hsalt, hexpires, fun n hn => ?_, ?_, not_le.1 hlast⟩
        · rw [List.append_assoc, List.cons_append]
          rfl
        · rcases List.mem_append.1 hn with hn | hn
          · exact hsince n hn
          · rw [List.mem_singleton.1 hn]
            rfl
        · unfold wrongCandidates at hcount ⊢
          show List.countP (Note.wrongOtpOf record.id) _ = record.otpAttemptCount + 1
          rw [List.countP_append, hcount, List.countP_singleton]
          simp [Note.wrongOtpOf]
      · exact ((h.rows record hrecord).verified hs).append _
  obtain ⟨f, hchange, hrow⟩ := hchange
  refine ⟨apply_nodup happly h.nodup, apply_distinct happly h.distinct, ?_, ?_⟩
  · refine forall_rows_of_apply happly h.rows (fun row hw => ?_) (fun id' f' hw r hr hid _ => ?_)
      fun r _ hother hr => hr.append fun n hn => ?_
    · rw [hw] at hchange
      cases hchange
    · rw [hchange] at hw
      obtain ⟨rfl, rfl⟩ := Prod.mk.inj (Option.some.inj hw)
      obtain rfl : r = record := List.inj_on_of_nodup_map h.nodup hr hrecord hid
      exact hrow
    · rw [List.mem_singleton.1 hn]
      have hne := hother record.id f hchange
      exact ⟨rfl, by simp [Note.wrongOtpOf, Ne.symm hne]⟩
  · refine certified_append h.certified fun n hn id phone hash heq => ?_
    rw [List.mem_singleton.1 hn] at heq
    cases heq

theorem countWrong_applies (h : EmailInv ext db notes) (hrecord : record ∈ db.rows)
    (hstate : record.state = .awaitingEmailOtp) : ∃ db', (countWrong record).apply db = some db' := by
  have hid : record.id ∈ db.rows.map RegistrationRow.id := List.mem_map_of_mem hrecord
  unfold countWrong
  split
  · have hdistinct : Database.hashesDistinct
        { db with rows := updateRow record.id RegistrationRow.lockedOut db.rows } = true := by
      have hkept := h.distinct
      unfold Database.hashesDistinct at hkept ⊢
      rw [activeHashes_updateRow fun r hr hrid => ?_]
      · exact hkept
      · obtain rfl : r = record := List.inj_on_of_nodup_map h.nodup hr hrecord hrid
        rw [hstate]
        exact ⟨rfl, rfl⟩
    refine ⟨{ db with rows := updateRow record.id RegistrationRow.lockedOut db.rows }, ?_⟩
    show (db.change record.id RegistrationRow.lockedOut).bind Database.checked = _
    rw [Database.change, if_pos hid, Option.bind_some, Database.checked, if_pos hdistinct]
  · refine ⟨{ db with rows := updateRow record.id RegistrationRow.attempted db.rows }, ?_⟩
    show db.change record.id RegistrationRow.attempted = _
    rw [Database.change, if_pos hid]

/-! ### A message -/

theorem EmailInv.perform_wrong {otpHash salt : String} {n : Option ℕ} (h : EmailInv ext db notes)
    (hrecord : record ∈ db.rows) (hstate : record.state = .awaitingEmailOtp)
    (hotp : record.otpHash.filter (fun h => decide (h ≠ "")) = some otpHash)
    (hsalt : record.otpSalt.filter (fun s => decide (s ≠ "")) = some salt)
    (hlive : ¬record.otpExpiresAt.getD 0 < ans.now) (hwrong : hashOtp ext (trim message) salt ≠ otpHash)
    (hn : n ≠ some 0) :
    EmailInv ext
      (Action.perform (fun db w => Write.apply db w) n db notes
        (Trace.handleAwaitingEmailOtp ext ans record message)).1
      (Action.perform (fun db w => Write.apply db w) n db notes
        (Trace.handleAwaitingEmailOtp ext ans record message)).2 := by
  have hrow := h.rows record hrecord
  have hadm : Admitted notes record.id := hrow.admitted (by rw [hstate]; rfl)
  obtain ⟨db', happly⟩ := countWrong_applies h hrecord hstate
  have hcounted := EmailInv.counted (trim message) ans.now h hrecord (hrow.pending hstate) hadm happly
  rw [handleAwaitingEmailOtp_wrong hotp hsalt hlive hwrong]
  have hperform : Action.perform (fun db w => Write.apply db w) n db notes
      [.note (.comparedOtp record.id (trim message) false ans.now), .silent (countWrong record)] =
        (db', notes ++ [.comparedOtp record.id (trim message) false ans.now]) := by
    cases n with
    | none => simp only [Action.perform, happly, List.append_nil]
    | some n =>
      cases n with
      | zero => exact absurd rfl hn
      | succ n => simp only [Action.perform, happly, List.append_nil]
  rw [hperform]
  exact hcounted

def NotWrong (ext : Externals) (ans : Answers) (record : RegistrationRow) (message : String) : Prop :=
  ∀ otpHash salt, record.otpHash.filter (fun h => decide (h ≠ "")) = some otpHash →
    record.otpSalt.filter (fun s => decide (s ≠ "")) = some salt →
      ¬record.otpExpiresAt.getD 0 < ans.now → hashOtp ext (trim message) salt = otpHash

theorem EmailInv.keeps_handleMessage (h : EmailInv ext db notes) (hrecord : record ∈ db.rows)
    (hnotWrong : record.state = .awaitingEmailOtp → NotWrong ext ans record message) :
    KeepsEmail ext db notes (Trace.handleMessage ext ans mem db record message user) := by
  have hrow := h.rows record hrecord
  have hadm := hrow.admitted
  unfold Trace.handleMessage
  cases hstate : record.state with
  | awaitingWaitlistToken => exact h.keeps_handleAwaitingWaitlistToken
  | awaitingContact => exact h.keeps_handleAwaitingContact (hadm (by rw [hstate]; rfl))
  | awaitingEmail =>
    dsimp only
    exact h.keeps_handleAwaitingEmail (hadm (by rw [hstate]; rfl))
  | awaitingEmailOtp =>
    dsimp only
    exact h.keeps_handleAwaitingEmailOtp hrecord (hrow.pending hstate) (hadm (by rw [hstate]; rfl))
      (hnotWrong hstate)
  | initial => exact h.keeps_recoverFromInitial
  | phoneConfirmed =>
    have hback : ∀ w ∈ [Write.transition record.id .awaitingEmail], w.plain record.id = true ∧
        (w.letsThrough = true → Admitted notes record.id) := by
      intro w hw
      rw [List.mem_singleton.1 hw]
      exact ⟨by simp [Write.plain], fun _ => hadm (by rw [hstate]; rfl)⟩
    exact h.keeps_plain hback
  | emailConfirmed =>
    dsimp only
    exact h.keeps_requestToken (hrow.verified hstate) (hadm (by rw [hstate]; rfl))
  | preAuthTokenIssued => exact .nil
  | expired => exact .nil
  | failed => exact .nil

theorem EmailInv.keeps_handleCompletedOrNew (h : EmailInv ext db notes) (completed : Database) :
    KeepsEmail ext db notes (Trace.handleCompletedOrNew ans mem completed user message phoneStubHash) := by
  unfold Trace.handleCompletedOrNew
  split
  · exact h.keeps_handleNewUser
  · split
    · exact h.keeps_handleExistingUser
    · exact .nil

/-- **A message keeps what is known**, if a wrong candidate in it is counted. -/
theorem EmailInv.noted (h : EmailInv ext db notes) {contacts : String → Option StoredContact}
    (hcounts : wrongCandidate ext ans db user message = true → ans.writesMade ≠ some 0) :
    EmailInv ext (noted ext ans contacts mem db notes user message).1
      (noted ext ans contacts mem db notes user message).2 := by
  unfold Registration.noted Trace.handleInboundMessage
  cases hactive : db.findActive user with
  | none => exact (h.keeps_handleCompletedOrNew db).perform h _
  | some record =>
    have hrecord : record ∈ db.rows := List.mem_of_find?_eq_some hactive
    dsimp only
    by_cases hexpired : record.expiresAt < ans.now
    · rw [if_pos hexpired]
      split
      · exact h
      · refine Action.Keeps.perform ?_ h _
        refine h.keeps_write record.id (by simp [Write.plain]) (fun n hn => absurd hn List.not_mem_nil)
          (fun hs => by cases hs) fun db' hdb' => hdb'.keeps_handleCompletedOrNew db
    · rw [if_neg hexpired]
      by_cases hstate : record.state = .awaitingEmailOtp
      · by_cases hwrong : NotWrong ext ans record message
        · exact (h.keeps_handleMessage hrecord fun _ => hwrong).perform h _
        · unfold NotWrong at hwrong
          push Not at hwrong
          obtain ⟨otpHash, salt, hotp, hsalt, hlive, hwrong⟩ := hwrong
          have hcounted : ans.writesMade ≠ some 0 := by
            apply hcounts
            unfold wrongCandidate
            rw [hactive]
            dsimp only
            rw [hotp, hsalt, hstate]
            simp [hexpired, hlive, hwrong]
          unfold Trace.handleMessage
          rw [hstate]
          exact h.perform_wrong hrecord hstate hotp hsalt (not_lt.2 hlive) hwrong hcounted
      · exact (h.keeps_handleMessage hrecord fun hs => absurd hs hstate).perform h _

/-! ### Runs -/

theorem EmailInv.step {s : World × List Note} {e : Event} (h : EmailInv ext s.1.db s.2)
    (hcounts : CountsWrong ext s e) : EmailInv ext (traceStep ext s e).1.db (traceStep ext s e).2 := by
  have hsilent : ∀ {id : String} {w : Write} {db db' : Database}, EmailInv ext db s.2 →
      w.plain id = true → w.letsThrough = false → w.apply db = some db' → EmailInv ext db' s.2 := by
    intro id w db db' hdb hplain hthrough happly
    have hkept : EmailInv ext db' (s.2 ++ []) := by
      refine hdb.plain happly hplain (fun n hn => absurd hn List.not_mem_nil) fun hs => ?_
      rw [hthrough] at hs
      cases hs
    rw [List.append_nil] at hkept
    exact hkept
  apply traceStep_invariant
  · intro update ans contacts user message he hprocess
    subst he
    refine h.noted fun hwrong => ?_
    have hsent : (processUpdate s.1.contacts update).2 = some (user, message) := by rw [hprocess]
    exact hcounts user message hsent hwrong
  · intro id db db' hdb happly
    have hplain : (Write.transition id .expired).plain id = true := by simp [Write.plain]
    exact hsilent hdb hplain rfl happly
  · intro id n db db' hdb happly
    have hplain : (Write.recordContactPrompt id n).plain id = true := rfl
    exact hsilent hdb hplain rfl happly
  · exact h

/-- Every message meets a gate. -/
def Gated (events : List Event) : Prop := ∀ update ans, .update update ans ∈ events → ans.gate ≠ none

theorem admission_gated (h : ans.gate ≠ none) : Trace.admission ans = .checked := by
  unfold Trace.admission
  rw [if_pos (Option.isSome_iff_ne_none.2 h)]

theorem gated_handleNewUser (h : ans.gate ≠ none) :
    .admitted id .ungated ∉ Action.notes (Trace.handleNewUser ans mem user phoneStubHash) := by
  unfold Trace.handleNewUser
  split <;> simp [admission_gated h]

theorem gated_handleExistingUser {expected : Option String} (h : ans.gate ≠ none) :
    .admitted id .ungated ∉ Action.notes (Trace.handleExistingUser ans mem user phoneStubHash expected) := by
  unfold Trace.handleExistingUser
  split
  · simp
  · simp
  · split <;> simp [admission_gated h]

theorem gated_handleCompletedOrNew (h : ans.gate ≠ none) : .admitted id .ungated ∉
    Action.notes (Trace.handleCompletedOrNew ans mem db user message phoneStubHash) := by
  unfold Trace.handleCompletedOrNew
  split
  · exact gated_handleNewUser h
  · split
    · exact gated_handleExistingUser h
    · simp

theorem gated_handleAwaitingEmailOtp :
    .admitted id .ungated ∉ Action.notes (Trace.handleAwaitingEmailOtp ext ans record message) := by
  have hback : .admitted id .ungated ∉ Action.notes ((reenterEmail record).map (.silent : Write → Act)) := by
    rw [Action.notes_silent]
    exact List.not_mem_nil
  have hconfirm : .admitted id .ungated ∉ Action.notes (Trace.confirmEmail ans record) := by
    unfold Trace.confirmEmail Trace.requestToken
    rw [Action.notes_write, Action.notes_note, Action.notes_silent]
    simp
  unfold Trace.handleAwaitingEmailOtp
  split
  · exact hback
  · split
    · exact hback
    · split
      · exact hback
      · split
        · rw [Action.notes_note]
          split <;> simp
        · rw [Action.notes_note, List.mem_cons, not_or]
          refine ⟨nofun, ?_⟩
          split
          · split
            · simp
            · exact hconfirm
          · exact hconfirm

theorem gated_handleMessage (h : ans.gate ≠ none) : .admitted id .ungated ∉
    Action.notes (Trace.handleMessage ext ans mem db record message user) := by
  unfold Trace.handleMessage
  split
  · unfold Trace.handleAwaitingWaitlistToken
    split
    · simp
    · split
      · simp
      · split
        · simp
        · split <;> simp
  · unfold Trace.handleAwaitingContact
    rw [Action.notes_silent]
    exact List.not_mem_nil
  · unfold Trace.handleAwaitingEmail
    split
    · simp
    · split
      · simp
      · split <;> simp
  · exact gated_handleAwaitingEmailOtp
  · simp
  · simp
  · simp
  · unfold Trace.recoverFromInitial
    split
    · simp
    · simp
    · unfold Trace.handleAwaitingContact
      rw [Action.notes_write, Action.notes_silent]
      simp [admission_gated h]
  · simp
  · unfold Trace.requestToken
    rw [Action.notes_note, Action.notes_silent]
    simp

theorem gated_noted (h : ans.gate ≠ none) {contacts : String → Option StoredContact}
    (hnotes : .admitted id .ungated ∉ notes) :
    .admitted id .ungated ∉ (noted ext ans contacts mem db notes user message).2 := by
  intro hmem
  rcases Action.mem_perform hmem with hmem | hmem
  · exact hnotes hmem
  · revert hmem
    unfold Trace.handleInboundMessage
    split
    · exact gated_handleCompletedOrNew h
    · split
      · split
        · simp
        · rw [Action.notes_write, List.nil_append]
          exact gated_handleCompletedOrNew h
      · exact gated_handleMessage h

theorem traceRun_gated {events : List Event} (h : Gated events) (id : String) :
    .admitted id .ungated ∉ (traceRun ext events).2 := by
  induction events using List.reverseRecOn with
  | nil => exact List.not_mem_nil
  | append_singleton events e ih =>
    have hbefore := ih fun update ans hmem => h update ans (List.mem_append_left _ hmem)
    unfold traceRun at hbefore ⊢
    rw [List.foldl_append]
    show _ ∉ (traceStep ext (List.foldl (traceStep ext) ({}, []) events) e).2
    cases e with
    | update update ans =>
      have hgate := h update ans (List.mem_append_right _ List.mem_cons_self)
      unfold traceStep
      dsimp only
      split
      · exact hbefore
      · exact gated_noted hgate hbefore
    | expirySweep => exact hbefore
    | resendContactPrompt => exact hbefore
    | pendingSweep => exact hbefore
    | restart => exact hbefore

theorem HashVerified.emailVerified {hash : String} (h : HashVerified ext notes id hash)
    (hcollision : NoOtpCollision ext notes) : EmailVerified ext notes id hash := by
  obtain ⟨before, email, otp, salt, t, since, candidate, t', after, rfl, hemail, hhash, hrest⟩ := h
  have hstored : .storedOtp id email otp salt t ∈ before ++ .storedOtp id email otp salt t ::
      (since ++ .comparedOtp id candidate true t' :: after) :=
    List.mem_append_right _ List.mem_cons_self
  have hcompared : .comparedOtp id candidate true t' ∈ before ++ .storedOtp id email otp salt t ::
      (since ++ .comparedOtp id candidate true t' :: after) :=
    List.mem_append_right _ (List.mem_cons_of_mem _ (List.mem_append_right _ List.mem_cons_self))
  obtain rfl := hcollision id candidate t' hcompared id email otp salt t hstored hhash
  exact ⟨before, email, candidate, salt, t, since, t', after, rfl, hemail, hrest⟩

theorem NoOtpCollision.mono (h : NoOtpCollision ext more) (hsub : ∀ n ∈ notes, n ∈ more) :
    NoOtpCollision ext notes := fun id candidate t hcompared id' email otp salt t' hstored =>
  h id candidate t (hsub _ hcompared) id' email otp salt t' (hsub _ hstored)

/-- **A token certifies a verified address.**  In every run in which a wrong candidate is counted before the
process stops, each token is requested for the address of the last code, which was entered within its lifetime
and after fewer than three wrong candidates, and for a registration that the gate let through, if there is
one. -/
theorem tokens_certified (ext : Externals) (events : List Event)
    (hguard : Guarded (traceStep ext) (CountsWrong ext) ({}, []) events)
    (hcollision : NoOtpCollision ext (traceRun ext events).2) :
    TokensCertified ext (traceRun ext events).2 ∧
      (Gated events → ∀ id, .admitted id .ungated ∉ (traceRun ext events).2) := by
  have hstart : EmailInv ext {} [] := by
    refine ⟨List.nodup_nil, by decide, fun r hr => absurd hr List.not_mem_nil, fun pre _ _ _ post heq => ?_⟩
    exact absurd heq.symm (List.append_ne_nil_of_right_ne_nil pre (List.cons_ne_nil _ post))
  have hrun := Guarded.invariant (P := fun s : World × List Note => EmailInv ext s.1.db s.2)
    (fun s e h hcounts => h.step hcounts) hstart hguard events.length
  rw [List.take_length] at hrun
  refine ⟨fun pre id phone hash post heq => ?_, fun hgated id => traceRun_gated hgated id⟩
  obtain ⟨hverified, hadm⟩ := hrun.certified pre id phone hash post heq
  refine ⟨hverified.emailVerified (hcollision.mono fun n hn => ?_), hadm⟩
  rw [heq]
  exact List.mem_append_left _ hn

/-! ### A code that is entered, and one that is guessed -/

/-- A user says hello, shares their contact and names an address. -/
def emailNamed : List Event :=
  [.update (typedUpdate 42 "hi") plainAnswers, .update (sharedUpdate 42 "+15550100") plainAnswers,
    .update (typedUpdate 42 "a@b.co") plainAnswers]

/-- The process stops when the code has been compared. -/
def wrongUncounted : Event := .update (typedUpdate 42 "000000") { plainAnswers with writesMade := some 0 }

def codeEntered : Event := .update (typedUpdate 42 "123456") plainAnswers

theorem notes_codeEntered : (traceRun plainExternals (emailNamed ++ [codeEntered])).2 =
    [.admitted "registration" .ungated, .storedOtp "registration" "a@b.co" "123456" "salt" 0,
      .comparedOtp "registration" "123456" true 0,
      .requestedToken "registration" (digests.hex "+15550100") (digests.hex "a@b.co")] := by decide

theorem notes_wrongUncounted : (traceRun plainExternals
      (emailNamed ++ [wrongUncounted, wrongUncounted, wrongUncounted, codeEntered])).2 =
    [.admitted "registration" .ungated, .storedOtp "registration" "a@b.co" "123456" "salt" 0,
      .comparedOtp "registration" "000000" false 0, .comparedOtp "registration" "000000" false 0,
      .comparedOtp "registration" "000000" false 0, .comparedOtp "registration" "123456" true 0,
      .requestedToken "registration" (digests.hex "+15550100") (digests.hex "a@b.co")] := by decide

/-- A user enters the code that was sent to them. -/
theorem tokens_certified_entered :
    .requestedToken "registration" (digests.hex "+15550100") (digests.hex "a@b.co") ∈
        (traceRun plainExternals (emailNamed ++ [codeEntered])).2 ∧
      TokensCertified plainExternals (traceRun plainExternals (emailNamed ++ [codeEntered])).2 := by
  have hguard : Guarded (traceStep plainExternals) (CountsWrong plainExternals) ({}, [])
      (emailNamed ++ [codeEntered]) := by
    have hcounted : plainAnswers.writesMade ≠ some 0 := by decide
    exact ⟨fun _ _ _ _ => hcounted, fun _ _ _ _ => hcounted, fun _ _ _ _ => hcounted,
      fun _ _ _ _ => hcounted, trivial⟩
  have hcollision : NoOtpCollision plainExternals
      (traceRun plainExternals (emailNamed ++ [codeEntered])).2 := by
    rw [notes_codeEntered]
    intro id candidate t hcompared id' email otp salt t' hstored hhash
    simp only [List.mem_cons, List.not_mem_nil, or_false, reduceCtorEq, false_or,
      Note.comparedOtp.injEq, Note.storedOtp.injEq] at hcompared hstored
    rw [hcompared.2.1, hstored.2.2.1]
  refine ⟨?_, (tokens_certified plainExternals _ hguard hcollision).1⟩
  rw [notes_codeEntered]
  simp

/-- **A wrong candidate that is not counted.**  The process stops three times after comparing a wrong code; the
code is accepted afterwards. -/
theorem tokens_certified_uncounted : ¬ TokensCertified plainExternals (traceRun plainExternals
    (emailNamed ++ [wrongUncounted, wrongUncounted, wrongUncounted, codeEntered])).2 := by
  intro h
  rw [notes_wrongUncounted] at h
  obtain ⟨⟨before, email, otp, salt, t, since, t', after, heq, -, -, -, hcount⟩, -⟩ :=
    h [.admitted "registration" .ungated, .storedOtp "registration" "a@b.co" "123456" "salt" 0,
      .comparedOtp "registration" "000000" false 0, .comparedOtp "registration" "000000" false 0,
      .comparedOtp "registration" "000000" false 0, .comparedOtp "registration" "123456" true 0]
      "registration" (digests.hex "+15550100") (digests.hex "a@b.co") [] rfl
  simp only [List.cons_eq_append_iff, List.cons.injEq, reduceCtorEq, false_and, and_false, false_or,
    Note.storedOtp.injEq, List.nil_eq_append_iff, exists_const, or_false] at heq
  obtain ⟨-, -, -, -, heq⟩ := heq
  have hthree : since = [.comparedOtp "registration" "000000" false 0,
      .comparedOtp "registration" "000000" false 0, .comparedOtp "registration" "000000" false 0] := by
    replace heq := heq.symm
    simp only [List.cons_eq_append_iff, List.cons.injEq, reduceCtorEq, false_and, and_false, false_or,
      Note.comparedOtp.injEq, List.nil_eq_append_iff, exists_const, or_false] at heq
    obtain ⟨_, rfl, _, rfl, _, rfl, rfl, -⟩ := heq
    rfl
  rw [hthree] at hcount
  exact absurd hcount (by decide)

end Cello.OperationsAgent.Registration
