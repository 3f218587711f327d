import Mathlib.Data.List.Perm.Subperm
import Cello.OperationsAgent.Registration.ReachableTables

/-!
# Ways to the end of a registration

From every state that is not terminal the messages of its user lead a registration to its token, as long as no
limit holds them back (`canComplete`): to which state each of them leads, and that the writes go through under
the index.
-/

namespace Cello.OperationsAgent.Registration

open Cello.Directory.ChainStore (isSpace)

/-! ### Messages that meet healthy services -/

def DrawnCode (otp : String) : Prop := otp ≠ "" ∧ ∀ c ∈ otp.toList, c.isDigit = true

/-- Nothing fails, and the gate admits the user. -/
structure Healthy (ans : Answers) : Prop where
  gate : ans.gate = some ⟨some true, some true⟩
  otp : DrawnCode ans.otp
  salt : ans.otpSalt ≠ ""
  delivered : ans.otpDelivered = true
  issued : ans.preAuthIssued = true
  made : ans.writesMade = none

def Issued (db : Database) (id : String) : Prop := ∃ r ∈ db.rows, r.id = id ∧ r.state = .preAuthTokenIssued

section

variable (ext : Externals)

def World.afterMessages : World → (ℕ → Answers) → List (TelegramUpdate × ℤ) → World
  | w, _, [] => w
  | w, draw, m :: messages =>
    World.afterMessages (w.step ext (.update m.1 { draw 0 with now := m.2 })) (fun i => draw (i + 1)) messages

/-- **The user can complete a registration** from a time on: whatever codes are drawn, there are messages of theirs,
at times that do not go back, after which its token is issued. -/
def CanComplete (w : World) (user id : String) (t : ℤ) : Prop :=
  ∀ draw : ℕ → Answers, (∀ i, Healthy (draw i)) → ∃ messages : List (TelegramUpdate × ℤ),
    (∀ m ∈ messages, FromUser user m.1 ∧ t ≤ m.2) ∧ (messages.map Prod.snd).Pairwise (· ≤ ·) ∧
      Issued (w.afterMessages ext draw messages).db id

end

variable {ext : Externals} {ans : Answers} {w : World} {db db' : Database} {r : RegistrationRow}
  {user message id : String} {uid t : ℤ} {f : RegistrationRow → RegistrationRow}

theorem Healthy.at (h : Healthy ans) (now : ℤ) : Healthy { ans with now := now } :=
  ⟨h.gate, h.otp, h.salt, h.delivered, h.issued, h.made⟩

theorem CanComplete.done (h : Issued w.db id) : CanComplete ext w user id t :=
  fun _ _ => ⟨[], fun _ hm => absurd hm List.not_mem_nil, List.Pairwise.nil, h⟩

theorem CanComplete.next {u : TelegramUpdate} (hu : FromUser user u)
    (h : ∀ ans, Healthy ans → ans.now = t → CanComplete ext (w.step ext (.update u ans)) user id t) :
    CanComplete ext w user id t := by
  intro draw hdraw
  obtain ⟨messages, hfrom, htimes, hissued⟩ := h _ ((hdraw 0).at t) rfl (fun i => draw (i + 1)) fun i => hdraw (i + 1)
  refine ⟨(u, t) :: messages, List.forall_mem_cons.2 ⟨⟨hu, le_refl t⟩, hfrom⟩, ?_, hissued⟩
  rw [List.map_cons, List.pairwise_cons]
  refine ⟨fun now hnow => ?_, htimes⟩
  obtain ⟨m, hm, rfl⟩ := List.mem_map.1 hnow
  exact (hfrom m hm).2

/-! ### The only active registration of a user -/

structure Sole (db : Database) (r : RegistrationRow) : Prop where
  nodup : (db.rows.map RegistrationRow.id).Nodup
  distinct : db.hashesDistinct = true
  mem : r ∈ db.rows
  live : r.state.terminal = false
  only : ∀ r' ∈ db.rows, r'.channelUserId = r.channelUserId → r'.state.terminal = false → r' = r

theorem TableReached.sole (h : TableReached ext db) (hr : r ∈ db.rows) (hlive : r.state.terminal = false) :
    Sole db r := by
  refine ⟨h.nodup, h.distinct, hr, hlive, fun r' hr' huser hlive' => ?_⟩
  obtain ⟨a, hactive⟩ := h.one r.channelUserId
  have hthis := (hactive r.id r.state).2 ⟨r, hr, rfl, rfl, rfl, hlive⟩
  have hother := (hactive r'.id r'.state).2 ⟨r', hr', rfl, rfl, huser, hlive'⟩
  rw [hthis] at hother
  exact List.inj_on_of_nodup_map h.nodup hr' hr (Prod.mk.inj (Option.some.inj hother)).1.symm

theorem Sole.findActive (h : Sole db r) : db.findActive r.channelUserId = some r := by
  cases hfind : db.findActive r.channelUserId with
  | none =>
    have hnot := List.find?_eq_none.1 hfind r h.mem
    simp [h.live] at hnot
  | some r' =>
    obtain ⟨hr', hlive'⟩ := findActive_live hfind
    have hfound := List.find?_some hfind
    rw [Bool.and_eq_true, decide_eq_true_eq] at hfound
    rw [h.only r' hr' hfound.1 hlive']

theorem Sole.eq_of_id (h : Sole db r) {r' : RegistrationRow} (hr' : r' ∈ db.rows) (hid : r'.id = r.id) : r' = r :=
  List.inj_on_of_nodup_map h.nodup hr' h.mem hid

def Database.FreeHash (db : Database) (id hash : String) : Prop :=
  ∀ r' ∈ db.rows, r'.id ≠ id → r'.state.terminal = false → r'.phoneStubHash ≠ hash

theorem Sole.freeHash (h : Sole db r) : db.FreeHash r.id r.phoneStubHash := by
  intro r' hr' hne hlive' hhash
  have hnodup : ((db.rows.filter fun r => !r.state.terminal).map RegistrationRow.phoneStubHash).Nodup :=
    of_decide_eq_true h.distinct
  have hmem : ∀ r'' ∈ db.rows, r''.state.terminal = false → r'' ∈ db.rows.filter fun r => !r.state.terminal :=
    fun r'' hr'' hlive'' => List.mem_filter.2 ⟨hr'', by rw [hlive'']; rfl⟩
  exact hne (congrArg RegistrationRow.id
    (List.inj_on_of_nodup_map hnodup (hmem r' hr' hlive') (hmem r h.mem h.live) hhash))

theorem Sole.change_applies (h : Sole db r) (hf : ∀ r', (f r').id = r'.id)
    (hfree : (f r).state.terminal = false → db.FreeHash r.id (f r).phoneStubHash) :
    (db.change r.id f).bind Database.checked = some { db with rows := updateRow r.id f db.rows } := by
  have hid : r.id ∈ db.rows.map RegistrationRow.id := List.mem_map_of_mem h.mem
  rw [Database.change, if_pos hid, Option.bind_some, Database.checked, if_pos]
  refine decide_eq_true (List.Nodup.map_on (fun x hx y hy hsame => ?_) ?_)
  · obtain ⟨hx, hxlive⟩ := List.mem_filter.1 hx
    obtain ⟨hy, hylive⟩ := List.mem_filter.1 hy
    rw [Bool.not_eq_true'] at hxlive hylive
    rcases mem_updateRow_iff.1 hx with ⟨x₀, hx₀, hxid, rfl⟩ | ⟨hx, hxid⟩
    · rcases mem_updateRow_iff.1 hy with ⟨y₀, hy₀, hyid, rfl⟩ | ⟨hy, hyid⟩
      · rw [h.eq_of_id hx₀ hxid, h.eq_of_id hy₀ hyid]
      · rw [h.eq_of_id hx₀ hxid] at hxlive hsame
        exact absurd hsame.symm (hfree hxlive y hy hyid hylive)
    · rcases mem_updateRow_iff.1 hy with ⟨y₀, hy₀, hyid, rfl⟩ | ⟨hy, hyid⟩
      · rw [h.eq_of_id hy₀ hyid] at hylive hsame
        exact absurd hsame (hfree hylive x hx hxid hxlive)
      · have hnodup : ((db.rows.filter fun r => !r.state.terminal).map RegistrationRow.phoneStubHash).Nodup :=
          of_decide_eq_true h.distinct
        exact List.inj_on_of_nodup_map hnodup (List.mem_filter.2 ⟨hx, by rw [hxlive]; rfl⟩)
          (List.mem_filter.2 ⟨hy, by rw [hylive]; rfl⟩) hsame
  · refine List.Nodup.filter _ (List.Nodup.of_map RegistrationRow.id ?_)
    rw [updateRow_ids hf]
    exact h.nodup

theorem Sole.mem_changed (h : Sole db r) : f r ∈ updateRow r.id f db.rows :=
  mem_updateRow_iff.2 (.inl ⟨r, h.mem, rfl, rfl⟩)

theorem Sole.changed (h : Sole db r) (hf : ∀ r', (f r').id = r'.id ∧ (f r').channelUserId = r'.channelUserId)
    (hlive : (f r).state.terminal = false) (hfree : db.FreeHash r.id (f r).phoneStubHash) :
    Sole { db with rows := updateRow r.id f db.rows } (f r) := by
  have happly := h.change_applies (fun r' => (hf r').1) fun _ => hfree
  refine ⟨?_, ?_, h.mem_changed, hlive, fun r' hr' huser hlive' => ?_⟩
  · rw [updateRow_ids fun r' => (hf r').1]
    exact h.nodup
  · obtain ⟨mid, -, hchecked⟩ := Option.bind_eq_some_iff.1 happly
    exact checked_distinct hchecked
  · rcases mem_updateRow_iff.1 hr' with ⟨r₀, hr₀, hid, rfl⟩ | ⟨hr', hid⟩
    · rw [h.eq_of_id hr₀ hid]
    · rw [(hf r).2] at huser
      rw [h.only r' hr' huser hlive'] at hid
      exact absurd rfl hid

/-! ### A registration under way -/

/-- A registration that its user may go on with at a time. -/
structure Underway (ext : Externals) (db : Database) (uid t : ℤ) (r : RegistrationRow) : Prop where
  sole : Sole db r
  user : r.channelUserId = senderText uid
  unexpired : t ≤ r.expiresAt
  expected : ∀ h, r.stateData.expectedEmailStubHash = some h → EnteredHash ext h

def CodesFree (db : Database) (uid t : ℤ) : Prop :=
  db.countOtpSends (senderText uid) (t - otpRateWindowMs) < otpRateLimitPerHour

/-- The row after a change that leaves it under way. -/
structure Continued (r r' : RegistrationRow) : Prop where
  id : r'.id = r.id
  user : r'.channelUserId = r.channelUserId
  expires : r'.expiresAt = r.expiresAt
  data : r'.stateData = r.stateData
  live : r'.state.terminal = false

theorem Underway.changed (h : Underway ext db uid t r)
    (hf : ∀ r', (f r').id = r'.id ∧ (f r').channelUserId = r'.channelUserId) (hkept : Continued r (f r))
    (hfree : db.FreeHash r.id (f r).phoneStubHash) :
    Underway ext { db with rows := updateRow r.id f db.rows } uid t (f r) := by
  refine ⟨h.sole.changed hf hkept.live hfree, hkept.user.trans h.user, ?_, ?_⟩
  · rw [hkept.expires]
    exact h.unexpired
  · rw [hkept.data]
    exact h.expected

theorem execute_cons {write : Write} {rest : List Write} (happly : write.apply db = some db') :
    execute db (write :: rest) = execute db' rest := by
  rw [execute, happly]

theorem Underway.transition (h : Underway ext db uid t r) (st : RegistrationState) (u : Updates)
    (hlive : st.terminal = false) (hhash : u.phoneStubHash = none) (hdata : u.stateData = none) :
    (Write.transition r.id st u).apply db =
        some { db with rows := updateRow r.id (·.transitioned st u) db.rows } ∧
      Underway ext { db with rows := updateRow r.id (·.transitioned st u) db.rows } uid t (r.transitioned st u) := by
  have hsame : (r.transitioned st u).phoneStubHash = r.phoneStubHash := by
    show u.phoneStubHash.getD r.phoneStubHash = r.phoneStubHash
    rw [hhash]
    rfl
  have hfree : db.FreeHash r.id (r.transitioned st u).phoneStubHash := hsame ▸ h.sole.freeHash
  refine ⟨h.sole.change_applies (f := (·.transitioned st u)) (fun _ => rfl) fun _ => hfree,
    h.changed (f := (·.transitioned st u)) (fun _ => ⟨rfl, rfl⟩) ⟨rfl, rfl, rfl, ?_, hlive⟩ hfree⟩
  show u.stateData.getD r.stateData = r.stateData
  rw [hdata]
  rfl

theorem Sole.issue (h : Sole db r) : Issued (execute db [.transition r.id .preAuthTokenIssued]) r.id := by
  have happly : (Write.transition r.id .preAuthTokenIssued).apply db =
      some { db with rows := updateRow r.id (·.transitioned .preAuthTokenIssued {}) db.rows } :=
    h.change_applies (f := (·.transitioned .preAuthTokenIssued {})) (fun _ => rfl) fun hlive => by cases hlive
  rw [execute_cons happly]
  exact ⟨_, h.mem_changed, rfl, rfl⟩

/-! ### Messages -/

theorem typed_fromUser (uid : ℤ) (text : String) : FromUser (senderText uid) (typedUpdate uid text) :=
  ⟨_, uid, rfl, rfl, rfl⟩

theorem shared_fromUser (uid : ℤ) (phone : String) : FromUser (senderText uid) (sharedUpdate uid phone) :=
  ⟨_, uid, rfl, rfl, rfl⟩

theorem processUpdate_typed {contacts : String → Option StoredContact} {text : String} (htext : text ≠ "") :
    processUpdate contacts (typedUpdate uid text) = (contacts, some (senderText uid, text)) := by
  show (if text = "" then (contacts, none) else (contacts, some (senderText uid, text))) = _
  rw [if_neg htext]

theorem processUpdate_shared (uid : ℤ) (contacts : String → Option StoredContact) (phone : String) :
    ∃ contacts', processUpdate contacts (sharedUpdate uid phone) =
      (contacts', some (senderText uid, contactText (senderText uid) phone)) := by
  refine ⟨Function.update contacts (senderText uid) (some ⟨phone, some uid, uid⟩), ?_⟩
  show (if some uid = some uid then (_, some (senderText uid, contactText (senderText uid) phone)) else _) = _
  rw [if_pos rfl]

/-- **A message goes to the handler of the registration's state.** -/
theorem Underway.step {u : TelegramUpdate} {contacts : String → Option StoredContact}
    (h : Underway ext w.db uid t r) (hans : Healthy ans) (hnow : ans.now = t)
    (hprocess : processUpdate w.contacts u = (contacts, some (senderText uid, message))) :
    (w.step ext (.update u ans)).db =
        execute w.db (handleMessage ext ans w.memory w.db r message (senderText uid)).2 ∧
      (w.step ext (.update u ans)).memory = (handleMessage ext ans w.memory w.db r message (senderText uid)).1 := by
  have hfind : w.db.findActive (senderText uid) = some r := h.user ▸ h.sole.findActive
  have hunexpired : ¬ r.expiresAt < ans.now := not_lt_of_ge (hnow ▸ h.unexpired)
  have hhandle : handleInboundMessage ext ans contacts w.memory w.db (senderText uid) message =
      handleMessage ext ans w.memory w.db r message (senderText uid) := by
    unfold handleInboundMessage
    rw [hfind]
    dsimp only
    rw [if_neg hunexpired]
  have hall : ∀ ws, ans.cut ws = ws := fun ws => by rw [Answers.cut, hans.made]
  unfold World.step
  dsimp only
  rw [hprocess]
  dsimp only
  rw [hhandle, hall]
  exact ⟨rfl, rfl⟩

/-! ### From each state -/

theorem trim_unspaced {s : String} (h : Unspaced s) : trim s = s := by
  have hkeep : ∀ l : List Char, (∀ c ∈ l, isSpace c = false) → l.dropWhile isSpace = l := by
    intro l hl
    cases l with
    | nil => rfl
    | cons c l => rw [List.dropWhile_cons_of_neg (by rw [hl c List.mem_cons_self]; decide)]
  unfold trim
  rw [hkeep _ h.2, hkeep _ fun c hc => h.2 c (List.mem_reverse.1 hc), List.reverse_reverse, String.ofList_toList]

theorem DrawnCode.unspaced {otp : String} (h : DrawnCode otp) : Unspaced otp :=
  ⟨h.1, fun c hc => isSpace_of_isDigit (h.2 c hc)⟩

theorem CanComplete.typed (text : String) (htext : text ≠ "") (h : Underway ext w.db uid t r)
    (hnext : ∀ ans w', Healthy ans → ans.now = t →
      w'.db = execute w.db (handleMessage ext ans w.memory w.db r text (senderText uid)).2 →
        w'.memory = (handleMessage ext ans w.memory w.db r text (senderText uid)).1 →
          CanComplete ext w' (senderText uid) id t) : CanComplete ext w (senderText uid) id t := by
  refine CanComplete.next (typed_fromUser uid text) fun ans hans hnow => ?_
  obtain ⟨hdb, hmemory⟩ := h.step hans hnow (processUpdate_typed htext)
  exact hnext ans _ hans hnow hdb hmemory

theorem completes_emailConfirmed (h : Underway ext w.db uid t r) (hstate : r.state = .emailConfirmed) :
    CanComplete ext w (senderText uid) r.id t := by
  refine CanComplete.typed "hi" (by decide) h fun ans w' hans _ hdb _ => .done ?_
  rw [hdb, handleMessage, hstate]
  dsimp only
  rw [issuePreAuth, if_pos hans.issued]
  exact h.sole.issue

/-- The code as it was sent. -/
structure CodeSent (ext : Externals) (t : ℤ) (otp : String) (r : RegistrationRow) : Prop where
  state : r.state = .awaitingEmailOtp
  code : ∃ salt, salt ≠ "" ∧ r.otpSalt = some salt ∧ r.otpHash = some (hashOtp ext otp salt)
  fresh : ∃ until', r.otpExpiresAt = some until' ∧ t ≤ until'
  agrees : ∀ expected, r.stateData.expectedEmailStubHash = some expected → expected ≠ "" →
    r.emailStubHash = some expected

theorem confirm_issues (h : Underway ext db uid t r) (hans : Healthy ans) :
    Issued (execute db (.transition r.id .emailConfirmed { clearOtp := true } :: issuePreAuth ans r)) r.id := by
  obtain ⟨happly, hnext⟩ := h.transition .emailConfirmed { clearOtp := true } rfl rfl rfl
  rw [execute_cons happly, issuePreAuth, if_pos hans.issued]
  exact hnext.sole.issue

theorem completes_code (hsha : ∀ s, ext.sha256 s ≠ "") {otp : String} (hotp : DrawnCode otp)
    (h : Underway ext w.db uid t r) (hcode : CodeSent ext t otp r) :
    CanComplete ext w (senderText uid) r.id t := by
  refine CanComplete.typed otp hotp.1 h fun ans w' hans hnow hdb _ => .done ?_
  obtain ⟨salt, hsalt, hstored, hhash⟩ := hcode.code
  obtain ⟨until', huntil, hlater⟩ := hcode.fresh
  have hlate : ¬ until' < ans.now := not_lt_of_ge (hnow ▸ hlater)
  rw [hdb, handleMessage, hcode.state]
  dsimp only
  rw [handleAwaitingEmailOtp, hhash, hstored, huntil, Option.filter_some, Option.filter_some,
    if_pos (decide_eq_true hsalt), if_pos (decide_eq_true (show hashOtp ext otp salt ≠ "" from hsha _))]
  dsimp only
  rw [Option.getD_some, if_neg hlate, trim_unspaced hotp.unspaced, if_neg (not_not.2 rfl)]
  split
  next expected actual hexpected hactual =>
    obtain ⟨hexpected, hne⟩ := Option.filter_eq_some_iff.1 hexpected
    obtain ⟨hactual, -⟩ := Option.filter_eq_some_iff.1 hactual
    have hsame := hcode.agrees expected hexpected (of_decide_eq_true hne)
    rw [hactual] at hsame
    rw [if_neg (not_not.2 (Option.some.inj hsame))]
    exact confirm_issues h hans
  · exact confirm_issues h hans

theorem Underway.recorded (h : Underway ext db uid t r) (user : String) (t' : ℤ) :
    Underway ext { db with otpSends := db.otpSends ++ [(user, t')] } uid t r :=
  ⟨⟨h.sole.nodup, h.sole.distinct, h.sole.mem, h.sole.live, h.sole.only⟩, h.user, h.unexpired, h.expected⟩

/-- The columns of a code that is sent. -/
def codeUpdates (ext : Externals) (ans : Answers) (email : String) : Updates where
  emailStubHash := some (hashEmail ext email)
  otpHash := some (hashOtp ext ans.otp ans.otpSalt)
  otpSalt := some ans.otpSalt
  otpExpiresAt := some (ans.now + otpTtlMs)
  otpAttemptCount := some 0

theorem codeSent_transitioned (hans : Healthy ans) (hnow : ans.now = t) {email : String}
    (hagrees : ∀ expected, r.stateData.expectedEmailStubHash = some expected → hashEmail ext email = expected) :
    CodeSent ext t ans.otp (r.transitioned .awaitingEmailOtp (codeUpdates ext ans email)) := by
  refine ⟨rfl, ⟨ans.otpSalt, hans.salt, rfl, rfl⟩, ⟨ans.now + otpTtlMs, rfl, ?_⟩, fun expected hexpected _ => ?_⟩
  · rw [hnow]
    unfold otpTtlMs
    omega
  · exact congrArg some (hagrees expected hexpected)

/-- **An awaited address.** -/
theorem completes_awaitingEmail (hsha : ∀ s, ext.sha256 s ≠ "") (h : Underway ext w.db uid t r)
    (hcodes : CodesFree w.db uid t) (hstate : r.state = .awaitingEmail) :
    CanComplete ext w (senderText uid) r.id t := by
  obtain ⟨m, hvalid, hagrees⟩ : ∃ m, isValidEmail (trim m) = true ∧
      ∀ expected, r.stateData.expectedEmailStubHash = some expected → hashEmail ext (trim m) = expected := by
    cases hexpected : r.stateData.expectedEmailStubHash with
    | none => exact ⟨"a@b.co", by decide, fun expected he => by cases he⟩
    | some expected =>
      obtain ⟨m, hvalid, hhash⟩ := h.expected expected hexpected
      exact ⟨m, hvalid, fun e he => Option.some.inj he ▸ hhash⟩
  have hm : m ≠ "" := by
    rintro rfl
    exact absurd hvalid (by decide)
  refine CanComplete.typed m hm h fun ans w' hans hnow hdb _ => ?_
  have hfree : ¬ otpRateLimitPerHour ≤ w.db.countOtpSends (senderText uid) (ans.now - otpRateWindowMs) := by
    rw [hnow]
    exact not_le_of_gt hcodes
  rw [handleMessage, hstate] at hdb
  dsimp only at hdb
  rw [handleAwaitingEmail, hvalid, if_neg (by decide), if_neg hfree, if_pos hans.delivered] at hdb
  obtain ⟨happly, hnext⟩ := h.transition .awaitingEmailOtp (codeUpdates ext ans (trim m)) rfl rfl rfl
  have hsent : w'.db = { w.db with
      rows := updateRow r.id (·.transitioned .awaitingEmailOtp (codeUpdates ext ans (trim m))) w.db.rows
      otpSends := w.db.otpSends ++ [(senderText uid, ans.now)] } := by
    rw [hdb]
    exact execute_cons happly
  have hunder := hnext.recorded (senderText uid) ans.now
  rw [← hsent] at hunder
  exact completes_code (r := r.transitioned .awaitingEmailOtp (codeUpdates ext ans (trim m))) hsha hans.otp hunder
    (codeSent_transitioned hans hnow hagrees)

theorem completes_reentered (hsha : ∀ s, ext.sha256 s ≠ "") {w' : World} {u : Updates}
    (h : Underway ext w.db uid t r) (hcodes : CodesFree w.db uid t) (hhash : u.phoneStubHash = none)
    (hdata : u.stateData = none) (hdb : w'.db = execute w.db [.transition r.id .awaitingEmail u]) :
    CanComplete ext w' (senderText uid) r.id t := by
  obtain ⟨happly, hnext⟩ := h.transition .awaitingEmail u rfl hhash hdata
  rw [execute_cons happly] at hdb
  have hagain : CodesFree w'.db uid t := by
    rw [hdb]
    exact hcodes
  exact completes_awaitingEmail (r := r.transitioned .awaitingEmail u) hsha (hdb ▸ hnext) hagain rfl

theorem Underway.column (h : Underway ext db uid t r)
    (hf : ∀ r', (f r').id = r'.id ∧ (f r').channelUserId = r'.channelUserId) (hkept : Continued r (f r))
    (hsame : (f r).phoneStubHash = r.phoneStubHash) :
    (db.change r.id f).bind Database.checked = some { db with rows := updateRow r.id f db.rows } ∧
      Underway ext { db with rows := updateRow r.id f db.rows } uid t (f r) := by
  have hfree : db.FreeHash r.id (f r).phoneStubHash := hsame ▸ h.sole.freeHash
  exact ⟨h.sole.change_applies (fun r' => (hf r').1) fun _ => hfree, h.changed hf hkept hfree⟩

/-- What a text can do where a code is awaited. -/
inductive AwaitedCode (ans : Answers) (r : RegistrationRow) : List Write → Prop
  | reentered (u : Updates) (hash : u.phoneStubHash = none) (data : u.stateData = none) :
      AwaitedCode ans r [.transition r.id .awaitingEmail u]
  | lockedOut : AwaitedCode ans r [.transitionOnOtpLockout r.id]
  | attempted (left : r.otpAttemptCount + 1 < maxOtpAttempts) : AwaitedCode ans r [.incrementOtpAttempt r.id]
  | confirmed : AwaitedCode ans r (.transition r.id .emailConfirmed { clearOtp := true } :: issuePreAuth ans r)

theorem awaitedCode_cases (ext : Externals) (ans : Answers) (r : RegistrationRow) (text : String) :
    AwaitedCode ans r (handleAwaitingEmailOtp ext ans r text) := by
  have hback : AwaitedCode ans r (reenterEmail r) := .reentered _ rfl rfl
  unfold handleAwaitingEmailOtp
  split
  · exact hback
  · split
    · exact hback
    · split
      · exact hback
      · split
        · split
          · exact .lockedOut
          next hleft => exact .attempted (lt_of_not_ge hleft)
        · split
          · split
            · exact .reentered _ rfl rfl
            · exact .confirmed
          · exact .confirmed

theorem completes_text (h : Underway ext w.db uid t r) (hstate : r.state = .awaitingEmailOtp)
    (hsha : ∀ s, ext.sha256 s ≠ "") (hcodes : CodesFree w.db uid t)
    (hattempted : r.otpAttemptCount + 1 < maxOtpAttempts → ∀ w' : World,
      w'.db = { w.db with rows := updateRow r.id RegistrationRow.attempted w.db.rows } →
        CanComplete ext w' (senderText uid) r.id t) : CanComplete ext w (senderText uid) r.id t := by
  refine CanComplete.typed "hi" (by decide) h fun ans w' hans hnow hdb _ => ?_
  rw [handleMessage, hstate] at hdb
  dsimp only at hdb
  have hcases := awaitedCode_cases ext ans r "hi"
  generalize handleAwaitingEmailOtp ext ans r "hi" = ws at hdb hcases
  cases hcases with
  | reentered u hhash hdata => exact completes_reentered hsha h hcodes hhash hdata hdb
  | lockedOut =>
    obtain ⟨happly, hnext⟩ := h.column (f := RegistrationRow.lockedOut) (fun _ => ⟨rfl, rfl⟩)
      ⟨rfl, rfl, rfl, rfl, rfl⟩ rfl
    have hlocked : (Write.transitionOnOtpLockout r.id).apply w.db =
        some { w.db with rows := updateRow r.id RegistrationRow.lockedOut w.db.rows } := happly
    rw [execute_cons hlocked] at hdb
    have hagain : CodesFree w'.db uid t := by
      rw [hdb]
      exact hcodes
    exact completes_awaitingEmail (r := r.lockedOut) hsha (hdb ▸ hnext) hagain rfl
  | attempted hmore =>
    refine hattempted hmore w' (hdb.trans ?_)
    have hid : r.id ∈ w.db.rows.map RegistrationRow.id := List.mem_map_of_mem h.sole.mem
    exact execute_cons (if_pos hid)
  | confirmed =>
    refine .done ?_
    rw [hdb]
    exact confirm_issues h hans

theorem completes_awaitingEmailOtp (hsha : ∀ s, ext.sha256 s ≠ "") (n : ℕ) : ∀ {w : World} {r : RegistrationRow},
    Underway ext w.db uid t r → CodesFree w.db uid t → r.state = .awaitingEmailOtp →
      maxOtpAttempts ≤ r.otpAttemptCount + n → CanComplete ext w (senderText uid) r.id t := by
  induction n with
  | zero =>
    intro w r h hcodes hstate hleft
    exact completes_text h hstate hsha hcodes fun hmore => absurd hleft (by omega)
  | succ n ih =>
    intro w r h hcodes hstate hleft
    refine completes_text h hstate hsha hcodes fun _ w' hdb => ?_
    obtain ⟨-, hnext⟩ := h.column (f := RegistrationRow.attempted) (fun _ => ⟨rfl, rfl⟩)
      ⟨rfl, rfl, rfl, rfl, h.sole.live⟩ rfl
    have hagain : CodesFree w'.db uid t := by
      rw [hdb]
      exact hcodes
    have hleft' : maxOtpAttempts ≤ r.attempted.otpAttemptCount + n := by
      show maxOtpAttempts ≤ r.otpAttemptCount + 1 + n
      omega
    exact ih (r := r.attempted) (hdb ▸ hnext) hagain hstate hleft'

theorem completes_phoneConfirmed (hsha : ∀ s, ext.sha256 s ≠ "") (h : Underway ext w.db uid t r)
    (hcodes : CodesFree w.db uid t) (hstate : r.state = .phoneConfirmed) :
    CanComplete ext w (senderText uid) r.id t := by
  refine CanComplete.typed "hi" (by decide) h fun ans w' _ _ hdb _ => ?_
  rw [handleMessage, hstate] at hdb
  exact completes_reentered hsha h hcodes rfl rfl hdb

/-! ### The contact -/

theorem completes_contact (hsha : ∀ s, ext.sha256 s ≠ "") {w' : World} {record : RegistrationRow} {phone : String}
    (h : Underway ext db uid t r) (hcodes : CodesFree db uid t) (hid : record.id = r.id) (hphone : IsPhone phone)
    (hfree : db.FreeHash r.id (hashPhone ext (normalizePhone phone)))
    (hdb : w'.db = execute db (handleAwaitingContact ext record (contactText (senderText uid) phone)
      (senderText uid))) : CanComplete ext w' (senderText uid) r.id t := by
  rw [handleAwaitingContact, contactMatch_own (unspaced_senderText uid) hphone] at hdb
  dsimp only at hdb
  rw [if_neg (not_not.2 rfl), hid] at hdb
  have happly : (Write.transition r.id .phoneConfirmed
      { phoneStubHash := some (hashPhone ext (normalizePhone phone)) }).apply db = some { db with
        rows := updateRow r.id (·.transitioned .phoneConfirmed
          { phoneStubHash := some (hashPhone ext (normalizePhone phone)) }) db.rows } :=
    h.sole.change_applies (f := (·.transitioned .phoneConfirmed _)) (fun _ => rfl) fun _ => hfree
  have hnext := h.changed (f := (·.transitioned .phoneConfirmed
    { phoneStubHash := some (hashPhone ext (normalizePhone phone)) })) (fun _ => ⟨rfl, rfl⟩)
    ⟨rfl, rfl, rfl, rfl, rfl⟩ hfree
  rw [execute_cons happly] at hdb
  exact completes_reentered (w := { db := _ }) (r := r.transitioned .phoneConfirmed _) hsha hnext hcodes rfl rfl hdb

theorem completes_awaitingContact (hsha : ∀ s, ext.sha256 s ≠ "") {phone : String} (h : Underway ext w.db uid t r)
    (hcodes : CodesFree w.db uid t) (hphone : IsPhone phone)
    (hfree : w.db.FreeHash r.id (hashPhone ext (normalizePhone phone))) (hstate : r.state = .awaitingContact) :
    CanComplete ext w (senderText uid) r.id t := by
  refine CanComplete.next (shared_fromUser uid phone) fun ans hans hnow => ?_
  obtain ⟨contacts, hprocess⟩ := processUpdate_shared uid w.contacts phone
  obtain ⟨hdb, -⟩ := h.step hans hnow hprocess
  rw [handleMessage, hstate] at hdb
  exact completes_contact hsha h hcodes rfl hphone hfree hdb

theorem askGate_answers {mem : Memory} {now : ℤ} {answer : Bool}
    (hgate : ∀ since, mem.gateFaultAt user = some since → since + gateFaultCooldownMs ≤ now) :
    ∃ mem', askGate mem user now (some answer) = (mem', some answer) := by
  have hnone : ((mem.gateFaultAt user).filter fun t => decide (now - t < gateFaultCooldownMs)) = none := by
    rw [Option.filter_eq_none_iff]
    intro since hsince hrecent
    have hlater := hgate since hsince
    have hless := of_decide_eq_true hrecent
    omega
  unfold askGate
  dsimp only
  rw [hnone]
  exact ⟨_, rfl⟩

theorem Database.FreeHash.updated {hash : String} {st : RegistrationState} {u : Updates} (h : db.FreeHash id hash) :
    Database.FreeHash { db with rows := updateRow id (·.transitioned st u) db.rows } id hash := by
  intro r' hr' hne
  rcases mem_updateRow_iff.1 hr' with ⟨r₀, hr₀, hid, rfl⟩ | ⟨hr', -⟩
  · exact absurd hid hne
  · exact h r' hr' hne

theorem completes_initial (hsha : ∀ s, ext.sha256 s ≠ "") {phone : String} (h : Underway ext w.db uid t r)
    (hcodes : CodesFree w.db uid t) (hphone : IsPhone phone)
    (hfree : w.db.FreeHash r.id (hashPhone ext (normalizePhone phone)))
    (hgate : ∀ since, w.memory.gateFaultAt (senderText uid) = some since → since + gateFaultCooldownMs ≤ t)
    (hstate : r.state = .initial) : CanComplete ext w (senderText uid) r.id t := by
  refine CanComplete.next (shared_fromUser uid phone) fun ans hans hnow => ?_
  obtain ⟨contacts, hprocess⟩ := processUpdate_shared uid w.contacts phone
  obtain ⟨hdb, -⟩ := h.step hans hnow hprocess
  obtain ⟨mem, hasked⟩ : ∃ mem, checkGate ans w.memory r.channelUserId = (mem, some true) := by
    rw [checkGate, hans.gate, h.user]
    exact askGate_answers (hnow ▸ hgate)
  rw [handleMessage, hstate] at hdb
  dsimp only at hdb
  rw [recoverFromInitial, hasked] at hdb
  dsimp only at hdb
  obtain ⟨happly, hnext⟩ := h.transition .awaitingContact {} rfl rfl rfl
  rw [execute_cons happly] at hdb
  have hfree' : Database.FreeHash { w.db with rows := updateRow r.id (·.transitioned .awaitingContact {}) w.db.rows }
      r.id (hashPhone ext (normalizePhone phone)) := hfree.updated
  exact completes_contact (r := r.transitioned .awaitingContact {}) hsha hnext hcodes rfl hphone hfree' hdb

theorem overTokenLimit_gate (mem : Memory) (user : String) (now : ℤ) :
    (overTokenLimit mem user now).1.gateFaultAt = mem.gateFaultAt := by
  unfold overTokenLimit
  dsimp only
  split <;> rfl

theorem completes_awaitingWaitlistToken (hsha : ∀ s, ext.sha256 s ≠ "") {phone : String}
    (h : Underway ext w.db uid t r) (hcodes : CodesFree w.db uid t) (hphone : IsPhone phone)
    (hfree : w.db.FreeHash r.id (hashPhone ext (normalizePhone phone)))
    (hgate : ∀ since, w.memory.gateFaultAt (senderText uid) = some since → since + gateFaultCooldownMs ≤ t)
    (hlimit : (overTokenLimit w.memory (senderText uid) t).2 = false) (hstate : r.state = .awaitingWaitlistToken) :
    CanComplete ext w (senderText uid) r.id t := by
  refine CanComplete.typed "hi" (by decide) h fun ans w' hans hnow hdb _ => ?_
  have hredeemed : handleAwaitingWaitlistToken ans w.memory r "hi" (senderText uid) =
      ((handleAwaitingWaitlistToken ans w.memory r "hi" (senderText uid)).1,
        [.transition r.id .awaitingContact]) := by
    unfold handleAwaitingWaitlistToken
    rw [hans.gate]
    dsimp only
    rw [if_neg (by decide), hnow]
    cases hover : overTokenLimit w.memory (senderText uid) t with
    | mk mem over' =>
      rw [hover] at hlimit
      cases hlimit
      dsimp only
      have hsame : mem.gateFaultAt = w.memory.gateFaultAt := by
        rw [← overTokenLimit_gate w.memory (senderText uid) t, hover]
      obtain ⟨mem', hasked⟩ : ∃ mem', askGate mem (senderText uid) t (some true) = (mem', some true) :=
        askGate_answers (hsame ▸ hgate)
      rw [hasked]
  rw [handleMessage, hstate] at hdb
  dsimp only at hdb
  rw [hredeemed] at hdb
  obtain ⟨happly, hnext⟩ := h.transition .awaitingContact {} rfl rfl rfl
  rw [execute_cons happly] at hdb
  have hagain : CodesFree w'.db uid t := by
    rw [hdb]
    exact hcodes
  have hfree' : w'.db.FreeHash r.id (hashPhone ext (normalizePhone phone)) := by
    rw [hdb]
    exact hfree.updated
  exact completes_awaitingContact (r := r.transitioned .awaitingContact {}) hsha (hdb ▸ hnext) hagain hphone hfree' rfl

/-! ### The law -/

def CodeLive (ext : Externals) (t : ℤ) (r : RegistrationRow) : Prop := ∃ otp, DrawnCode otp ∧ CodeSent ext t otp r

/-- **No limit that its state meets holds the user of a registration back** at a time: no five tokens tried in the last
hour where one is awaited, no gate that has just failed where it is asked, and no five codes sent in the last hour where
one has to be sent. -/
structure Unlimited (ext : Externals) (w : World) (r : RegistrationRow) (t : ℤ) : Prop where
  tokens : r.state = .awaitingWaitlistToken → (overTokenLimit w.memory r.channelUserId t).2 = false
  gate : r.state = .initial ∨ r.state = .awaitingWaitlistToken →
    ∀ since, w.memory.gateFaultAt r.channelUserId = some since → since + gateFaultCooldownMs ≤ t
  codes : r.state ≠ .emailConfirmed → ¬ CodeLive ext t r →
    w.db.countOtpSends r.channelUserId (t - otpRateWindowMs) < otpRateLimitPerHour

theorem exists_freePhone {phones : List String}
    (hhashes : (phones.map fun p => hashPhone ext (normalizePhone p)).Nodup)
    (hmany : db.rows.length < phones.length) (id : String) :
    ∃ p ∈ phones, db.FreeHash id (hashPhone ext (normalizePhone p)) := by
  by_contra hnone
  have hsubset : (phones.map fun p => hashPhone ext (normalizePhone p)) ⊆
      db.rows.map RegistrationRow.phoneStubHash := by
    intro hash hhash
    obtain ⟨p, hp, rfl⟩ := List.mem_map.1 hhash
    by_contra hfree
    exact hnone ⟨p, hp, fun r hr _ _ hsame => hfree (List.mem_map.2 ⟨r, hr, hsame⟩)⟩
  have hlength := (List.subperm_of_subset hhashes hsubset).length_le
  rw [List.length_map, List.length_map] at hlength
  omega

theorem CodeLive.state (h : CodeLive ext t r) : r.state = .awaitingEmailOtp :=
  let ⟨_, _, hsent⟩ := h
  hsent.state

/-- **Every registration under way can be completed.** -/
theorem canComplete (hsha : ∀ s, ext.sha256 s ≠ "") {phone : String} (h : Underway ext w.db uid t r)
    (hfree : Unlimited ext w r t) (hphone : IsPhone phone)
    (hhash : w.db.FreeHash r.id (hashPhone ext (normalizePhone phone))) :
    CanComplete ext w (senderText uid) r.id t := by
  obtain ⟨htokens, hgate, hcodes⟩ := hfree
  rw [h.user] at htokens hgate hcodes
  -- in a state before the code one has to be sent
  have hbefore : r.state ≠ .emailConfirmed → r.state ≠ .awaitingEmailOtp → CodesFree w.db uid t :=
    fun hne hnotAwaited => hcodes hne fun hlive => hnotAwaited hlive.state
  cases hstate : r.state with
  | initial =>
    rw [hstate] at hbefore
    exact completes_initial hsha h (hbefore nofun nofun) hphone hhash (hgate (.inl hstate)) hstate
  | awaitingWaitlistToken =>
    rw [hstate] at hbefore
    exact completes_awaitingWaitlistToken hsha h (hbefore nofun nofun) hphone hhash (hgate (.inr hstate))
      (htokens hstate) hstate
  | awaitingContact =>
    rw [hstate] at hbefore
    exact completes_awaitingContact hsha h (hbefore nofun nofun) hphone hhash hstate
  | phoneConfirmed =>
    rw [hstate] at hbefore
    exact completes_phoneConfirmed hsha h (hbefore nofun nofun) hstate
  | awaitingEmail =>
    rw [hstate] at hbefore
    exact completes_awaitingEmail hsha h (hbefore nofun nofun) hstate
  | awaitingEmailOtp =>
    by_cases hlive : CodeLive ext t r
    · obtain ⟨otp, hotp, hsent⟩ := hlive
      exact completes_code hsha hotp h hsent
    · have hfree : CodesFree w.db uid t := hcodes (by rw [hstate]; nofun) hlive
      exact completes_awaitingEmailOtp hsha maxOtpAttempts h hfree hstate (Nat.le_add_left _ _)
  | emailConfirmed => exact completes_emailConfirmed h hstate
  | preAuthTokenIssued =>
    have hlive := h.sole.live
    rw [hstate] at hlive
    cases hlive
  | expired =>
    have hlive := h.sole.live
    rw [hstate] at hlive
    cases hlive
  | failed =>
    have hlive := h.sole.live
    rw [hstate] at hlive
    cases hlive

end Cello.OperationsAgent.Registration
