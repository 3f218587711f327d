import Cello.Lib.GuardedRun
import Cello.OperationsAgent.Registration.Engine

/-!
# Verified phone numbers

A registration that has passed to `PHONE_CONFIRMED` should name the phone number of a contact that its user
shared.  The state machine takes every text `CONTACT:<user>:<phone>` for the word of the adapter, and a user
can type such a text.  Where nobody does while their contact is awaited, the law holds of every run
(`phoneVerified_of_contacts`).
-/

namespace Cello.OperationsAgent.Registration

open Lib

/-! ### The law -/

def SharedOwn (received : List TelegramUpdate) (user phone : String) : Prop :=
  ∃ update ∈ received, ∃ (msg : TelegramMessage) (id : ℤ), update.message = some msg ∧
    msg.fromId = some id ∧ senderText id = user ∧ msg.contact = some ⟨phone, some id⟩

def Backed (ext : Externals) (received : List TelegramUpdate) (user hash : String) : Prop :=
  ∃ phone, SharedOwn received user phone ∧ hash = hashPhone ext (normalizePhone phone)

/-- **Every verified number was shared as a contact.** -/
def PhonesVerified (ext : Externals) (received : List TelegramUpdate) (db : Database) : Prop :=
  ∀ r ∈ db.rows, r.state.phoneVerified = true → Backed ext received r.channelUserId r.phoneStubHash

/-! ### The condition -/

/-- The handler of contacts is the next to see what the user writes. -/
def contactAwaited (ans : Answers) (mem : Memory) (record : RegistrationRow) : Bool :=
  !decide (record.expiresAt < ans.now) &&
    match record.state with
    | .awaitingContact => true
    | .initial => decide ((checkGate ans mem record.channelUserId).2 = some true)
    | _ => false

def namedPhone (ans : Answers) (mem : Memory) (db : Database) (user message : String) : Option String :=
  match db.findActive user, contactMatch message with
  | some record, some (contactUser, phone) =>
    if contactUser = user ∧ contactAwaited ans mem record = true then some phone else none
  | _, _ => none

def typedText (update : TelegramUpdate) : Option (String × String) :=
  update.message.bind fun msg => msg.fromId.bind fun id =>
    match msg.contact with
    | some _ => none
    | none => msg.text.map fun text => (senderText id, text)

/-- Nobody types a contact while theirs is awaited, except one with the hash of a number they shared. -/
def NoTypedContact (ext : Externals) (w : World) : Event → Prop
  | .update update ans => ∀ user text phone, typedText update = some (user, text) →
      namedPhone ans w.memory w.db user text = some phone →
        Backed ext w.received user (hashPhone ext (normalizePhone phone))
  | _ => True

/-! ### What a write keeps -/

section

variable {ext : Externals} {received : List TelegramUpdate} {db db' : Database} {w : Write}

/-- The law, over rows with different ids. -/
structure Sound (ext : Externals) (received : List TelegramUpdate) (db : Database) : Prop where
  nodup : (db.rows.map RegistrationRow.id).Nodup
  verified : PhonesVerified ext received db

/-- The law, and the row of an id has a backed hash although nobody may have confirmed it yet. -/
structure SoundAt (ext : Externals) (received : List TelegramUpdate) (id : String) (db : Database) :
    Prop extends Sound ext received db where
  backed : ∀ r ∈ db.rows, r.id = id → Backed ext received r.channelUserId r.phoneStubHash

def OwnedBy (id user : String) (db : Database) : Prop :=
  ∀ r ∈ db.rows, r.id = id → r.channelUserId = user

def Write.unverified : Write → Bool
  | .insert row => !row.state.phoneVerified
  | .transition _ state _ => !state.phoneVerified
  | .transitionOnOtpLockout _ => false
  | .incrementOtpAttempt _ | .recordContactPrompt _ _ | .recordOtpSend _ _ => true

/-- A write on the row of an id that keeps its hash. -/
def Write.keepsHash (id : String) : Write → Bool
  | .insert _ => false
  | .transition id' _ u => decide (id' = id) && u.phoneStubHash.isNone
  | .transitionOnOtpLockout id' | .incrementOtpAttempt id' | .recordContactPrompt id' _ =>
    decide (id' = id)
  | .recordOtpSend _ _ => true

theorem change_unverified {id : String} {f : RegistrationRow → RegistrationRow}
    (hw : w.unverified = true) (h : w.change = some (id, f)) (r : RegistrationRow) :
    (f r).state.phoneVerified = false ∨
      (f r).state = r.state ∧ (f r).phoneStubHash = r.phoneStubHash := by
  cases w <;> cases h
  case transition state u =>
    have hnot : state.phoneVerified = false := by simpa [Write.unverified] using hw
    exact .inl hnot
  case transitionOnOtpLockout => cases hw
  case incrementOtpAttempt => exact .inr ⟨rfl, rfl⟩
  case recordContactPrompt => exact .inr ⟨rfl, rfl⟩

theorem change_keepsHash {id id' : String} {f : RegistrationRow → RegistrationRow}
    (hw : w.keepsHash id = true) (h : w.change = some (id', f)) :
    id' = id ∧ ∀ r : RegistrationRow, (f r).phoneStubHash = r.phoneStubHash := by
  cases w <;> cases h
  case transition state u =>
    rw [Write.keepsHash, Bool.and_eq_true, decide_eq_true_iff, Option.isNone_iff_eq_none] at hw
    refine ⟨hw.1, fun r => ?_⟩
    show u.phoneStubHash.getD r.phoneStubHash = r.phoneStubHash
    rw [hw.2, Option.getD_none]
  all_goals exact ⟨of_decide_eq_true hw, fun _ => rfl⟩

theorem Sound.unverified (h : Sound ext received db) (hw : w.unverified = true)
    (happly : w.apply db = some db') : Sound ext received db' := by
  refine ⟨apply_nodup happly h.nodup, fun r hr hverified => ?_⟩
  obtain ⟨row, rfl, _, hrows⟩ | ⟨id, f, hchange, hrows⟩ | ⟨_, hrows⟩ := apply_rows happly
  · rw [hrows, List.mem_append, List.mem_singleton] at hr
    rcases hr with hr | rfl
    · exact h.verified r hr hverified
    · rw [Write.unverified, hverified] at hw
      cases hw
  · rw [hrows, mem_updateRow] at hr
    obtain ⟨r₀, hr₀, rfl⟩ := hr
    split at hverified
    next hid =>
      rw [if_pos hid]
      rcases change_unverified hw hchange r₀ with hnot | ⟨hstate, hhash⟩
      · rw [hverified] at hnot
        cases hnot
      · rw [hhash, (change_keeps hchange r₀).2]
        exact h.verified r₀ hr₀ (hstate ▸ hverified)
    next hid =>
      rw [if_neg hid]
      exact h.verified r₀ hr₀ hverified
  · rw [hrows] at hr
    exact h.verified r hr hverified

theorem SoundAt.keepsHash {id : String} (h : SoundAt ext received id db) (hw : w.keepsHash id = true)
    (happly : w.apply db = some db') : SoundAt ext received id db' := by
  have hrow : ∀ r ∈ db'.rows, (r.id = id → Backed ext received r.channelUserId r.phoneStubHash) ∧
      (r.id ≠ id → r ∈ db.rows) := by
    intro r hr
    obtain ⟨row, rfl, _⟩ | ⟨id', f, hchange, hrows⟩ | ⟨_, hrows⟩ := apply_rows happly
    · cases hw
    · obtain ⟨rfl, hhash⟩ := change_keepsHash hw hchange
      rw [hrows, mem_updateRow] at hr
      obtain ⟨r₀, hr₀, rfl⟩ := hr
      split
      next hid =>
        obtain ⟨hid', huser⟩ := change_keeps hchange r₀
        rw [hhash, huser, hid']
        exact ⟨fun _ => h.backed r₀ hr₀ hid, fun hne => absurd hid hne⟩
      next hid => exact ⟨fun heq => absurd heq hid, fun _ => hr₀⟩
    · rw [hrows] at hr
      exact ⟨h.backed r hr, fun _ => hr⟩
  refine ⟨⟨apply_nodup happly h.nodup, fun r hr hverified => ?_⟩, fun r hr => (hrow r hr).1⟩
  by_cases hid : r.id = id
  · exact (hrow r hr).1 hid
  · exact h.verified r ((hrow r hr).2 hid) hverified

theorem Sound.confirm {id user hash : String} (h : Sound ext received db) (howned : OwnedBy id user db)
    (hhash : Backed ext received user hash)
    (happly : (Write.transition id .phoneConfirmed { phoneStubHash := some hash }).apply db = some db') :
    SoundAt ext received id db' := by
  have hrow : ∀ r ∈ db'.rows, (r.id = id → Backed ext received r.channelUserId r.phoneStubHash) ∧
      (r.id ≠ id → r ∈ db.rows) := by
    intro r hr
    rw [change_checked_some happly, mem_updateRow] at hr
    obtain ⟨r₀, hr₀, rfl⟩ := hr
    split
    next hid =>
      refine ⟨fun _ => ?_, fun hne => absurd hid hne⟩
      exact (howned r₀ hr₀ hid).symm ▸ hhash
    next hid => exact ⟨fun heq => absurd heq hid, fun _ => hr₀⟩
  refine ⟨⟨apply_nodup happly h.nodup, fun r hr hverified => ?_⟩, fun r hr => (hrow r hr).1⟩
  by_cases hid : r.id = id
  · exact (hrow r hr).1 hid
  · exact h.verified r ((hrow r hr).2 hid) hverified

/-! ### What the writes of a handler keep -/

variable {ws : List Write}

theorem along_unverified (hws : ∀ w ∈ ws, w.unverified = true) (h : Sound ext received db) :
    Along (Sound ext received) db ws :=
  Along.of_invariant (fun w hw _ _ hdb happly => hdb.unverified (hws w hw) happly) h

theorem along_keepsHash {id : String} (hws : ∀ w ∈ ws, w.keepsHash id = true)
    (h : SoundAt ext received id db) : Along (Sound ext received) db ws :=
  Along.mono (fun _ hdb => hdb.toSound)
    (Along.of_invariant (fun w hw _ _ hdb happly => hdb.keepsHash (hws w hw) happly) h)

theorem along_awaitingContact {record : RegistrationRow} {message user : String}
    (h : Sound ext received db) (howned : OwnedBy record.id user db)
    (hphone : ∀ phone, contactMatch message = some (user, phone) →
      Backed ext received user (hashPhone ext (normalizePhone phone))) :
    Along (Sound ext received) db (handleAwaitingContact ext record message user) := by
  unfold handleAwaitingContact
  split
  next => exact along_unverified (by simp [Write.unverified]) h
  next contactUser phone hmatch =>
    split
    · exact .nil db
    next huser =>
      obtain rfl : contactUser = user := not_not.1 huser
      have hconfirmed := fun (db' : Database) happly =>
        @Sound.confirm _ _ _ db' _ _ _ h howned (hphone phone hmatch) happly
      refine .cons (fun db' happly => (hconfirmed db' happly).toSound) fun db' happly => ?_
      exact along_keepsHash (by simp [Write.keepsHash]) (hconfirmed db' happly)

/-! ### The handlers -/

variable {ans : Answers} {mem : Memory} {record : RegistrationRow} {message user : String}

theorem Sound.eq_of_id (h : Sound ext received db) (hrecord : record ∈ db.rows) {r : RegistrationRow}
    (hr : r ∈ db.rows) (hid : r.id = record.id) : r = record :=
  List.inj_on_of_nodup_map h.nodup hr hrecord hid

theorem Sound.at (h : Sound ext received db) (hrecord : record ∈ db.rows)
    (hverified : record.state.phoneVerified = true) : SoundAt ext received record.id db :=
  ⟨h, fun r hr hid => by
    obtain rfl := h.eq_of_id hrecord hr hid
    exact h.verified r hr hverified⟩

theorem Sound.ownedBy (h : Sound ext received db) (hrecord : record ∈ db.rows) :
    OwnedBy record.id record.channelUserId db := fun r hr hid => by
  obtain rfl := h.eq_of_id hrecord hr hid
  rfl

theorem unverified_handleNewUser (hash : String) :
    ∀ w ∈ (handleNewUser ans mem user hash).2, w.unverified = true := by
  unfold handleNewUser
  intro w hw
  split at hw
  · cases hw
  next mem' allowed _ =>
    rw [List.mem_singleton.1 hw]
    cases allowed <;> rfl

theorem unverified_handleExistingUser (hash : String) (expected : Option String) :
    ∀ w ∈ (handleExistingUser ans mem user hash expected).2, w.unverified = true := by
  unfold handleExistingUser
  intro w hw
  split at hw
  · cases hw
  · obtain rfl | rfl := List.mem_pair.1 hw <;> rfl
  · obtain rfl | hw := List.mem_cons.1 hw
    · rfl
    · split at hw
      · cases hw
      · rw [List.mem_singleton.1 hw]
        rfl

theorem unverified_handleCompletedOrNew (hash : String) :
    ∀ w ∈ (handleCompletedOrNew ans mem db user message hash).2, w.unverified = true := by
  unfold handleCompletedOrNew
  intro w hw
  split at hw
  · exact unverified_handleNewUser hash w hw
  · split at hw
    · exact unverified_handleExistingUser hash _ w hw
    · split at hw <;> cases hw

theorem unverified_handleAwaitingWaitlistToken :
    ∀ w ∈ (handleAwaitingWaitlistToken ans mem record message user).2, w.unverified = true := by
  unfold handleAwaitingWaitlistToken
  intro w hw
  split at hw
  · cases hw
  · split at hw
    · cases hw
    · split at hw
      · cases hw
      · split at hw
        · cases hw
        · cases hw
        · rw [List.mem_singleton.1 hw]
          rfl

theorem keepsHash_issuePreAuth : ∀ w ∈ issuePreAuth ans record, w.keepsHash record.id = true := by
  unfold issuePreAuth
  split <;> simp [Write.keepsHash]

theorem keepsHash_handleAwaitingEmail :
    ∀ w ∈ handleAwaitingEmail ext ans db record message user, w.keepsHash record.id = true := by
  unfold handleAwaitingEmail
  split
  · simp
  · split
    · simp
    · split <;> simp [Write.keepsHash]

theorem keepsHash_handleAwaitingEmailOtp :
    ∀ w ∈ handleAwaitingEmailOtp ext ans record message, w.keepsHash record.id = true := by
  have hconfirmed : ∀ w ∈ (.transition record.id .emailConfirmed { clearOtp := true } ::
      issuePreAuth ans record : List Write), w.keepsHash record.id = true :=
    List.forall_mem_cons.2 ⟨by simp [Write.keepsHash], keepsHash_issuePreAuth⟩
  unfold handleAwaitingEmailOtp
  split
  · simp [reenterEmail, Write.keepsHash]
  · split
    · simp [reenterEmail, Write.keepsHash]
    · split
      · simp [reenterEmail, Write.keepsHash]
      · split
        · split <;> simp [Write.keepsHash]
        · split
          · split
            · simp [Write.keepsHash]
            · exact hconfirmed
          · exact hconfirmed

/-- **A message keeps the law**, if what the contact handler takes for a contact is backed. -/
theorem along_handleMessage (h : Sound ext received db) (hrecord : record ∈ db.rows)
    (hphone : ∀ phone, contactMatch message = some (record.channelUserId, phone) →
      (record.state = .awaitingContact ∨
        record.state = .initial ∧ (checkGate ans mem record.channelUserId).2 = some true) →
      Backed ext received record.channelUserId (hashPhone ext (normalizePhone phone))) :
    Along (Sound ext received) db
      (handleMessage ext ans mem db record message record.channelUserId).2 := by
  have howned := h.ownedBy hrecord
  have hat : record.state.phoneVerified = true → SoundAt ext received record.id db := h.at hrecord
  unfold handleMessage
  cases hstate : record.state <;> rw [hstate] at hat <;> dsimp only
  case awaitingWaitlistToken => exact along_unverified unverified_handleAwaitingWaitlistToken h
  case awaitingContact =>
    exact along_awaitingContact h howned fun phone hmatch => hphone phone hmatch (.inl hstate)
  case awaitingEmail =>
    exact along_keepsHash keepsHash_handleAwaitingEmail (hat rfl)
  case awaitingEmailOtp =>
    exact along_keepsHash keepsHash_handleAwaitingEmailOtp (hat rfl)
  case preAuthTokenIssued => exact .nil db
  case expired => exact .nil db
  case failed => exact .nil db
  case initial =>
    unfold recoverFromInitial
    split
    · exact .nil db
    · exact along_unverified (by simp [Write.unverified, RegistrationState.phoneVerified]) h
    next hgate =>
      have hadmitted := fun (db' : Database) happly =>
        @Sound.unverified _ _ _ db' (.transition record.id .awaitingContact) h rfl happly
      refine .cons hadmitted fun db' happly => ?_
      refine along_awaitingContact (hadmitted db' happly) ?_ fun phone hmatch =>
        hphone phone hmatch (.inr ⟨hstate, by rw [hgate]⟩)
      intro r hr hid
      rw [change_checked_some happly, mem_updateRow] at hr
      obtain ⟨r₀, hr₀, rfl⟩ := hr
      split at hid
      next heq =>
        rw [if_pos heq]
        exact howned r₀ hr₀ heq
      next hne => exact absurd hid hne
  case phoneConfirmed =>
    exact along_keepsHash (by simp [Write.keepsHash]) (hat rfl)
  case emailConfirmed =>
    exact along_keepsHash keepsHash_issuePreAuth (hat rfl)

/-- **What arrives keeps the law**, if the phone number it names where a contact is awaited is backed. -/
theorem along_handleInboundMessage {contacts : String → Option StoredContact}
    (h : Sound ext received db)
    (hphone : ∀ phone, namedPhone ans mem db user message = some phone →
      Backed ext received user (hashPhone ext (normalizePhone phone))) :
    Along (Sound ext received) db
      (handleInboundMessage ext ans contacts mem db user message).2 := by
  unfold handleInboundMessage
  split
  · exact along_unverified (unverified_handleCompletedOrNew _) h
  next record hactive =>
    have hrecord : record ∈ db.rows := List.mem_of_find?_eq_some hactive
    obtain rfl : record.channelUserId = user := by
      have hfound := List.find?_some hactive
      rw [Bool.and_eq_true, decide_eq_true_iff] at hfound
      exact hfound.1
    split
    · split
      · exact .nil db
      · exact along_unverified
          (List.forall_mem_cons.2 ⟨rfl, unverified_handleCompletedOrNew _⟩) h
    next hlive =>
      refine along_handleMessage h hrecord fun phone hmatch hawaited => hphone phone ?_
      have hcontact : contactAwaited ans mem record = true := by
        unfold contactAwaited
        rcases hawaited with hstate | ⟨hstate, hgate⟩
        · simp [hlive, hstate]
        · simp [hlive, hstate, hgate]
      unfold namedPhone
      rw [hactive, hmatch]
      simp [hcontact]

end

/-! ### The run -/

section

variable {ext : Externals} {received : List TelegramUpdate} {db : Database}

theorem Sound.mono {received' : List TelegramUpdate} (h : Sound ext received db)
    (hsub : ∀ u ∈ received, u ∈ received') : Sound ext received' db := by
  refine ⟨h.nodup, fun r hr hverified => ?_⟩
  obtain ⟨phone, ⟨u, hu, hshared⟩, hhash⟩ := h.verified r hr hverified
  exact ⟨phone, ⟨u, hsub u hu, hshared⟩, hhash⟩

theorem sound_of_along {ws : List Write} (hws : Along (Sound ext received) db ws)
    (h : Sound ext received db) (ans : Answers) : Sound ext received (execute db (ans.cut ws)) := by
  unfold Answers.cut
  split
  · exact hws.execute h
  · exact (hws.take _).execute h

theorem processUpdate_message {contacts contacts' : String → Option StoredContact}
    {update : TelegramUpdate} {user message : String}
    (h : processUpdate contacts update = (contacts', some (user, message))) :
    (∃ phone, SharedOwn [update] user phone ∧ message = contactText user phone) ∨
      message = contactMismatch ∨ typedText update = some (user, message) := by
  unfold processUpdate at h
  split at h
  · cases h
  next msg hmsg =>
    split at h
    · cases h
    next id hid =>
      split at h
      next contact hcontact =>
        dsimp only at h
        split at h
        next hown =>
          obtain ⟨rfl, rfl⟩ := Prod.mk.inj (Option.some.inj (Prod.mk.inj h).2)
          have hshared : msg.contact = some ⟨contact.phoneNumber, some id⟩ := by rw [hcontact, ← hown]
          exact .inl ⟨contact.phoneNumber,
            ⟨update, List.mem_singleton_self _, msg, id, hmsg, hid, rfl, hshared⟩, rfl⟩
        · exact .inr (.inl (Prod.mk.inj (Option.some.inj (Prod.mk.inj h).2)).2.symm)
      next hcontact =>
        split at h
        · cases h
        next text htext =>
          split at h
          · cases h
          · refine .inr (.inr ?_)
            rw [typedText, hmsg, Option.bind_some, hid, Option.bind_some, hcontact]
            dsimp only
            rw [htext, ← (Prod.mk.inj h).2]
            rfl

theorem namedPhone_some {ans : Answers} {mem : Memory} {user message phone : String}
    (h : namedPhone ans mem db user message = some phone) :
    contactMatch message = some (user, phone) := by
  unfold namedPhone at h
  split at h
  next hmatch =>
    split at h
    next hcond => rw [hmatch, hcond.1, Option.some.inj h]
    · cases h
  · cases h

/-- **One event keeps the law**, unless somebody types the contact that is awaited of them. -/
theorem Sound.step {w : World} {e : Event} (h : Sound ext w.received w.db)
    (hguard : NoTypedContact ext w e) : Sound ext (w.step ext e).received (w.step ext e).db := by
  cases e with
  | update update ans =>
    have hmore : Sound ext (w.received ++ [update]) w.db := h.mono fun u hu => List.mem_append_left _ hu
    unfold World.step
    dsimp only
    split
    · exact hmore
    next contacts user message hprocess =>
      refine sound_of_along (along_handleInboundMessage hmore fun phone hphone => ?_) hmore ans
      have hmatch := namedPhone_some hphone
      obtain ⟨shared, ⟨u, hu, hshared⟩, rfl⟩ | rfl | htyped := processUpdate_message hprocess
      · rw [contactMatch_contactText hmatch]
        exact ⟨shared, ⟨u, List.mem_append_right _ hu, hshared⟩, rfl⟩
      · rw [contactMatch_mismatch] at hmatch
        cases hmatch
      · obtain ⟨shared, ⟨u, hu, hshared⟩, hhash⟩ := hguard user message phone htyped hphone
        exact ⟨shared, ⟨u, List.mem_append_left _ hu, hshared⟩, hhash⟩
  | expirySweep ans =>
    refine sound_of_along (along_unverified (fun write hwrite => ?_) h) h ans
    obtain ⟨r, _, rfl⟩ := List.mem_map.1 hwrite
    rfl
  | resendContactPrompt id n =>
    have hrefused : ∀ write ∈ [Write.recordContactPrompt id n], write.unverified = true := by
      simp [Write.unverified]
    exact (along_unverified hrefused h).execute h
  | pendingSweep keep => exact h
  | restart => exact h

end

/-- **A phone number is verified only by a contact.**  Wherever nobody types the contact that is awaited of
them, every registration from `PHONE_CONFIRMED` on has the hash of a number that its user shared as their
own contact, whatever else is typed, shared, swept or restarted. -/
theorem phoneVerified_of_contacts (ext : Externals) (events : List Event)
    (hguard : Guarded (World.step ext) (NoTypedContact ext) {} events) (m : ℕ) :
    PhonesVerified ext ((events.take m).foldl (World.step ext) {}).received
      ((events.take m).foldl (World.step ext) {}).db := by
  have hstart : Sound ext [] {} := ⟨List.nodup_nil, fun r hr => absurd hr List.not_mem_nil⟩
  exact (Guarded.invariant (P := fun w : World => Sound ext w.received w.db)
    (fun w e h hguard => h.step hguard) hstart hguard m).verified

/-! ### A number that was shared, and one that was typed -/

/-- The digests of the numbers, addresses and salted codes of the runs below. -/
def digests : HexSha256 :=
  .ofTable
    [("+15550100", 0x602cd7fbbe41688e2d90224bcac362db2f1ff2e2ba7487d8585c9ce226cb6d00#256),
      ("a@b.co", 0x80305c9bb1bb2480e03894350e0a8a366dcbdeb302e69e0817aa0743abd77054#256),
      ("x@y.zz", 0x4bcc30a8074913b15d192660ab11a96cae5f3ade407780a67776f59348d4a1fd#256),
      ("123456salt", 0xe4d2f949a401c04e9cd0bd410e31d6f81b413974151fc458c18d2d186c379219#256)]
    0xe3b0c44298fc1c149afbf4c8996fb92427ae41e4649b934ca495991b7852b855#256

def plainExternals : Externals where
  sha256 := digests.hex
  toLowerCase s := s

/-- No gate, and nothing fails. -/
def plainAnswers : Answers where
  now := 0
  gate := none
  id := "registration"
  otp := "123456"
  otpSalt := "salt"
  otpDelivered := true
  preAuthIssued := true
  writesMade := none

def typedUpdate (id : ℤ) (text : String) : TelegramUpdate := ⟨some ⟨some id, some text, none⟩⟩

def sharedUpdate (id : ℤ) (phone : String) : TelegramUpdate :=
  ⟨some ⟨some id, none, some ⟨phone, some id⟩⟩⟩

def runOf (updates : List TelegramUpdate) : World :=
  (updates.map (.update · plainAnswers)).foldl (World.step plainExternals) {}

/-- A user says hello and shares their contact. -/
theorem phoneVerified_shared :
    (runOf [typedUpdate 42 "hi", sharedUpdate 42 "+15550100"]).db.rows.map RegistrationRow.state =
      [.awaitingEmail] ∧
    PhonesVerified plainExternals
      (runOf [typedUpdate 42 "hi", sharedUpdate 42 "+15550100"]).received
      (runOf [typedUpdate 42 "hi", sharedUpdate 42 "+15550100"]).db := by
  refine ⟨by decide, phoneVerified_of_contacts plainExternals
    [.update (typedUpdate 42 "hi") plainAnswers, .update (sharedUpdate 42 "+15550100") plainAnswers]
    ⟨fun user text phone htyped hphone => ?_, fun user text phone htyped _ => ?_, trivial⟩ 2⟩
  · cases hphone
  · cases htyped

/-- **A typed contact is taken for a shared one.**  The user says hello and types the text of a contact;
their registration goes on as if the number were theirs, and they shared no contact at all. -/
theorem phoneVerified_typed : ¬ PhonesVerified plainExternals
    (runOf [typedUpdate 42 "hi", typedUpdate 42 "CONTACT:42:+15550100"]).received
    (runOf [typedUpdate 42 "hi", typedUpdate 42 "CONTACT:42:+15550100"]).db := by
  intro h
  have hrow : ∃ r ∈ (runOf [typedUpdate 42 "hi", typedUpdate 42 "CONTACT:42:+15550100"]).db.rows,
      r.state.phoneVerified = true := by decide
  obtain ⟨r, hr, hverified⟩ := hrow
  obtain ⟨phone, ⟨update, hupdate, msg, id, hmsg, -, -, hcontact⟩, -⟩ := h r hr hverified
  have hreceived : (runOf [typedUpdate 42 "hi", typedUpdate 42 "CONTACT:42:+15550100"]).received =
      [typedUpdate 42 "hi", typedUpdate 42 "CONTACT:42:+15550100"] := by decide
  have hnone : ∀ u ∈ [typedUpdate 42 "hi", typedUpdate 42 "CONTACT:42:+15550100"],
      u.message.bind TelegramMessage.contact = none := by decide
  have hthis := hnone update (hreceived ▸ hupdate)
  rw [hmsg, Option.bind_some, hcontact] at hthis
  cases hthis

end Cello.OperationsAgent.Registration
