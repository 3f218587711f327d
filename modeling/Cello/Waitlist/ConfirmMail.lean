import Cello.Lib.GuardedRun
import Mathlib.Data.List.Count
import Mathlib.Algebra.Order.Ring.Int

/-!
# The confirm mail

`infra/lambda/_resend.py`, `waitlist-signup/handler.py` and `waitlist-email/handler.py`.  A confirm mail is queued by a
signup and by `resend_link`, which looks first whether one is coming; the dispatcher claims it, mints its token,
burning those before it, and sends it.  One confirm mail of a user at a time is to be coming.  It is, as long as no
dispatcher puts a job back that `resend_link` has given up (`one_confirm_mail`).  `finish` does put such a job back: it
writes the row whatever has become of it, and a job that is skipped on its last attempt starts again at none
(`confirm_mail_twice`).

A transaction takes effect at its commit, and the locks on the rows that it has written keep them as it found them
until then; so it is one step.  `resend_link` decides by rows that it does not lock, and its decision and its commit
are two.
-/

namespace Cello.Waitlist.ConfirmMail

open Lib

/-! ### Tables -/

structure User where
  emailVerified : Bool
  emailStatus : String
  contentAlerts : Bool

inductive JobStatus where
  | pending
  | sending
  | sent
  | skipped
  | failed
deriving DecidableEq

/-- A JSON value, as `json` reads it. -/
inductive Payload where
  | null
  | bool (b : Bool)
  | number (q : Rat)
  | text (s : String)
  | list (items : List Payload)
  | object (items : List (String × Payload))

/-- A row of `email_jobs`; its id is its place. -/
structure Row where
  userId : ℕ
  template : String
  status : JobStatus
  attempts : ℕ
  scheduledAt : ℤ
  sentAt : Option ℤ
  payload : Payload

/-- A token of kind `email_verify`. -/
structure Token where
  userId : ℕ
  used : Bool

structure Db where
  users : ℕ → Option User
  jobs : List Row
  tokens : List Token

/-- `MAX_ATTEMPTS` and `RECLAIM_AFTER_MINUTES`, which both lambdas read. -/
structure Limits where
  maxAttempts : ℕ
  reclaimAfter : ℕ

def newRow (userId : ℕ) (template : String) (scheduledAt : ℤ) : Row :=
  ⟨userId, template, .pending, 0, scheduledAt, none, .null⟩

variable (limits : Limits)

/-- What `resend_link` takes for a mail that is coming. -/
def Row.claimable (r : Row) : Bool :=
  (decide (r.status = .pending) || decide (r.status = .sending)) && decide (r.attempts < limits.maxAttempts)

def Row.confirms (userId : ℕ) (r : Row) : Bool :=
  decide (r.userId = userId) && decide (r.template = "e1_confirm") && r.claimable limits

/-! ### Queueing -/

/-- The template that `resend_link` queues, with the user's row locked; `allowed` is the limit on link requests. -/
def resendLink (db : Db) (userId : ℕ) (allowed : Bool) : Option String := do
  let user ← db.users userId
  let template := if user.emailVerified then "e_magic_link" else "e1_confirm"
  if user.emailStatus ≠ "active" then none
  else if db.jobs.any fun r => decide (r.userId = userId) && decide (r.template = template) && r.claimable limits then
    none
  else if allowed then some template else none

/-- The rows of a new user. -/
def signup (db : Db) (userId : ℕ) (now day : ℤ) : Db :=
  match db.users userId with
  | some _ => db
  | none =>
    { db with
      users := fun id => if id = userId then some ⟨false, "active", false⟩ else db.users id
      jobs := db.jobs ++ [newRow userId "e1_confirm" now, newRow userId "e2_survey" (now + day),
        newRow userId "e3_update" (now + 14 * day)] }

/-! ### Dispatching -/

/-- A job that a dispatcher has claimed. -/
structure Job where
  id : ℕ
  userId : ℕ
  template : String
  attempts : ℕ
  user : User
  authToken : Option ℕ
  payload : Payload

/-- Whether `claim_jobs` may take a row. -/
def Row.due (now : ℤ) (r : Row) : Bool :=
  (decide (r.status = .pending) ||
      decide (r.status = .sending) && r.sentAt.any fun sentAt => decide (sentAt < now - limits.reclaimAfter)) &&
    decide (r.scheduledAt ≤ now) && decide (r.attempts < limits.maxAttempts)

def Row.claimed (now : ℤ) (r : Row) : Row :=
  { r with status := .sending, attempts := r.attempts + 1, sentAt := some now }

/-- `mint_verify_token`. -/
def mintVerifyToken (userId : ℕ) (tokens : List Token) : List Token :=
  (tokens.map fun t => if t.userId = userId then { t with used := true } else t) ++ [⟨userId, false⟩]

/-- One row of a claim. -/
def claimJob (now : ℤ) (claim : Db × List Job) (id : ℕ) : Db × List Job :=
  match claim.1.jobs[id]? with
  | none => claim
  | some r =>
    match claim.1.users r.userId with
    | none => claim
    | some user =>
      if r.due limits now then
        let db := { claim.1 with jobs := claim.1.jobs.set id (r.claimed now) }
        if r.template = "e1_confirm" then
          ({ db with tokens := mintVerifyToken r.userId db.tokens },
            claim.2 ++ [⟨id, r.userId, r.template, r.attempts + 1, user, some db.tokens.length, r.payload⟩])
        else (db, claim.2 ++ [⟨id, r.userId, r.template, r.attempts + 1, user, none, r.payload⟩])
      else claim

/-- `claim_jobs`, of the rows that are not locked and within the batch size, in the order of the claim. -/
def claimJobs (now : ℤ) (db : Db) (ids : List ℕ) : Db × List Job := ids.foldl (claimJob limits now) (db, [])

/-- Whether to send; where not, whether that is for ever. -/
def shouldSend (job : Job) : Bool × Bool :=
  if job.user.emailStatus ≠ "active" then (false, decide (job.user.emailStatus ≠ "unsubscribed"))
  else if job.template = "e_alert" ∧ job.user.contentAlerts = false then (false, false)
  else if job.template ≠ "e1_confirm" ∧ job.template ≠ "e_magic_link" ∧ job.user.emailVerified = false then
    (false, false)
  else (true, false)

/-- The status that a job finishes with, and whether its attempts start again; `delivered` is what SES does. -/
def outcome (job : Job) (delivered : Bool) : JobStatus × Bool :=
  match shouldSend job with
  | (false, terminal) => (if terminal then .skipped else .pending, !terminal)
  | (true, _) =>
    if delivered then (.sent, false)
    else (if limits.maxAttempts ≤ job.attempts then .failed else .pending, false)

def Row.finished (now : ℤ) (result : JobStatus × Bool) (r : Row) : Row :=
  { r with
    status := result.1
    sentAt := if result.1 = .sent then some now else r.sentAt
    attempts := if result.2 then 0 else r.attempts }

/-- `finish`: the row of an id, whatever its status. -/
def finish (jobs : List Row) (id : ℕ) (now : ℤ) (result : JobStatus × Bool) : List Row :=
  match jobs[id]? with
  | none => jobs
  | some r => jobs.set id (r.finished now result)

/-! ### Runs -/

structure World where
  db : Db
  /-- What the dispatchers have claimed and not finished. -/
  inFlight : List Job
  /-- What a transaction that has locked the row of a user is about to insert. -/
  queueing : ℕ → Option String

def World.empty : World := ⟨⟨fun _ => none, [], []⟩, [], fun _ => none⟩

inductive Event where
  | signup (userId : ℕ) (now day : ℤ)
  /-- `resend_link`, for `handle_resend` and a signup again: locks and decides. -/
  | resend (userId : ℕ) (allowed : Bool)
  | commit (userId : ℕ) (now : ℤ)
  | rollback (userId : ℕ)
  /-- `verify`, and whatever else writes the row of a user. -/
  | writeUser (userId : ℕ) (user : User)
  /-- Another mail. -/
  | enqueue (userId : ℕ) (template : String) (other : template ≠ "e1_confirm") (scheduledAt : ℤ)
  | claim (now : ℤ) (ids : List ℕ)
  | finish (n : ℕ) (delivered : Bool) (now : ℤ)
  /-- A dispatcher ends before it finishes a job. -/
  | crash (n : ℕ)

def World.step (s : World) : Event → World
  | .signup userId now day => { s with db := signup s.db userId now day }
  | .resend userId allowed =>
    match s.queueing userId with
    | some _ => s
    | none =>
      { s with queueing := fun id => if id = userId then resendLink limits s.db userId allowed else s.queueing id }
  | .commit userId now =>
    match s.queueing userId with
    | none => s
    | some template =>
      { s with
        db := { s.db with jobs := s.db.jobs ++ [newRow userId template now] }
        queueing := fun id => if id = userId then none else s.queueing id }
  | .rollback userId => { s with queueing := fun id => if id = userId then none else s.queueing id }
  | .writeUser userId user =>
    -- waits for the lock
    if (s.queueing userId).isSome then s
    else { s with db := { s.db with users := fun id => if id = userId then (s.db.users id).map fun _ => user
                                                          else s.db.users id } }
  | .enqueue userId template _ scheduledAt =>
    if (s.db.users userId).isNone then s
    else { s with db := { s.db with jobs := s.db.jobs ++ [newRow userId template scheduledAt] } }
  | .claim now ids =>
    { s with db := (claimJobs limits now s.db ids).1, inFlight := s.inFlight ++ (claimJobs limits now s.db ids).2 }
  | .finish n delivered now =>
    match s.inFlight[n]? with
    | none => s
    | some job =>
      { s with
        db := { s.db with jobs := finish s.db.jobs job.id now (outcome limits job delivered) }
        inFlight := s.inFlight.eraseIdx n }
  | .crash n => { s with inFlight := s.inFlight.eraseIdx n }

/-! ### The law -/

def aboutToCome (queueing : Option String) : ℕ := if queueing = some "e1_confirm" then 1 else 0

def coming (s : World) (userId : ℕ) : ℕ :=
  s.db.jobs.countP (Row.confirms limits userId) + aboutToCome (s.queueing userId)

/-- The confirm mails of a user in a batch. -/
def confirmsIn (userId : ℕ) (batch : List Job) : ℕ :=
  batch.countP fun job => decide (job.userId = userId) && decide (job.template = "e1_confirm")

/-- A finish makes no confirm mail claimable that was not, where another of its user is coming. -/
def PutsBackHeld (s : World) : Event → Prop
  | .finish n delivered now => ∀ job, s.inFlight[n]? = some job → ∀ r, s.db.jobs[job.id]? = some r →
      (r.finished now (outcome limits job delivered)).confirms limits r.userId = true →
        r.confirms limits r.userId = true ∨ coming limits s r.userId = 0
  | _ => True

/-- At most one confirm mail of a user is coming; what is queued, and what is locked, is of a user. -/
structure OneComing (s : World) : Prop where
  one : ∀ userId, coming limits s userId ≤ 1
  owned : ∀ userId ∈ s.db.jobs.map Row.userId, s.db.users userId ≠ none
  locked : ∀ userId, s.queueing userId ≠ none → s.db.users userId ≠ none

variable {limits : Limits}

/-! ### Counting rows -/

theorem countP_set_add {α : Type*} (p : α → Bool) {l : List α} {i : ℕ} {x : α} (h : l[i]? = some x) (y : α) :
    (l.set i y).countP p + (if p x then 1 else 0) = l.countP p + if p y then 1 else 0 := by
  obtain ⟨hi, rfl⟩ := List.getElem?_eq_some_iff.1 h
  have hle : (if p l[i] then 1 else 0) ≤ l.countP p := by
    split
    · exact List.countP_pos_iff.2 ⟨l[i], List.getElem_mem hi, ‹_›⟩
    · exact Nat.zero_le _
  rw [List.countP_set hi]
  omega

theorem countP_set_le {α : Type*} {p : α → Bool} {l l' : List α} {x y : α}
    (h : l'.countP p + (if p x then 1 else 0) = l.countP p + if p y then 1 else 0) (hle : p y = true → p x = true) :
    l'.countP p ≤ l.countP p := by
  by_cases hy : p y = true
  · rw [if_pos hy, if_pos (hle hy)] at h
    omega
  · rw [if_neg hy] at h
    omega

theorem map_userId_set {jobs : List Row} {id : ℕ} {r : Row} (hr : jobs[id]? = some r) {r' : Row}
    (huser : r'.userId = r.userId) : (jobs.set id r').map Row.userId = jobs.map Row.userId := by
  obtain ⟨hid, rfl⟩ := List.getElem?_eq_some_iff.1 hr
  rw [List.map_set, huser, ← List.getElem_map Row.userId (h := by rwa [List.length_map]), List.set_getElem_self]

theorem claimable_iff {r : Row} : r.claimable limits = true ↔
    (r.status = .pending ∨ r.status = .sending) ∧ r.attempts < limits.maxAttempts := by
  simp [Row.claimable]

theorem confirms_iff {userId : ℕ} {r : Row} : r.confirms limits userId = true ↔
    r.userId = userId ∧ r.template = "e1_confirm" ∧ r.claimable limits = true := by
  simp [Row.confirms, and_assoc]

theorem confirms_newRow (userId id : ℕ) (template : String) (scheduledAt : ℤ) :
    (newRow id template scheduledAt).confirms limits userId = true ↔
      id = userId ∧ template = "e1_confirm" ∧ 0 < limits.maxAttempts := by
  rw [confirms_iff, claimable_iff]
  exact ⟨fun h => ⟨h.1, h.2.1, h.2.2.2⟩, fun h => ⟨h.1, h.2.1, .inl rfl, h.2.2⟩⟩

theorem countP_append_newRow (limits : Limits) (jobs : List Row) (userId id : ℕ) (template : String) (scheduledAt : ℤ) :
    (jobs ++ [newRow id template scheduledAt]).countP (Row.confirms limits userId) ≤
      jobs.countP (Row.confirms limits userId) + if id = userId ∧ template = "e1_confirm" then 1 else 0 := by
  rw [List.countP_append, List.countP_singleton]
  by_cases h : (newRow id template scheduledAt).confirms limits userId = true
  · have hnew := (confirms_newRow _ _ _ _).1 h
    rw [if_pos h, if_pos ⟨hnew.1, hnew.2.1⟩]
  · rw [if_neg h]
    omega

/-! ### A claim -/

theorem Row.claimable_of_due {r : Row} {now : ℤ} (h : r.due limits now = true) : r.claimable limits = true := by
  simp only [Row.due, Row.claimable, Bool.and_eq_true, Bool.or_eq_true] at h ⊢
  exact ⟨h.1.1.imp_right And.left, h.2⟩

theorem Row.not_due_claimed (r : Row) (now : ℤ) : (r.claimed now).due limits now = false := by
  simp [Row.due, Row.claimed]

theorem confirms_iff_of_due {r : Row} {now : ℤ} (h : r.due limits now = true) (userId : ℕ) :
    r.confirms limits userId = true ↔ r.userId = userId ∧ r.template = "e1_confirm" := by
  rw [confirms_iff, and_iff_left (Row.claimable_of_due h)]

theorem getElem?_mint_of_ne {userId : ℕ} {tokens : List Token} {t : ℕ} {token : Token} (h : tokens[t]? = some token)
    (hne : token.userId ≠ userId) : (mintVerifyToken userId tokens)[t]? = some token := by
  have ht := (List.getElem?_eq_some_iff.1 h).1
  rw [mintVerifyToken, List.getElem?_append_left (by rwa [List.length_map]), List.getElem?_map, h, Option.map_some,
    if_neg hne]

theorem getElem?_mint_length (userId : ℕ) (tokens : List Token) :
    (mintVerifyToken userId tokens)[tokens.length]? = some ⟨userId, false⟩ := by
  rw [mintVerifyToken, List.getElem?_append_right (by rw [List.length_map]), List.length_map, Nat.sub_self]
  rfl

/-- What a claim has done after some of its rows. -/
structure Claimed (limits : Limits) (now : ℤ) (db : Db) (claim : Db × List Job) : Prop where
  users : claim.1.users = db.users
  owners : claim.1.jobs.map Row.userId = db.jobs.map Row.userId
  rows : ∀ userId, claim.1.jobs.countP (Row.confirms limits userId) ≤ db.jobs.countP (Row.confirms limits userId)
  /-- A confirm mail of the batch is no longer due. -/
  batch : ∀ userId, confirmsIn userId claim.2 +
    claim.1.jobs.countP (fun r => r.due limits now && r.confirms limits userId) ≤
      db.jobs.countP (Row.confirms limits userId)
  tokens : ∀ job ∈ claim.2, ∀ t, job.authToken = some t → job.template = "e1_confirm" ∧
    (confirmsIn job.userId claim.2 ≤ 1 → claim.1.tokens[t]? = some ⟨job.userId, false⟩)

theorem confirmsIn_append (userId : ℕ) (batch : List Job) (job : Job) :
    confirmsIn userId (batch ++ [job]) =
      confirmsIn userId batch + if job.userId = userId ∧ job.template = "e1_confirm" then 1 else 0 := by
  rw [confirmsIn, List.countP_append, List.countP_singleton]
  simp [confirmsIn]

theorem confirmsIn_pos {batch : List Job} {job : Job} (h : job ∈ batch) (hconfirm : job.template = "e1_confirm") :
    1 ≤ confirmsIn job.userId batch :=
  List.countP_pos_iff.2 ⟨job, h, by simp [hconfirm]⟩

theorem Claimed.row {now : ℤ} {db : Db} {claim : Db × List Job} (h : Claimed limits now db claim) {id : ℕ} {r : Row}
    (hr : claim.1.jobs[id]? = some r) (hdue : r.due limits now = true) {job : Job} (huser : job.userId = r.userId)
    (htemplate : job.template = r.template) {tokens : List Token}
    (htokens : (r.template = "e1_confirm" ∧ tokens = mintVerifyToken r.userId claim.1.tokens ∧
        job.authToken = some claim.1.tokens.length) ∨
      (r.template ≠ "e1_confirm" ∧ tokens = claim.1.tokens ∧ job.authToken = none)) :
    Claimed limits now db ({ claim.1 with jobs := claim.1.jobs.set id (r.claimed now), tokens := tokens },
      claim.2 ++ [job]) where
  users := h.users
  owners := by
    rw [← h.owners]
    exact map_userId_set hr rfl
  rows := fun userId => by
    refine le_trans ?_ (h.rows userId)
    have hset := countP_set_add (Row.confirms limits userId) hr (r.claimed now)
    have hle : (r.claimed now).confirms limits userId = true → r.confirms limits userId = true := fun hclaimed =>
      (confirms_iff_of_due hdue userId).2 ⟨(confirms_iff.1 hclaimed).1, (confirms_iff.1 hclaimed).2.1⟩
    exact countP_set_le hset hle
  batch := fun userId => by
    have hset := countP_set_add (fun r => r.due limits now && r.confirms limits userId) hr (r.claimed now)
    have hbatch := h.batch userId
    rw [confirmsIn_append, huser, htemplate]
    simp only [Row.not_due_claimed, hdue, Bool.false_and, Bool.true_and, confirms_iff_of_due hdue,
      Bool.false_eq_true, if_false] at hset
    dsimp only
    omega
  tokens := fun j hj t ht => by
    rcases List.mem_append.1 hj with hj | hj
    · obtain ⟨hconfirm, hunused⟩ := h.tokens j hj t ht
      refine ⟨hconfirm, fun hone => ?_⟩
      rw [confirmsIn_append, huser, htemplate] at hone
      have hpos := confirmsIn_pos hj hconfirm
      rcases htokens with ⟨hr, rfl, -⟩ | ⟨-, rfl, -⟩
      · have hne : j.userId ≠ r.userId := fun heq => by
          rw [if_pos ⟨heq.symm, hr⟩] at hone
          omega
        exact getElem?_mint_of_ne (hunused (by omega)) hne
      · exact hunused (by omega)
    · obtain rfl := List.mem_singleton.1 hj
      rcases htokens with ⟨hr, rfl, htoken⟩ | ⟨-, -, htoken⟩
      · obtain rfl := Option.some.inj (htoken.symm.trans ht)
        refine ⟨htemplate.trans hr, fun _ => ?_⟩
        rw [huser]
        exact getElem?_mint_length _ _
      · cases htoken.symm.trans ht

theorem Claimed.claimJob {now : ℤ} {db : Db} {claim : Db × List Job} (h : Claimed limits now db claim) (id : ℕ) :
    Claimed limits now db (claimJob limits now claim id) := by
  rw [ConfirmMail.claimJob]
  split
  · exact h
  · rename_i r hr
    split
    · exact h
    · split
      · rename_i hdue
        by_cases hconfirm : r.template = "e1_confirm"
        · rw [if_pos hconfirm]
          exact h.row hr hdue rfl rfl (.inl ⟨hconfirm, rfl, rfl⟩)
        · rw [if_neg hconfirm]
          exact h.row hr hdue rfl rfl (.inr ⟨hconfirm, rfl, rfl⟩)
      · exact h

theorem claimed_claimJobs (limits : Limits) (now : ℤ) (db : Db) (ids : List ℕ) :
    Claimed limits now db (claimJobs limits now db ids) := by
  rw [claimJobs]
  suffices h : ∀ claim, Claimed limits now db claim → Claimed limits now db (ids.foldl (claimJob limits now) claim) by
    refine h _ ⟨rfl, rfl, fun _ => le_rfl, fun userId => ?_, by rintro _ ⟨⟩⟩
    rw [confirmsIn, List.countP_nil, Nat.zero_add]
    exact List.countP_mono_left fun r _ hr => (Bool.and_eq_true_iff.1 hr).2
  induction ids with
  | nil => exact fun _ h => h
  | cons id ids ih => exact fun claim h => ih _ (h.claimJob id)

/-! ### Steps -/

theorem resendLink_some {db : Db} {userId : ℕ} {allowed : Bool} {template : String}
    (h : resendLink limits db userId allowed = some template) :
    db.users userId ≠ none ∧
      (template = "e1_confirm" → db.jobs.countP (Row.confirms limits userId) = 0) := by
  obtain ⟨user, huser, h⟩ := Option.bind_eq_some_iff.1 h
  refine ⟨fun hnone => (by cases hnone.symm.trans huser), fun hconfirm => List.countP_eq_zero.2 fun r hr hr' => ?_⟩
  subst hconfirm
  dsimp only at h
  generalize (if user.emailVerified = true then "e_magic_link" else "e1_confirm") = template at h
  split at h
  · cases h
  · split at h
    · cases h
    · rename_i hnone
      split at h
      · cases h
        rw [List.any_eq_true] at hnone
        exact hnone ⟨r, hr, hr'⟩
      · cases h

theorem OneComing.none_coming {s : World} (h : OneComing limits s) {userId : ℕ} (hnone : s.db.users userId = none) :
    coming limits s userId = 0 := by
  have hrows : s.db.jobs.countP (Row.confirms limits userId) = 0 := List.countP_eq_zero.2 fun r hr hr' =>
    h.owned userId (List.mem_map.2 ⟨r, hr, (confirms_iff.1 hr').1⟩) hnone
  have hqueueing : s.queueing userId = none := by
    by_contra hlocked
    exact h.locked userId hlocked hnone
  rw [coming, hrows, hqueueing]
  rfl

theorem OneComing.of_le {s s' : World} (h : OneComing limits s)
    (hle : ∀ userId, coming limits s' userId ≤ coming limits s userId)
    (husers : ∀ userId, s.db.users userId ≠ none → s'.db.users userId ≠ none)
    (howned : ∀ userId ∈ s'.db.jobs.map Row.userId, userId ∈ s.db.jobs.map Row.userId ∨ s.db.users userId ≠ none)
    (hlocked : ∀ userId, s'.queueing userId ≠ none → s.queueing userId ≠ none) : OneComing limits s' where
  one userId := (hle userId).trans (h.one userId)
  owned userId hmem := husers userId ((howned userId hmem).elim (h.owned userId) id)
  locked userId hqueueing := husers userId (h.locked userId (hlocked userId hqueueing))

theorem mem_append_newRow {jobs : List Row} {userId id : ℕ} {template : String} {scheduledAt : ℤ}
    (h : id ∈ (jobs ++ [newRow userId template scheduledAt]).map Row.userId) :
    id ∈ jobs.map Row.userId ∨ id = userId := by
  rw [List.map_append, List.mem_append] at h
  exact h.imp_right List.mem_singleton.1

theorem OneComing.signup {s : World} (h : OneComing limits s) (userId : ℕ) (now day : ℤ) :
    OneComing limits (s.step limits (.signup userId now day)) := by
  rw [World.step, ConfirmMail.signup]
  cases huser : s.db.users userId with
  | some user => exact h
  | none =>
    dsimp only
    have hzero := h.none_coming huser
    refine ⟨fun id => ?_, fun id hmem => ?_, fun id hqueueing => ?_⟩
    · have h1 := countP_append_newRow limits s.db.jobs id userId "e1_confirm" now
      have h2 := countP_append_newRow limits (s.db.jobs ++ [newRow userId "e1_confirm" now]) id userId
        "e2_survey" (now + day)
      have h3 := countP_append_newRow limits (s.db.jobs ++ [newRow userId "e1_confirm" now] ++
        [newRow userId "e2_survey" (now + day)]) id userId "e3_update" (now + 14 * day)
      rw [if_neg (by simp)] at h2 h3
      rw [List.append_assoc, List.append_assoc] at h3
      have hone := h.one id
      rw [coming] at hone hzero ⊢
      dsimp only
      by_cases hid : userId = id
      · subst hid
        rw [if_pos ⟨rfl, rfl⟩] at h1
        exact (Nat.add_le_add_right (h3.trans h2) _).trans (by omega)
      · rw [if_neg fun h => hid h.1] at h1
        exact (Nat.add_le_add_right ((h3.trans h2).trans h1) _).trans hone
    · simp only [List.map_append, List.map_cons, List.map_nil, newRow, List.mem_append, List.mem_cons,
        List.not_mem_nil, or_false, or_self] at hmem
      dsimp only
      split
      · rintro ⟨⟩
      · rename_i hid
        exact h.owned id (hmem.resolve_right hid)
    · dsimp only
      split
      · rintro ⟨⟩
      · exact h.locked id hqueueing

theorem OneComing.resend {s : World} (h : OneComing limits s) (userId : ℕ) (allowed : Bool) :
    OneComing limits (s.step limits (.resend userId allowed)) := by
  rw [World.step]
  cases hqueueing : s.queueing userId with
  | some template => exact h
  | none =>
    refine ⟨fun id => ?_, h.owned, fun id hlocked => ?_⟩
    · rw [coming]
      dsimp only
      by_cases hid : id = userId
      · rw [if_pos hid, aboutToCome]
        split
        · rename_i hconfirm
          rw [hid, (resendLink_some hconfirm).2 rfl]
        · exact (Nat.le_add_right _ _).trans (h.one id)
      · rw [if_neg hid]
        exact h.one id
    · dsimp only at hlocked
      by_cases hid : id = userId
      · rw [if_pos hid] at hlocked
        obtain ⟨template, htemplate⟩ := Option.ne_none_iff_exists'.1 hlocked
        exact hid ▸ (resendLink_some htemplate).1
      · rw [if_neg hid] at hlocked
        exact h.locked id hlocked

theorem OneComing.commit {s : World} (h : OneComing limits s) (userId : ℕ) (now : ℤ) :
    OneComing limits (s.step limits (.commit userId now)) := by
  rw [World.step]
  cases hqueueing : s.queueing userId with
  | none => exact h
  | some template =>
    have huser : s.db.users userId ≠ none := h.locked userId fun hnone => (by cases hnone.symm.trans hqueueing)
    refine h.of_le (fun id => ?_) (fun _ hid => hid)
      (fun id hmem => (mem_append_newRow hmem).imp_right fun hid : id = userId => hid ▸ huser) fun id hlocked => ?_
    · have hrow := countP_append_newRow limits s.db.jobs id userId template now
      rw [coming, coming]
      dsimp only
      by_cases hid : id = userId
      · -- what was about to be queued is queued
        subst hid
        rw [if_pos rfl, hqueueing, aboutToCome, aboutToCome, if_neg (by rintro ⟨⟩)]
        by_cases hconfirm : template = "e1_confirm"
        · rw [if_pos ⟨rfl, hconfirm⟩] at hrow
          rw [if_pos (congrArg some hconfirm)]
          exact hrow
        · rw [if_neg fun h => hconfirm h.2] at hrow
          exact hrow.trans (Nat.le_add_right _ _)
      · rw [if_neg fun h => hid h.1.symm] at hrow
        rw [if_neg hid]
        exact Nat.add_le_add_right hrow _
    · dsimp only at hlocked
      split at hlocked
      · exact absurd rfl hlocked
      · exact hlocked

theorem OneComing.finish {s : World} (h : OneComing limits s) {n : ℕ} {delivered : Bool} {now : ℤ}
    (hguard : PutsBackHeld limits s (.finish n delivered now)) :
    OneComing limits (s.step limits (.finish n delivered now)) := by
  rw [World.step]
  cases hjob : s.inFlight[n]? with
  | none => exact h
  | some job =>
    dsimp only
    rw [ConfirmMail.finish]
    cases hr : s.db.jobs[job.id]? with
    | none => exact h.of_le (fun _ => le_rfl) (fun _ hid => hid) (fun _ hmem => .inl hmem) fun _ hlocked => hlocked
    | some r =>
      refine ⟨fun id => ?_, fun id hmem => h.owned id ?_, h.locked⟩
      · have hset := countP_set_add (Row.confirms limits id) hr (r.finished now (outcome limits job delivered))
        have hone := h.one id
        rw [coming] at hone ⊢
        dsimp only
        by_cases hback : (r.finished now (outcome limits job delivered)).confirms limits id = true
        · -- the job is put back: it was claimable, or no other is coming
          obtain rfl : r.userId = id := (confirms_iff.1 hback).1
          rw [if_pos hback] at hset
          rcases hguard job hjob r hr hback with hclaimable | hzero
          · rw [if_pos hclaimable] at hset
            omega
          · rw [coming] at hzero
            omega
        · rw [if_neg hback] at hset
          omega
      · have howners : (s.db.jobs.set job.id (r.finished now (outcome limits job delivered))).map Row.userId =
            s.db.jobs.map Row.userId := map_userId_set hr rfl
        exact howners ▸ hmem

theorem OneComing.step {s : World} (h : OneComing limits s) (e : Event) (hguard : PutsBackHeld limits s e) :
    OneComing limits (s.step limits e) := by
  cases e with
  | signup userId now day => exact h.signup userId now day
  | resend userId allowed => exact h.resend userId allowed
  | commit userId now => exact h.commit userId now
  | rollback userId =>
    refine h.of_le (fun id => Nat.add_le_add_left ?_ _) (fun _ hid => hid) (fun _ hmem => .inl hmem)
      fun id hlocked => ?_
    · rw [World.step]
      dsimp only
      split
      · exact Nat.zero_le _
      · exact le_rfl
    · rw [World.step] at hlocked
      dsimp only at hlocked
      split at hlocked
      · exact absurd rfl hlocked
      · exact hlocked
  | writeUser userId user =>
    rw [World.step]
    split
    · exact h
    · refine h.of_le (fun _ => le_rfl) (fun id hid => ?_) (fun _ hmem => .inl hmem) fun _ hlocked => hlocked
      dsimp only
      split
      · exact mt Option.map_eq_none_iff.1 hid
      · exact hid
  | enqueue userId template other scheduledAt =>
    rw [World.step]
    split
    · exact h
    · rename_i huser
      refine h.of_le (fun id => ?_) (fun _ hid => hid)
        (fun id hmem => (mem_append_newRow hmem).imp_right fun hid hnone => ?_) fun _ hlocked => hlocked
      · have hrow := countP_append_newRow limits s.db.jobs id userId template scheduledAt
        rw [if_neg fun h => other h.2] at hrow
        exact Nat.add_le_add_right hrow _
      · rw [← hid, hnone] at huser
        exact huser rfl
  | claim now ids =>
    have hclaimed := claimed_claimJobs limits now s.db ids
    refine h.of_le (fun id => Nat.add_le_add_right (hclaimed.rows id) _) (fun id hid => ?_) (fun id hmem => .inl ?_)
      fun _ hlocked => hlocked
    · exact (congrFun hclaimed.users id).trans_ne hid
    · exact hclaimed.owners ▸ hmem
  | finish n delivered now => exact h.finish hguard
  | crash n => exact h.of_le (fun _ => le_rfl) (fun _ hid => hid) (fun _ hmem => .inl hmem) fun _ hlocked => hlocked

theorem oneComing_empty : OneComing limits .empty where
  one _ := Nat.zero_le _
  owned _ hmem := absurd hmem List.not_mem_nil
  locked _ hlocked := absurd rfl hlocked

/-- **While no dispatcher puts back a job that was given up, one confirm mail of a user at a time can be claimed**: at
every point of the run, and so a batch has one of a user at most, and its token is not used when the claim commits. -/
theorem one_confirm_mail (limits : Limits) (events : List Event)
    (h : Guarded (World.step limits) (PutsBackHeld limits) .empty events) (n : ℕ) :
    (∀ userId, ((events.take n).foldl (World.step limits) .empty).db.jobs.countP (Row.confirms limits userId) ≤ 1) ∧
      ∀ now ids claim, claim = claimJobs limits now ((events.take n).foldl (World.step limits) .empty).db ids →
        (∀ userId, confirmsIn userId claim.2 ≤ 1) ∧
        ∀ job ∈ claim.2, ∀ t, job.authToken = some t → claim.1.tokens[t]? = some ⟨job.userId, false⟩ := by
  have hone : OneComing limits ((events.take n).foldl (World.step limits) .empty) :=
    Guarded.invariant (fun _ e hs hguard => hs.step e hguard) oneComing_empty h n
  have hrows : ∀ userId, ((events.take n).foldl (World.step limits) .empty).db.jobs.countP
      (Row.confirms limits userId) ≤ 1 := fun userId => (Nat.le_add_right _ _).trans (hone.one userId)
  refine ⟨hrows, ?_⟩
  rintro now ids claim rfl
  have hclaimed := claimed_claimJobs limits now ((events.take n).foldl (World.step limits) .empty).db ids
  have hbatch : ∀ userId, confirmsIn userId _ ≤ 1 := fun userId =>
    ((Nat.le_add_right _ _).trans (hclaimed.batch userId)).trans (hrows userId)
  exact ⟨hbatch, fun job hjob t ht => (hclaimed.tokens job hjob t ht).2 (hbatch job.userId)⟩

/-! ### Two runs -/

namespace Run

def defaults : Limits := ⟨5, 15⟩

/-- SES fails once, so the mail is put back; the user asks for a link meanwhile and gets none, and the mail is sent. -/
def delivery : List Event :=
  [.signup 7 0 1440, .claim 0 [0], .resend 7 true, .finish 0 false 1, .resend 7 true, .commit 7 2, .claim 3 [0],
    .finish 0 true 4, .resend 7 true, .commit 7 5, .claim 6 [3]]

/-- SES fails four times; then the user unsubscribes, is claimed, subscribes again and asks for a link. -/
def lastAttempt : List Event :=
  [.signup 7 0 1440, .claim 0 [0], .finish 0 false 0, .claim 1 [0], .finish 0 false 1, .claim 2 [0], .finish 0 false 2,
    .claim 3 [0], .finish 0 false 3, .writeUser 7 ⟨false, "unsubscribed", false⟩, .claim 4 [0],
    .writeUser 7 ⟨false, "active", false⟩, .resend 7 true, .commit 7 5, .finish 0 true 6]

end Run

/-- Once the first mail has been put back and sent, the user gets another one. -/
theorem one_confirm_mail_delivered :
    ∃ s : World, s = Run.delivery.foldl (World.step Run.defaults) .empty ∧
      s.db.jobs.countP (Row.confirms Run.defaults 7) ≤ 1 ∧ s.inFlight.map Job.id = [3] := by
  have h : Guarded (World.step Run.defaults) (PutsBackHeld Run.defaults) .empty Run.delivery := by
    refine ⟨trivial, trivial, trivial, ?_, trivial, trivial, trivial, ?_, trivial, trivial, trivial, trivial⟩
    · intro job hjob r hr _
      cases hjob
      cases hr
      exact .inl (by decide)
    · intro job hjob r hr hback
      cases hjob
      cases hr
      exact absurd hback (by decide)
  exact ⟨_, rfl, (one_confirm_mail Run.defaults Run.delivery h 11).1 7, by decide⟩

/-- **Two confirm mails at a time**: the job that `resend_link` gave up on its last attempt is skipped and starts again,
beside the one that was queued for it.  A batch takes both, and the token of the first is used when it leaves. -/
theorem confirm_mail_twice :
    ∃ s : World, s = Run.lastAttempt.foldl (World.step Run.defaults) .empty ∧
      s.db.jobs.countP (Row.confirms Run.defaults 7) = 2 ∧
      ∃ claim, claim = claimJobs Run.defaults 7 s.db [0, 3] ∧ confirmsIn 7 claim.2 = 2 ∧
        claim.2.head?.bind Job.authToken = some 5 ∧ claim.1.tokens[5]? = some ⟨7, true⟩ :=
  ⟨_, rfl, by decide, _, rfl, by decide, rfl, rfl⟩

end Cello.Waitlist.ConfirmMail
