import Cello.Waitlist.ConfirmMail
import Mathlib.Algebra.BigOperators.Group.Finset.Basic
import Mathlib.Algebra.Group.Action.Defs
import Mathlib.Algebra.Order.BigOperators.Group.Finset

/-!
# The queue of mails

`infra/lambda/waitlist-email/handler.py`, invoked again and again by itself, with SES accepting every message.  A job is
to be sent whatever other jobs are in the queue.  It is, as long as the claim gets through every due job and fewer due
jobs than a batch takes are to be kept for later (`every_mail_sent`).  Jobs that are kept go back to the head of the
order and may fill every batch, and one job without its data, or with a payload that is no object, rolls back the batch
that it is in, every time (`expired_link_blocks`).
-/

namespace Cello.Waitlist.EmailQueue

open ConfirmMail

/-! ### One invocation -/

/-- What the dispatcher reads and nobody writes. -/
structure Surroundings where
  now : ℤ
  /-- An unused magic link, a live grant, premium codes. -/
  magicLink : ℕ → Bool
  liveGrant : ℕ → Bool
  premiumCodes : ℕ → Bool
  /-- Whether the text of a template comes out, for a user and with what an operator has put into the job. -/
  renders : ℕ → String → List (String × Payload) → Bool
  /-- Whether `schedule_next_nurture` finds the user waiting and active. -/
  waiting : ℕ → Bool
  /-- `NURTURE_INTERVAL_DAYS`. -/
  nurtureInterval : ℕ
  nurtureInterval_pos : 0 < nurtureInterval

variable (limits : Limits) (env : Surroundings)

/-- What Python takes for true. -/
def truthy : Payload → Bool
  | .null => false
  | .bool b => b
  | .number q => decide (q ≠ 0)
  | .text s => decide (s ≠ "")
  | .list items => !items.isEmpty
  | .object items => !items.isEmpty

/-- The `alert_` items of a payload; `items()` raises where there are none to read. -/
def ctx (payload : Payload) : Option (List (String × Payload)) :=
  if truthy payload then
    match payload with
    | .object items => some (items.filter fun item => item.1.startsWith "alert_")
    | _ => none
  else some []

/-- Whether the claim gets through a job: its payload is read and the lookup for its template finds its data. -/
def enriches (r : Row) : Bool :=
  (ctx r.payload).isSome &&
    if r.template = "e_magic_link" then env.magicLink r.userId
    else if r.template = "e_inv_admission" then env.liveGrant r.userId
    else if r.template = "e_win_invites" then env.premiumCodes r.userId
    else true

/-- `render`; an alert needs its link. -/
def render (userId : ℕ) (template : String) (payload : Payload) : Bool :=
  (ctx payload).any fun ctx =>
    (decide (template ≠ "e_alert") || (ctx.lookup "alert_url").any truthy) && env.renders userId template ctx

/-- The jobs that `claim_jobs` may take, by their ids. -/
def dueJobs (db : Db) : Finset ℕ :=
  (Finset.range db.jobs.length).filter fun id => (db.jobs[id]?).any (Row.due limits env.now) = true

/-- The claim of a batch: the first due jobs by attempts and time, as many as it takes. -/
structure Picks (batchSize : ℕ) (db : Db) (ids : List ℕ) : Prop where
  nodup : ids.Nodup
  due : ∀ id ∈ ids, id ∈ dueJobs limits env db
  size : ids.length ≤ batchSize
  full : ids.length = batchSize ∨ ∀ id ∈ dueJobs limits env db, id ∈ ids
  first : ∀ id ∈ ids, ∀ id' ∈ dueJobs limits env db, id' ∉ ids → ∀ r r', db.jobs[id]? = some r →
    db.jobs[id']? = some r' → r.attempts < r'.attempts ∨ r.attempts = r'.attempts ∧ r.scheduledAt ≤ r'.scheduledAt

/-- What `lambda_handler` does with a job of its batch. -/
def handle (db : Db) (job : Job) : Db :=
  let result := outcome limits job (render env job.userId job.template job.payload)
  let jobs := finish db.jobs job.id env.now result
  if result.1 = .sent ∧ job.template = "e3_update" ∧ env.waiting job.userId = true then
    { db with jobs := jobs ++ [newRow job.userId "e3_update" (env.now + env.nurtureInterval)] }
  else { db with jobs := jobs }

/-- `lambda_handler`; a lookup that raises rolls back the claim. -/
def invoke (db : Db) (ids : List ℕ) : Db :=
  if (ids.all fun id => (db.jobs[id]?).all (enriches env)) = true then
    (claimJobs limits env.now db ids).2.foldl (handle limits env) (claimJobs limits env.now db ids).1
  else db

inductive Invocations (batchSize : ℕ) : ℕ → Db → Db → Prop where
  | none (db : Db) : Invocations batchSize 0 db db
  | next {n : ℕ} {db db' : Db} {ids : List ℕ} (h : Picks limits env batchSize db ids)
      (rest : Invocations batchSize n (invoke limits env db ids) db') : Invocations batchSize (n + 1) db db'

/-! ### The law -/

/-- `should_send`, of the job of a row. -/
def verdict (db : Db) (r : Row) : Bool × Bool :=
  match db.users r.userId with
  | none => (false, true)
  | some user => shouldSend ⟨0, r.userId, r.template, r.attempts, user, none, r.payload⟩

def keptJobs (db : Db) : Finset ℕ :=
  (dueJobs limits env db).filter fun id => (db.jobs[id]?).any (fun r => verdict db r == (false, false)) = true

/-- The claim gets through every due job, and fewer of them than a batch takes are kept for later. -/
structure Unblocked (batchSize : ℕ) (db : Db) : Prop where
  enriches : ∀ id ∈ dueJobs limits env db, ∀ r, db.jobs[id]? = some r → enriches env r = true
  kept : (keptJobs limits env db).card < batchSize

/-- The user of a job passes `should_send`, and its template data exist. -/
def Sendable (db : Db) (r : Row) : Prop :=
  (verdict db r).1 = true ∧ enriches env r = true ∧ render env r.userId r.template r.payload = true

variable {limits : Limits} {env : Surroundings} {db : Db} {ids : List ℕ} {db' : Db}

/-! ### The rows behind an invocation -/

/-- What a job is finished with. -/
def result (limits : Limits) (env : Surroundings) (db : Db) (r : Row) : JobStatus × Bool :=
  match verdict db r with
  | (false, terminal) => (if terminal then .skipped else .pending, !terminal)
  | (true, _) =>
    if render env r.userId r.template r.payload then (.sent, false)
    else (if limits.maxAttempts ≤ r.attempts + 1 then .failed else .pending, false)

def handled (limits : Limits) (env : Surroundings) (db : Db) (r : Row) : Row :=
  (r.claimed env.now).finished env.now (result limits env db r)

/-- A job that was claimed from a row. -/
structure Job.Of (db : Db) (job : Job) (r : Row) : Prop where
  row : db.jobs[job.id]? = some r
  userId : job.userId = r.userId
  template : job.template = r.template
  payload : job.payload = r.payload
  attempts : job.attempts = r.attempts + 1
  user : db.users r.userId = some job.user

theorem outcome_eq {job : Job} {r : Row} (h : Job.Of db job r) :
    outcome limits job (render env job.userId job.template job.payload) = result limits env db r := by
  have hverdict : shouldSend job = verdict db r := by
    rw [verdict, h.user]
    simp only [shouldSend, h.template]
  rcases hsend : verdict db r with ⟨_ | _, terminal⟩
  · simp only [outcome, result, hverdict, hsend]
  · simp only [outcome, result, hverdict, hsend, h.userId, h.template, h.payload, h.attempts]

/-- A claim after some of its ids. -/
structure Taken (env : Surroundings) (db : Db) (ids : List ℕ) (claim : Db × List Job) : Prop where
  users : claim.1.users = db.users
  rows : ∀ id, claim.1.jobs[id]? = if id ∈ ids then (db.jobs[id]?).map (Row.claimed env.now) else db.jobs[id]?
  ids : claim.2.map Job.id = ids
  jobs : ∀ job ∈ claim.2, ∃ r, Job.Of db job r

theorem getElem?_of_due {id : ℕ} (h : id ∈ dueJobs limits env db) :
    ∃ r, db.jobs[id]? = some r ∧ r.due limits env.now = true :=
  (Option.any_eq_true _ _).1 (Finset.mem_filter.1 h).2

theorem Taken.row {claim : Db × List Job} (h : Taken env db ids claim) (job : Job)
    (hid : job.id ∉ ids) {r : Row} (hjob : Job.Of db job r) (tokens : List Token) :
    Taken env db (ids ++ [job.id])
      (⟨claim.1.users, claim.1.jobs.set job.id (r.claimed env.now), tokens⟩, claim.2 ++ [job]) where
  users := h.users
  rows id := by
    have hfree : claim.1.jobs[job.id]? = some r := by
      rw [h.rows, if_neg hid, hjob.row]
    rw [List.getElem?_set]
    by_cases heq : job.id = id
    · subst heq
      rw [if_pos rfl, if_pos (List.getElem?_eq_some_iff.1 hfree).1, if_pos (by simp), hjob.row, Option.map_some]
    · have hmem : id ∈ ids ++ [job.id] ↔ id ∈ ids := by
        simp [Ne.symm heq]
      rw [if_neg heq, h.rows, if_congr hmem rfl rfl]
  ids := by rw [List.map_append, h.ids, List.map_singleton]
  jobs j hj := by
    rcases List.mem_append.1 hj with hj | hj
    · exact h.jobs j hj
    · exact ⟨r, List.mem_singleton.1 hj ▸ hjob⟩

theorem Taken.claimJob {claim : Db × List Job} (h : Taken env db ids claim) {id : ℕ}
    (hid : id ∉ ids) {r : Row} {user : User} (hr : db.jobs[id]? = some r)
    (hdue : r.due limits env.now = true) (huser : db.users r.userId = some user) :
    Taken env db (ids ++ [id]) (claimJob limits env.now claim id) := by
  have hfree : claim.1.jobs[id]? = some r := by
    rw [h.rows, if_neg hid, hr]
  rw [ConfirmMail.claimJob, hfree]
  dsimp only
  have hread : claim.1.users r.userId = some user := (congrFun h.users _).trans huser
  rw [hread]
  dsimp only
  rw [if_pos hdue]
  split
  · exact h.row ⟨id, _, _, _, user, _, _⟩ hid ⟨hr, rfl, rfl, rfl, rfl, huser⟩ _
  · exact h.row ⟨id, _, _, _, user, _, _⟩ hid ⟨hr, rfl, rfl, rfl, rfl, huser⟩ _

theorem taken_claimJobs
    (hfk : ∀ id ∈ dueJobs limits env db, ∀ r, db.jobs[id]? = some r → db.users r.userId ≠ none)
    (hnodup : ids.Nodup) (hdue : ∀ id ∈ ids, id ∈ dueJobs limits env db) :
    Taken env db ids (claimJobs limits env.now db ids) := by
  induction ids using List.reverseRecOn with
  | nil => exact ⟨rfl, fun _ => rfl, rfl, by rintro _ ⟨⟩⟩
  | append_singleton ids id ih =>
    obtain ⟨hids, -, hid⟩ := List.nodup_append.1 hnodup
    have h := ih hids fun id' hid' => hdue id' (List.mem_append_left _ hid')
    have hmem := hdue id (List.mem_append_right _ List.mem_cons_self)
    obtain ⟨r, hr, hrdue⟩ := getElem?_of_due hmem
    obtain ⟨user, huser⟩ := Option.ne_none_iff_exists'.1 (hfk id hmem r hr)
    have hstep := h.claimJob (fun hmem => hid id hmem id List.mem_cons_self rfl) hr hrdue huser
    rw [claimJobs, List.foldl_append]
    exact hstep

/-- A batch after some of its jobs. -/
structure Handled (limits : Limits) (env : Surroundings) (db : Db) (ids done : List ℕ) (db' : Db) : Prop where
  users : db'.users = db.users
  rows : ∀ id r, db.jobs[id]? = some r → db'.jobs[id]? =
    some (if id ∈ done then handled limits env db r else if id ∈ ids then r.claimed env.now else r)
  later : ∀ id r, db.jobs.length ≤ id → db'.jobs[id]? = some r → env.now < r.scheduledAt

theorem Handled.handle {ids done : List ℕ} (h : Handled limits env db ids done db') {job : Job}
    (hid : job.id ∈ ids) (hnew : job.id ∉ done) {r : Row} (hjob : Job.Of db job r) :
    Handled limits env db ids (done ++ [job.id]) (handle limits env db' job) := by
  have hlength : job.id < db.jobs.length := (List.getElem?_eq_some_iff.1 hjob.row).1
  have hrow := h.rows job.id r hjob.row
  rw [if_neg hnew, if_pos hid] at hrow
  have hfinish : finish db'.jobs job.id env.now (outcome limits job (render env job.userId job.template job.payload)) =
      db'.jobs.set job.id (EmailQueue.handled limits env db r) := by
    rw [finish, hrow, outcome_eq hjob]
    rfl
  have hset : Handled limits env db ids (done ++ [job.id])
      { db' with jobs := db'.jobs.set job.id (EmailQueue.handled limits env db r) } := by
    refine ⟨h.users, fun id r' hr' => ?_, fun id r' hle hr' => ?_⟩
    · rw [List.getElem?_set]
      by_cases heq : job.id = id
      · subst heq
        obtain rfl := Option.some.inj (hr'.symm.trans hjob.row)
        rw [if_pos rfl, if_pos (List.getElem?_eq_some_iff.1 hrow).1, if_pos (by simp)]
      · have hmem : id ∈ done ++ [job.id] ↔ id ∈ done := by
          simp [Ne.symm heq]
        rw [if_neg heq, h.rows id r' hr', if_congr hmem rfl rfl]
    · rw [List.getElem?_set_ne (by omega)] at hr'
      exact h.later id r' hle hr'
  rw [EmailQueue.handle, hfinish]
  split
  · refine ⟨hset.users, fun id r' hr' => ?_, fun id r' hle hr' => ?_⟩
    · have hold := hset.rows id r' hr'
      dsimp only at hold ⊢
      rw [List.getElem?_append_left (List.getElem?_eq_some_iff.1 hold).1, hold]
    · dsimp only at hr'
      rw [List.getElem?_append] at hr'
      split at hr'
      · exact hset.later id r' hle hr'
      · cases List.mem_singleton.1 (List.mem_of_getElem? hr')
        have hpos := env.nurtureInterval_pos
        simp only [newRow]
        omega
  · exact hset

theorem handled_foldl (hnodup : ids.Nodup) {jobs : List Job}
    (hjobs : ∀ job ∈ jobs, ∃ r, Job.Of db job r) {done : List ℕ}
    (hids : done ++ jobs.map Job.id = ids) (h : Handled limits env db ids done db') :
    Handled limits env db ids ids (jobs.foldl (handle limits env) db') := by
  induction jobs generalizing done db' with
  | nil =>
    rw [List.map_nil, List.append_nil] at hids
    exact hids ▸ h
  | cons job jobs ih =>
    obtain ⟨r, hjob⟩ := hjobs job List.mem_cons_self
    have hnew : job.id ∉ done := by
      rw [← hids] at hnodup
      exact fun hmem => (List.nodup_append.1 hnodup).2.2 job.id hmem job.id List.mem_cons_self rfl
    have hmem : job.id ∈ ids := by
      rw [← hids]
      exact List.mem_append_right _ List.mem_cons_self
    refine ih (fun j hj => hjobs j (List.mem_cons_of_mem _ hj)) ?_ (h.handle hmem hnew hjob)
    rw [List.append_assoc]
    exact hids

theorem handled_invoke {batchSize : ℕ}
    (hfk : ∀ id ∈ dueJobs limits env db, ∀ r, db.jobs[id]? = some r → db.users r.userId ≠ none)
    (h : Picks limits env batchSize db ids)
    (hdata : ∀ id ∈ dueJobs limits env db, ∀ r, db.jobs[id]? = some r → enriches env r = true) :
    Handled limits env db ids ids (invoke limits env db ids) := by
  have htaken := taken_claimJobs hfk h.nodup h.due
  have hall : (ids.all fun id => (db.jobs[id]?).all (enriches env)) = true :=
    List.all_eq_true.2 fun id hid => (Option.all_eq_true _ _).2 fun r hr => hdata id (h.due id hid) r hr
  rw [invoke, if_pos hall]
  refine handled_foldl h.nodup htaken.jobs ((List.nil_append _).trans htaken.ids)
    ⟨htaken.users, fun id r hr => ?_, fun id r hle hr => ?_⟩
  · rw [htaken.rows, hr, if_neg List.not_mem_nil]
    split <;> rfl
  · rw [htaken.rows, List.getElem?_eq_none hle] at hr
    split at hr <;> cases hr

/-! ### What is left to do -/

/-- Two rows of one mail. -/
structure SameMail (r' r : Row) : Prop where
  userId : r'.userId = r.userId
  template : r'.template = r.template
  payload : r'.payload = r.payload

theorem verdict_congr {r r' : Row} (husers : db'.users = db.users) (h : SameMail r' r) :
    verdict db' r' = verdict db r := by
  simp only [verdict, shouldSend, husers, h.userId, h.template]

theorem enriches_congr {r r' : Row} (h : SameMail r' r) : enriches env r' = enriches env r := by
  simp only [enriches, h.userId, h.template, h.payload]

def weight (limits : Limits) (env : Surroundings) (db : Db) (r : Row) : ℕ :=
  if r.due limits env.now = true then
    if verdict db r = (false, false) then (if r.status = .sending then 1 else 0) else limits.maxAttempts - r.attempts
  else 0

theorem status_handled (r : Row) : (handled limits env db r).status = (result limits env db r).1 := rfl

theorem settled_handled (r : Row) : (handled limits env db r).status ≠ .sending ∧
    (Sendable env db r → (handled limits env db r).status = .sent) := by
  rw [status_handled, result]
  constructor
  · rcases verdict db r with ⟨_ | _, _ | _⟩ <;> dsimp only <;> split_ifs <;> rintro ⟨⟩
  · rintro ⟨hsend, -, hrenders⟩
    rcases hverdict : verdict db r with ⟨_ | _, terminal⟩
    · rw [hverdict] at hsend
      cases hsend
    · dsimp only
      rw [if_pos hrenders]

theorem result_not_kept {r : Row} (hkept : verdict db r ≠ (false, false)) : (result limits env db r).2 = false := by
  rw [result]
  rcases hverdict : verdict db r with ⟨_ | _, _ | _⟩
  · exact absurd hverdict hkept
  · rfl
  · dsimp only
    split <;> rfl
  · dsimp only
    split <;> rfl

theorem weight_of_not_due {r : Row} (h : r.due limits env.now = false) : weight limits env db r = 0 := by
  rw [weight, if_neg (Bool.eq_false_iff.1 h)]

theorem weight_handled {r : Row} (hdue : r.due limits env.now = true) :
    weight limits env db (handled limits env db r) ≤ weight limits env db r - 1 := by
  have hsame : verdict db (handled limits env db r) = verdict db r := verdict_congr rfl ⟨rfl, rfl, rfl⟩
  by_cases hstill : (handled limits env db r).due limits env.now = true
  · rw [weight, weight, if_pos hstill, if_pos hdue, hsame]
    by_cases hkept : verdict db r = (false, false)
    · rw [if_pos hkept, if_neg (settled_handled r).1]
      exact Nat.zero_le _
    · -- neither sent nor skipped nor failed: it was not rendered, and has an attempt less
      rw [if_neg hkept, if_neg hkept]
      have hattempts : (handled limits env db r).attempts = r.attempts + 1 := by
        change (if (result limits env db r).2 = true then 0 else r.attempts + 1) = _
        rw [result_not_kept hkept, if_neg Bool.false_ne_true]
      omega
  · rw [weight_of_not_due (Bool.eq_false_iff.2 hstill)]
    exact Nat.zero_le _

theorem attempts_lt_of_due {r : Row} (h : r.due limits env.now = true) : r.attempts < limits.maxAttempts := by
  simp only [Row.due, Bool.and_eq_true, decide_eq_true_eq] at h
  exact h.2

theorem mem_dueJobs {id : ℕ} :
    id ∈ dueJobs limits env db ↔ ∃ r, db.jobs[id]? = some r ∧ r.due limits env.now = true := by
  refine ⟨getElem?_of_due, fun ⟨r, hr, hdue⟩ => Finset.mem_filter.2 ⟨?_, (Option.any_eq_true _ _).2 ⟨r, hr, hdue⟩⟩⟩
  exact Finset.mem_range.2 (List.getElem?_eq_some_iff.1 hr).1

theorem mem_keptJobs {id : ℕ} : id ∈ keptJobs limits env db ↔
    ∃ r, db.jobs[id]? = some r ∧ r.due limits env.now = true ∧ verdict db r = (false, false) := by
  rw [keptJobs, Finset.mem_filter, mem_dueJobs, Option.any_eq_true]
  constructor
  · rintro ⟨⟨r, hr, hdue⟩, r', hr', hkept⟩
    obtain rfl := Option.some.inj (hr.symm.trans hr')
    exact ⟨r, hr, hdue, eq_of_beq hkept⟩
  · rintro ⟨r, hr, hdue, hkept⟩
    exact ⟨⟨r, hr, hdue⟩, r, hr, beq_iff_eq.2 hkept⟩

theorem Handled.due_before {batchSize : ℕ} (h : Handled limits env db ids ids db')
    (hpick : Picks limits env batchSize db ids) {id : ℕ} {r' : Row} (hr' : db'.jobs[id]? = some r')
    (hdue : r'.due limits env.now = true) :
    ∃ r, db.jobs[id]? = some r ∧ r.due limits env.now = true ∧ SameMail r' r := by
  by_cases hlt : id < db.jobs.length
  · have hrow := h.rows id db.jobs[id] (List.getElem?_eq_getElem hlt)
    obtain rfl := Option.some.inj (hr'.symm.trans hrow)
    by_cases hid : id ∈ ids
    · obtain ⟨r, hr, hrdue⟩ := getElem?_of_due (hpick.due id hid)
      obtain rfl := Option.some.inj (hr.symm.trans (List.getElem?_eq_getElem hlt))
      refine ⟨_, hr, hrdue, ?_⟩
      rw [if_pos hid]
      exact ⟨rfl, rfl, rfl⟩
    · rw [if_neg hid, if_neg hid] at hdue ⊢
      exact ⟨_, List.getElem?_eq_getElem hlt, hdue, rfl, rfl, rfl⟩
  · have hlater := h.later id r' (not_lt.1 hlt) hr'
    simp only [Row.due, Bool.and_eq_true, decide_eq_true_eq] at hdue
    omega

/-- What the theorem needs of the rows, and an invocation keeps. -/
structure Ready (limits : Limits) (env : Surroundings) (batchSize : ℕ) (db : Db) : Prop where
  owned : ∀ id ∈ dueJobs limits env db, ∀ r, db.jobs[id]? = some r → db.users r.userId ≠ none
  unblocked : Unblocked limits env batchSize db

theorem Ready.handled {batchSize : ℕ} (h : Ready limits env batchSize db)
    (hpick : Picks limits env batchSize db ids) (hdb' : Handled limits env db ids ids db') :
    Ready limits env batchSize db' := by
  refine ⟨fun id hid r' hr' => ?_, fun id hid r' hr' => ?_, lt_of_le_of_lt (Finset.card_le_card fun id hid => ?_)
    h.unblocked.kept⟩
  · obtain ⟨r, hr, hdue⟩ := mem_dueJobs.1 hid
    obtain rfl := Option.some.inj (hr.symm.trans hr')
    obtain ⟨r₀, hr₀, hdue₀, hmail⟩ := hdb'.due_before hpick hr hdue
    rw [hdb'.users, hmail.userId]
    exact h.owned id (mem_dueJobs.2 ⟨r₀, hr₀, hdue₀⟩) r₀ hr₀
  · obtain ⟨r, hr, hdue⟩ := mem_dueJobs.1 hid
    obtain rfl := Option.some.inj (hr.symm.trans hr')
    obtain ⟨r₀, hr₀, hdue₀, hmail⟩ := hdb'.due_before hpick hr hdue
    rw [enriches_congr hmail]
    exact h.unblocked.enriches id (mem_dueJobs.2 ⟨r₀, hr₀, hdue₀⟩) r₀ hr₀
  · obtain ⟨r, hr, hdue, hkept⟩ := mem_keptJobs.1 hid
    obtain ⟨r₀, hr₀, hdue₀, hmail⟩ := hdb'.due_before hpick hr hdue
    exact mem_keptJobs.2 ⟨r₀, hr₀, hdue₀, (verdict_congr hdb'.users hmail).symm.trans hkept⟩

def potential (limits : Limits) (env : Surroundings) (db : Db) : ℕ :=
  ∑ id ∈ dueJobs limits env db, (db.jobs[id]?).elim 0 (weight limits env db)

theorem potential_le : potential limits env db ≤ limits.maxAttempts * (dueJobs limits env db).card := by
  rw [Nat.mul_comm, ← smul_eq_mul]
  refine Finset.sum_le_card_nsmul _ _ _ fun id hid => ?_
  obtain ⟨r, hr, hdue⟩ := mem_dueJobs.1 hid
  have hattempts := attempts_lt_of_due hdue
  rw [hr, Option.elim_some, weight]
  split_ifs <;> omega

theorem exists_mem_pos {batchSize : ℕ} (hkept : (keptJobs limits env db).card < batchSize)
    (h : Picks limits env batchSize db ids) (hpos : 0 < potential limits env db) :
    ∃ id ∈ ids, 0 < (db.jobs[id]?).elim 0 (weight limits env db) := by
  by_cases hother : ∃ id ∈ dueJobs limits env db, id ∉ keptJobs limits env db
  · -- fewer are kept than the batch takes, so one of the batch is not
    obtain ⟨id, hid, hidkept⟩ : ∃ id ∈ ids, id ∉ keptJobs limits env db := by
      rcases h.full with hfull | hfull
      · by_contra hall
        push Not at hall
        have hcard := Finset.card_le_card fun id hid => hall id (List.mem_toFinset.1 hid)
        rw [List.toFinset_card_of_nodup h.nodup] at hcard
        omega
      · obtain ⟨id, hid, hidkept⟩ := hother
        exact ⟨id, hfull id hid, hidkept⟩
    obtain ⟨r, hr, hdue⟩ := mem_dueJobs.1 (h.due id hid)
    refine ⟨id, hid, ?_⟩
    have hattempts := attempts_lt_of_due hdue
    have hverdict : verdict db r ≠ (false, false) := fun h => hidkept (mem_keptJobs.2 ⟨r, hr, hdue, h⟩)
    rw [hr, Option.elim_some, weight, if_pos hdue, if_neg hverdict]
    omega
  · -- the batch takes all
    push Not at hother
    have hall : ∀ id ∈ dueJobs limits env db, id ∈ ids := by
      refine h.full.resolve_left fun hfull => ?_
      have hcard := Finset.card_le_card fun id hid => hother id (h.due id (List.mem_toFinset.1 hid))
      rw [List.toFinset_card_of_nodup h.nodup] at hcard
      omega
    obtain ⟨id, hid, hweight⟩ := Finset.exists_ne_zero_of_sum_ne_zero (Nat.ne_of_gt hpos)
    exact ⟨id, hall id hid, Nat.pos_of_ne_zero hweight⟩

theorem weight_row (h : Handled limits env db ids ids db') {id : ℕ} {r : Row}
    (hr : db.jobs[id]? = some r) : (db'.jobs[id]?).elim 0 (weight limits env db') =
      weight limits env db (if id ∈ ids then handled limits env db r else r) := by
  rw [h.rows id r hr, Option.elim_some]
  by_cases hid : id ∈ ids
  · rw [if_pos hid, if_pos hid, weight, weight, verdict_congr h.users ⟨rfl, rfl, rfl⟩]
  · rw [if_neg hid, if_neg hid, if_neg hid, weight, weight, verdict_congr h.users ⟨rfl, rfl, rfl⟩]

theorem potential_handled {batchSize : ℕ} (hkept : (keptJobs limits env db).card < batchSize)
    (hpick : Picks limits env batchSize db ids) (h : Handled limits env db ids ids db') :
    potential limits env db' ≤ potential limits env db - 1 := by
  have hsub : dueJobs limits env db' ⊆ dueJobs limits env db := fun id hid => by
    obtain ⟨r, hr, hdue⟩ := mem_dueJobs.1 hid
    obtain ⟨r₀, hr₀, hdue₀, -⟩ := h.due_before hpick hr hdue
    exact mem_dueJobs.2 ⟨r₀, hr₀, hdue₀⟩
  have hclaimed : ∀ id ∈ ids, (db'.jobs[id]?).elim 0 (weight limits env db') ≤
      (db.jobs[id]?).elim 0 (weight limits env db) - 1 := fun id hid => by
    obtain ⟨r, hr, hdue⟩ := mem_dueJobs.1 (hpick.due id hid)
    rw [weight_row h hr, if_pos hid, hr]
    exact weight_handled hdue
  have hle : ∀ id ∈ dueJobs limits env db, (db'.jobs[id]?).elim 0 (weight limits env db') ≤
      (db.jobs[id]?).elim 0 (weight limits env db) := fun id hdue => by
    by_cases hid : id ∈ ids
    · exact (hclaimed id hid).trans (Nat.sub_le _ _)
    · obtain ⟨r, hr, -⟩ := mem_dueJobs.1 hdue
      rw [weight_row h hr, if_neg hid, hr, Option.elim_some]
  have hfewer := Finset.sum_le_sum_of_subset (f := fun id => (db'.jobs[id]?).elim 0 (weight limits env db')) hsub
  rcases Nat.eq_zero_or_pos (potential limits env db) with hzero | hpos
  · rw [hzero]
    exact hfewer.trans ((Finset.sum_le_sum hle).trans (le_of_eq hzero))
  · obtain ⟨id, hid, hweight⟩ := exists_mem_pos hkept hpick hpos
    have hlt := Finset.sum_lt_sum hle ⟨id, hpick.due id hid, by have := hclaimed id hid; omega⟩
    exact Nat.le_sub_one_of_lt (lt_of_le_of_lt hfewer hlt)

/-! ### Runs -/

/-- A job of a row is still due, or it is not left behind, and sent if it can be. -/
def Settled (limits : Limits) (env : Surroundings) (db : Db) (id : ℕ) (r₀ : Row) : Prop :=
  ∃ r, db.jobs[id]? = some r ∧ SameMail r r₀ ∧
    (r.due limits env.now = true ∨ r.status ≠ .sending ∧ (Sendable env db r₀ → r.status = .sent))

theorem sendable_congr {r r' : Row} (husers : db'.users = db.users) (h : SameMail r' r) :
    Sendable env db' r' ↔ Sendable env db r := by
  rw [Sendable, Sendable, verdict_congr husers h, enriches_congr h, h.userId, h.template, h.payload]

theorem Settled.handled (h : Handled limits env db ids ids db') {id : ℕ} {r₀ : Row}
    (hsettled : Settled limits env db id r₀) :
    Settled limits env db' id r₀ := by
  obtain ⟨r, hr, hmail, hcases⟩ := hsettled
  refine ⟨_, h.rows id r hr, ?_⟩
  rw [sendable_congr h.users ⟨rfl, rfl, rfl⟩]
  by_cases hid : id ∈ ids
  · rw [if_pos hid]
    refine ⟨⟨hmail.userId, hmail.template, hmail.payload⟩,
      .inr ⟨(settled_handled r).1, fun hsendable => (settled_handled r).2 ?_⟩⟩
    exact (sendable_congr rfl hmail).2 hsendable
  · rw [if_neg hid, if_neg hid]
    exact ⟨hmail, hcases⟩

theorem of_invocations {batchSize n : ℕ} (h : Invocations limits env batchSize n db db')
    (hready : Ready limits env batchSize db) :
    db'.users = db.users ∧ potential limits env db' ≤ potential limits env db - n ∧
      ∀ id r₀, Settled limits env db id r₀ → Settled limits env db' id r₀ := by
  induction h with
  | none db => exact ⟨rfl, le_rfl, fun _ _ hsettled => hsettled⟩
  | next hpick _ ih =>
    have hinvoke := handled_invoke hready.owned hpick hready.unblocked.enriches
    obtain ⟨husers, hpotential, hsettled⟩ := ih (hready.handled hpick hinvoke)
    have hstep := potential_handled hready.unblocked.kept hpick hinvoke
    exact ⟨husers.trans hinvoke.users, by omega, fun id r₀ h => hsettled id r₀ (h.handled hinvoke)⟩

/-! ### Two queues -/

namespace Run

def noLinks : Surroundings where
  now := 100
  magicLink _ := false
  liveGrant _ := false
  premiumCodes _ := false
  renders _ _ _ := true
  waiting _ := false
  nurtureInterval := 20160
  nurtureInterval_pos := by decide

def users (id : ℕ) : Option User := if id ≤ 2 then some ⟨id = 1, "active", id = 1⟩ else none

/-- An alert without its link, and a confirm mail behind it. -/
def signup : Db := ⟨users, [newRow 1 "e_alert" 0, newRow 2 "e1_confirm" 1], []⟩

/-- A magic link that has expired before the signup. -/
def expired : Db := ⟨users, [newRow 1 "e_magic_link" 0, newRow 2 "e1_confirm" 1], []⟩

def twoAttempts : Limits := ⟨2, 15⟩

end Run

end Cello.Waitlist.EmailQueue
