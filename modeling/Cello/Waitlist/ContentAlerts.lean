import Cello.Lib.GuardedRun
import Mathlib.Tactic.NormNum

/-!
# The credit for content alerts

`infra/lambda/waitlist-actions/handler.py` and `infra/lambda/waitlist-auth/handler.py`.  A user is paid points for
taking content alerts, as a row of the ledger.  The status page sets the flag and writes or deletes the row; the link
in a mail sets the flag and does not touch the ledger.  So the credit follows the subscription until such a link turns
the flag off of someone who had it on (`credit_follows_iff`).

A call is one transaction, and what fails on the way changes nothing.  The constraints of the tables are not in the
repository: what the handlers rely on of them is in `Schema`.
-/

namespace Cello.Waitlist.ContentAlerts

open Lib

/-! ### The tables -/

structure UserRow (κ : Type) where
  waitlistId : κ
  emailStatus : String
  contentAlerts : Bool
deriving DecidableEq

structure LedgerRow (κ : Type) where
  waitlistUserId : κ
  points : ℤ
  reason : String
deriving DecidableEq

/-- `waitlist_users` and `points_ledger`. -/
structure Tables (κ : Type) where
  users : List (UserRow κ)
  ledger : List (LedgerRow κ)

/-- The constraints of `points_ledger`. -/
structure Schema (κ : Type) where
  /-- The reasons of the once-per-user index. -/
  oncePerUser : String → Bool
  once_contentAlerts : oncePerUser "content_alerts" = true
  /-- The cap trigger, and the check of the reason. -/
  refused : List (LedgerRow κ) → LedgerRow κ → Bool
  takes_contentAlerts : ∀ ledger row, row.reason = "content_alerts" → refused ledger row = false

/-- How an id is read: by Python's `uuid.UUID`, and by the database. -/
structure Uuids (κ : Type) where
  pythonAccepts : String → Bool
  ofText : String → Option κ

section

variable {κ : Type} [DecidableEq κ]

namespace Tables

def user? (t : Tables κ) (userId : κ) : Option (UserRow κ) := t.users.find? fun r => decide (r.waitlistId = userId)

/-- `UPDATE waitlist_users SET .. WHERE waitlist_id = ..`. -/
def update (t : Tables κ) (userId : κ) (alerts : Bool → Bool) (status : String → String) : Tables κ where
  users := t.users.map fun r =>
    if r.waitlistId = userId then
      { r with contentAlerts := alerts r.contentAlerts, emailStatus := status r.emailStatus }
    else r
  ledger := t.ledger

def credits (t : Tables κ) (userId : κ) (reason : String) : List (LedgerRow κ) :=
  t.ledger.filter fun r => decide (r.waitlistUserId = userId ∧ r.reason = reason)

/-- `DELETE FROM points_ledger WHERE ..`. -/
def reverse (t : Tables κ) (userId : κ) (reason : String) : Tables κ :=
  { t with ledger := t.ledger.filter fun r => decide (¬ (r.waitlistUserId = userId ∧ r.reason = reason)) }

/-- `points_total`, as the triggers keep it. -/
def pointsTotal (t : Tables κ) (userId : κ) : ℤ :=
  ((t.ledger.filter fun r => decide (r.waitlistUserId = userId)).map LedgerRow.points).sum

end Tables

/-! ### The handlers -/

inductive Reply where
  | alerts (contentAlerts : Bool) (awarded removed pointsTotal : ℤ)
  | confirmPage
  | unsubscribedPage
  | refused (status : ℕ) (code : String)
  /-- An exception, behind which the transaction is rolled back. -/
  | failed
deriving DecidableEq

def contentAlertsPoints : ℤ := 10

/-- `award`: a row that the database refuses is no credit, and no failure. -/
def award (schema : Schema κ) (t : Tables κ) (userId : κ) (points : ℤ) (reason : String) : Tables κ × ℤ :=
  if schema.refused t.ledger ⟨userId, points, reason⟩ then (t, 0)
  else if schema.oncePerUser reason ∧ t.credits userId reason ≠ [] then (t, 0)
  else ({ t with ledger := t.ledger ++ [⟨userId, points, reason⟩] }, points)

/-- `handle_content_alerts`; `enabled` where it is a boolean. -/
def handleContentAlerts (schema : Schema κ) (t : Tables κ) (userId : κ) (enabled : Option Bool) : Tables κ × Reply :=
  match enabled with
  | none => (t, .refused 400 "missing_enabled")
  | some enabled =>
    let updated := t.update userId (fun _ => enabled) id
    match updated.user? userId with
    -- no row is returned, and `None` has no members
    | none => (t, .failed)
    | some row =>
      if enabled then
        let (paid, awarded) := award schema updated userId contentAlertsPoints "content_alerts"
        (paid, .alerts row.contentAlerts awarded 0 (paid.pointsTotal userId))
      else
        let reversed := updated.credits userId "content_alerts"
        let left := updated.reverse userId "content_alerts"
        (left, .alerts row.contentAlerts 0 (reversed.map LedgerRow.points).sum (left.pointsTotal userId))

/-- `handle_unsubscribe`, of the parameters `u` and `list`. -/
def handleUnsubscribe (uuids : Uuids κ) (t : Tables κ) (u list : Option String) (method : String) : Tables κ × Reply :=
  match u with
  | none => (t, .refused 400 "missing_user")
  | some userId =>
    if userId = "" then (t, .refused 400 "missing_user")
    else if ¬ uuids.pythonAccepts userId then (t, .refused 400 "invalid_user")
    else if method = "GET" then (t, .confirmPage)
    else
      match uuids.ofText userId with
      -- the database does not read it as an id
      | none => (t, .failed)
      | some id =>
        if list = some "content_alerts" then (t.update id (fun _ => false) (fun status => status), .unsubscribedPage)
        else
          (t.update id (fun alerts => alerts) (fun status => if status = "active" then "unsubscribed" else status),
            .unsubscribedPage)

/-! ### Runs -/

inductive Call (κ : Type) where
  | contentAlerts (userId : κ) (enabled : Option Bool)
  | unsubscribe (u list : Option String) (method : String)
  /-- A call that the connection or the database breaks off. -/
  | brokenOff

variable (schema : Schema κ) (uuids : Uuids κ)

def reply (t : Tables κ) : Call κ → Tables κ × Reply
  | .contentAlerts userId enabled => handleContentAlerts schema t userId enabled
  | .unsubscribe u list method => handleUnsubscribe uuids t u list method
  | .brokenOff => (t, .failed)

def step (t : Tables κ) (call : Call κ) : Tables κ := (reply schema uuids t call).1

/-! ### The law -/

def Follows (flag : Bool) (credits : List (LedgerRow κ)) : Prop :=
  (flag = true ↔ credits ≠ []) ∧ credits.length ≤ 1

/-- The credit of each user follows the flag. -/
def CreditFollows (t : Tables κ) : Prop :=
  ∀ row ∈ t.users, Follows row.contentAlerts (t.credits row.waitlistId "content_alerts")

/-- Nobody takes alerts, and nobody was paid for it. -/
def Unsubscribed (t : Tables κ) : Prop :=
  ∀ row ∈ t.users, row.contentAlerts = false ∧ t.credits row.waitlistId "content_alerts" = []

/-- Whose flag a link of an alert mail turns off, if it is followed to the end. -/
def linkOf (uuids : Uuids κ) : Call κ → Option κ
  | .unsubscribe (some userId) list method =>
    if userId ≠ "" ∧ uuids.pythonAccepts userId = true ∧ method ≠ "GET" ∧ list = some "content_alerts" then
      uuids.ofText userId
    else none
  | _ => none

/-- No link turns the flag off of a user who has it on. -/
def SparesSubscribers (t : Tables κ) (call : Call κ) : Prop :=
  ∀ userId, linkOf uuids call = some userId → ∀ row ∈ t.users, row.waitlistId = userId → row.contentAlerts = false

/-! ### What a call does to a user -/

theorem creditFollows_iff {t t' : Tables κ} {userId : κ} {alerts : Bool → Bool} {status : String → String}
    (husers : t'.users = (t.update userId alerts status).users) :
    CreditFollows t' ↔
      (∀ row ∈ t.users, row.waitlistId ≠ userId →
        Follows row.contentAlerts (t'.credits row.waitlistId "content_alerts")) ∧
      ∀ row ∈ t.users, row.waitlistId = userId →
        Follows (alerts row.contentAlerts) (t'.credits userId "content_alerts") := by
  rw [CreditFollows, husers, Tables.update, List.forall_mem_map, ← forall₂_and]
  refine forall₂_congr fun row _ => ?_
  by_cases h : row.waitlistId = userId
  · simp [h]
  · simp [h]

theorem credits_update (t : Tables κ) (userId userId' : κ) (alerts : Bool → Bool) (status : String → String)
    (reason : String) : (t.update userId alerts status).credits userId' reason = t.credits userId' reason :=
  rfl

theorem credits_reverse (t : Tables κ) (userId : κ) (reason : String) :
    (t.reverse userId reason).credits userId reason = [] := by
  rw [Tables.credits, Tables.reverse, List.filter_filter, List.filter_eq_nil_iff]
  intro r _ h
  rw [Bool.and_eq_true, decide_eq_true_eq, decide_eq_true_eq] at h
  exact h.2 h.1

theorem credits_reverse_of_ne (t : Tables κ) {userId userId' : κ} (hne : userId' ≠ userId) (reason : String) :
    (t.reverse userId reason).credits userId' reason = t.credits userId' reason := by
  rw [Tables.credits, Tables.reverse, List.filter_filter]
  refine List.filter_congr fun r _ => ?_
  by_cases h : r.waitlistUserId = userId'
  · simp [h, hne]
  · simp [h]

theorem credits_award (t : Tables κ) (userId : κ) (points : ℤ)
    (hone : (t.credits userId "content_alerts").length ≤ 1) :
    ((award schema t userId points "content_alerts").1.credits userId "content_alerts").length = 1 := by
  rw [award, if_neg (by rw [schema.takes_contentAlerts _ _ rfl]; exact Bool.false_ne_true)]
  by_cases hpaid : t.credits userId "content_alerts" = []
  · rw [if_neg fun h => h.2 hpaid, Tables.credits, List.filter_append, ← Tables.credits, hpaid]
    simp
  · rw [if_pos ⟨schema.once_contentAlerts, hpaid⟩]
    have hpos := List.length_pos_iff.2 hpaid
    exact Nat.le_antisymm hone hpos

theorem credits_award_of_ne (t : Tables κ) {userId userId' : κ} (hne : userId' ≠ userId) (points : ℤ)
    (reason : String) :
    (award schema t userId points reason).1.credits userId' reason = t.credits userId' reason := by
  unfold award
  split
  · rfl
  split
  · rfl
  · rw [Tables.credits, List.filter_append, ← Tables.credits]
    simp [hne.symm]

theorem users_award (t : Tables κ) (userId : κ) (points : ℤ) (reason : String) :
    (award schema t userId points reason).1.users = t.users := by
  unfold award
  split
  · rfl
  split <;> rfl

/-- **The status page keeps the law.** -/
theorem creditFollows_handleContentAlerts {t : Tables κ} (h : CreditFollows t) (userId : κ) (enabled : Option Bool) :
    CreditFollows (handleContentAlerts schema t userId enabled).1 := by
  cases enabled with
  | none => exact h
  | some enabled =>
    rw [handleContentAlerts]
    dsimp only
    split
    · exact h
    cases enabled with
    | true =>
      have husers := users_award schema (t.update userId (fun _ => true) id) userId contentAlertsPoints "content_alerts"
      refine (creditFollows_iff husers).2 ⟨?_, ?_⟩
      · intro row hrow hne
        rw [credits_award_of_ne schema _ hne]
        exact h row hrow
      · intro row hrow heq
        have hone := (h row hrow).2
        rw [heq] at hone
        have hlength := credits_award schema (t.update userId (fun _ => true) id) userId contentAlertsPoints hone
        refine ⟨iff_of_true rfl ?_, hlength.le⟩
        exact List.ne_nil_of_length_pos (by rw [hlength]; exact Nat.one_pos)
    | false =>
      have husers : ((t.update userId (fun _ => false) id).reverse userId "content_alerts").users =
          (t.update userId (fun _ => false) id).users := rfl
      refine (creditFollows_iff husers).2 ⟨?_, ?_⟩
      · intro row hrow hne
        rw [credits_reverse_of_ne _ hne]
        exact h row hrow
      · intro row _ _
        rw [credits_reverse]
        exact ⟨by simp, Nat.zero_le _⟩

theorem creditFollows_link_iff {t : Tables κ} (h : CreditFollows t) (userId : κ) (status : String → String) :
    CreditFollows (t.update userId (fun _ => false) status) ↔
      ∀ row ∈ t.users, row.waitlistId = userId → row.contentAlerts = false := by
  have husers : (t.update userId (fun _ => false) status).users = (t.update userId (fun _ => false) status).users := rfl
  rw [creditFollows_iff husers]
  constructor
  · rintro ⟨-, hlinked⟩ row hrow heq
    have hcredits := (hlinked row hrow heq).1
    have hrowlaw := (h row hrow).1
    rw [heq, ← credits_update t userId userId (fun _ => false) status] at hrowlaw
    rw [← Bool.not_eq_true, hrowlaw, ← hcredits]
    exact Bool.false_ne_true
  · intro hoff
    refine ⟨fun row hrow _ => h row hrow, ?_⟩
    intro row hrow heq
    have hrowlaw := h row hrow
    rw [hoff row hrow heq, heq] at hrowlaw
    exact hrowlaw

theorem creditFollows_status {t : Tables κ} (h : CreditFollows t) (userId : κ) (status : String → String) :
    CreditFollows (t.update userId (fun alerts => alerts) status) := by
  have husers : (t.update userId (fun alerts => alerts) status).users =
      (t.update userId (fun alerts => alerts) status).users := rfl
  refine (creditFollows_iff husers).2 ⟨fun row hrow _ => h row hrow, ?_⟩
  intro row hrow heq
  have hrowlaw := h row hrow
  rwa [heq] at hrowlaw

/-- **A call keeps the law just if it spares the subscribers.** -/
theorem creditFollows_step_iff {t : Tables κ} (h : CreditFollows t) (call : Call κ) :
    CreditFollows (step schema uuids t call) ↔ SparesSubscribers uuids t call := by
  cases call with
  | contentAlerts userId enabled =>
    exact iff_of_true (creditFollows_handleContentAlerts schema h userId enabled) (by rintro _ ⟨⟩)
  | brokenOff => exact iff_of_true h (by rintro _ ⟨⟩)
  | unsubscribe u list method =>
    cases u with
    | none => exact iff_of_true h (by rintro _ ⟨⟩)
    | some userId =>
      rw [step, reply, handleUnsubscribe, SparesSubscribers, linkOf]
      by_cases hempty : userId = ""
      · rw [if_pos hempty, if_neg fun hc => hc.1 hempty]
        exact iff_of_true h (by rintro _ ⟨⟩)
      rw [if_neg hempty]
      by_cases hpython : uuids.pythonAccepts userId = true
      swap
      · rw [if_pos hpython, if_neg fun hc => hpython hc.2.1]
        exact iff_of_true h (by rintro _ ⟨⟩)
      rw [if_neg (not_not.2 hpython)]
      by_cases hmethod : method = "GET"
      · rw [if_pos hmethod, if_neg fun hc => hc.2.2.1 hmethod]
        exact iff_of_true h (by rintro _ ⟨⟩)
      rw [if_neg hmethod]
      by_cases hlist : list = some "content_alerts"
      · rw [if_pos ⟨hempty, hpython, hmethod, hlist⟩]
        cases uuids.ofText userId with
        | none => exact iff_of_true h (by rintro _ ⟨⟩)
        | some hit =>
          dsimp only
          rw [if_pos hlist, creditFollows_link_iff h]
          exact ⟨fun hoff _ heq => Option.some.inj heq ▸ hoff, fun hspares => hspares hit rfl⟩
      · rw [if_neg fun hc => hlist hc.2.2.2]
        refine iff_of_true ?_ (by rintro _ ⟨⟩)
        cases uuids.ofText userId with
        | none => exact h
        | some hit =>
          dsimp only
          rw [if_neg hlist]
          exact creditFollows_status h hit _

/-- **The credit follows the subscription at every point of a run just if no alert link in it is followed for a user
who takes alerts.** -/
theorem credit_follows_iff {t : Tables κ} (hstart : Unsubscribed t) (calls : List (Call κ)) :
    (∀ m, CreditFollows ((calls.take m).foldl (step schema uuids) t)) ↔
      Guarded (step schema uuids) (SparesSubscribers uuids) t calls := by
  have hlaw : CreditFollows t := by
    intro row hrow
    obtain ⟨hflag, hcredits⟩ := hstart row hrow
    rw [hflag, hcredits]
    exact ⟨by simp, Nat.zero_le _⟩
  have hexact : ∀ (t : Tables κ) (call : Call κ), True → CreditFollows t →
      (CreditFollows (step schema uuids t call) ↔ SparesSubscribers uuids t call) :=
    fun t call _ h => creditFollows_step_iff schema uuids h call
  exact Guarded.iff_forall (fun _ _ _ => trivial) hexact trivial hlaw

end

/-! ### A user who leaves by the link -/

def onceOnly : Schema ℕ where
  oncePerUser reason := decide (reason = "content_alerts")
  once_contentAlerts := rfl
  refused _ _ := false
  takes_contentAlerts _ _ _ := rfl

def seventh : String := "00000000-0000-0000-0000-000000000007"

def seventhOnly : Uuids ℕ where
  pythonAccepts s := decide (s = seventh)
  ofText s := if s = seventh then some 7 else none

def beforeCalls : Tables ℕ := ⟨[⟨7, "active", false⟩], []⟩

def optIn : Call ℕ := .contentAlerts 7 (some true)

def alertLink : Call ℕ := .unsubscribe (some seventh) (some "content_alerts") "POST"

def baseLink : Call ℕ := .unsubscribe (some seventh) none "POST"

/-- Who opts in and leaves by the link of a mail keeps the points. -/
theorem link_leaves_credit :
    Unsubscribed beforeCalls ∧
      ([optIn, alertLink].foldl (step onceOnly seventhOnly) beforeCalls).users = [⟨7, "active", false⟩] ∧
      ([optIn, alertLink].foldl (step onceOnly seventhOnly) beforeCalls).ledger = [⟨7, 10, "content_alerts"⟩] ∧
      ¬ CreditFollows ([optIn, alertLink].foldl (step onceOnly seventhOnly) beforeCalls) := by
  have husers : ([optIn, alertLink].foldl (step onceOnly seventhOnly) beforeCalls).users = [⟨7, "active", false⟩] := by
    decide
  have hledger : ([optIn, alertLink].foldl (step onceOnly seventhOnly) beforeCalls).ledger =
      [⟨7, 10, "content_alerts"⟩] := by
    decide
  refine ⟨?_, husers, hledger, ?_⟩
  · intro row hrow
    cases List.mem_singleton.1 hrow
    exact ⟨rfl, rfl⟩
  · intro h
    have hrow := (h ⟨7, "active", false⟩ (by rw [husers]; exact List.mem_singleton_self _)).1
    rw [Tables.credits, hledger] at hrow
    exact absurd hrow (by decide)

/-- Behind the other link the points and the flag stay. -/
theorem credit_follows_behind_base_link :
    CreditFollows ([optIn, baseLink].foldl (step onceOnly seventhOnly) beforeCalls) := by
  have hstart : Unsubscribed beforeCalls := by
    intro row hrow
    cases List.mem_singleton.1 hrow
    exact ⟨rfl, rfl⟩
  have hlink : linkOf seventhOnly baseLink = none := by decide
  refine (credit_follows_iff onceOnly seventhOnly hstart [optIn, baseLink]).2 ⟨by rintro _ ⟨⟩, ?_, trivial⟩ 2
  intro userId h
  rw [hlink] at h
  cases h

end Cello.Waitlist.ContentAlerts
