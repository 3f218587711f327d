import Cello.Lib.ReadCommitted
import Mathlib.Tactic.NormNum

/-!
# The admission gate

`infra/lambda/waitlist-gate/handler.py`.  A call of the gate is one transaction over three tables.  It finds the
caller's account, or burns a token and inserts one; and it binds the agent's key.  Each table has a unique key, and
what a call refuses it rolls back.  So however the statements of the calls interleave, a token is used in the commit
that inserts the account it pays for, or not at all (`check_law`).
-/

namespace Cello.Waitlist.Gate

open Lib.ReadCommitted

/-! ### The tables -/

/-- A row of `waitlist_tokens`. -/
structure TokenRow (κ : Type) where
  waitlistUserId : κ
  waveNumber : ℤ
  usedAt : Option ℤ
  expiresAt : ℤ

/-- A row of `telegram_accounts`; one that staff has made has no user. -/
structure AccountRow (κ : Type) where
  waitlistUserId : Option κ
  source : String

/-- The unique keys of `waitlist_tokens`, `telegram_accounts` and `waitlist_agent_links`. -/
inductive Key (κ : Type) where
  | token (token : κ)
  | account (telegramId : String)
  | agent (agentPubkey : String)
deriving DecidableEq

abbrev Row (κ : Type) : Key κ → Type
  | .token _ => TokenRow κ
  | .account _ => AccountRow κ
  | .agent _ => κ

/-! ### The call -/

/-- A member of a JSON object; of what is no text, whether it is true and its `str`. -/
inductive Field where
  | absent
  | text (s : String)
  | other (truthy : Bool) (s : String)

/-- `v or ""`, where that is a text. -/
def Field.orEmpty : Field → Option String
  | absent => some ""
  | text s => some s
  | other truthy _ => if truthy then none else some ""

/-- `str(v or "")`. -/
def Field.strOrEmpty : Field → String
  | absent => ""
  | text s => s
  | other truthy s => if truthy then s else ""

structure Body where
  telegramId : Field
  agentPubkey : Field
  token : Field

inductive Failure where
  /-- `GateError`: an answer of `allowed: false`. -/
  | refused (code message : String)
  /-- Any other exception. -/
  | raised (name : String)
deriving DecidableEq

/-- An answer of `allowed: true`. -/
inductive Answer (κ : Type) where
  | alreadyLinked (source : String)
  | tokenBurned (waitlistUserId : κ)

/-- What is not of the gate's own code: white space, and how an id is read by `uuid.UUID` and by the database. -/
structure Library (κ : Type) where
  isSpace : Char → Bool
  uuid : String → Bool
  uuidIn : String → Option κ

variable {κ : Type} [DecidableEq κ]

abbrev GateTxn (κ α : Type) := Txn (Row κ) Failure α

section

variable (lib : Library κ)

def strip (s : String) : String :=
  String.ofList (((s.toList.dropWhile lib.isSpace).reverse.dropWhile lib.isSpace).reverse)

/-- `validate`: the Telegram id, the agent's key and the token. -/
def validate (body : Body) : Except Failure (String × String × String) :=
  let telegramId := strip lib body.telegramId.strOrEmpty
  if telegramId = "" then .error (.refused "missing_telegram_id" "No Telegram account was supplied.")
  else
    match body.agentPubkey.orEmpty, body.token.orEmpty with
    | some agentPubkey, some token => .ok (telegramId, strip lib agentPubkey, strip lib token)
    | _, _ => .error (.raised "AttributeError")

def alreadyAdmitted (telegramId : String) : GateTxn κ (Option (AccountRow κ)) := .find (Key.account telegramId)

def linkAgent (agentPubkey : String) (userId : κ) : GateTxn κ Unit := do
  let inserted : Option κ ← .insert (Key.agent agentPubkey) userId
  if inserted.isSome then return
  let existing : Option κ ← .find (Key.agent agentPubkey)
  if existing = some userId then return
  .throw (.refused "agent_pubkey_bound_to_another_account"
    ("That agent identity is already registered to a different CELLO account. " ++
      "Your access token has not been used — use a fresh agent, or contact support."))

/-- `SET used_at = now() WHERE used_at IS NULL AND expires_at > now()`. -/
def TokenRow.burn (now : ℤ) (row : TokenRow κ) : Option (TokenRow κ) :=
  if row.usedAt = none ∧ now < row.expiresAt then some { row with usedAt := some now } else none

def burn (now : ℤ) (token telegramId agentPubkey : String) : GateTxn κ κ := do
  if ¬ lib.uuid token then
    .throw (.refused "token_malformed" "That does not look like a CELLO access token.")
  else
    match lib.uuidIn token with
    | none => .throw (.raised "DataError")
    | some token =>
      let row : Option (TokenRow κ) ← .update (Key.token token) (TokenRow.burn now)
      match row with
      | none =>
        let existing : Option (TokenRow κ) ← .find (Key.token token)
        match existing with
        | none => .throw (.refused "token_not_found" "That access token is not recognised.")
        | some existing =>
          if existing.usedAt.isSome then
            .throw (.refused "token_already_used" "That access token has already been used. Each one works once.")
          else
            .throw (.refused "token_expired"
              "That access token has expired. Access is released back to the pool after 14 days.")
      | some row =>
        let linked : Option (AccountRow κ) ← .insert (Key.account telegramId)
          (⟨some row.waitlistUserId, "waitlist_token"⟩ : AccountRow κ)
        if linked.isNone then
          .throw (.refused "telegram_account_already_linked"
            ("That Telegram account was linked to CELLO a moment ago. " ++
              "Your access token has not been spent — start the link again and it will go through."))
        else
          if agentPubkey ≠ "" then linkAgent agentPubkey row.waitlistUserId
          return row.waitlistUserId

/-- `check`, up to its commit; `now` is the time at which the transaction began. -/
def check (now : ℤ) (body : Body) : GateTxn κ (Answer κ) :=
  match validate lib body with
  | .error e => .throw e
  | .ok (telegramId, agentPubkey, token) => do
    let existing ← alreadyAdmitted telegramId
    match existing with
    | some existing =>
      match existing.waitlistUserId with
      | some userId =>
        if agentPubkey ≠ "" then linkAgent agentPubkey userId
        return .alreadyLinked existing.source
      | none => return .alreadyLinked existing.source
    | none =>
      if token = "" then
        .throw (.refused "token_required"
          ("This Telegram account is not linked to CELLO yet. " ++
            "Send the access token from your invitation email to continue."))
      else
        let userId ← burn lib now token telegramId agentPubkey
        return .tokenBurned userId

end

/-! ### What a call writes -/

def Legal : Write (Row κ) → Prop
  | ⟨.token _, old, _⟩ => ∃ row : TokenRow κ, old = some row ∧ row.usedAt = none
  | ⟨.account _, old, _⟩ => old = none
  | ⟨.agent _, old, _⟩ => old = none

def Final : ∀ k : Key κ, Row κ k → Prop
  | .token _, row => (show TokenRow κ from row).usedAt ≠ none
  | .account _, _ => True
  | .agent _, _ => True

def burns (t : κ) (row : TokenRow κ) (now : ℤ) : Write (Row κ) :=
  ⟨.token t, some row, ({ row with usedAt := some now } : TokenRow κ)⟩

def admits (telegramId : String) (userId : κ) : Write (Row κ) :=
  ⟨.account telegramId, none, (⟨some userId, "waitlist_token"⟩ : AccountRow κ)⟩

def binds (agentPubkey : String) (userId : κ) : Write (Row κ) := ⟨.agent agentPubkey, none, userId⟩

omit [DecidableEq κ] in
theorem legal_keepsFinal : KeepsFinal (Legal (κ := κ)) Final := by
  rintro ⟨k, old, new⟩ hlegal v hold hfinal
  cases k with
  | token t =>
    obtain ⟨row, hrow, hunused⟩ := hlegal
    cases Option.some.inj (hold.symm.trans hrow)
    exact hfinal hunused
  | account _ => cases hold.symm.trans hlegal
  | agent _ => cases hold.symm.trans hlegal

/-- What a call has done when it answers. -/
def Does (lib : Library κ) (now : ℤ) (body : Body) (ws : List (Write (Row κ)))
    (seen : List (Σ k, Option (Row κ k))) (answer : Answer κ) : Prop :=
  ∃ telegramId agentPubkey token, validate lib body = .ok (telegramId, agentPubkey, token) ∧
    match answer with
    | .alreadyLinked source => ∃ row : AccountRow κ, ⟨.account telegramId, some row⟩ ∈ seen ∧ row.source = source ∧
        (ws = [] ∨ ∃ userId, row.waitlistUserId = some userId ∧ ws = [binds agentPubkey userId])
    | .tokenBurned userId => ∃ (t : κ) (row : TokenRow κ) (bound : List (Write (Row κ))),
        lib.uuidIn token = some t ∧ row.usedAt = none ∧ now < row.expiresAt ∧ row.waitlistUserId = userId ∧
        ws = burns t row now :: admits telegramId userId :: bound ∧ (bound = [] ∨ bound = [binds agentPubkey userId])

theorem ensures_linkAgent {Q : List (Write (Row κ)) → List (Σ k, Option (Row κ k)) → Unit → Prop}
    {ws : List (Write (Row κ))} {seen : List (Σ k, Option (Row κ k))} {agentPubkey : String} {userId : κ}
    (hsame : ∀ found, Q ws (seen ++ [⟨.agent agentPubkey, found⟩]) ())
    (hnew : Q (ws ++ [binds agentPubkey userId]) seen ()) :
    (linkAgent agentPubkey userId).Ensures Legal Q ws seen := by
  refine fun found => ?_
  cases found with
  | some bound =>
    refine ⟨fun _ => fun existing => ?_, fun new hf => ?_⟩
    · exact .ite (fun _ => hsame existing) fun _ => trivial
    · cases hf
  | none =>
    refine ⟨fun hf => ?_, fun new hf => ?_⟩
    · cases hf
    · cases hf
      exact ⟨rfl, hnew⟩

theorem ensures_optional {α : Type} {Q : List (Write (Row κ)) → List (Σ k, Option (Row κ k)) → α → Prop}
    {ws : List (Write (Row κ))} {seen : List (Σ k, Option (Row κ k))} {agentPubkey : String} {userId : κ}
    {answer : α} (hplain : ∀ seen', seen ⊆ seen' → Q ws seen' answer)
    (hbound : Q (ws ++ [binds agentPubkey userId]) seen answer) :
    (do
      if agentPubkey ≠ "" then linkAgent agentPubkey userId
      return answer : GateTxn κ α).Ensures Legal Q ws seen := by
  refine .ite (fun _ => ?_) fun _ => hplain seen (List.Subset.refl seen)
  refine .bind (ensures_linkAgent ?_ hbound)
  exact fun found => hplain _ (List.subset_append_left _ _)

/-- **What a burn has done**: a token is used that was not, and the account is inserted. -/
theorem ensures_burn {lib : Library κ} {now : ℤ} {token telegramId agentPubkey : String}
    {Q : List (Write (Row κ)) → List (Σ k, Option (Row κ k)) → κ → Prop} {seen : List (Σ k, Option (Row κ k))}
    (h : ∀ (t : κ) (row : TokenRow κ) (bound : List (Write (Row κ))) (seen' : List (Σ k, Option (Row κ k))),
      lib.uuidIn token = some t → row.usedAt = none → now < row.expiresAt →
      bound = [] ∨ bound = [binds agentPubkey row.waitlistUserId] →
      Q (burns t row now :: admits telegramId row.waitlistUserId :: bound) seen' row.waitlistUserId) :
    (burn lib now token telegramId agentPubkey).Ensures Legal Q [] seen := by
  refine .ite (fun _ => trivial) fun _ => ?_
  cases ht : lib.uuidIn token with
  | none => trivial
  | some t =>
    refine fun found => ⟨fun _ existing => ?_, fun new hnew => ?_⟩
    · cases existing with
      | none => trivial
      | some existing => exact .ite (fun _ => trivial) fun _ => trivial
    · obtain ⟨row, rfl, hburn⟩ := Option.bind_eq_some_iff.1 hnew
      rw [TokenRow.burn] at hburn
      split at hburn
      · rename_i hlive
        cases hburn
        refine ⟨⟨row, rfl, hlive.1⟩, fun linked => ⟨fun _ => trivial, fun account haccount => ?_⟩⟩
        cases linked with
        | some _ => cases haccount
        | none =>
          cases haccount
          refine ⟨rfl, ?_⟩
          refine ensures_optional (fun seen' _ => ?_) ?_
          · exact h t row [] seen' ht hlive.1 hlive.2 (.inl rfl)
          · exact h t row _ _ ht hlive.1 hlive.2 (.inr rfl)
      · cases hburn

theorem ensures_check (lib : Library κ) (now : ℤ) (body : Body) :
    (check lib now body).Ensures Legal (Does lib now body) [] [] := by
  unfold check
  cases hbody : validate lib body with
  | error e => trivial
  | ok call =>
    obtain ⟨telegramId, agentPubkey, token⟩ := call
    dsimp only
    refine fun existing => ?_
    cases existing with
    | some row =>
      obtain ⟨waitlistUserId, source⟩ := row
      cases waitlistUserId with
      | none => exact ⟨telegramId, agentPubkey, token, hbody, _, List.mem_singleton_self _, rfl, .inl rfl⟩
      | some userId =>
        refine ensures_optional (fun seen' hseen => ?_) ?_
        · exact ⟨telegramId, agentPubkey, token, hbody, _, hseen (List.mem_singleton_self _), rfl, .inl rfl⟩
        · exact ⟨telegramId, agentPubkey, token, hbody, _, List.mem_singleton_self _, rfl, .inr ⟨userId, rfl, rfl⟩⟩
    | none =>
      refine .ite (fun _ => trivial) fun _ => .bind (ensures_burn fun t row bound seen' ht hunused hfresh hbound => ?_)
      exact ⟨telegramId, agentPubkey, token, hbody, t, row, bound, ht, hunused, hfresh, rfl, rfl, hbound⟩

/-! ### The law -/

def BindsAtMost (agentPubkey : String) (userId : κ) (db db' : Store (Row κ)) : Prop :=
  ∀ k, db' (.agent k) = db (.agent k) ∨ k = agentPubkey ∧ db (.agent k) = none ∧ db' (.agent k) = some userId

/-- The caller has an account, and nothing but a key is new. -/
def Admits (lib : Library κ) (body : Body) (db db' : Store (Row κ)) (source : String) : Prop :=
  ∃ (telegramId agentPubkey token : String) (row : AccountRow κ),
    validate lib body = .ok (telegramId, agentPubkey, token) ∧
    db' (.account telegramId) = some row ∧ row.source = source ∧
    (∀ t, db' (.token t) = db (.token t)) ∧ (∀ id, db' (.account id) = db (.account id)) ∧
    ((∀ k, db' (.agent k) = db (.agent k)) ∨
      ∃ userId, row.waitlistUserId = some userId ∧ BindsAtMost agentPubkey userId db db')

/-- One token is used, that was live and was not used; and one account is new, the caller's, for the user whose token
it was. -/
def Redeems (lib : Library κ) (now : ℤ) (body : Body) (db db' : Store (Row κ)) (userId : κ) : Prop :=
  ∃ (telegramId agentPubkey token : String) (t : κ) (row : TokenRow κ),
    validate lib body = .ok (telegramId, agentPubkey, token) ∧ lib.uuidIn token = some t ∧
    db (.token t) = some row ∧ row.usedAt = none ∧ now < row.expiresAt ∧ row.waitlistUserId = userId ∧
    db' (.token t) = some ({ row with usedAt := some now } : TokenRow κ) ∧
    (∀ t', t' ≠ t → db' (.token t') = db (.token t')) ∧
    db (.account telegramId) = none ∧
    db' (.account telegramId) = some (⟨some userId, "waitlist_token"⟩ : AccountRow κ) ∧
    (∀ id, id ≠ telegramId → db' (.account id) = db (.account id)) ∧ BindsAtMost agentPubkey userId db db'

theorem apply_bound {db : Store (Row κ)} {bound : List (Write (Row κ))} {agentPubkey : String} {userId : κ}
    (hbound : bound = [] ∨ bound = [binds agentPubkey userId]) (hexact : Exact db bound) :
    (∀ t, apply db bound (.token t) = db (.token t)) ∧ (∀ id, apply db bound (.account id) = db (.account id)) ∧
      BindsAtMost agentPubkey userId db (apply db bound) := by
  rcases hbound with rfl | rfl
  · exact ⟨fun _ => rfl, fun _ => rfl, fun _ => .inl rfl⟩
  · have hother : ∀ k, Key.agent agentPubkey ≠ k → apply db [binds agentPubkey userId] k = db k :=
      fun k hk => put_of_ne db (w := binds agentPubkey userId) hk
    refine ⟨fun t => hother _ (by simp), fun id => hother _ (by simp), fun k => ?_⟩
    by_cases hk : agentPubkey = k
    · subst hk
      exact .inr ⟨rfl, hexact.1, Function.update_self _ _ _⟩
    · exact .inl (hother _ fun heq => hk (Key.agent.inj heq))

/-- The statements of the calls that a gate is asked, each at its own time. -/
def gate {ι : Type} (lib : Library κ) (calls : ι → ℤ × Body) (i : ι) : GateTxn κ (Answer κ) :=
  check lib (calls i).1 (calls i).2

section

variable {ι : Type} [DecidableEq ι] {lib : Library κ} {calls : ι → ℤ × Body}
  {s s' : Server (Row κ) Failure (Answer κ) ι}

abbrev GateSound (lib : Library κ) (calls : ι → ℤ × Body) (s : Server (Row κ) Failure (Answer κ) ι) : Prop :=
  Sound Legal Final (fun i => Does lib (calls i).1 (calls i).2) s

theorem admits_of_commit (h : GateSound lib calls s) {i : ι} {source : String}
    (hstep : Step (gate lib calls) s (.commits i (.alreadyLinked source)) s') :
    Admits lib (calls i).2 s.db s'.db source := by
  obtain ⟨ws, seen, hexact, hdb, hseen, telegramId, agentPubkey, token, hbody, row, hrow, hsource, hws⟩ :=
    h.commit hstep
  have haccount := hseen _ _ hrow trivial
  refine ⟨telegramId, agentPubkey, token, row, hbody, haccount, hsource, ?_⟩
  rw [hdb]
  rcases hws with rfl | ⟨userId, huser, rfl⟩
  · exact ⟨fun _ => rfl, fun _ => rfl, .inl fun _ => rfl⟩
  · obtain ⟨htokens, haccounts, hbinds⟩ := apply_bound (.inr rfl) hexact
    exact ⟨htokens, haccounts, .inr ⟨userId, huser, hbinds⟩⟩

theorem redeems_of_commit (h : GateSound lib calls s) {i : ι} {userId : κ}
    (hstep : Step (gate lib calls) s (.commits i (.tokenBurned userId)) s') :
    Redeems lib (calls i).1 (calls i).2 s.db s'.db userId := by
  obtain ⟨ws, seen, hexact, hdb, -, telegramId, agentPubkey, token, hbody, t, row, bound, ht, hunused, hfresh, huser,
    rfl, hbound⟩ := h.commit hstep
  generalize (calls i).1 = now at *
  obtain ⟨htoken, haccount, hexact⟩ := hexact
  obtain ⟨htokens, haccounts, hbinds⟩ := apply_bound hbound hexact
  have hburns : ∀ k, Key.token t ≠ k → put s.db (burns t row now) k = s.db k := fun k hk =>
    put_of_ne s.db (w := burns t row now) hk
  have hadmits : ∀ k, Key.account telegramId ≠ k →
      put (put s.db (burns t row now)) (admits telegramId userId) k = put s.db (burns t row now) k := fun k hk =>
    put_of_ne (put s.db (burns t row now)) (w := admits telegramId userId) hk
  refine ⟨telegramId, agentPubkey, token, t, row, hbody, ht, htoken, hunused, hfresh, huser, ?_, ?_, ?_, ?_, ?_, ?_⟩
  · rw [hdb]
    exact (htokens t).trans ((hadmits _ (by simp)).trans (Function.update_self _ _ _))
  · intro t' hne
    rw [hdb]
    exact (htokens t').trans ((hadmits _ (by simp)).trans (hburns _ (by simpa using hne.symm)))
  · exact (hburns _ (by simp)).symm.trans haccount
  · rw [hdb]
    exact (haccounts telegramId).trans (Function.update_self _ _ _)
  · intro id hne
    rw [hdb]
    exact (haccounts id).trans ((hadmits _ (by simpa using hne.symm)).trans (hburns _ (by simp)))
  · intro k
    rw [hdb]
    have hk := hbinds k
    rwa [hadmits _ (by simp), hburns _ (by simp)] at hk

/-- **A grant buys one admission or nothing**, however the statements of the calls interleave.  A call that does not
answer `allowed: true` changes nothing.  One that burns a token uses one that was not used, inserts the caller's account
for the user of the token, and uses no other; one that does not burn uses none.  What is used, admitted or bound stays
so. -/
theorem check_law {s₀ : Server (Row κ) Failure (Answer κ) ι} (hidle : ∀ i, s₀.opened i = none)
    (hreach : Reaches (gate lib calls) s₀ s) {l : Label Failure (Answer κ) ι} (hstep : Step (gate lib calls) s l s') :
    ((∀ i answer, l ≠ .commits i answer) → s'.db = s.db) ∧
    (∀ i source, l = .commits i (.alreadyLinked source) → Admits lib (calls i).2 s.db s'.db source) ∧
    (∀ i userId, l = .commits i (.tokenBurned userId) → Redeems lib (calls i).1 (calls i).2 s.db s'.db userId) ∧
    ∀ s'', Reaches (gate lib calls) s s'' →
      (∀ t, ∀ row : TokenRow κ, s.db (.token t) = some row → row.usedAt ≠ none → s''.db (.token t) = some row) ∧
      (∀ id, ∀ row : AccountRow κ, s.db (.account id) = some row → s''.db (.account id) = some row) ∧
      ∀ k, ∀ userId : κ, s.db (.agent k) = some userId → s''.db (.agent k) = some userId := by
  have hprogram : ∀ i, (gate lib calls i).Ensures Legal (Does lib (calls i).1 (calls i).2) [] [] :=
    fun i => ensures_check lib _ _
  have hsound : GateSound lib calls s := hreach.sound legal_keepsFinal hprogram hidle
  refine ⟨db_of_step hstep, ?_, ?_, ?_⟩
  · rintro i source rfl
    exact admits_of_commit hsound hstep
  · rintro i userId rfl
    exact redeems_of_commit hsound hstep
  · intro s'' hlater
    refine ⟨?_, ?_, ?_⟩
    · intro t row hrow hused
      exact hlater.stays legal_keepsFinal hprogram hsound hused hrow
    · intro id row hrow
      have hfinal : Final (.account id) row := trivial
      exact hlater.stays legal_keepsFinal hprogram hsound hfinal hrow
    · intro k userId huser
      have hfinal : Final (.agent k) userId := trivial
      exact hlater.stays legal_keepsFinal hprogram hsound hfinal huser

end

/-! ### Two calls and one token -/

namespace Sample

def lib : Library ℕ where
  isSpace _ := false
  uuid s := decide (s = "3b241101-e2bb-4255-8caf-4136c566a962")
  uuidIn s := if s = "3b241101-e2bb-4255-8caf-4136c566a962" then some 1 else none

/-- Two accounts send one token. -/
def calls (i : Bool) : ℤ × Body :=
  (if i then 6 else 5, ⟨.text (if i then "43" else "42"), .absent, .text "3b241101-e2bb-4255-8caf-4136c566a962"⟩)

def unused : TokenRow ℕ := ⟨7, 1, none, 10⟩

def used : TokenRow ℕ := ⟨7, 1, some 5, 10⟩

def oneToken : Store (Row ℕ)
  | .token t => if t = 1 then some unused else none
  | .account _ => none
  | .agent _ => none

abbrev GateServer := Server (Row ℕ) Failure (Answer ℕ) Bool

abbrev OpenCall := Open (Row ℕ) Failure (Answer ℕ)

def server (db : Store (Row ℕ)) (first second : Option OpenCall) : GateServer where
  db := db
  opened i := if i then second else first

theorem set_first (db : Store (Row ℕ)) (first second o : Option OpenCall) :
    (server db first second).set false o = server db o second := by
  refine congrArg (Server.mk db) (funext fun i => ?_)
  cases i <;> rfl

theorem set_second (db : Store (Row ℕ)) (first second o : Option OpenCall) :
    (server db first second).set true o = server db first o := by
  refine congrArg (Server.mk db) (funext fun i => ?_)
  cases i <;> rfl

theorem idle (i : Bool) : (server oneToken none none).opened i = none := by
  cases i <;> rfl

theorem first_call : ∃ asked burning burned admitting admitted,
    gate lib calls false = .select (.account "42") asked ∧
      asked none = .write (.token 1) burning burned ∧ burning (some unused) = some used ∧
      burned (some used) = .write (.account "42") admitting admitted ∧
      admitting none = some (⟨some 7, "waitlist_token"⟩ : AccountRow ℕ) ∧
      admitted (some (⟨some 7, "waitlist_token"⟩ : AccountRow ℕ)) = .pure (.tokenBurned 7) := by
  have hvalidate : validate lib (calls false).2 = .ok ("42", "", "3b241101-e2bb-4255-8caf-4136c566a962") := by
    decide
  exact ⟨_, _, _, _, _, by rw [gate, check, hvalidate]; rfl, by rfl, by rfl, by rfl, by rfl, by rfl⟩

def alreadyUsed : Failure :=
  .refused "token_already_used" "That access token has already been used. Each one works once."

theorem second_call : ∃ asked burning burned looked,
    gate lib calls true = .select (.account "43") asked ∧
      asked none = .write (.token 1) burning burned ∧ burning (some used) = none ∧
      burned none = .select (.token 1) looked ∧ looked (some used) = .throw alreadyUsed := by
  have hvalidate : validate lib (calls true).2 = .ok ("43", "", "3b241101-e2bb-4255-8caf-4136c566a962") := by
    decide
  exact ⟨_, _, _, _, by rw [gate, check, hvalidate]; rfl, by rfl, by rfl, by rfl, by rfl⟩

/-- Both calls have begun, and neither has found an account. -/
def asked (first second : GateTxn ℕ (Answer ℕ)) : GateServer :=
  server oneToken (some ⟨[], [⟨.account "42", none⟩], first⟩) (some ⟨[], [⟨.account "43", none⟩], second⟩)

theorem both_asked {next next' : Option (AccountRow ℕ) → GateTxn ℕ (Answer ℕ)}
    (hfirst : gate lib calls false = .select (.account "42") next)
    (hsecond : gate lib calls true = .select (.account "43") next') :
    Reaches (gate lib calls) (server oneToken none none) (asked (next none) (next' none)) := by
  have hbegun :=
    Reaches.step .refl (show Step (gate lib calls) (server oneToken none none) _ _ from .begins (idle false))
  rw [set_first, hfirst] at hbegun
  have hboth := hbegun.step (.begins (i := true) rfl)
  rw [set_second, hsecond] at hboth
  have hasked := hboth.step (.selects (i := false) rfl)
  rw [set_first] at hasked
  have hdone := hasked.step (.selects (i := true) rfl)
  rw [set_second] at hdone
  exact hdone

def firstWrites : List (Write (Row ℕ)) := [burns 1 unused 5, admits "42" 7]

/-- The second call while it has written nothing. -/
def waiting (second : GateTxn ℕ (Answer ℕ)) : OpenCall := ⟨[], [⟨.account "43", none⟩], second⟩

theorem first_ends : ∃ (next : Option (AccountRow ℕ) → GateTxn ℕ (Answer ℕ)) (seen : List (Σ k, Option (Row ℕ k))),
    gate lib calls false = .select (.account "42") next ∧
      ∀ second, Reaches (gate lib calls) (asked (next none) second)
        (server oneToken (some ⟨firstWrites, seen, .pure (.tokenBurned 7)⟩) (some (waiting second))) := by
  obtain ⟨next, burning, burned, admitting, admitted, hasks, hburns, hburn, hadmits, hadmit, hanswers⟩ := first_call
  refine ⟨next, [⟨.account "42", none⟩], hasks, fun second => ?_⟩
  have hfree : ∀ (o : Option OpenCall) (k : Key ℕ), Free (server oneToken o (some (waiting second))) false k := by
    intro o k j o' hj ho' w hw
    cases j with
    | false => exact absurd rfl hj
    | true =>
      obtain rfl := Option.some.inj ho'
      cases hw
  rw [hburns]
  have hburned := Reaches.step .refl (show Step (gate lib calls) (asked (.write (.token 1) burning burned) second) _ _
    from .writes (i := false) rfl (hfree _ _) hburn)
  rw [hadmits, asked, set_first] at hburned
  have hadmitted := hburned.step (.writes (i := false) rfl (hfree _ _) hadmit)
  rw [hanswers, set_first] at hadmitted
  exact hadmitted

theorem second_ends : ∃ (next : Option (AccountRow ℕ) → GateTxn ℕ (Answer ℕ)) (t t' : GateServer),
    gate lib calls true = .select (.account "43") next ∧
      Reaches (gate lib calls) (server (apply oneToken firstWrites) none (some (waiting (next none)))) t ∧
      Step (gate lib calls) t (.refuses true alreadyUsed) t' ∧ t.db (.token 1) = some used := by
  obtain ⟨next, burning, burned, looked, hasks, hburns, hburn, hlooks, hrefuses⟩ := second_call
  have hleft := Reaches.step .refl (show Step (gate lib calls)
    (server (apply oneToken firstWrites) none (some (waiting (.write (.token 1) burning burned)))) _ _
    from .leaves (i := true) rfl hburn)
  rw [hlooks, set_second] at hleft
  have hlooked := hleft.step (.selects (i := true) rfl)
  rw [set_second, show looked (apply (server (apply oneToken firstWrites) _ _).db [] (.token 1)) = .throw alreadyUsed
    from hrefuses] at hlooked
  rw [← hburns] at hlooked
  exact ⟨next, _, _, hasks, hlooked, .refuses rfl, rfl⟩

end Sample

open Sample in
/-- **Two calls race for a token**: the first admits who sent it, and the second is refused and leaves it used. -/
theorem check_law_of_two_calls :
    ∃ s s' t t' : GateServer, Reaches (gate lib calls) (server oneToken none none) s ∧
      Step (gate lib calls) s (.commits false (.tokenBurned 7)) s' ∧
      Redeems lib 5 (calls false).2 s.db s'.db 7 ∧ Reaches (gate lib calls) s' t ∧
      Step (gate lib calls) t (.refuses true alreadyUsed) t' ∧ t'.db = t.db ∧ t'.db (.token 1) = some used := by
  obtain ⟨next, seen, hasks, hends⟩ := first_ends
  obtain ⟨next', t, t', hasks', hreach, hrefuses, hused⟩ := second_ends
  have hdone := (both_asked hasks hasks').trans (hends _)
  have hcommit : Step (gate lib calls)
      (server oneToken (some ⟨firstWrites, seen, .pure (.tokenBurned 7)⟩) (some (waiting (next' none))))
      (.commits false (.tokenBurned 7))
      (server (apply oneToken firstWrites) none (some (waiting (next' none)))) := by
    have hstep : Step (gate lib calls)
        (server oneToken (some ⟨firstWrites, seen, .pure (.tokenBurned 7)⟩) (some (waiting (next' none))))
        (.commits false (.tokenBurned 7)) _ := .commits rfl
    rw [set_first] at hstep
    exact hstep
  have hlaw := check_law idle hdone hcommit
  have hafter := check_law idle ((hdone.step hcommit).trans hreach) hrefuses
  have hsame : t'.db = t.db := hafter.1 fun i answer h => by cases h
  refine ⟨_, _, t, t', hdone, hcommit, hlaw.2.2.1 false 7 rfl, hreach, hrefuses, hsame, ?_⟩
  rw [hsame]
  exact hused

end Cello.Waitlist.Gate
