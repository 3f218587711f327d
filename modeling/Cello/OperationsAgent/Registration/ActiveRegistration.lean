import Cello.OperationsAgent.Registration.TerminalStates

/-!
# The active registration of a user

What a write does to the states of the registrations, and to the one that is active for a user: at most one is,
as long as the messages of the user are handled one after another.
-/

namespace Cello.OperationsAgent.Registration

variable {db db' : Database} {w : Write} {r : RegistrationRow} {user user' id id' : String}
  {st : RegistrationState} {a : Option (String × RegistrationState)}

/-! ### States -/

def Write.stateOf (w : Write) (r : RegistrationRow) : RegistrationState :=
  match w.movesTo with
  | some (id, st) => if id = r.id then st else r.state
  | none => r.state

theorem change_facts {f : RegistrationRow → RegistrationRow} (h : w.change = some (id, f)) (hid : r.id = id) :
    (f r).id = r.id ∧ (f r).channelUserId = r.channelUserId ∧ (f r).state = w.stateOf r := by
  obtain ⟨hsame, huser⟩ := change_keeps h r
  refine ⟨hsame, huser, ?_⟩
  subst hid
  unfold Write.stateOf
  cases w <;> cases h
  case transition => exact (if_pos rfl).symm
  case transitionOnOtpLockout => exact (if_pos rfl).symm
  case incrementOtpAttempt => rfl
  case recordContactPrompt => rfl

theorem stateOf_other (h : ∀ id f, w.change = some (id, f) → r.id ≠ id) : w.stateOf r = r.state := by
  unfold Write.stateOf
  cases hmoves : w.movesTo with
  | none => rfl
  | some m =>
    obtain ⟨id, st⟩ := m
    obtain ⟨f, hchange⟩ := change_of_movesTo hmoves
    exact if_neg fun hid => h id f hchange hid.symm

/-- **The ids, states and users of the rows after a write.** -/
theorem exists_row_apply {P : String → RegistrationState → String → Prop} (happly : w.apply db = some db') :
    (∃ r ∈ db'.rows, P r.id r.state r.channelUserId) ↔
      (∃ row, w = .insert row ∧ P row.id row.state row.channelUserId) ∨
        ∃ r ∈ db.rows, P r.id (w.stateOf r) r.channelUserId := by
  constructor
  · rintro ⟨r, hr, hP⟩
    have hall : ∀ r ∈ db'.rows, P r.id r.state r.channelUserId → (∃ row, w = .insert row ∧
        P row.id row.state row.channelUserId) ∨ ∃ r ∈ db.rows, P r.id (w.stateOf r) r.channelUserId := by
      refine forall_rows_of_apply (Q := fun r => r ∈ db.rows) happly (fun r hr => hr)
        (fun row hw hP => .inl ⟨row, hw, hP⟩) (fun id f hw r hr hid _ hP => ?_) fun r hr hother _ hP => ?_
      · obtain ⟨hsame, huser, hstate⟩ := change_facts hw hid
        rw [hsame, huser, hstate] at hP
        exact .inr ⟨r, hr, hP⟩
      · refine .inr ⟨r, hr, ?_⟩
        rw [stateOf_other hother]
        exact hP
    exact hall r hr hP
  · rintro (⟨row, rfl, hP⟩ | ⟨r, hr, hP⟩)
    · exact ⟨row, (insert_rows happly).2 ▸ List.mem_append_right _ List.mem_cons_self, hP⟩
    · obtain ⟨row, rfl, -, hrows⟩ | ⟨id, f, hchange, hrows⟩ | ⟨hnone, hrows⟩ := apply_rows happly
      · exact ⟨r, hrows ▸ List.mem_append_left _ hr, hP⟩
      · by_cases hid : r.id = id
        · obtain ⟨hsame, huser, hstate⟩ := change_facts hchange hid
          rw [← hsame, ← huser, ← hstate] at hP
          exact ⟨f r, hrows ▸ mem_updateRow_iff.2 (.inl ⟨r, hr, hid, rfl⟩), hP⟩
        · rw [stateOf_other fun id' f' h => by cases hchange.symm.trans h; exact hid] at hP
          exact ⟨r, hrows ▸ mem_updateRow_iff.2 (.inr ⟨hr, hid⟩), hP⟩
      · rw [stateOf_other fun id' f' h => by cases hnone.symm.trans h] at hP
        exact ⟨r, hrows ▸ hr, hP⟩

/-! ### The active registration -/

def ActiveIs (db : Database) (user : String) (a : Option (String × RegistrationState)) : Prop :=
  ∀ id st, a = some (id, st) ↔
    ∃ r ∈ db.rows, r.id = id ∧ r.state = st ∧ r.channelUserId = user ∧ st.terminal = false

def activeIn (id : String) (st : RegistrationState) : Option (String × RegistrationState) :=
  if st.terminal then none else some (id, st)

theorem ActiveIs.unique {b : Option (String × RegistrationState)} (h : ActiveIs db user a)
    (h' : ActiveIs db user b) : a = b := by
  cases a with
  | none =>
    cases b with
    | none => rfl
    | some p => exact absurd ((h p.1 p.2).2 ((h' p.1 p.2).1 rfl)) (by simp)
  | some p => exact ((h' p.1 p.2).2 ((h p.1 p.2).1 rfl)).symm

theorem ActiveIs.of_findActive_none (h : ActiveIs db user a) (hfind : db.findActive user = none) : a = none := by
  cases a with
  | none => rfl
  | some p =>
    obtain ⟨r, hr, -, hstate, huser, hlive⟩ := (h p.1 p.2).1 rfl
    have hnot := List.find?_eq_none.1 hfind r hr
    rw [← hstate] at hlive
    simp [huser, hlive] at hnot

theorem ActiveIs.of_findActive (h : ActiveIs db user a) (hfind : db.findActive user = some r) :
    a = some (r.id, r.state) := by
  obtain ⟨hr, hlive⟩ := findActive_live hfind
  have hfound := List.find?_some hfind
  rw [Bool.and_eq_true, decide_eq_true_eq] at hfound
  exact (h r.id r.state).2 ⟨r, hr, rfl, rfl, hfound.1, hlive⟩

theorem ActiveIs.row (h : ActiveIs db user (some (id, st))) :
    ∃ r ∈ db.rows, r.id = id ∧ r.state = st ∧ r.channelUserId = user ∧ st.terminal = false := (h id st).1 rfl

theorem ActiveIs.user_of_id (hnodup : (db.rows.map RegistrationRow.id).Nodup)
    (h : ActiveIs db user (some (id, st))) (hr : r ∈ db.rows) (hid : r.id = id) : r.channelUserId = user := by
  obtain ⟨r₀, hr₀, hid₀, -, huser, -⟩ := h.row
  rw [List.inj_on_of_nodup_map hnodup hr hr₀ (hid.trans hid₀.symm), huser]

theorem ActiveIs.still (h : ActiveIs db user a) (happly : w.apply db = some db') (hmoves : w.movesTo = none)
    (hkept : ∀ row, w ≠ .insert row) : ActiveIs db' user a := by
  intro id st
  rw [h id st, exists_row_apply (P := fun id' st' u => id' = id ∧ st' = st ∧ u = user ∧ st.terminal = false) happly]
  have hstate : ∀ r, w.stateOf r = r.state := fun r => by rw [Write.stateOf, hmoves]
  constructor
  · rintro ⟨r, hr, hP⟩
    exact .inr ⟨r, hr, by rw [hstate]; exact hP⟩
  · rintro (⟨row, hw, -⟩ | ⟨r, hr, hP⟩)
    · exact absurd hw (hkept row)
    · exact ⟨r, hr, by rw [hstate] at hP; exact hP⟩

theorem ActiveIs.moved {st' : RegistrationState} (h : ActiveIs db user (some (id, st)))
    (hnodup : (db.rows.map RegistrationRow.id).Nodup) (happly : w.apply db = some db')
    (hmoves : w.movesTo = some (id, st')) : ActiveIs db' user (activeIn id st') := by
  have hkept : ∀ row, w ≠ .insert row := fun row hw => by rw [hw] at hmoves; cases hmoves
  obtain ⟨r₀, hr₀, hid₀, -, huser₀, -⟩ := h.row
  have hstate : w.stateOf r₀ = st' := by rw [Write.stateOf, hmoves]; exact if_pos hid₀.symm
  intro id₁ st₁
  rw [exists_row_apply (P := fun id' st' u => id' = id₁ ∧ st' = st₁ ∧ u = user ∧ st₁.terminal = false) happly]
  constructor
  · intro hactive
    unfold activeIn at hactive
    split at hactive
    · cases hactive
    next hlive =>
      cases hactive
      exact .inr ⟨r₀, hr₀, hid₀, hstate, huser₀, by simpa using hlive⟩
  · rintro (⟨row, hw, -⟩ | ⟨r, hr, hid, hst, huser, hlive⟩)
    · exact absurd hw (hkept row)
    · by_cases hsame : r.id = id
      · obtain rfl : r = r₀ := List.inj_on_of_nodup_map hnodup hr hr₀ (hsame.trans hid₀.symm)
        rw [hstate] at hst
        rw [← hid, ← hst] at *
        unfold activeIn
        rw [hlive, hsame]
        rfl
      · have hother : w.stateOf r = r.state := by
          rw [Write.stateOf, hmoves]
          exact if_neg fun h => hsame h.symm
        rw [hother] at hst
        have hthis := (h r.id r.state).2 ⟨r, hr, rfl, rfl, huser, hst ▸ hlive⟩
        exact absurd (Prod.mk.inj (Option.some.inj hthis)).1.symm hsame

theorem ActiveIs.inserted {row : RegistrationRow} (h : ActiveIs db user none) (huser : row.channelUserId = user)
    (hlive : row.state.terminal = false) (happly : (Write.insert row).apply db = some db') :
    ActiveIs db' user (some (row.id, row.state)) := by
  intro id st
  rw [exists_row_apply (P := fun id' st' u => id' = id ∧ st' = st ∧ u = user ∧ st.terminal = false) happly]
  constructor
  · rintro ⟨⟩
    exact .inl ⟨row, rfl, rfl, rfl, huser, hlive⟩
  · rintro (⟨row', hw, hid, hst, -⟩ | ⟨r, hr, hid, hst, hruser, hlive'⟩)
    · cases hw
      rw [hid, hst]
    · have hthis := (h r.id r.state).2 ⟨r, hr, rfl, rfl, hruser, by rw [← hst] at hlive'; exact hlive'⟩
      cases hthis

theorem ActiveIs.other (h : ActiveIs db user' a) (happly : w.apply db = some db')
    (hinsert : ∀ row, w = .insert row → row.channelUserId ≠ user')
    (hmoves : ∀ id st, w.movesTo = some (id, st) → ∀ r ∈ db.rows, r.id = id → r.channelUserId ≠ user') :
    ActiveIs db' user' a := by
  intro id st
  rw [h id st, exists_row_apply (P := fun id' st' u => id' = id ∧ st' = st ∧ u = user' ∧ st.terminal = false)
    happly]
  have hstate : ∀ r ∈ db.rows, r.channelUserId = user' → w.stateOf r = r.state := by
    intro r hr huser
    unfold Write.stateOf
    split
    next id' st' hw => exact if_neg fun hid => hmoves id' st' hw r hr hid.symm huser
    · rfl
  constructor
  · rintro ⟨r, hr, hid, hst, huser, hlive⟩
    exact .inr ⟨r, hr, hid, (hstate r hr huser).trans hst, huser, hlive⟩
  · rintro (⟨row, hw, -, -, huser, -⟩ | ⟨r, hr, hid, hst, huser, hlive⟩)
    · exact absurd huser (hinsert row hw)
    · exact ⟨r, hr, hid, (hstate r hr huser).symm.trans hst, huser, hlive⟩

/-! ### The reminders of a row -/

theorem find_updateRow {f : RegistrationRow → RegistrationRow} (hf : ∀ r, (f r).id = r.id)
    (rows : List RegistrationRow) : (updateRow id' f rows).find? (fun r => decide (r.id = id)) =
      (rows.find? fun r => decide (r.id = id)).map fun r => if id = id' then f r else r := by
  induction rows with
  | nil => rfl
  | cons r rows ih =>
    unfold updateRow at ih ⊢
    rw [List.map_cons, List.find?_cons, List.find?_cons]
    have hhead : (if r.id = id' then f r else r).id = r.id := by
      split
      · exact hf r
      · rfl
    rw [hhead]
    by_cases hid : r.id = id
    · rw [decide_eq_true hid, hid]
      rfl
    · rw [decide_eq_false hid]
      exact ih

theorem contactPromptCount_other (happly : w.apply db = some db') (hid : id ∈ db.rows.map RegistrationRow.id)
    (hother : ∀ f, w.change ≠ some (id, f)) : db'.contactPromptCount id = db.contactPromptCount id := by
  unfold Database.contactPromptCount
  obtain ⟨row, -, -, hrows⟩ | ⟨id', f, hchange, hrows⟩ | ⟨-, hrows⟩ := apply_rows happly
  · rw [hrows, List.find?_append]
    obtain ⟨r, hr, hrid⟩ := List.mem_map.1 hid
    have hsome : (db.rows.find? fun r => decide (r.id = id)).isSome := by
      rw [List.find?_isSome]
      exact ⟨r, hr, decide_eq_true hrid⟩
    obtain ⟨r', hr'⟩ := Option.isSome_iff_exists.1 hsome
    rw [hr']
    rfl
  · have hne : id ≠ id' := fun h => hother f (h ▸ hchange)
    rw [hrows, find_updateRow fun r => (change_keeps hchange r).1]
    simp only [if_neg hne, Option.map_id']
  · rw [hrows]

theorem contactPromptCount_recorded {n : ℕ} (happly : (Write.recordContactPrompt id n).apply db = some db')
    (hid : id ∈ db.rows.map RegistrationRow.id) : db'.contactPromptCount id = n := by
  unfold Database.contactPromptCount
  rw [← Option.some.inj happly]
  dsimp only
  rw [find_updateRow (f := RegistrationRow.prompted n) fun r => rfl]
  obtain ⟨r, hr, hrid⟩ := List.mem_map.1 hid
  have hsome : (db.rows.find? fun r => decide (r.id = id)).isSome := by
    rw [List.find?_isSome]
    exact ⟨r, hr, decide_eq_true hrid⟩
  obtain ⟨r', hr'⟩ := Option.isSome_iff_exists.1 hsome
  rw [hr', Option.map_some, if_pos rfl]
  rfl

end Cello.OperationsAgent.Registration
