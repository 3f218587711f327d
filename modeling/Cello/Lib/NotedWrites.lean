import Mathlib.Data.List.Basic

/-!
# Writes with notes

A procedure that writes to a store, step by step, and what an observer notes of it.  It may stop in front of any
of its writes, or at a write that the store refuses; what it does between two writes is noted even if the next
write is never made.  A note that belongs to a write is taken when the write is made.
-/

namespace Lib

variable {σ ω ν : Type*}

/-- A write with the notes that belong to it, or a note of its own. -/
inductive Action (ω ν : Type*) where
  | write (w : ω) (notes : List ν)
  | note (n : ν)
deriving DecidableEq, Repr

namespace Action

abbrev silent (w : ω) : Action ω ν := .write w []

def writes (acts : List (Action ω ν)) : List ω :=
  acts.filterMap fun
    | .write w _ => some w
    | .note _ => none

@[simp] theorem writes_write (w : ω) (notes : List ν) (rest : List (Action ω ν)) :
    writes (.write w notes :: rest) = w :: writes rest := rfl

@[simp] theorem writes_note (n : ν) (rest : List (Action ω ν)) :
    writes (.note n :: rest) = writes rest := rfl

@[simp] theorem writes_silent (ws : List ω) : writes (ws.map fun w => (silent w : Action ω ν)) = ws := by
  induction ws with
  | nil => rfl
  | cons w ws ih => exact congrArg (w :: ·) ih

@[simp] theorem writes_nil : writes ([] : List (Action ω ν)) = [] := rfl

def notes (acts : List (Action ω ν)) : List ν :=
  acts.flatMap fun
    | .write _ ns => ns
    | .note n => [n]

@[simp] theorem notes_write (w : ω) (ns : List ν) (rest : List (Action ω ν)) :
    notes (.write w ns :: rest) = ns ++ notes rest := rfl

@[simp] theorem notes_note (n : ν) (rest : List (Action ω ν)) :
    notes (.note n :: rest) = n :: notes rest := rfl

@[simp] theorem notes_silent (ws : List ω) : notes (ws.map fun w => (silent w : Action ω ν)) = [] := by
  induction ws with
  | nil => rfl
  | cons w ws ih => exact ih

@[simp] theorem notes_nil : notes ([] : List (Action ω ν)) = [] := rfl

section

variable (apply : σ → ω → Option σ)

/-- The store and the notes after a procedure that makes some number of its writes at most. -/
def perform : Option ℕ → σ → List ν → List (Action ω ν) → σ × List ν
  | _, s, l, [] => (s, l)
  | n, s, l, .note m :: rest => perform n s (l ++ [m]) rest
  | some 0, s, l, .write _ _ :: _ => (s, l)
  | some (n + 1), s, l, .write w notes :: rest =>
    match apply s w with
    | none => (s, l)
    | some s' => perform (some n) s' (l ++ notes) rest
  | none, s, l, .write w notes :: rest =>
    match apply s w with
    | none => (s, l)
    | some s' => perform none s' (l ++ notes) rest

/-- The property survives every note, and every write that is made. -/
inductive Keeps (P : σ → List ν → Prop) : σ → List ν → List (Action ω ν) → Prop
  | nil {s : σ} {l : List ν} : Keeps P s l []
  | note {s : σ} {l : List ν} {m : ν} {rest : List (Action ω ν)} (first : P s (l ++ [m]))
      (others : Keeps P s (l ++ [m]) rest) : Keeps P s l (.note m :: rest)
  | write {s : σ} {l : List ν} {w : ω} {notes : List ν} {rest : List (Action ω ν)}
      (first : ∀ s', apply s w = some s' → P s' (l ++ notes))
      (others : ∀ s', apply s w = some s' → Keeps P s' (l ++ notes) rest) :
      Keeps P s l (.write w notes :: rest)

end

variable {apply : σ → ω → Option σ} {P : σ → List ν → Prop}

theorem Keeps.perform {s : σ} {l : List ν} {acts : List (Action ω ν)} (hkeeps : Keeps apply P s l acts)
    (h : P s l) (n : Option ℕ) :
    P (perform apply n s l acts).1 (perform apply n s l acts).2 := by
  induction hkeeps generalizing n with
  | nil =>
    unfold Action.perform
    exact h
  | note first _ ih =>
    unfold Action.perform
    exact ih first n
  | @write s l w notes rest first _ ih =>
    cases n with
    | none =>
      unfold Action.perform
      cases happly : apply s w with
      | none => exact h
      | some s' => exact ih s' happly (first s' happly) none
    | some n =>
      cases n with
      | zero => exact h
      | succ n =>
        unfold Action.perform
        cases happly : apply s w with
        | none => exact h
        | some s' => exact ih s' happly (first s' happly) (some n)

variable (apply) in
theorem perform_write (n : Option ℕ) (s : σ) (l : List ν) (w : ω) (ns : List ν) (rest : List (Action ω ν)) :
    Action.perform apply n s l (.write w ns :: rest) = (s, l) ∨
      ∃ s' n', apply s w = some s' ∧ n = n'.map Nat.succ ∧
        Action.perform apply n s l (.write w ns :: rest) = Action.perform apply n' s' (l ++ ns) rest := by
  cases happly : apply s w with
  | none =>
    left
    rcases n with _ | _ | n <;> simp only [Action.perform, happly]
  | some s' =>
    rcases n with _ | _ | n
    · exact .inr ⟨s', none, rfl, rfl, by simp only [Action.perform, happly]⟩
    · exact .inl rfl
    · exact .inr ⟨s', some n, rfl, rfl, by simp only [Action.perform, happly]⟩

theorem mem_perform {acts : List (Action ω ν)} {x : ν} : ∀ {s : σ} {l : List ν} {n : Option ℕ},
    x ∈ (Action.perform apply n s l acts).2 → x ∈ l ∨ x ∈ notes acts := by
  induction acts with
  | nil =>
    intro s l n h
    unfold Action.perform at h
    exact .inl h
  | cons a rest ih =>
    intro s l n h
    cases a with
    | note m =>
      unfold Action.perform at h
      rw [notes_note, List.mem_cons]
      rcases ih h with h | h
      · rcases List.mem_append.1 h with h | h
        · exact .inl h
        · exact .inr (.inl (List.mem_singleton.1 h))
      · exact .inr (.inr h)
    | write w ns =>
      have hmade : ∀ n', (∃ s', x ∈ (Action.perform apply n' s' (l ++ ns) rest).2) →
          x ∈ l ∨ x ∈ ns ++ notes rest := by
        rintro n' ⟨s', h⟩
        rcases ih h with h | h
        · rcases List.mem_append.1 h with h | h
          · exact .inl h
          · exact .inr (List.mem_append_left _ h)
        · exact .inr (List.mem_append_right _ h)
      rw [notes_write]
      cases n with
      | none =>
        unfold Action.perform at h
        cases happly : apply s w with
        | none =>
          rw [happly] at h
          exact .inl h
        | some s' =>
          rw [happly] at h
          exact hmade none ⟨s', h⟩
      | some n =>
        cases n with
        | zero => exact .inl h
        | succ n =>
          unfold Action.perform at h
          cases happly : apply s w with
          | none =>
            rw [happly] at h
            exact .inl h
          | some s' =>
            rw [happly] at h
            exact hmade (some n) ⟨s', h⟩

theorem Keeps.of_silent {ws : List ω} {l : List ν}
    (hkeep : ∀ w ∈ ws, ∀ s s', P s l → apply s w = some s' → P s' l) {s : σ} (h : P s l) :
    Keeps apply P s l (ws.map silent) := by
  induction ws generalizing s with
  | nil => exact .nil
  | cons w ws ih =>
    have hnext : ∀ s', apply s w = some s' → P s' l := fun s' happly =>
      hkeep w List.mem_cons_self s s' h happly
    have hothers : ∀ s', apply s w = some s' → Keeps apply P s' l (ws.map silent) := fun s' happly =>
      ih (fun w' hw' => hkeep w' (List.mem_cons_of_mem _ hw')) (hnext s' happly)
    apply Keeps.write
    · intro s' happly
      rw [List.append_nil]
      exact hnext s' happly
    · intro s' happly
      rw [List.append_nil]
      exact hothers s' happly

end Action

end Lib
