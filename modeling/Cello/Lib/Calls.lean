import Mathlib.Data.List.Basic

/-!
# Calls that cross

A call works on shared state in sections: it waits for a query, decides, and waits for a write.  Between two
sections any other call may run.  A write that is refused ends its call, and a call may stop anywhere.
-/

namespace Lib

variable {σ ω : Type*}

/-- What is left of a call. -/
inductive Call (σ ω : Type*) where
  | done
  /-- A query is answered: the shared state changes at once, and the call goes on with what it has read. -/
  | query (f : σ → σ) (k : σ → Call σ ω)
  | write (w : ω) (k : Call σ ω)

namespace Call

def ofWrites : List ω → Call σ ω
  | [] => .done
  | w :: rest => .write w (ofWrites rest)

def isDone : Call σ ω → Bool
  | .done => true
  | _ => false

section

variable (apply : σ → ω → Option σ)

/-- One section. -/
def advance (s : σ) : Call σ ω → σ × Call σ ω
  | .done => (s, .done)
  | .query f k => (f s, k s)
  | .write w k =>
    match apply s w with
    | none => (s, .done)
    | some s' => (s', k)

/-- A call that nothing crosses. -/
def alone : Call σ ω → σ → σ
  | .done, s => s
  | .query f k, s => alone (k s) (f s)
  | .write w k, s =>
    match apply s w with
    | none => s
    | some s' => alone k s'

end

end Call

/-! ### The calls in flight -/

/-- Shared state, and the calls in flight. -/
structure Pool (σ ω : Type*) where
  shared : σ
  calls : List (Call σ ω) := []

inductive PoolEvent (σ ω : Type*) where
  /-- A call starts: its first query is answered. -/
  | start (c : Call σ ω)
  | step (i : ℕ)
  /-- A call stops where it is. -/
  | stop (i : ℕ)
  /-- Every call stops, and the shared state is set up again. -/
  | restart (f : σ → σ)

namespace Pool

def put (calls : List (Call σ ω)) (i : ℕ) (c : Call σ ω) : List (Call σ ω) :=
  if c.isDone then calls.eraseIdx i else calls.set i c

def step (apply : σ → ω → Option σ) (p : Pool σ ω) : PoolEvent σ ω → Pool σ ω
  | .start c =>
    match c.advance apply p.shared with
    | (s, c') => ⟨s, if c'.isDone then p.calls else p.calls ++ [c']⟩
  | .step i =>
    match p.calls[i]? with
    | none => p
    | some c =>
      match c.advance apply p.shared with
      | (s, c') => ⟨s, put p.calls i c'⟩
  | .stop i => { p with calls := p.calls.eraseIdx i }
  | .restart f => ⟨f p.shared, []⟩

theorem mem_put {calls : List (Call σ ω)} {i : ℕ} {c c' : Call σ ω} (h : c' ∈ put calls i c) :
    c' = c ∨ ∃ j, j ≠ i ∧ calls[j]? = some c' := by
  unfold put at h
  split at h
  · obtain ⟨j, hj⟩ := List.mem_iff_getElem?.1 h
    rw [List.getElem?_eraseIdx] at hj
    split at hj
    next hlt => exact .inr ⟨j, Nat.ne_of_lt hlt, hj⟩
    next hle => exact .inr ⟨j + 1, by omega, hj⟩
  · obtain ⟨j, hj⟩ := List.mem_iff_getElem?.1 h
    rw [List.getElem?_set] at hj
    split at hj
    · split at hj
      · exact .inl (Option.some.inj hj).symm
      · cases hj
    next hne => exact .inr ⟨j, fun h => hne h.symm, hj⟩

theorem mem_started {calls : List (Call σ ω)} {c c' : Call σ ω}
    (h : c' ∈ if c.isDone then calls else calls ++ [c]) : c' = c ∨ c' ∈ calls := by
  split at h
  · exact .inr h
  · rcases List.mem_append.1 h with h | h
    · exact .inr h
    · exact .inl (List.mem_singleton.1 h)

end Pool

end Lib
