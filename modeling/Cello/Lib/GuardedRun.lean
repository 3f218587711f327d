import Mathlib.Data.List.Basic

/-!
# Runs whose steps meet a condition

A deterministic system takes one step for each event.  `Guarded` says that every event of a list
meets a condition in the state it arrives in, and `Guarded.invariant` is the rule of invariants for
such runs: what one step that meets the condition preserves holds in every state on the way.
-/

namespace Lib

variable {σ ε : Type*} {step : σ → ε → σ} {guard : σ → ε → Prop}

/-- Every event meets the condition in the state it arrives in. -/
def Guarded (step : σ → ε → σ) (guard : σ → ε → Prop) : σ → List ε → Prop
  | _, [] => True
  | s, e :: rest => guard s e ∧ Guarded step guard (step s e) rest

theorem foldl_take_succ {events : List ε} {m : ℕ} {e : ε} (h : events[m]? = some e) (s : σ) :
    (events.take (m + 1)).foldl step s = step ((events.take m).foldl step s) e := by
  rw [List.take_add_one, h, Option.toList_some, List.foldl_append]
  rfl

theorem Guarded.invariant {P : σ → Prop} (hstep : ∀ s e, P s → guard s e → P (step s e)) :
    ∀ {events : List ε} {s : σ}, P s → Guarded step guard s events →
      ∀ m, P ((events.take m).foldl step s) := by
  intro events
  induction events with
  | nil =>
    intro s hs _ m
    rw [List.take_nil]
    exact hs
  | cons e rest ih =>
    intro s hs h m
    cases m with
    | zero => exact hs
    | succ m => exact ih (hstep s e hs h.1) h.2 m

theorem Guarded.of_forall : ∀ {events : List ε} {s : σ},
    (∀ (m : ℕ) (e : ε), events[m]? = some e → guard ((events.take m).foldl step s) e) →
      Guarded step guard s events := by
  intro events
  induction events with
  | nil => exact fun _ => trivial
  | cons e rest ih => exact fun h => ⟨h 0 e rfl, ih fun m e' hm => h (m + 1) e' hm⟩

theorem Guarded.at : ∀ {events : List ε} {s : σ}, Guarded step guard s events →
    ∀ {m : ℕ} {e : ε}, events[m]? = some e → guard ((events.take m).foldl step s) e := by
  intro events
  induction events with
  | nil => exact fun _ _ _ hm => by cases hm
  | cons e' rest ih =>
    intro s h m e hm
    cases m with
    | zero => exact Option.some.inj hm ▸ h.1
    | succ m => exact ih h.2 hm

theorem Guarded.drop : ∀ {events : List ε} {s : σ}, Guarded step guard s events →
    ∀ m, Guarded step guard ((events.take m).foldl step s) (events.drop m) := by
  intro events
  induction events with
  | nil =>
    intro s h m
    rw [List.take_nil, List.drop_nil]
    exact h
  | cons e rest ih =>
    intro s h m
    cases m with
    | zero => exact h
    | succ m => exact ih h.2 m

theorem Guarded.append {events rest : List ε} {s : σ} (h : Guarded step guard s events)
    (hrest : Guarded step guard (events.foldl step s) rest) : Guarded step guard s (events ++ rest) := by
  induction events generalizing s with
  | nil => exact hrest
  | cons e events ih => exact ⟨h.1, ih h.2 hrest⟩

theorem Guarded.of_append {events rest : List ε} {s : σ} (h : Guarded step guard s (events ++ rest)) :
    Guarded step guard s events := by
  induction events generalizing s with
  | nil => trivial
  | cons e events ih => exact ⟨h.1, ih h.2⟩

theorem Guarded.invariant_from {P : σ → Prop} (hstep : ∀ s e, P s → guard s e → P (step s e))
    {events : List ε} {s : σ} (h : Guarded step guard s events) {i j : ℕ} (hij : i ≤ j)
    (hi : P ((events.take i).foldl step s)) : P ((events.take j).foldl step s) := by
  have hj := Guarded.invariant hstep hi (h.drop i) (j - i)
  rwa [← List.foldl_append, ← List.take_add, Nat.add_sub_cancel' hij] at hj

theorem Guarded.iff_forall {I P : σ → Prop} (hkeep : ∀ s e, I s → I (step s e))
    (hexact : ∀ s e, I s → P s → (P (step s e) ↔ guard s e)) :
    ∀ {events : List ε} {s : σ}, I s → P s →
      ((∀ m, P ((events.take m).foldl step s)) ↔ Guarded step guard s events) := by
  intro events
  induction events with
  | nil =>
    intro s _ hs
    refine ⟨fun _ => trivial, fun _ m => ?_⟩
    rw [List.take_nil]
    exact hs
  | cons e rest ih =>
    intro s hkept hs
    constructor
    · intro h
      have hnext : P (step s e) := h 1
      exact ⟨(hexact s e hkept hs).1 hnext, (ih (hkeep s e hkept) hnext).1 fun m => h (m + 1)⟩
    · intro h m
      have hnext : P (step s e) := (hexact s e hkept hs).2 h.1
      cases m with
      | zero => exact hs
      | succ m => exact (ih (hkeep s e hkept) hnext).2 h.2 m

end Lib
