import Mathlib.Data.List.Basic

/-!
# Logs that grow under a lock

For each key there is a log of committed entries and a lock.  A transaction takes the lock of a key
before it appends to the key's log, and keeps it until it commits or rolls back; what it appends may
depend on the log as it sees it, the entries it has appended itself included.

`committed_invariant` is the rule of the module: what every permitted write preserves when it extends
a log by one entry holds of the committed log in every state of every interleaving.
-/

namespace Lib

/-- The logs and the locks: `pending` is what the holder of a key's lock has appended. -/
structure LockedLog (κ τ ρ : Type*) where
  committed : κ → List ρ
  holder : κ → Option τ
  pending : κ → List ρ

/-- What a transaction does. -/
inductive LockedLog.Action (κ τ ω : Type*) where
  | lock (tx : τ) (k : κ)
  | write (tx : τ) (w : ω)
  | commit (tx : τ)
  | rollback (tx : τ)

namespace LockedLog

variable {κ τ ρ ω : Type*} [DecidableEq κ] [DecidableEq τ]

def empty : LockedLog κ τ ρ where
  committed _ := []
  holder _ := none
  pending _ := []

def Available (s : LockedLog κ τ ρ) (tx : τ) (k : κ) : Prop :=
  s.holder k = none ∨ s.holder k = some tx

instance (s : LockedLog κ τ ρ) (tx : τ) (k : κ) : Decidable (s.Available tx k) :=
  inferInstanceAs (Decidable (_ ∨ _))

def visible (s : LockedLog κ τ ρ) (k : κ) : List ρ := s.committed k ++ s.pending k

/-- The end of a transaction: its locks are free, and its entries are kept or not. -/
def finish (s : LockedLog κ τ ρ) (tx : τ) (keep : Bool) : LockedLog κ τ ρ where
  committed k := if s.holder k = some tx ∧ keep = true then s.visible k else s.committed k
  holder k := if s.holder k = some tx then none else s.holder k
  pending k := if s.holder k = some tx then [] else s.pending k

variable (key : ω → κ) (entry : ω → List ρ → Option ρ)

/-- One action.  A transaction that waits for a lock does nothing, and a write that fails appends
nothing. -/
def step (s : LockedLog κ τ ρ) : Action κ τ ω → LockedLog κ τ ρ
  | .lock tx k =>
    if s.Available tx k then { s with holder := Function.update s.holder k (some tx) } else s
  | .write tx w =>
    if s.Available tx (key w) then
      { s with
        holder := Function.update s.holder (key w) (some tx)
        pending := Function.update s.pending (key w)
          (s.pending (key w) ++ (entry w (s.visible (key w))).toList) }
    else s
  | .commit tx => s.finish tx true
  | .rollback tx => s.finish tx false

def run (s : LockedLog κ τ ρ) (actions : List (Action κ τ ω)) : LockedLog κ τ ρ :=
  actions.foldl (step key entry) s

/-- The writes of an action. -/
def Action.Permitted (good : ω → Prop) : Action κ τ ω → Prop
  | .write _ w => good w
  | _ => True

section

variable {key entry} {P : κ → List ρ → Prop} {good : ω → Prop}

/-- The log of every key has the property, with and without the entries of the lock's holder. -/
structure Holds (P : κ → List ρ → Prop) (s : LockedLog κ τ ρ) : Prop where
  committed : ∀ k, P k (s.committed k)
  visible : ∀ k, P k (s.visible k)

omit [DecidableEq κ] in
theorem Holds.finish {s : LockedLog κ τ ρ} (h : Holds P s) (tx : τ) (keep : Bool) :
    Holds P (s.finish tx keep) := by
  have hcommitted : ∀ k, P k ((s.finish tx keep).committed k) := by
    intro k
    simp only [LockedLog.finish]
    split_ifs
    · exact h.visible k
    · exact h.committed k
  refine ⟨hcommitted, fun k => ?_⟩
  by_cases hholder : s.holder k = some tx
  · have hpending : (s.finish tx keep).pending k = [] := if_pos hholder
    rw [LockedLog.visible, hpending, List.append_nil]
    exact hcommitted k
  · simp only [LockedLog.visible, LockedLog.finish, hholder, false_and, if_false]
    exact h.visible k

theorem Holds.step
    (hentry : ∀ w, good w → ∀ log r, P (key w) log → entry w log = some r → P (key w) (log ++ [r]))
    {s : LockedLog κ τ ρ} (h : Holds P s) {a : Action κ τ ω} (ha : a.Permitted good) :
    Holds P (s.step key entry a) := by
  cases a with
  | lock tx k =>
    simp only [LockedLog.step]
    split_ifs
    · exact ⟨h.committed, h.visible⟩
    · exact h
  | write tx w =>
    simp only [LockedLog.step]
    split_ifs
    · refine ⟨h.committed, fun j => ?_⟩
      by_cases hj : j = key w
      · -- the log that grows: one entry more, or none if the write fails
        subst hj
        have hvisible : P (key w) (s.visible (key w) ++ (entry w (s.visible (key w))).toList) := by
          cases hr : entry w (s.visible (key w)) with
          | none =>
            rw [Option.toList_none, List.append_nil]
            exact h.visible _
          | some r => exact hentry w ha _ r (h.visible _) hr
        rw [LockedLog.visible, List.append_assoc] at hvisible
        rw [LockedLog.visible]
        dsimp only
        rw [Function.update_self]
        exact hvisible
      · simp only [LockedLog.visible, Function.update_of_ne hj]
        exact h.visible j
    · exact h
  | commit tx => exact h.finish tx true
  | rollback tx => exact h.finish tx false

theorem committed_invariant (hempty : ∀ k, P k [])
    (hentry : ∀ w, good w → ∀ log r, P (key w) log → entry w log = some r → P (key w) (log ++ [r]))
    {actions : List (Action κ τ ω)} (hgood : ∀ a ∈ actions, a.Permitted good) (k : κ) :
    P k (((LockedLog.empty : LockedLog κ τ ρ).run key entry actions).committed k) := by
  have hholds : ∀ {s : LockedLog κ τ ρ}, Holds P s → Holds P (s.run key entry actions) := by
    induction actions with
    | nil => exact fun hs => hs
    | cons a rest ih =>
      intro s hs
      exact ih (fun b hb => hgood b (List.mem_cons_of_mem a hb))
        (hs.step hentry (hgood a List.mem_cons_self))
  exact (hholds (s := LockedLog.empty) ⟨hempty, hempty⟩).committed k

end

end LockedLog

end Lib
