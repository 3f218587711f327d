import Mathlib.Logic.Function.Basic

/-!
# Copies of which the newest wins

Every replica may hold a copy of a value.  A write replaces one copy by a value that is newer than all others; a pull
merges a value that another replica sent at some time, and of two values one of which is older the merge keeps the
other.  So the last write stays somewhere, whatever is pulled, and a replica that has pulled it holds it.
-/

namespace Lib

variable {ι α : Type*}

def pull (m : α → α → α) (own : Option α) (incoming : α) : Option α :=
  match own with
  | none => some incoming
  | some a => some (m a incoming)

/-- The value, or one older than it. -/
def UpTo (older : α → α → Prop) (e a : α) : Prop :=
  a = e ∨ older a e

/-- The value is held by a replica, and no replica holds a newer one. -/
structure Newest (older : α → α → Prop) (copy : ι → Option α) (e : α) : Prop where
  held : ∃ i, copy i = some e
  upTo : ∀ i a, copy i = some a → UpTo older e a

/-- Of two values the merge keeps one, and never the older. -/
structure KeepsNewer (older : α → α → Prop) (m : α → α → α) : Prop where
  choice : ∀ a b, m a b = a ∨ m a b = b
  newer : ∀ {a b}, older a b → m a b = b ∧ m b a = b

variable {older : α → α → Prop} {m : α → α → α} {e b : α} {own : Option α}

theorem KeepsNewer.pull_upTo (hm : KeepsNewer older m) (hown : ∀ a, own = some a → UpTo older e a)
    (hb : UpTo older e b) : ∀ a, pull m own b = some a → UpTo older e a := by
  intro a ha
  cases own with
  | none => exact Option.some.inj ha ▸ hb
  | some c =>
    have hmerge : m c b = a := Option.some.inj ha
    rcases hm.choice c b with hc | hc
    · exact (hc.symm.trans hmerge) ▸ hown c rfl
    · exact (hc.symm.trans hmerge) ▸ hb

theorem KeepsNewer.pull_newest (hm : KeepsNewer older m) (hown : ∀ a, own = some a → UpTo older e a)
    (hb : UpTo older e b) (h : own = some e ∨ b = e) : pull m own b = some e := by
  have hself : m e e = e := (hm.choice e e).elim id id
  cases own with
  | none =>
    rcases h with h | h
    · cases h
    · exact congrArg some h
  | some a =>
    show some (m a b) = some e
    rcases h with h | h
    · obtain rfl := Option.some.inj h
      rcases hb with rfl | hb
      · rw [hself]
      · rw [(hm.newer hb).2]
    · subst h
      rcases hown a rfl with rfl | ha
      · rw [hself]
      · rw [(hm.newer ha).1]

variable [DecidableEq ι] {copy : ι → Option α}

theorem newest_update {i : ι} (h : ∀ j a, copy j = some a → older a e) :
    Newest older (Function.update copy i (some e)) e := by
  refine ⟨⟨i, Function.update_self ..⟩, fun j a hj => ?_⟩
  by_cases hji : j = i
  · subst hji
    rw [Function.update_self] at hj
    exact .inl (Option.some.inj hj).symm
  · rw [Function.update_of_ne hji] at hj
    exact .inr (h j a hj)

theorem Newest.update_pull (h : Newest older copy e) (hm : KeepsNewer older m) (hb : UpTo older e b) (i : ι) :
    Newest older (Function.update copy i (pull m (copy i) b)) e := by
  constructor
  · obtain ⟨k, hk⟩ := h.held
    by_cases hki : k = i
    · subst hki
      exact ⟨k, (Function.update_self ..).trans (hm.pull_newest (h.upTo k) hb (.inl hk))⟩
    · exact ⟨k, (Function.update_of_ne hki ..).trans hk⟩
  · intro k a hk
    by_cases hki : k = i
    · subst hki
      rw [Function.update_self] at hk
      exact hm.pull_upTo (h.upTo k) hb a hk
    · rw [Function.update_of_ne hki] at hk
      exact h.upTo k a hk

end Lib
