import Mathlib.Logic.Basic

/-!
# Pulling a keyed value

Two replicas hold a value at a key, or none.  A pull brings the peer's value in: an absent
value is taken over, two values are merged by `m`.  What is known of the outcome is known up
to a relation `R`, since a replica may keep its own copy when the merge would not show.

A pull in each direction settles the key as soon as merging the merge back changes nothing
(`Joined.settles`).
-/

namespace Lib

variable {ν : Type*}

/-- `z` is what a pull leaves at a key that held `x` when the peer holds `y`. -/
def Joined (R : ν → ν → Prop) (m : ν → ν → ν) : Option ν → Option ν → Option ν → Prop
  | none, none, z => z = none
  | some x, none, z => ∃ w, z = some w ∧ R w x
  | none, some y, z => ∃ w, z = some w ∧ R w y
  | some x, some y, z => ∃ w, z = some w ∧ R w (m x y)

def BothHold (R : ν → ν → Prop) : Option ν → Option ν → Prop
  | none, none => True
  | some x, some y => R x y
  | _, _ => False

theorem Joined.of_some {R : ν → ν → Prop} {m : ν → ν → ν} {x : Option ν} {b c : ν}
    (h : Joined R m x (some b) (some c)) : R c b ∨ ∃ a, x = some a ∧ R c (m a b) := by
  cases x with
  | none =>
    obtain ⟨d, hd, hR⟩ := h
    obtain rfl := Option.some.inj hd
    exact Or.inl hR
  | some a =>
    obtain ⟨d, hd, hR⟩ := h
    obtain rfl := Option.some.inj hd
    exact Or.inr ⟨a, rfl, hR⟩

theorem Joined.settles {R : ν → ν → Prop} {m : ν → ν → ν} {x y z w : Option ν}
    (htrans : ∀ {a b c}, R a b → R b c → R a c)
    (hagree : ∀ {b c}, R c b → R (m b c) c)
    (habsorb : ∀ {a b c}, x = some a → y = some b → R c (m a b) → R (m b c) c)
    (hz : Joined R m x y z) (hw : Joined R m y z w) : BothHold R w z := by
  cases x with
  | none =>
    cases y with
    | none =>
      obtain rfl : z = none := hz
      obtain rfl : w = none := hw
      exact trivial
    | some b =>
      obtain ⟨c, rfl, hc⟩ := hz
      obtain ⟨d, rfl, hd⟩ := hw
      exact htrans hd (hagree hc)
  | some a =>
    cases y with
    | none =>
      obtain ⟨c, rfl, hc⟩ := hz
      obtain ⟨d, rfl, hd⟩ := hw
      exact hd
    | some b =>
      obtain ⟨c, rfl, hc⟩ := hz
      obtain ⟨d, rfl, hd⟩ := hw
      exact htrans hd (habsorb rfl rfl hc)

end Lib
