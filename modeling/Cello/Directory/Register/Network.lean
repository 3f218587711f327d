import Cello.Directory.Register.Node

/-!
# Nodes that replicate

Several nodes of one directory, each with its tables and its process, and anti-entropy between them: a round brings a
row that one node holds to another.
-/

namespace Cello.Directory.Register

/-- The row is in its table. -/
def Tables.has (db : Tables) : Row → Bool
  | .profile p => decide (p ∈ db.profiles)
  | .revocation r => decide (r ∈ db.revocations)
  | .account a => decide (a ∈ db.accounts)
  | .link l => decide (l ∈ db.links)
  | .emailStub s => decide (s ∈ db.emailStubs)

def Event.brings : Event → Bool
  | .apply _ => true
  | _ => false

abbrev Network := String → Node

inductive NetworkEvent where
  /-- Something happens at a node by itself. -/
  | within (n : String) (e : Event)
  /-- A round brings a row from a node to another. -/
  | sync (source target : String) (row : Row)

namespace Network

variable (cfg : String → Config)

def step (net : Network) : NetworkEvent → Network
  | .within n e => if e.brings then net else Function.update net n ((net n).step (cfg n) e)
  | .sync source target row =>
    if (net source).db.has row then Function.update net target ((net target).apply row) else net

def run (events : List NetworkEvent) : Network := events.foldl (step cfg) fun _ => {}

variable {cfg}

theorem step_cases (net : Network) (e : NetworkEvent) (n : String) : net.step cfg e n = net n ∨
    (∃ e', e = .within n e' ∧ e'.brings = false ∧ net.step cfg e n = (net n).step (cfg n) e') ∨
    ∃ source row, e = .sync source n row ∧ (net source).db.has row = true ∧
      net.step cfg e n = (net n).apply row := by
  cases e with
  | within m e =>
    unfold step
    dsimp only
    by_cases hbrings : e.brings = true
    · rw [if_pos hbrings]
      exact .inl rfl
    · rw [if_neg hbrings]
      by_cases hn : n = m
      · subst hn
        exact .inr (.inl ⟨e, rfl, Bool.eq_false_iff.2 hbrings, Function.update_self ..⟩)
      · exact .inl (Function.update_of_ne hn ..)
  | sync source target row =>
    unfold step
    dsimp only
    by_cases hhas : (net source).db.has row = true
    · rw [if_pos hhas]
      by_cases hn : n = target
      · subst hn
        exact .inr (.inr ⟨source, row, rfl, hhas, Function.update_self ..⟩)
      · exact .inl (Function.update_of_ne hn ..)
    · rw [if_neg hhas]
      exact .inl rfl

theorem step_preserves {P : Node → Prop} {net : Network} {e : NetworkEvent} (h : ∀ n, P (net n))
    (hwithin : ∀ n e', e = .within n e' → e'.brings = false → P ((net n).step (cfg n) e'))
    (hsync : ∀ source target row, e = .sync source target row → (net source).db.has row = true →
      P ((net target).apply row)) (n : String) : P (net.step cfg e n) := by
  rcases step_cases net e n with hsame | ⟨e', he, hbrings, hstep⟩ | ⟨source, row, he, hhas, happly⟩
  · rw [hsame]
    exact h n
  · rw [hstep]
    exact hwithin n e' he hbrings
  · rw [happly]
    exact hsync source n row he hhas

end Network

end Cello.Directory.Register
