import Mathlib.Data.Set.Basic

/-!
# Evidence about signals

What a node knows, and what it follows from that, in terms of sets: records that were notarized, withdrawals
with or without the key of who withdrew, and marks.  A record of an institution is withdrawn by anybody who
may write; that of an agent by its key.
-/

namespace Cello.Directory.Signals

/-- A notarized record, as far as its status depends on it. -/
structure Notarization (η κ : Type*) where
  hash : η
  institutional : Bool
  key : κ
  supersedes : Option η

@[ext]
structure Evidence (η κ : Type*) where
  notarized : Set (Notarization η κ)
  withdrawals : Set (η × Option κ)
  marked : Set η

namespace Evidence

variable {η κ : Type*} (E : Evidence η κ)

def Known (h : η) : Prop := ∃ x ∈ E.notarized, x.hash = h

def Tombed (h : η) : Prop := ∃ w, (h, w) ∈ E.withdrawals

def Institutional (h : η) : Prop := ∀ x ∈ E.notarized, x.hash = h → x.institutional = true

def Withdrawn (h : η) : Prop :=
  (E.Tombed h ∧ E.Institutional h) ∨ ∃ x ∈ E.notarized, x.hash = h ∧ (h, some x.key) ∈ E.withdrawals

def Superseded (h : η) : Prop := ∃ x ∈ E.notarized, x.supersedes = some h ∧ ¬E.Withdrawn x.hash

variable {E} {F : Evidence η κ}

theorem Withdrawn.tombed {h : η} (hw : E.Withdrawn h) : E.Tombed h := by
  rcases hw with ⟨ht, -⟩ | ⟨x, -, -, hx⟩
  · exact ht
  · exact ⟨_, hx⟩

theorem withdrawn_congr {h : η} (hn : E.notarized = F.notarized) (htomb : E.Tombed h ↔ F.Tombed h)
    (hkey : ∀ k, (h, some k) ∈ E.withdrawals ↔ (h, some k) ∈ F.withdrawals) :
    E.Withdrawn h ↔ F.Withdrawn h := by
  unfold Withdrawn Institutional
  rw [hn, htomb]
  simp only [hkey]

theorem superseded_congr {h : η} (hn : E.notarized = F.notarized)
    (hw : ∀ x ∈ E.notarized, E.Withdrawn x.hash ↔ F.Withdrawn x.hash) :
    E.Superseded h ↔ F.Superseded h := by
  constructor
  · rintro ⟨x, hx, hs, hnot⟩
    exact ⟨x, hn ▸ hx, hs, fun hf => hnot ((hw x hx).2 hf)⟩
  · rintro ⟨x, hx, hs, hnot⟩
    rw [← hn] at hx
    exact ⟨x, hx, hs, fun he => hnot ((hw x hx).1 he)⟩

end Evidence

end Cello.Directory.Signals
