import Cello.Lib.Text

/-!
# Digests of digests

Texts are hashed, digests of one width are written one after the other, and what is written is
hashed again.  Nothing tags the levels: what tells the text of a leaf from a group of digests is one
character that no digest has.

`Commits` says how a digest came about, `Opens` how a reader climbs from a digest to another one by
groups of its own choosing.  Without a collision the reader can only follow what was committed to
(`Commits.of_opens`), and so can only start from the text of a leaf (`Commits.leaf_of_opens`).
-/

namespace Lib.HashTree

variable {hash : String → String} {w : ℕ} {leaf : String → Prop} {S : Set String} {mark : Char}

/-- `S` holds what is hashed; `leaf` says which texts are leaves. -/
inductive Commits (hash : String → String) (w : ℕ) (leaf : String → Prop) (S : Set String) :
    String → Prop
  | leaf {t : String} : leaf t → t ∈ S → Commits hash w leaf S (hash t)
  | group {ds : List String} : (∀ d ∈ ds, d.length = w) → (∀ d ∈ ds, Commits hash w leaf S d) →
      Text.concat ds ∈ S → Commits hash w leaf S (hash (Text.concat ds))

/-- One group after the other, each with the digest that was reached, from the first digest to the
second. -/
inductive Opens (hash : String → String) (w : ℕ) (mark : Char) (S : Set String) :
    String → String → Prop
  | done (d : String) : Opens hash w mark S d d
  | climb {d top : String} {ds : List String} : d ∈ ds →
      (∀ e ∈ ds, e.length = w ∧ mark ∉ e.toList) → Text.concat ds ∈ S →
      Opens hash w mark S (hash (Text.concat ds)) top → Opens hash w mark S d top

theorem notMem_concat {ds : List String} (h : ∀ e ∈ ds, mark ∉ e.toList) :
    mark ∉ (Text.concat ds).toList := by
  rw [Text.concat, String.toList_ofList, List.mem_flatMap]
  rintro ⟨e, he, hmem⟩
  exact h e he hmem

theorem Opens.trans {a b c : String} (h : Opens hash w mark S a b) (h' : Opens hash w mark S b c) :
    Opens hash w mark S a c := by
  induction h with
  | done d => exact h'
  | climb hmem hds hS _ ih => exact .climb hmem hds hS (ih h')

section Sound

variable (hcoll : Set.InjOn hash S) (hmark : ∀ t, leaf t → mark ∈ t.toList)

include hcoll hmark

theorem Commits.mem_of_group (hw : 0 < w) {ds : List String}
    (hds : ∀ e ∈ ds, e.length = w ∧ mark ∉ e.toList) (hS : Text.concat ds ∈ S)
    (h : Commits hash w leaf S (hash (Text.concat ds))) : ∀ d ∈ ds, Commits hash w leaf S d := by
  generalize htop : hash (Text.concat ds) = top at h
  cases h with
  | leaf ht hS' =>
    have heq := hcoll hS hS' htop
    exact absurd (heq ▸ hmark _ ht) (notMem_concat fun e he => (hds e he).2)
  | group hwidth hcommits hS' =>
    have heq := Text.concat_inj hw (fun e he => (hds e he).1) hwidth (hcoll hS hS' htop)
    exact heq ▸ hcommits

theorem Commits.of_opens (hw : 0 < w) {d top : String} (hopens : Opens hash w mark S d top)
    (h : Commits hash w leaf S top) : Commits hash w leaf S d := by
  induction hopens with
  | done d => exact h
  | climb hmem hds hS _ ih => exact Commits.mem_of_group hcoll hmark hw hds hS (ih h) _ hmem

theorem Commits.leaf_of_opens (hw : 0 < w) {t top : String}
    (hdigest : ∀ d, Commits hash w leaf S d → mark ∉ d.toList) (ht : mark ∈ t.toList) (hS : t ∈ S)
    (hopens : Opens hash w mark S (hash t) top) (h : Commits hash w leaf S top) : leaf t := by
  have hd := Commits.of_opens hcoll hmark hw hopens h
  generalize htop : hash t = d at hd
  cases hd with
  | leaf hleaf hS' => rwa [hcoll hS hS' htop]
  | group hwidth hcommits hS' =>
    have heq := hcoll hS hS' htop
    exact absurd (heq ▸ ht) (notMem_concat fun e he => hdigest e (hcommits e he))

end Sound

end Lib.HashTree
