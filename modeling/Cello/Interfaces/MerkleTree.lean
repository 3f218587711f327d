import Cello.Interfaces.SealChain
import Cello.Lib.TreeHead

/-!
# The tree over a chain of leaves

The relay and the chain verifier fold the same stack, leaf by leaf.  `Grown` ties a stack and a
running root to the leaves they stand for; one more leaf keeps it (`Grown.append`).  The
package's `merkleRoot` is taken to compute the RFC 6962 tree head, so the running root is the
root it returns.
-/

namespace Cello.Interfaces

open Lib

/-- `merkleRoot(buildMerkleTree(..))` is the RFC 6962 tree head. -/
def ComputesTreeHead (ext : Externals) : Prop :=
  ∀ hashes : List Bytes, hashes ≠ [] → ext.merkleRoot hashes = TreeHead.treeHead ext.nodeHash [] hashes

/-- A leaf as the tree holds it. -/
def treeLeaf (ext : Externals) (l : RelaySealLeaf) : Bytes :=
  ext.leafHash l.kind (ext.encodeStructure2 l.s2)

/-- The root over a list of leaves, and `start` over none. -/
def rootOver (ext : Externals) (start : Bytes) : List RelaySealLeaf → Bytes
  | [] => start
  | l :: rest => TreeHead.treeHead ext.nodeHash [] ((l :: rest).map (treeLeaf ext))

/-- The stack and the running root stand for these leaves. -/
structure Grown (ext : Externals) (start : Bytes) (leaves : List RelaySealLeaf) (stack : Stack)
    (running : Bytes) : Prop where
  stacked : TreeHead.Stacked ext.nodeHash [] (leaves.map (treeLeaf ext)) stack
  root : running = rootOver ext start leaves

variable {ext : Externals} {start : Bytes}

theorem rootOver_of_ne_nil {leaves : List RelaySealLeaf} (h : leaves ≠ []) :
    rootOver ext start leaves = TreeHead.treeHead ext.nodeHash [] (leaves.map (treeLeaf ext)) := by
  cases leaves with
  | nil => exact absurd rfl h
  | cons l rest => rfl

theorem pushNode_eq (nodeHash : Bytes → Bytes → Bytes) : ∀ (stack : Stack) (x : Bytes) (height : ℕ),
    pushNode nodeHash x height stack = TreeHead.push nodeHash x height stack := by
  intro stack
  induction stack with
  | nil => intro x height; rfl
  | cons e rest ih =>
    intro x height
    obtain ⟨top, h⟩ := e
    rw [pushNode, TreeHead.push, ih]

theorem Grown.nil (ext : Externals) (start : Bytes) : Grown ext start [] [] start :=
  ⟨TreeHead.Stacked.nil, rfl⟩

/-- **One more leaf.** -/
theorem Grown.append {leaves : List RelaySealLeaf} {stack : Stack} {running : Bytes}
    (h : Grown ext start leaves stack running) (l : RelaySealLeaf) :
    Grown ext start (leaves ++ [l]) (pushNode ext.nodeHash (treeLeaf ext l) 0 stack)
      (stackRoot ext.nodeHash (treeLeaf ext l) (pushNode ext.nodeHash (treeLeaf ext l) 0 stack)) := by
  have hst : TreeHead.Stacked ext.nodeHash [] ((leaves ++ [l]).map (treeLeaf ext))
      (pushNode ext.nodeHash (treeLeaf ext l) 0 stack) := by
    rw [pushNode_eq, List.map_append]
    exact TreeHead.stacked_concat h.stacked _
  refine ⟨hst, ?_⟩
  rw [rootOver_of_ne_nil (by simp)]
  cases hp : pushNode ext.nodeHash (treeLeaf ext l) 0 stack with
  | nil =>
    rw [hp] at hst
    exact absurd ((TreeHead.stacked_eq_nil hst).1 rfl) (by simp)
  | cons e rest =>
    rw [hp] at hst
    exact TreeHead.fold_eq_treeHead hst

def tagged (l : RelaySealLeaf) : LeafKind × Structure2 := (l.kind, l.s2)

theorem map_treeLeaf_congr {leaves leaves' : List RelaySealLeaf}
    (h : leaves.map tagged = leaves'.map tagged) :
    leaves.map (treeLeaf ext) = leaves'.map (treeLeaf ext) := by
  have hfun : ∀ l : List RelaySealLeaf, l.map (treeLeaf ext) =
      (l.map tagged).map fun p => ext.leafHash p.1 (ext.encodeStructure2 p.2) := by
    intro l
    rw [List.map_map]
    rfl
  rw [hfun, hfun, h]

theorem rootOver_congr {leaves leaves' : List RelaySealLeaf}
    (h : leaves.map tagged = leaves'.map tagged) :
    rootOver ext start leaves = rootOver ext start leaves' := by
  cases leaves with
  | nil =>
    cases leaves' with
    | nil => rfl
    | cons l rest => cases h
  | cons l rest =>
    cases leaves' with
    | nil => cases h
    | cons l' rest' =>
      rw [rootOver, rootOver, map_treeLeaf_congr h]

theorem Grown.unique {leaves leaves' : List RelaySealLeaf} {stack stack' : Stack}
    {running running' : Bytes} (h : Grown ext start leaves stack running)
    (h' : Grown ext start leaves' stack' running') (he : leaves.map tagged = leaves'.map tagged) :
    stack = stack' ∧ running = running' := by
  refine ⟨TreeHead.stacked_unique h.stacked ?_, ?_⟩
  · rw [map_treeLeaf_congr he]
    exact h'.stacked
  · rw [h.root, h'.root, rootOver_congr he]

theorem merkleRoot_eq_rootOver (hroot : ComputesTreeHead ext) {leaves : List RelaySealLeaf}
    (h : leaves ≠ []) :
    ext.merkleRoot (leaves.map fun l => ext.leafHash l.kind (ext.encodeStructure2 l.s2)) =
      rootOver ext start leaves := by
  rw [rootOver_of_ne_nil h]
  exact hroot _ (by simpa using h)

end Cello.Interfaces
