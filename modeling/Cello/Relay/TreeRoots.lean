import Cello.Relay.Handover
import Mathlib.Data.List.Infix

/-!
# One root in three loops

The stack of subtree roots is kept in three places: where the relay takes in a leaf, where it adopts a replayed
conversation, and where a chain of leaves is verified.  Each pushes a leaf hash, merging equal heights, and folds the
stack from the right.

Behind every push the fold is the RFC 6962 tree head of the leaves so far, by `Lib.TreeHead.fold_eq_treeHead`
(`rootsAlong_eq`), and what the loops hold after the same leaves is the same (`folds_agree`).
-/

namespace Cello.Relay

open Lib Interfaces

def pushAll (nodeHash : Bytes → Bytes → Bytes) (stack : Stack) (hashes : List Bytes) : Stack :=
  hashes.foldl (fun stack x => pushNode nodeHash x 0 stack) stack

/-- The fold of the stack behind every push. -/
def rootsAlong (nodeHash : Bytes → Bytes → Bytes) (d : Bytes) : Stack → List Bytes → List Bytes
  | _, [] => []
  | stack, x :: rest =>
    stackRoot nodeHash d (pushNode nodeHash x 0 stack) :: rootsAlong nodeHash d (pushNode nodeHash x 0 stack) rest

/-- What a loop holds that has gone through these leaf hashes. -/
structure Folded (nodeHash : Bytes → Bytes → Bytes) (hashes : List Bytes) (stack : Stack) (root : Bytes) : Prop where
  stack : stack = pushAll nodeHash [] hashes
  root : hashes ≠ [] → root = TreeHead.treeHead nodeHash [] hashes

/-- Leaves taken in one after the other. -/
def appendLeaves (ext : RelayExternals) (st : RelaySessionState) (leaves : List (HashSubmit × RelaySealLeaf)) :
    RelaySessionState :=
  leaves.foldl (fun st p => appendLeaf ext st p.1 p.2.kind p.2.s2) st

section

variable {nodeHash : Bytes → Bytes → Bytes}

theorem stacked_pushNode {l : List Bytes} {stack : Stack} (h : TreeHead.Stacked nodeHash [] l stack) (x : Bytes) :
    TreeHead.Stacked nodeHash [] (l ++ [x]) (pushNode nodeHash x 0 stack) := by
  rw [pushNode_eq]
  exact TreeHead.stacked_concat h x

theorem stacked_pushAll {l : List Bytes} {stack : Stack} (h : TreeHead.Stacked nodeHash [] l stack)
    (hashes : List Bytes) : TreeHead.Stacked nodeHash [] (l ++ hashes) (pushAll nodeHash stack hashes) := by
  induction hashes generalizing l stack with
  | nil =>
    rw [List.append_nil]
    exact h
  | cons x rest ih =>
    have hstacked := ih (stacked_pushNode h x)
    rwa [List.append_assoc, List.singleton_append] at hstacked

theorem stackRoot_eq {l : List Bytes} {stack : Stack} (h : TreeHead.Stacked nodeHash [] l stack) (hl : l ≠ [])
    (d : Bytes) : stackRoot nodeHash d stack = TreeHead.treeHead nodeHash [] l := by
  cases stack with
  | nil => exact absurd ((TreeHead.stacked_eq_nil h).1 rfl) hl
  | cons e rest => exact TreeHead.fold_eq_treeHead h

theorem rootsAlong_eq {l : List Bytes} {stack : Stack} (h : TreeHead.Stacked nodeHash [] l stack) (d : Bytes)
    (hashes : List Bytes) : rootsAlong nodeHash d stack hashes =
      hashes.inits.tail.map fun pre => TreeHead.treeHead nodeHash [] (l ++ pre) := by
  induction hashes generalizing l stack with
  | nil => rfl
  | cons x rest ih =>
    have hpush := stacked_pushNode h x
    have hinits : rest.inits = [] :: rest.inits.tail := by
      cases rest with
      | nil => rfl
      | cons y rest => rfl
    rw [rootsAlong, ih hpush, stackRoot_eq hpush (List.append_ne_nil_of_right_ne_nil l (List.cons_ne_nil x [])),
      List.inits_cons, List.tail_cons, List.map_map, hinits, List.map_cons]
    simp [Function.comp_def]

theorem folded_of_grown {ext : Externals} {start : Bytes} {leaves : List RelaySealLeaf} {stack : Stack} {root : Bytes}
    (h : Grown ext start leaves stack root) : Folded ext.nodeHash (leaves.map (treeLeaf ext)) stack root := by
  refine ⟨TreeHead.stacked_unique h.stacked ?_, fun hne => ?_⟩
  · exact stacked_pushAll TreeHead.Stacked.nil _
  · rw [h.root, rootOver_of_ne_nil fun hnil => hne (by rw [hnil, List.map_nil])]

theorem Folded.stacked {hashes : List Bytes} {stack : Stack} {root : Bytes} (h : Folded nodeHash hashes stack root) :
    TreeHead.Stacked nodeHash [] hashes stack := by
  rw [h.stack]
  exact stacked_pushAll TreeHead.Stacked.nil hashes

theorem Folded.push {hashes : List Bytes} {stack : Stack} {root : Bytes} (h : Folded nodeHash hashes stack root)
    (x : Bytes) : Folded nodeHash (hashes ++ [x]) (pushNode nodeHash x 0 stack)
      (stackRoot nodeHash x (pushNode nodeHash x 0 stack)) := by
  refine ⟨?_, fun hne => stackRoot_eq (stacked_pushNode h.stacked x) hne x⟩
  rw [h.stack, pushAll, pushAll, List.foldl_append]
  rfl

end

theorem folded_appendLeaves (ext : RelayExternals) {prior : List Bytes} {st : RelaySessionState}
    (leaves : List (HashSubmit × RelaySealLeaf)) (h : Folded ext.nodeHash prior st.treeStack st.runningRoot) :
    Folded ext.nodeHash (prior ++ leaves.map fun p => treeLeaf ext.toExternals p.2)
      (appendLeaves ext st leaves).treeStack (appendLeaves ext st leaves).runningRoot := by
  induction leaves generalizing prior st with
  | nil =>
    rw [List.map_nil, List.append_nil]
    exact h
  | cons p rest ih =>
    have hrest := @ih (prior ++ [treeLeaf ext.toExternals p.2]) (appendLeaf ext st p.1 p.2.kind p.2.s2) (h.push _)
    rwa [List.append_assoc, List.singleton_append] at hrest

theorem grown_chainLoop {ext : Externals} {start : Bytes} {prior leaves : List RelaySealLeaf} {st st' : ChainState}
    (h : Grown ext start prior st.stack st.runningRoot) (hloop : chainLoop ext prior st leaves = .ok st') :
    Grown ext start (prior ++ leaves) st'.stack st'.runningRoot := by
  induction leaves generalizing prior st with
  | nil =>
    obtain rfl := Except.ok.inj hloop
    rwa [List.append_nil]
  | cons l rest ih =>
    obtain ⟨st₁, hstep, hrest⟩ := chainLoop_cons hloop
    obtain ⟨s1, -, rfl⟩ := chainStep_state hstep
    have hgrown := ih (h.append l) hrest
    rwa [List.append_assoc, List.singleton_append] at hgrown

/-- **The incremental fold is the RFC 6962 tree head**, behind every push and of every list of leaf hashes; and the
relay's own leaves, the leaves it adopts and the leaves of a chain that is verified, as far as it has come, leave the
same stack and the same root. -/
theorem folds_agree (ext : RelayExternals) :
    (∀ (d : Bytes) (hashes : List Bytes), rootsAlong ext.nodeHash d [] hashes =
      hashes.inits.tail.map (TreeHead.treeHead ext.nodeHash [])) ∧
    ∀ leaves : List (HashSubmit × RelaySealLeaf),
      (∀ st : RelaySessionState, st.treeStack = [] →
        Folded ext.nodeHash (leaves.map fun p => treeLeaf ext.toExternals p.2) (appendLeaves ext st leaves).treeStack
          (appendLeaves ext st leaves).runningRoot) ∧
      (∀ st : RelaySessionState,
        Folded ext.nodeHash (leaves.map fun p => treeLeaf ext.toExternals p.2)
          (adoptLeaves ext st (leaves.map Prod.snd)).treeStack
          (adoptLeaves ext st (leaves.map Prod.snd)).runningRoot) ∧
      ∀ (later : List RelaySealLeaf) (st' : ChainState),
        chainLoop ext.toExternals [] (initialChain (leaves.map Prod.snd ++ later)) (leaves.map Prod.snd) = .ok st' →
          Folded ext.nodeHash (leaves.map fun p => treeLeaf ext.toExternals p.2) st'.stack st'.runningRoot := by
  refine ⟨fun d hashes => rootsAlong_eq TreeHead.Stacked.nil d hashes, fun leaves => ?_⟩
  have hmap : (leaves.map fun p => treeLeaf ext.toExternals p.2) =
      (leaves.map Prod.snd).map (treeLeaf ext.toExternals) := by
    rw [List.map_map]
    rfl
  refine ⟨fun st hst => ?_, fun st => ?_, fun later st' hloop => ?_⟩
  · have hempty : Folded ext.nodeHash [] st.treeStack st.runningRoot := ⟨hst, fun hne => absurd rfl hne⟩
    exact folded_appendLeaves ext leaves hempty
  · rw [hmap]
    exact folded_of_grown (grown_adoptLeaves ext st _)
  · rw [hmap]
    exact folded_of_grown (grown_chainLoop (Grown.nil _ _) hloop)

end Cello.Relay
