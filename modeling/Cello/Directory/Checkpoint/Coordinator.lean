import Cello.Directory.MmrStore.Tables

/-!
# Who coordinates a checkpoint round

Each node decides for itself in `runRound`, from its own id, the peers it reaches and the time of the
last checkpoint.  While that time is recent, the lowest id runs and every other node stands back.
Otherwise the rule for a failover applies, and it leaves the primary out without asking whether it is
there: the lowest id still runs, since it is the primary, and the lowest of the others runs beside it.
So a round has one coordinator exactly when the last checkpoint is recent or nobody else is there
(`one_coordinator_iff`); two nodes that have no checkpoint yet both start.
-/

namespace Cello.Directory.Checkpoint

open Lib HashChain MmrStore

/-- `now - new Date(lastCheckpointAt).getTime()`, or `Infinity` where there is no checkpoint. -/
def elapsedMs (lastCheckpointAt : Option Instant) (now : Instant) : JsNumber :=
  match lastCheckpointAt with
  | some last => (Float64.ofInteger (now.1 - last.1)).1
  | none => .posInf

/-- The coordinator that a node computes in `runRound`. -/
def coordinatorNodeId (nodeId : String) (peerNodeIds : List String) (elapsed failoverDetectionMs :
    JsNumber) : Option String :=
  let allNodes := Text.sortBy id (peerNodeIds ++ [nodeId])
  if failoverDetectionMs.ge elapsed then allNodes.head?
  else
    let primaryCoordinator := allNodes.head?
    if some nodeId = primaryCoordinator then some nodeId
    else
      let availableNodes :=
        (peerNodeIds.filter fun peer => !decide (some peer = primaryCoordinator)) ++ [nodeId]
      (Text.sortBy id availableNodes).head?

/-- The test of `runRound`: this node goes on to `#runCoordinatorRound`. -/
def startsCoordinatorRound (nodeId : String) (peerNodeIds : List String)
    (lastCheckpointAt : Option Instant) (now : Instant) (failoverDetectionMs : JsNumber) : Bool :=
  decide (coordinatorNodeId nodeId peerNodeIds (elapsedMs lastCheckpointAt now)
    failoverDetectionMs = some nodeId)

def Lowest (nodes : Finset String) (m : String) : Prop :=
  m ∈ nodes ∧ ∀ n ∈ nodes, Text.unitLe m n = true

theorem exists_lowest {nodes : Finset String} (h : nodes.Nonempty) : ∃ m, Lowest nodes m := by
  cases hhead : (Text.sortBy id nodes.toList).head? with
  | none =>
    obtain ⟨n, hn⟩ := h
    have hmem : n ∈ Text.sortBy id nodes.toList := (Text.mem_sortBy id).2 (by simpa using hn)
    rw [List.head?_eq_none_iff.1 hhead] at hmem
    exact absurd hmem List.not_mem_nil
  | some m =>
    obtain ⟨hm, hle⟩ := Text.head?_sortBy.1 hhead
    exact ⟨m, by simpa using hm, fun n hn => hle n (by simpa using hn)⟩

theorem Lowest.unique {nodes : Finset String} {m n : String} (hm : Lowest nodes m)
    (hn : Lowest nodes n) : m = n :=
  Text.unitLe_antisymm (hm.2 n hn.1) (hn.2 m hm.1)

/-- A node and the peers it reaches are these nodes. -/
def Reaches (nodes : Finset String) (nodeId : String) (peerNodeIds : List String) : Prop :=
  ∀ m, m ∈ peerNodeIds ↔ m ∈ nodes ∧ m ≠ nodeId

section

variable {nodes : Finset String} {nodeId primary : String} {peerNodeIds : List String}
  {elapsed failoverDetectionMs : JsNumber}

theorem head?_allNodes (hnode : nodeId ∈ nodes) (hreaches : Reaches nodes nodeId peerNodeIds)
    {m : String} :
    (Text.sortBy id (peerNodeIds ++ [nodeId])).head? = some m ↔ Lowest nodes m := by
  have hall : ∀ x, x ∈ peerNodeIds ++ [nodeId] ↔ x ∈ nodes := by
    intro x
    rw [List.mem_append, List.mem_singleton, hreaches]
    constructor
    · rintro (h | rfl)
      · exact h.1
      · exact hnode
    · exact fun hx => (em (x = nodeId)).elim Or.inr fun hne => Or.inl ⟨hx, hne⟩
  rw [Text.head?_sortBy, Lowest, hall]
  simp only [hall]

theorem coordinatorNodeId_recent (hnode : nodeId ∈ nodes) (hreaches : Reaches nodes nodeId peerNodeIds)
    (hrecent : failoverDetectionMs.ge elapsed = true) :
    coordinatorNodeId nodeId peerNodeIds elapsed failoverDetectionMs = some nodeId ↔
      Lowest nodes nodeId := by
  rw [coordinatorNodeId, if_pos hrecent, head?_allNodes hnode hreaches]

theorem coordinatorNodeId_failover (hnode : nodeId ∈ nodes)
    (hreaches : Reaches nodes nodeId peerNodeIds) (hprimary : Lowest nodes primary)
    (hlate : failoverDetectionMs.ge elapsed = false) :
    coordinatorNodeId nodeId peerNodeIds elapsed failoverDetectionMs = some nodeId ↔
      nodeId = primary ∨ Lowest (nodes.erase primary) nodeId := by
  have hhead := (head?_allNodes hnode hreaches).2 hprimary
  simp only [coordinatorNodeId, hlate, Bool.false_eq_true, if_false, hhead, Option.some.injEq]
  by_cases hself : nodeId = primary
  · simp [hself]
  · have havailable : ∀ x, x ∈ (peerNodeIds.filter fun peer => !decide (peer = primary)) ++ [nodeId] ↔
        x ∈ nodes.erase primary := by
      intro x
      rw [List.mem_append, List.mem_filter, List.mem_singleton, hreaches, Finset.mem_erase]
      constructor
      · rintro (⟨⟨hx, -⟩, hne⟩ | rfl)
        · exact ⟨by simpa using hne, hx⟩
        · exact ⟨hself, hnode⟩
      · rintro ⟨hne, hx⟩
        by_cases hxn : x = nodeId
        · exact Or.inr hxn
        · exact Or.inl ⟨⟨hx, hxn⟩, by simpa using hne⟩
    rw [if_neg hself, or_iff_right hself, Text.head?_sortBy, Lowest, havailable]
    simp only [havailable]

end

/-- **A round has one coordinator** exactly when the last checkpoint is within the failover window, or
there is only one node. -/
theorem one_coordinator_iff (nodes : Finset String) (hnodes : nodes.Nonempty)
    (peerNodeIds : String → List String) (hreaches : ∀ n ∈ nodes, Reaches nodes n (peerNodeIds n))
    (lastCheckpointAt : Option Instant) (now : Instant) (failoverDetectionMs : JsNumber) :
    (∃! n, n ∈ nodes ∧
        startsCoordinatorRound n (peerNodeIds n) lastCheckpointAt now failoverDetectionMs = true) ↔
      failoverDetectionMs.ge (elapsedMs lastCheckpointAt now) = true ∨ nodes.card = 1 := by
  obtain ⟨primary, hprimary⟩ := exists_lowest hnodes
  simp only [startsCoordinatorRound, decide_eq_true_eq]
  cases hrecent : failoverDetectionMs.ge (elapsedMs lastCheckpointAt now) with
  | true =>
    refine iff_of_true ⟨primary, ⟨hprimary.1, ?_⟩, ?_⟩ (Or.inl rfl)
    · exact (coordinatorNodeId_recent hprimary.1 (hreaches _ hprimary.1) hrecent).2 hprimary
    · rintro n ⟨hn, hstarts⟩
      exact ((coordinatorNodeId_recent hn (hreaches n hn) hrecent).1 hstarts).unique hprimary
  | false =>
    have hstarts : ∀ n ∈ nodes, coordinatorNodeId n (peerNodeIds n) (elapsedMs lastCheckpointAt now)
        failoverDetectionMs = some n ↔ n = primary ∨ Lowest (nodes.erase primary) n := fun n hn =>
      coordinatorNodeId_failover hn (hreaches n hn) hprimary hrecent
    simp only [Bool.false_eq_true, false_or]
    constructor
    · rintro ⟨m, -, hunique⟩
      -- the lowest of the others would run beside the primary
      by_contra hcard
      have hothers : (nodes.erase primary).Nonempty := by
        rw [← Finset.card_pos, Finset.card_erase_of_mem hprimary.1]
        have := hnodes.card_pos
        omega
      obtain ⟨second, hsecond⟩ := exists_lowest hothers
      have hin := Finset.mem_of_mem_erase hsecond.1
      have hm := hunique primary ⟨hprimary.1, (hstarts primary hprimary.1).2 (Or.inl rfl)⟩
      have hm' := hunique second ⟨hin, (hstarts second hin).2 (Or.inr hsecond)⟩
      exact Finset.ne_of_mem_erase hsecond.1 (hm'.trans hm.symm)
    · intro hcard
      obtain ⟨m, rfl⟩ := Finset.card_eq_one.1 hcard
      have hm : m = primary := (Finset.mem_singleton.1 hprimary.1).symm
      refine ⟨m, ⟨Finset.mem_singleton_self m, ?_⟩, fun n hn => Finset.mem_singleton.1 hn.1⟩
      exact (hstarts m (Finset.mem_singleton_self m)).2 (Or.inl hm)

namespace TwoNodes

def nodes : Finset String := {"n1", "n2"}

def peers (n : String) : List String := if n = "n1" then ["n2"] else ["n1"]

theorem reaches_peers : ∀ n ∈ nodes, Reaches nodes n (peers n) := by
  intro n hn m
  rcases Finset.mem_insert.1 hn with rfl | hn
  · simp only [peers, nodes, if_true, List.mem_singleton, Finset.mem_insert, Finset.mem_singleton]
    grind
  · obtain rfl := Finset.mem_singleton.1 hn
    simp only [peers, nodes, Finset.mem_insert, Finset.mem_singleton]
    grind

def start : Instant := ⟨0, by unfold IsoDate.InRange; decide⟩

def tenMinutesLater : Instant := ⟨600000, by unfold IsoDate.InRange; decide⟩

end TwoNodes

open TwoNodes in
theorem one_coordinator_iff_ten_minutes : ∃! n, n ∈ nodes ∧
    startsCoordinatorRound n (peers n) (some start) tenMinutesLater (.fin 660000) = true :=
  (one_coordinator_iff nodes (Finset.insert_nonempty _ _) peers reaches_peers (some start)
    tenMinutesLater (.fin 660000)).2 (Or.inl (by decide +kernel))

open TwoNodes in
/-- Two nodes that have no checkpoint yet both start a round. -/
theorem two_coordinators_without_checkpoint : ¬ ∃! n, n ∈ nodes ∧
    startsCoordinatorRound n (peers n) none start (.fin 660000) = true := by
  rintro ⟨m, -, hunique⟩
  have hfirst := hunique "n1" ⟨by decide, by decide⟩
  have hsecond := hunique "n2" ⟨by decide, by decide⟩
  exact absurd (hfirst.trans hsecond.symm) (by decide)

end Cello.Directory.Checkpoint
