import Cello.Directory.Register.Consortium

/-!
# Which key generations are begun

`computeDkgTopology` of `packages/directory/src/dkg-topology.ts` and the refusals of `#processRegisterRequest`.
Which nodes of a manifest are validators is `validatorNodes`' affair, so it is a parameter.

A threshold that the reachable validators and the client cannot meet comes out as a failure in mid-ceremony, and the
floor is there to refuse it before.  The floor is not asked where there is a single validator: with a list of
reachable nodes that leaves it out, two shares are wanted of the client alone.  That is the only such case
(`runnable_iff_reached`).
-/

namespace Cello.Directory.Register

open Lib

/-- The registration goes on to the ceremony, of a consortium that a manifest names. -/
structure DkgTopology.Admitted (t : DkgTopology) : Prop where
  hasManifest : t.hasManifest = true
  unique : t.duplicateNodeIds = []
  notReplicaOnly : t.replicaOnly = false
  notBelowQuorum : t.belowQuorum = false

/-- The ceremony can come to an end, and no minority of the validators can sign.  The client is one more
participant. -/
structure DkgTopology.Runnable (validators : List String) (t : DkgTopology) : Prop where
  distinct : t.quorumNodeIds.Nodup
  ofValidators : ∀ id ∈ t.quorumNodeIds, id ∈ validators
  participants_pos : 1 ≤ t.dkgParticipants
  participants : t.dkgParticipants = t.quorumNodeIds.length
  two_le : 2 ≤ t.dkgThreshold
  feasible : t.dkgThreshold ≤ t.dkgParticipants + 1
  majority : t.consortiumNodeCount < 2 * t.dkgThreshold

/-- There is one validator, and it is not among the nodes that the client has reached. -/
def LoneUnreached (validators : List String) (reachable : Option (List String)) : Prop :=
  ∃ v r, validators = [v] ∧ reachable = some r ∧ v ∉ r

theorem nodup_of_duplicates {ids seen dupes : List String} (h : duplicates seen dupes ids = []) :
    dupes = [] ∧ ids.Nodup ∧ ∀ id ∈ ids, id ∉ seen := by
  induction ids generalizing seen dupes with
  | nil => exact ⟨h, List.nodup_nil, fun id hid => nomatch hid⟩
  | cons id rest ih =>
    obtain ⟨hdupes, hrest, hseen⟩ := ih h
    have hnew : ¬(id ∈ seen ∧ id ∉ dupes) := by
      intro hid
      rw [if_pos hid] at hdupes
      exact List.append_ne_nil_of_right_ne_nil dupes (List.cons_ne_nil id []) hdupes
    rw [if_neg hnew] at hdupes
    subst hdupes
    refine ⟨rfl, List.nodup_cons.2 ⟨fun hid => hseen id hid List.mem_cons_self, hrest⟩, ?_⟩
    intro x hx
    rcases List.mem_cons.1 hx with rfl | hx
    · exact fun hseen' => hnew ⟨hseen', List.not_mem_nil⟩
    · exact fun hseen' => hseen x hx (List.mem_cons_of_mem id hseen')

theorem eraseDups_of_nodup {ids : List String} (h : ids.Nodup) : ids.eraseDups = ids := by
  induction ids with
  | nil => rfl
  | cons id rest ih =>
    obtain ⟨hid, hrest⟩ := List.nodup_cons.1 h
    have hkept : (rest.filter fun x => !x == id) = rest := by
      refine List.filter_eq_self.2 fun x hx => ?_
      have hne : x ≠ id := fun he => hid (he ▸ hx)
      simpa using hne
    rw [List.eraseDups_cons, hkept, ih hrest]

section

variable {Node : Type} {nodeId : Node → String} {validatorNodes : List Node → List Node} {nodes : List Node}
  {reachable : Option (List String)}

theorem quorumNodeIds_sublist :
    (computeDkgTopology nodeId validatorNodes nodes reachable).quorumNodeIds.Sublist
      ((validatorNodes nodes).map nodeId).eraseDups := by
  cases reachable with
  | none => exact List.Sublist.refl _
  | some reachable => exact List.filter_sublist

section Admitted

variable (h : (computeDkgTopology nodeId validatorNodes nodes reachable).Admitted)

include h

theorem DkgTopology.Admitted.validators :
    ((validatorNodes nodes).map nodeId).Nodup ∧ (validatorNodes nodes).map nodeId ≠ [] := by
  refine ⟨(nodup_of_duplicates h.unique).2.1, fun hnil => ?_⟩
  have hreplica := h.notReplicaOnly
  have hmanifest := h.hasManifest
  dsimp only [computeDkgTopology] at hreplica hmanifest
  rw [hmanifest, List.map_eq_nil_iff.1 hnil, Bool.true_and] at hreplica
  exact of_decide_eq_false hreplica rfl

theorem DkgTopology.Admitted.counts :
    let t := computeDkgTopology nodeId validatorNodes nodes reachable
    t.consortiumNodeCount = (validatorNodes nodes).length ∧ t.dkgParticipants = t.quorumNodeIds.length ∧
      t.dkgThreshold = if (validatorNodes nodes).length = 1 then 2 else (validatorNodes nodes).length / 2 + 1 := by
  obtain ⟨hnodup, hne⟩ := h.validators
  have hlen : (validatorIds nodeId validatorNodes nodes).length = (validatorNodes nodes).length := by
    rw [validatorIds, eraseDups_of_nodup hnodup, List.length_map]
  have hpos : 0 < (validatorNodes nodes).length := by
    have := List.length_pos_iff.2 hne
    rwa [List.length_map] at this
  dsimp only [computeDkgTopology]
  rw [hlen, if_neg (by omega), if_pos hpos]
  exact ⟨rfl, rfl, rfl⟩

theorem quorum_of_lone (hone : (validatorNodes nodes).length = 1)
    (hreached : ¬LoneUnreached ((validatorNodes nodes).map nodeId) reachable) :
    (computeDkgTopology nodeId validatorNodes nodes reachable).quorumNodeIds.length = 1 := by
  obtain ⟨v, hv⟩ := List.length_eq_one_iff.1 ((List.length_map nodeId).trans hone)
  have hids : validatorIds nodeId validatorNodes nodes = (validatorNodes nodes).map nodeId :=
    eraseDups_of_nodup h.validators.1
  dsimp only [computeDkgTopology]
  rw [hids, hv]
  cases reachable with
  | none => rfl
  | some r =>
    have hr : v ∈ r := by
      by_contra hr
      exact hreached ⟨v, r, hv, rfl, hr⟩
    simp [hr]

theorem DkgTopology.Admitted.runnable
    (hreached : ¬LoneUnreached ((validatorNodes nodes).map nodeId) reachable) :
    (computeDkgTopology nodeId validatorNodes nodes reachable).Runnable ((validatorNodes nodes).map nodeId) := by
  obtain ⟨hnodup, hne⟩ := h.validators
  obtain ⟨hcount, hparticipants, hthreshold⟩ := h.counts
  have hsub : (computeDkgTopology nodeId validatorNodes nodes reachable).quorumNodeIds.Sublist
      ((validatorNodes nodes).map nodeId) := eraseDups_of_nodup hnodup ▸ quorumNodeIds_sublist
  have hpos : 0 < (validatorNodes nodes).length := by
    have := List.length_pos_iff.2 hne
    rwa [List.length_map] at this
  have hfloor : (computeDkgTopology nodeId validatorNodes nodes reachable).consortiumNodeCount ≤ 1 ∨
      (computeDkgTopology nodeId validatorNodes nodes reachable).dkgThreshold ≤
        (computeDkgTopology nodeId validatorNodes nodes reachable).dkgParticipants := by
    rcases Bool.and_eq_false_iff.1 h.notBelowQuorum with hone | hmet
    · exact .inl (not_lt.1 (of_decide_eq_false hone))
    · exact .inr (not_lt.1 (of_decide_eq_false hmet))
  have hdistinct := hsub.nodup hnodup
  by_cases hone : (validatorNodes nodes).length = 1
  · have hquorum := quorum_of_lone h hone hreached
    rw [if_pos hone] at hthreshold
    exact ⟨hdistinct, fun id hid => hsub.subset hid, by omega, hparticipants, by omega, by omega, by omega⟩
  · rw [if_neg hone] at hthreshold
    exact ⟨hdistinct, fun id hid => hsub.subset hid, by omega, hparticipants, by omega, by omega, by omega⟩

end Admitted

theorem lone_admitted (hmanifest : nodes ≠ [])
    (hlone : LoneUnreached ((validatorNodes nodes).map nodeId) reachable) :
    (computeDkgTopology nodeId validatorNodes nodes reachable).Admitted ∧
      ¬(computeDkgTopology nodeId validatorNodes nodes reachable).Runnable ((validatorNodes nodes).map nodeId) := by
  obtain ⟨v, r, hv, rfl, hr⟩ := hlone
  have hone : (validatorNodes nodes).length = 1 := by
    rw [← List.length_map nodeId, hv]
    rfl
  have hids : validatorIds nodeId validatorNodes nodes = [v] := by
    rw [validatorIds, hv]
    rfl
  have hquorum : (computeDkgTopology nodeId validatorNodes nodes (some r)).quorumNodeIds = [] := by
    dsimp only [computeDkgTopology]
    rw [hids]
    simp [hr]
  refine ⟨⟨decide_eq_true (List.length_pos_iff.2 hmanifest), ?_, ?_, ?_⟩, fun h => ?_⟩
  · dsimp only [computeDkgTopology]
    rw [hv]
    simp [duplicates]
  · dsimp only [computeDkgTopology]
    rw [hone]
    exact Bool.and_false _
  · dsimp only [computeDkgTopology]
    rw [hids]
    rfl
  · have hparticipants := h.participants_pos
    rw [h.participants, hquorum] at hparticipants
    exact absurd hparticipants (by decide)

/-- **Every admitted ceremony can be run and is of a majority**, if and only if the manifest is not of one validator
that the client has not reached. -/
theorem runnable_iff_reached (nodeId : Node → String) (validatorNodes : List Node → List Node) (nodes : List Node)
    (reachable : Option (List String)) :
    ((computeDkgTopology nodeId validatorNodes nodes reachable).Admitted →
      (computeDkgTopology nodeId validatorNodes nodes reachable).Runnable ((validatorNodes nodes).map nodeId)) ↔
      ¬(nodes ≠ [] ∧ LoneUnreached ((validatorNodes nodes).map nodeId) reachable) := by
  constructor
  · intro h hlone
    obtain ⟨hadmitted, hrun⟩ := lone_admitted hlone.1 hlone.2
    exact hrun (h hadmitted)
  · intro h hadmitted
    refine hadmitted.runnable fun hlone => h ⟨?_, hlone⟩
    exact List.length_pos_iff.1 (of_decide_eq_true hadmitted.hasManifest)

end

/-- A manifest of one validator, and a client that has reached nobody. -/
theorem lone_validator_not_runnable :
    ¬∀ (nodes : List String) (reachable : Option (List String)), (computeDkgTopology id id nodes reachable).Admitted →
      (computeDkgTopology id id nodes reachable).Runnable (nodes.map id) := by
  intro h
  have hrun := h ["dir-1"] (some []) ⟨rfl, rfl, rfl, rfl⟩
  exact absurd hrun.participants_pos (by decide)

end Cello.Directory.Register
