import Cello.Relay.ConnectionGater

/-!
# What the reaper frees

`reapIdleSlots` of `packages/relay/src/relay-connection-gater.ts`, for any ledger.  Pressure and target are counted
over the reserved slots, and only these are candidates: a peer that has authenticated and holds no reservation is
neither counted nor freed.

The candidates are sorted and a prefix of them is released, as long as the reserved slots above the pressure line, so
`ReaperLaw` comes from the sort and from `take`.  The pressure line is the floor of a product of two doubles and may be
infinite or no number; `reapQuota` says what is freed then, and `reapBeyond_law` holds for any line.
-/

namespace Cello.Relay

open Lib

def idleMs (now : ℤ) (slot : SlotRecord) : ℤ := now - slot.lastActivityAt.getD slot.grantedAt

/-- A reserved slot that has been silent for longer than the floor. -/
def reapable (now : ℤ) (slot : SlotRecord) : Bool :=
  slot.reserved && decide (slotReapActivityFloorMs < idleMs now slot)

def reapedSlot (now : ℤ) (e : PeerId × SlotRecord) : ReapedSlot := ⟨e.1, e.2.agents.members, idleMs now e.2⟩

/-- `reapIdleSlots`, with the pressure line given. -/
def reapBeyond (line : JsNumber) (swept now : ℤ) (g : GaterState) : List ReapedSlot × GaterState :=
  let g₁ := sweepProofBookkeeping swept g
  let reservedHeld := slotCount g₁
  if line.ge reservedHeld then ([], g₁)
  else
    let candidates := reapCandidates now g₁
    let reaped := match line with
      | .fin line => candidates.take ((reservedHeld : ℤ) - line.floor).toNat
      | _ => candidates
    (reaped, (reaped.map ReapedSlot.peerId).foldl releaseSlot g₁)

theorem reapIdleSlots_eq (cfg : GaterConfig) (swept now : ℤ) (g : GaterState) :
    reapIdleSlots cfg swept now g = reapBeyond (pressureLine cfg) swept now g := rfl

/-- How many of `candidates` slots go when `held` are reserved. -/
def reapQuota : JsNumber → ℤ → ℤ → ℤ
  | .fin line, candidates, held => max 0 (min candidates (held - line.floor))
  | .posInf, _, _ => 0
  | _, candidates, _ => candidates

theorem reapQuota_le (line : JsNumber) (candidates held : ℕ) :
    0 ≤ reapQuota line candidates held ∧ reapQuota line candidates held ≤ candidates := by
  cases line <;> simp only [reapQuota] <;> omega

/-- What one run of the reaper does to a ledger. -/
structure ReaperLaw (line : JsNumber) (swept now : ℤ) (g : GaterState) (out : List ReapedSlot × GaterState) : Prop where
  freed : (out.1.length : ℤ) = reapQuota line (g.slots.count fun _ slot => reapable now slot) (slotCount g)
  distinct : (out.1.map ReapedSlot.peerId).Nodup
  candidates : ∀ r ∈ out.1, ∃ slot, g.slots.get r.peerId = some slot ∧ reapable now slot = true ∧
    r = reapedSlot now (r.peerId, slot)
  released : ∀ id ∈ out.1.map ReapedSlot.peerId, out.2.slots.get id = none
  kept : ∀ id, id ∉ out.1.map ReapedSlot.peerId → out.2.slots.get id = g.slots.get id
  quietest : ∀ id slot, out.2.slots.get id = some slot → reapable now slot = true →
    ∀ r ∈ out.1, idleMs now slot ≤ r.idleMs
  proofs : ∀ id proof, out.2.provenPeers.get id = some proof ↔
    g.provenPeers.get id = some proof ∧ swept < proof.expiresAt
  asks : ∀ id, out.2.unprovenAsks.get id = none

section

variable {now : ℤ} {g : GaterState}

/-! ### The candidates -/

theorem reapCandidates_eq (now : ℤ) (g : GaterState) : reapCandidates now g =
    ((g.slots.entries.filter fun e => reapable now e.2).map (reapedSlot now)).mergeSort
      fun a b => decide (b.idleMs ≤ a.idleMs) := by
  have hlist : ∀ l : List (PeerId × SlotRecord),
      (l.filterMap fun e => if reapable now e.2 then some (reapedSlot now e) else none) =
        (l.filter fun e => reapable now e.2).map (reapedSlot now) := by
    intro l
    induction l with
    | nil => rfl
    | cons e rest ih =>
      cases he : reapable now e.2 with
      | true => simp [he, ih]
      | false => simp [he, ih]
  rw [← hlist]
  rfl

theorem mem_reapCandidates {r : ReapedSlot} : r ∈ reapCandidates now g ↔
    ∃ slot, g.slots.get r.peerId = some slot ∧ reapable now slot = true ∧ r = reapedSlot now (r.peerId, slot) := by
  rw [reapCandidates_eq, List.mem_mergeSort, List.mem_map]
  constructor
  · rintro ⟨⟨id, slot⟩, he, rfl⟩
    obtain ⟨hmem, hreap⟩ := List.mem_filter.1 he
    exact ⟨slot, (g.slots.get_eq_some_iff id slot).2 hmem, hreap, rfl⟩
  · rintro ⟨slot, hget, hreap, hr⟩
    exact ⟨(r.peerId, slot), List.mem_filter.2 ⟨(g.slots.get_eq_some_iff _ _).1 hget, hreap⟩, hr.symm⟩

theorem length_reapCandidates (now : ℤ) (g : GaterState) :
    (reapCandidates now g).length = g.slots.count fun _ slot => reapable now slot := by
  rw [reapCandidates_eq, List.length_mergeSort, List.length_map, ← List.countP_eq_length_filter]
  rfl

theorem nodup_reapCandidates (now : ℤ) (g : GaterState) :
    ((reapCandidates now g).map ReapedSlot.peerId).Nodup := by
  rw [reapCandidates_eq]
  refine ((List.mergeSort_perm _ _).map _).nodup_iff.2 ?_
  rw [List.map_map]
  exact (List.filter_sublist.map Prod.fst).nodup g.slots.nodup

theorem pairwise_reapCandidates (now : ℤ) (g : GaterState) :
    (reapCandidates now g).Pairwise fun a b => b.idleMs ≤ a.idleMs := by
  rw [reapCandidates_eq]
  have hsorted : (((g.slots.entries.filter fun e => reapable now e.2).map (reapedSlot now)).mergeSort
      fun a b => decide (b.idleMs ≤ a.idleMs)).Pairwise fun a b => decide (b.idleMs ≤ a.idleMs) = true :=
    List.pairwise_mergeSort
      (fun a b c hab hbc => decide_eq_true ((of_decide_eq_true hbc).trans (of_decide_eq_true hab)))
      (fun a b => by simpa using le_total b.idleMs a.idleMs) _
  exact hsorted.imp fun h => of_decide_eq_true h

/-! ### The release -/

theorem ge_slotCount (line : ℚ) (n : ℕ) : (JsNumber.fin line).ge n = decide ((n : ℤ) ≤ line.floor) := by
  rw [JsNumber.natCast_eq, JsNumber.ge_fin]
  refine decide_eq_decide.2 ?_
  rw [Rat.le_floor_iff, Int.cast_natCast]

theorem reapBeyond_eq (line : JsNumber) (swept now : ℤ) (g : GaterState) : reapBeyond line swept now g =
    let reaped := (reapCandidates now (sweepProofBookkeeping swept g)).take
      (reapQuota line (g.slots.count fun _ slot => reapable now slot) (slotCount g)).toNat
    (reaped, (reaped.map ReapedSlot.peerId).foldl releaseSlot (sweepProofBookkeeping swept g)) := by
  have hcount : slotCount (sweepProofBookkeeping swept g) = slotCount g := rfl
  have hlength : (reapCandidates now (sweepProofBookkeeping swept g)).length =
      g.slots.count fun _ slot => reapable now slot := length_reapCandidates now _
  unfold reapBeyond
  dsimp only
  rw [hcount]
  cases line with
  | nan => simp [reapQuota, JsNumber.ge, ← hlength]
  | negInf => simp [reapQuota, JsNumber.ge, ← hlength]
  | posInf => simp [reapQuota, JsNumber.ge]
  | fin line =>
    rw [ge_slotCount, reapQuota, ← hlength]
    split_ifs with hline
    · have hle := of_decide_eq_true hline
      have hnone : (max 0 (min ((reapCandidates now (sweepProofBookkeeping swept g)).length : ℤ)
          (slotCount g - line.floor))).toNat = 0 := by omega
      rw [hnone, List.take_zero]
      rfl
    · have hlt : line.floor < slotCount g := not_le.1 fun hle => hline (decide_eq_true hle)
      have htarget : (max 0 (min ((reapCandidates now (sweepProofBookkeeping swept g)).length : ℤ)
          (slotCount g - line.floor))).toNat =
            min ((slotCount g : ℤ) - line.floor).toNat (reapCandidates now (sweepProofBookkeeping swept g)).length := by
        omega
      rw [htarget, ← List.take_take, List.take_length]

theorem get_releaseSlots_of_mem {id : PeerId} (ids : List PeerId) (g : GaterState) (h : id ∈ ids) :
    (ids.foldl releaseSlot g).slots.get id = none := by
  cases hget : (ids.foldl releaseSlot g).slots.get id with
  | none => rfl
  | some slot =>
    induction ids generalizing g with
    | nil => cases h
    | cons x rest ih =>
      rw [List.foldl_cons] at hget
      by_cases hrest : id ∈ rest
      · exact ih _ hrest hget
      · obtain rfl : id = x := (List.mem_cons.1 h).resolve_right hrest
        have := (shrinks_releaseSlots rest _).slots _ _ hget
        rw [releaseSlot, OrdMap.get_erase_self] at this
        cases this

theorem bookkeeping_releaseSlots (ids : List PeerId) (g : GaterState) :
    (ids.foldl releaseSlot g).provenPeers = g.provenPeers ∧
      ((∀ id, g.unprovenAsks.get id = none) → ∀ id, (ids.foldl releaseSlot g).unprovenAsks.get id = none) := by
  induction ids generalizing g with
  | nil => exact ⟨rfl, id⟩
  | cons x rest ih =>
    obtain ⟨hproofs, hasks⟩ := ih (releaseSlot g x)
    refine ⟨hproofs, fun h => hasks fun id => ?_⟩
    rw [releaseSlot, OrdMap.get_erase, h id, ite_self]

/-- **The law of the reaper**, for any ledger and any line. -/
theorem reapBeyond_law (line : JsNumber) (swept now : ℤ) (g : GaterState) :
    ReaperLaw line swept now g (reapBeyond line swept now g) := by
  rw [reapBeyond_eq]
  dsimp only
  have hquota := reapQuota_le line (g.slots.count fun _ slot => reapable now slot) (slotCount g)
  generalize hn : (reapQuota line (g.slots.count fun _ slot => reapable now slot) (slotCount g)).toNat = n
  have hslots : (sweepProofBookkeeping swept g).slots = g.slots := rfl
  have hmem : ∀ r ∈ (reapCandidates now (sweepProofBookkeeping swept g)).take n,
      r ∈ reapCandidates now (sweepProofBookkeeping swept g) := fun r hr => List.mem_of_mem_take hr
  obtain ⟨hproofs, hasks⟩ := bookkeeping_releaseSlots
    (((reapCandidates now (sweepProofBookkeeping swept g)).take n).map ReapedSlot.peerId)
    (sweepProofBookkeeping swept g)
  refine ⟨?_, ?_, ?_, ?_, ?_, ?_, ?_, ?_⟩
  · rw [List.length_take, length_reapCandidates, hslots]
    omega
  · exact ((List.take_sublist n _).map _).nodup (nodup_reapCandidates now _)
  · exact fun r hr => mem_reapCandidates.1 (hmem r hr)
  · exact fun id hid => get_releaseSlots_of_mem _ _ hid
  · exact fun id hid => get_releaseSlots _ _ hid
  · intro id slot hget hreap r hr
    -- who is left stands behind everyone who is taken
    have hleft : id ∉ ((reapCandidates now (sweepProofBookkeeping swept g)).take n).map ReapedSlot.peerId := by
      intro hid
      rw [get_releaseSlots_of_mem _ _ hid] at hget
      cases hget
    rw [get_releaseSlots _ _ hleft] at hget
    have hcandidate : reapedSlot now (id, slot) ∈ reapCandidates now (sweepProofBookkeeping swept g) :=
      mem_reapCandidates.2 ⟨slot, hget, hreap, rfl⟩
    rw [← List.take_append_drop n (reapCandidates now (sweepProofBookkeeping swept g))] at hcandidate
    have hsorted := pairwise_reapCandidates now (sweepProofBookkeeping swept g)
    rw [← List.take_append_drop n (reapCandidates now (sweepProofBookkeeping swept g))] at hsorted
    rcases List.mem_append.1 hcandidate with htaken | hdropped
    · exact absurd (List.mem_map_of_mem htaken) hleft
    · exact (List.pairwise_append.1 hsorted).2.2 r hr _ hdropped
  · intro id proof
    rw [hproofs]
    simp [sweepProofBookkeeping, OrdMap.get_filter]
  · exact hasks fun id => rfl

/-- **The reaper frees exactly what stands above the pressure line**, the quietest candidates first, and no more than
there are.  Where ceiling, fraction and their rounded product are finite, the line is the floor of that product. -/
theorem reapIdleSlots_law (cfg : GaterConfig) (swept now : ℤ) (g : GaterState) :
    ReaperLaw (pressureLine cfg) swept now g (reapIdleSlots cfg swept now g) ∧
      ∀ ceiling fraction product, cfg.slotCeiling = .fin ceiling → cfg.reapPressureFraction = .fin fraction →
        Number.round (ceiling * fraction) = .fin product →
          ((reapIdleSlots cfg swept now g).1.length : ℤ) =
            max 0 (min (g.slots.count fun _ slot => reapable now slot : ℤ) (slotCount g - product.floor)) := by
  have hlaw := reapBeyond_law (pressureLine cfg) swept now g
  rw [← reapIdleSlots_eq] at hlaw
  refine ⟨hlaw, fun ceiling fraction product hceiling hfraction hproduct => ?_⟩
  have hline : pressureLine cfg = .fin product.floor := by
    rw [pressureLine, hceiling, hfraction, Number.mul, hproduct, Number.floor]
  rw [hlaw.freed, hline, reapQuota, Rat.floor_intCast]

namespace Sample

/-- The fraction is the double `0.3`, which is less than three tenths. -/
def tenSlots : GaterConfig where
  slotCeiling := .fin 10
  reapPressureFraction := .fin (5404319552844595 / 2 ^ 54)

def heldSince (grantedAt : ℤ) : SlotRecord where
  reserved := true
  provenForReservation := true
  agents := OrdSet.empty.add [1]
  grantedAt
  lastActivityAt := none

theorem singleton_nonempty (c : Char) : String.singleton c ≠ "" := by simp

def peer (c : Char) : PeerId := ⟨String.singleton c, singleton_nonempty c⟩

def fourHeld : GaterState where
  slots := (((OrdMap.empty.set (peer 'a') (heldSince 2)).set (peer 'b') (heldSince 1)).set (peer 'c')
    (heldSince 3)).set (peer 'd') (heldSince 4)

end Sample

/-- Ten times the fraction rounds to three, so one of four slots is freed. -/
theorem reapIdleSlots_law_of_four :
    ((reapIdleSlots Sample.tenSlots 0 (24 * 60 * 60 * 1000) Sample.fourHeld).1.length : ℤ) = 1 :=
  ((reapIdleSlots_law Sample.tenSlots 0 (24 * 60 * 60 * 1000) Sample.fourHeld).2 10 (5404319552844595 / 2 ^ 54) 3
    rfl rfl (by decide +kernel)).trans (by decide +kernel)

end

end Cello.Relay
