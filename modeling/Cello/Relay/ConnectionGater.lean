import Cello.Lib.JsValue
import Cello.Lib.OrdMap
import Cello.Lib.OrdSet
import Cello.Lib.StringNumber

/-!
# The ledger of reservation slots

`packages/relay/src/relay-connection-gater.ts`.  A peer proves on one connection that it belongs to
a registered agent and takes its reservation on the next, so a proof is remembered past the
disconnect in a second map.  An agent may hold so many reserved slots and no more.  The cap is
checked when an agent authenticates and again when a reservation is granted, and the second check
leaves the asking peer's own slot out.  `reservation_ledger_invariant` says that the two agree: no
agent is ever above the cap, so a refresh is never refused.

Times are whatever the clock says, connectivity whatever the node answers.
-/

namespace Cello.Relay

open Lib

/-- A transport peer id.  None is the empty text, which `slotCountForAgent` uses for no peer at all; the
relay passes a peer id on only when it has one. -/
structure PeerId where
  text : String
  nonempty : text ≠ ""
deriving DecidableEq

structure SlotRecord where
  /-- A circuit reservation backs this entry. -/
  reserved : Bool
  /-- The peer authenticated with a reservation as its purpose. -/
  provenForReservation : Bool
  agents : OrdSet Bytes
  grantedAt : ℤ
  lastActivityAt : Option ℤ

/-- A proof, remembered past the connection it was made on. -/
structure ProvenPeer where
  agentPubkey : Bytes
  expiresAt : ℤ

structure GaterConfig where
  slotCap : ℕ := 32
  slotCeiling : JsNumber := .fin 4096
  reapPressureFraction : JsNumber := Number.round (4 / 5)

structure GaterState where
  slots : OrdMap PeerId SlotRecord := OrdMap.empty
  provenPeers : OrdMap PeerId ProvenPeer := OrdMap.empty
  /-- Reservations asked for without a proof. -/
  unprovenAsks : OrdMap PeerId ℕ := OrdMap.empty

/-- `PROVEN_PEER_MEMORY_MS`. -/
def provenPeerMemoryMs : ℤ := 2 * 60 * 1000

/-- `SLOT_REAP_ACTIVITY_FLOOR_MS`. -/
def slotReapActivityFloorMs : ℤ := 6 * 60 * 60 * 1000

/-! ### Counting -/

/-- `#reservedSlotsForAgent`. -/
def reservedSlotsForAgent (g : GaterState) (agent : Bytes) (exceptPeerId : String) : ℕ :=
  g.slots.count fun id slot =>
    decide (id.text ≠ exceptPeerId) && (slot.reserved && decide (agent ∈ slot.agents))

def slotCountForAgent (g : GaterState) (agent : Bytes) : ℕ := reservedSlotsForAgent g agent ""

def slotCount (g : GaterState) : ℕ := g.slots.count fun _ slot => slot.reserved

/-! ### The operations -/

/-- `#releaseSlot`; the node hangs the peer up. -/
def releaseSlot (g : GaterState) (peerId : PeerId) : GaterState :=
  { g with slots := g.slots.erase peerId, unprovenAsks := g.unprovenAsks.erase peerId }

def recordActivity (now : ℤ) (g : GaterState) (peerId : PeerId) : GaterState :=
  match g.slots.get peerId with
  | some slot => { g with slots := g.slots.set peerId { slot with lastActivityAt := some now } }
  | none => g

/-- The proof of the peer is kept. -/
def recordDisconnect (g : GaterState) (peerId : PeerId) : GaterState :=
  { g with slots := g.slots.erase peerId, unprovenAsks := g.unprovenAsks.erase peerId }

inductive SlotAdmission where
  | ok
  | slotCapExceeded (held cap : ℕ)
deriving DecidableEq

def reclaimable (connected : PeerId → Bool) (g : GaterState) (peerId : PeerId) (agent : Bytes) :
    List PeerId :=
  (g.slots.entries.filter fun (id, slot) =>
    decide (id ≠ peerId) && (decide (agent ∈ slot.agents) && decide (slot.agents.size = 1)) &&
      slot.lastActivityAt.isNone && !connected id).map Prod.fst

/-- Remember the proof past this connection, if it was made for a reservation. -/
def rememberProof (now : ℤ) (g : GaterState) (peerId : PeerId) (agent : Bytes) (forReservation : Bool) :
    GaterState :=
  if forReservation then
    { g with
      provenPeers := g.provenPeers.set peerId ⟨agent, now + provenPeerMemoryMs⟩
      unprovenAsks := g.unprovenAsks.erase peerId }
  else g

/-- The slot an admitted agent is named in. -/
def admittedSlot (now : ℤ) (existing : Option SlotRecord) (agent : Bytes) (forReservation : Bool) :
    SlotRecord :=
  match existing with
  | some slot =>
    { slot with
      agents := slot.agents.add agent
      provenForReservation := slot.provenForReservation || forReservation }
  | none =>
    { reserved := false, provenForReservation := forReservation, agents := OrdSet.empty.add agent
      grantedAt := now, lastActivityAt := none }

def admitSlot (cfg : GaterConfig) (connected : PeerId → Bool) (now : ℤ) (g : GaterState)
    (peerId : PeerId) (agent : Bytes) (forReservation : Bool) : SlotAdmission × GaterState :=
  let existing := g.slots.get peerId
  let g₁ := (reclaimable connected g peerId agent).foldl releaseSlot g
  let held := slotCountForAgent g₁ agent
  if existing.all (fun slot => decide (agent ∉ slot.agents)) ∧ cfg.slotCap ≤ held then
    (.slotCapExceeded held cfg.slotCap, g₁)
  else
    let g₂ := rememberProof now g₁ peerId agent forReservation
    (.ok, { g₂ with slots := g₂.slots.set peerId (admittedSlot now existing agent forReservation) })

/-- The slot a reservation is decided on, restored from a proof that has not expired; `none` when
the proof has. -/
def restoreProof (now granted : ℤ) (g : GaterState) (id : PeerId) :
    Option (Option SlotRecord × GaterState) :=
  let slot := g.slots.get id
  if slot.any SlotRecord.provenForReservation then some (slot, g)
  else
    match g.provenPeers.get id with
    | none => some (slot, g)
    | some proven =>
      if now < proven.expiresAt then
        let fresh : SlotRecord :=
          { reserved := false, provenForReservation := true, agents := OrdSet.empty
            grantedAt := granted, lastActivityAt := none }
        let slot := slot.getD fresh
        let slot := { slot with
          provenForReservation := true, agents := slot.agents.add proven.agentPubkey }
        some (some slot, { g with slots := g.slots.set id slot })
      else none

/-- `true` denies. -/
def denyInboundRelayReservation (cfg : GaterConfig) (now granted : ℤ) (g : GaterState) (id : PeerId) :
    Bool × GaterState :=
  match restoreProof now granted g id with
  | none => (true, { g with provenPeers := g.provenPeers.erase id })
  | some (slot, g₁) =>
    match slot.filter fun slot => slot.provenForReservation && decide (slot.agents.size ≠ 0) with
    | none =>
      (true, { g₁ with unprovenAsks := g₁.unprovenAsks.set id ((g₁.unprovenAsks.get id).getD 0 + 1) })
    | some slot =>
      if slot.agents.members.any fun agent => decide (cfg.slotCap ≤ reservedSlotsForAgent g₁ agent id.text)
      then (true, g₁)
      else (false, { g₁ with slots := g₁.slots.set id { slot with reserved := true } })

/-- `#sweepProofBookkeeping`. -/
def sweepProofBookkeeping (now : ℤ) (g : GaterState) : GaterState :=
  { g with
    provenPeers := g.provenPeers.filter fun _ proof => decide (now < proof.expiresAt)
    unprovenAsks := OrdMap.empty }

structure ReapedSlot where
  peerId : PeerId
  agents : List Bytes
  idleMs : ℤ

/-- The line is the floor of a product of doubles, so of a rounded one. -/
def pressureLine (cfg : GaterConfig) : JsNumber := Number.floor (Number.mul cfg.slotCeiling cfg.reapPressureFraction)

/-- The reserved slots that have been silent for longer than the floor, the quietest first. -/
def reapCandidates (now : ℤ) (g : GaterState) : List ReapedSlot :=
  let candidates := g.slots.entries.filterMap fun (id, slot) =>
    let idleMs := now - slot.lastActivityAt.getD slot.grantedAt
    if slot.reserved && decide (slotReapActivityFloorMs < idleMs) then
      some ⟨id, slot.agents.members, idleMs⟩
    else none
  candidates.mergeSort fun a b => decide (b.idleMs ≤ a.idleMs)

def reapIdleSlots (cfg : GaterConfig) (swept now : ℤ) (g : GaterState) : List ReapedSlot × GaterState :=
  let g₁ := sweepProofBookkeeping swept g
  let reservedHeld := slotCount g₁
  if (pressureLine cfg).ge reservedHeld then ([], g₁)
  else
    let candidates := reapCandidates now g₁
    let reaped := match pressureLine cfg with
      | .fin line => candidates.take ((reservedHeld : ℤ) - line.floor).toNat
      -- no length reaches a target that is infinite or `NaN`
      | _ => candidates
    (reaped, (reaped.map ReapedSlot.peerId).foldl releaseSlot g₁)

/-! ### Runs -/

inductive GaterOp where
  | admitSlot (connected : PeerId → Bool) (now : ℤ) (peerId : PeerId) (agent : Bytes)
      (forReservation : Bool)
  | denyInboundRelayReservation (now granted : ℤ) (source : PeerId)
  | recordActivity (now : ℤ) (peerId : PeerId)
  | recordDisconnect (peerId : PeerId)
  | reapIdleSlots (swept now : ℤ)

/-- The gater, and who has been admitted over which peer so far. -/
structure Ledger where
  gater : GaterState := {}
  authenticated : List (PeerId × Bytes) := []

def Ledger.step (cfg : GaterConfig) (l : Ledger) : GaterOp → Ledger
  | .admitSlot connected now peerId agent forReservation =>
    match Relay.admitSlot cfg connected now l.gater peerId agent forReservation with
    | (.ok, g) => ⟨g, l.authenticated ++ [(peerId, agent)]⟩
    | (.slotCapExceeded _ _, g) => { l with gater := g }
  | .denyInboundRelayReservation now granted source =>
    { l with gater := (Relay.denyInboundRelayReservation cfg now granted l.gater source).2 }
  | .recordActivity now peerId => { l with gater := Relay.recordActivity now l.gater peerId }
  | .recordDisconnect peerId => { l with gater := Relay.recordDisconnect l.gater peerId }
  | .reapIdleSlots swept now => { l with gater := (Relay.reapIdleSlots cfg swept now l.gater).2 }

def Ledger.run (cfg : GaterConfig) (ops : List GaterOp) : Ledger := ops.foldl (Ledger.step cfg) {}

/-! ### The invariant -/

/-- How many reserved slots are attributed to an agent. -/
def heldBy (g : GaterState) (agent : Bytes) : ℕ :=
  g.slots.count fun _ slot => slot.reserved && decide (agent ∈ slot.agents)

/-- What a slot counts for an agent. -/
def share (slot : Option SlotRecord) (agent : Bytes) : ℕ :=
  if slot.any fun slot => slot.reserved && decide (agent ∈ slot.agents) then 1 else 0

/-- **No agent is above the cap, and who is named in the ledger was admitted.** -/
structure LedgerInvariant (cfg : GaterConfig) (l : Ledger) : Prop where
  capped : ∀ agent, heldBy l.gater agent ≤ cfg.slotCap
  proven : ∀ id slot, l.gater.slots.get id = some slot → slot.reserved = true →
    slot.provenForReservation = true ∧ slot.agents.size ≠ 0
  agents : ∀ id slot, l.gater.slots.get id = some slot → ∀ agent ∈ slot.agents,
    (id, agent) ∈ l.authenticated
  remembered : ∀ id proof, l.gater.provenPeers.get id = some proof →
    (id, proof.agentPubkey) ∈ l.authenticated

section

variable {cfg : GaterConfig} {g g' : GaterState}

theorem slotCountForAgent_eq (g : GaterState) (agent : Bytes) :
    slotCountForAgent g agent = heldBy g agent := by
  simp only [slotCountForAgent, reservedSlotsForAgent, heldBy]
  congr 1
  funext id slot
  simp [id.nonempty]

theorem heldBy_eq (g : GaterState) (agent : Bytes) (id : PeerId) :
    heldBy g agent = reservedSlotsForAgent g agent id.text + share (g.slots.get id) agent := by
  rw [heldBy, OrdMap.count_split g.slots id]
  congr 2
  funext x slot
  have htext : x = id ↔ x.text = id.text := by
    constructor
    · rintro rfl
      rfl
    · intro h
      cases x
      cases id
      cases h
      rfl
  simp [htext]

theorem reservedSlots_set (g : GaterState) (agent : Bytes) (id : PeerId) (slot : SlotRecord) :
    reservedSlotsForAgent { g with slots := g.slots.set id slot } agent id.text =
      reservedSlotsForAgent g agent id.text :=
  OrdMap.count_set_of_not _ _ _ (by simp)

theorem heldBy_set (g : GaterState) (agent : Bytes) (id : PeerId) (slot : SlotRecord) :
    heldBy { g with slots := g.slots.set id slot } agent =
      reservedSlotsForAgent g agent id.text + share (some slot) agent := by
  rw [heldBy_eq _ agent id, reservedSlots_set, OrdMap.get_set_self]

/-- One ledger is part of another. -/
structure Shrinks (g g' : GaterState) : Prop where
  slots : ∀ id slot, g'.slots.get id = some slot → g.slots.get id = some slot
  held : ∀ agent, heldBy g' agent ≤ heldBy g agent
  provenPeers : ∀ id proof, g'.provenPeers.get id = some proof → g.provenPeers.get id = some proof

theorem Shrinks.refl (g : GaterState) : Shrinks g g :=
  ⟨fun _ _ h => h, fun _ => le_rfl, fun _ _ h => h⟩

theorem Shrinks.trans {g'' : GaterState} (h : Shrinks g g') (h' : Shrinks g' g'') : Shrinks g g'' :=
  ⟨fun id slot hs => h.slots id slot (h'.slots id slot hs),
    fun agent => (h'.held agent).trans (h.held agent),
    fun id proof hp => h.provenPeers id proof (h'.provenPeers id proof hp)⟩

theorem shrinks_releaseSlot (g : GaterState) (id : PeerId) : Shrinks g (releaseSlot g id) := by
  refine ⟨fun x slot hx => ?_, fun agent => OrdMap.count_erase_le _ _ _, fun _ _ h => h⟩
  rw [releaseSlot, OrdMap.get_erase] at hx
  split at hx
  · cases hx
  · exact hx

theorem shrinks_releaseSlots : ∀ (ids : List PeerId) (g : GaterState),
    Shrinks g (ids.foldl releaseSlot g) := by
  intro ids
  induction ids with
  | nil => intro g; exact Shrinks.refl g
  | cons id rest ih => intro g; exact (shrinks_releaseSlot g id).trans (ih _)

theorem get_releaseSlots {peerId : PeerId} : ∀ (ids : List PeerId) (g : GaterState), peerId ∉ ids →
    (ids.foldl releaseSlot g).slots.get peerId = g.slots.get peerId := by
  intro ids
  induction ids with
  | nil => intro g _; rfl
  | cons id rest ih =>
    intro g h
    rw [List.mem_cons, not_or] at h
    rw [List.foldl_cons, ih _ h.2, releaseSlot, OrdMap.get_erase_of_ne _ h.1]

theorem not_mem_reclaimable (connected : PeerId → Bool) (g : GaterState) (peerId : PeerId)
    (agent : Bytes) : peerId ∉ reclaimable connected g peerId agent := by
  intro h
  obtain ⟨e, he, rfl⟩ := List.mem_map.1 h
  have := (List.mem_filter.1 he).2
  simp at this

variable {admitted : List (PeerId × Bytes)}

theorem LedgerInvariant.shrinks (h : LedgerInvariant cfg ⟨g, admitted⟩) (hs : Shrinks g g') :
    LedgerInvariant cfg ⟨g', admitted⟩ :=
  ⟨fun agent => (hs.held agent).trans (h.capped agent),
    fun id slot hid => h.proven id slot (hs.slots id slot hid),
    fun id slot hid => h.agents id slot (hs.slots id slot hid),
    fun id proof hid => h.remembered id proof (hs.provenPeers id proof hid)⟩

theorem LedgerInvariant.setSlot (h : LedgerInvariant cfg ⟨g, admitted⟩) {id : PeerId}
    {slot : SlotRecord}
    (hproven : slot.reserved = true → slot.provenForReservation = true ∧ slot.agents.size ≠ 0)
    (hagents : ∀ agent ∈ slot.agents, (id, agent) ∈ admitted)
    (hroom : ∀ agent, reservedSlotsForAgent g agent id.text + share (some slot) agent ≤ cfg.slotCap) :
    LedgerInvariant cfg ⟨{ g with slots := g.slots.set id slot }, admitted⟩ := by
  refine ⟨fun agent => ?_, fun x s hx hr => ?_, fun x s hx agent ha => ?_, h.remembered⟩
  · rw [heldBy_set]
    exact hroom agent
  · simp only [OrdMap.get_set] at hx
    split at hx
    · obtain rfl := Option.some.inj hx
      exact hproven hr
    · exact h.proven x s hx hr
  · simp only [OrdMap.get_set] at hx
    split at hx
    · rename_i hxid
      obtain rfl := Option.some.inj hx
      exact hxid ▸ hagents agent ha
    · exact h.agents x s hx agent ha

theorem LedgerInvariant.room (h : LedgerInvariant cfg ⟨g, admitted⟩) {id : PeerId}
    {slot : SlotRecord} {agent : Bytes}
    (hshare : share (some slot) agent ≤ share (g.slots.get id) agent) :
    reservedSlotsForAgent g agent id.text + share (some slot) agent ≤ cfg.slotCap := by
  have hcap := h.capped agent
  rw [heldBy_eq g agent id] at hcap
  omega

theorem LedgerInvariant.recordActivity (h : LedgerInvariant cfg ⟨g, admitted⟩) (now : ℤ)
    (id : PeerId) :
    LedgerInvariant cfg ⟨recordActivity now g id, admitted⟩ := by
  rw [Relay.recordActivity]
  split
  · rename_i slot hid
    refine h.setSlot (h.proven id slot hid) (h.agents id slot hid) fun agent => h.room ?_
    rw [hid]
    exact le_rfl
  · exact h

theorem share_le_one (slot : Option SlotRecord) (agent : Bytes) : share slot agent ≤ 1 := by
  rw [share]
  split <;> omega

theorem share_of_not_reserved {slot : SlotRecord} (h : slot.reserved = false) (agent : Bytes) :
    share (some slot) agent = 0 := by
  simp [share, h]

theorem LedgerInvariant.mono {admitted admitted' : List (PeerId × Bytes)}
    (h : LedgerInvariant cfg ⟨g, admitted⟩) (hsub : admitted ⊆ admitted') :
    LedgerInvariant cfg ⟨g, admitted'⟩ :=
  ⟨h.capped, h.proven, fun id slot hid agent ha => hsub (h.agents id slot hid agent ha),
    fun id proof hid => hsub (h.remembered id proof hid)⟩

theorem rememberProof_slots (now : ℤ) (g : GaterState) (peerId : PeerId) (agent : Bytes)
    (forReservation : Bool) : (rememberProof now g peerId agent forReservation).slots = g.slots := by
  rw [rememberProof]
  split <;> rfl

theorem LedgerInvariant.rememberProof (h : LedgerInvariant cfg ⟨g, admitted⟩) {id : PeerId}
    {agent : Bytes} (hmem : (id, agent) ∈ admitted) (now : ℤ) (forReservation : Bool) :
    LedgerInvariant cfg ⟨rememberProof now g id agent forReservation, admitted⟩ := by
  rw [Relay.rememberProof]
  split
  · refine ⟨h.capped, h.proven, h.agents, fun x proof hx => ?_⟩
    simp only [OrdMap.get_set] at hx
    split at hx
    · rename_i hxid
      obtain rfl := Option.some.inj hx
      exact hxid ▸ hmem
    · exact h.remembered x proof hx
  · exact h

theorem share_admittedSlot (now : ℤ) (existing : Option SlotRecord) (agent : Bytes) (forReservation : Bool)
    (a : Bytes) : share (some (admittedSlot now existing agent forReservation)) a ≤ share existing a ∨
      (a = agent ∧ existing.all (fun slot => decide (agent ∉ slot.agents)) = true ∧
        share existing agent = 0) := by
  cases existing with
  | none => exact Or.inl (by rw [share_of_not_reserved (by rfl)]; exact Nat.zero_le _)
  | some slot =>
    by_cases ha : a = agent
    · by_cases hon : agent ∈ slot.agents
      · left
        simp [share, admittedSlot, ha, hon]
      · right
        simp [ha, hon, share]
    · left
      simp [share, admittedSlot, ha]

/-- **An admission keeps the invariant.** -/
theorem LedgerInvariant.admitSlot (h : LedgerInvariant cfg ⟨g, admitted⟩)
    (connected : PeerId → Bool) (now : ℤ) (peerId : PeerId) (agent : Bytes) (forReservation : Bool) :
    LedgerInvariant cfg
      (Ledger.step cfg ⟨g, admitted⟩ (.admitSlot connected now peerId agent forReservation)) := by
  have hshrinks := shrinks_releaseSlots (reclaimable connected g peerId agent) g
  have hown := get_releaseSlots _ g (not_mem_reclaimable connected g peerId agent)
  simp only [Ledger.step, Relay.admitSlot]
  generalize (reclaimable connected g peerId agent).foldl releaseSlot g = g₁ at hshrinks hown
  have h₁ := h.shrinks hshrinks
  by_cases hcap : (g.slots.get peerId).all (fun slot => decide (agent ∉ slot.agents)) = true ∧
      cfg.slotCap ≤ slotCountForAgent g₁ agent
  · rw [if_pos hcap]
    exact h₁
  · rw [if_neg hcap]
    have hmem : (peerId, agent) ∈ admitted ++ [(peerId, agent)] := by simp
    have h₂ := (h₁.mono (List.subset_append_left _ [(peerId, agent)])).rememberProof hmem now forReservation
    have hslots := rememberProof_slots now g₁ peerId agent forReservation
    generalize Relay.rememberProof now g₁ peerId agent forReservation = g₂ at h₂ hslots
    refine LedgerInvariant.setSlot h₂ ?_ ?_ ?_
    · intro hr
      cases he : g.slots.get peerId with
      | none =>
        rw [he] at hr
        cases hr
      | some slot =>
        rw [he] at hr
        obtain ⟨hproven, -⟩ := h.proven peerId slot he hr
        refine ⟨by simp [admittedSlot, hproven], fun hsize => ?_⟩
        exact OrdSet.size_eq_zero.1 hsize agent (by simp [admittedSlot])
    · intro a ha
      cases he : g.slots.get peerId with
      | none =>
        rw [he] at ha
        simp only [admittedSlot, OrdSet.mem_add, OrdSet.not_mem_empty, or_false] at ha
        exact ha ▸ hmem
      | some slot =>
        rw [he] at ha
        simp only [admittedSlot, OrdSet.mem_add] at ha
        rcases ha with rfl | ha
        · exact hmem
        · exact List.mem_append_left _ (h.agents peerId slot he a ha)
    · intro a
      rcases share_admittedSlot now (g.slots.get peerId) agent forReservation a with
        hle | ⟨rfl, hnew, hzero⟩
      · refine h₂.room ?_
        rw [hslots, hown]
        exact hle
      · -- the cap was looked at, and there was room
        have hlt : heldBy g₁ a < cfg.slotCap := by
          rw [← slotCountForAgent_eq]
          by_contra hge
          exact hcap ⟨hnew, not_lt.1 hge⟩
        have hsame : reservedSlotsForAgent g₂ a peerId.text = reservedSlotsForAgent g₁ a peerId.text := by
          simp only [reservedSlotsForAgent, hslots]
        rw [heldBy_eq g₁ a peerId, hown, hzero] at hlt
        have := share_le_one (some (admittedSlot now (g.slots.get peerId) a forReservation)) a
        omega

/-! ### The gate -/

/-- **What the gate decides on.**  The slot comes with the ledger it is in; a reserved one is as it was. -/
theorem restoreProof_spec (h : LedgerInvariant cfg ⟨g, admitted⟩) {now granted : ℤ} {id : PeerId}
    {slot : Option SlotRecord} {g₁ : GaterState}
    (hr : restoreProof now granted g id = some (slot, g₁)) :
    LedgerInvariant cfg ⟨g₁, admitted⟩ ∧ g₁.slots.get id = slot ∧
      ∀ s, g.slots.get id = some s → s.reserved = true → slot = some s := by
  rw [restoreProof] at hr
  by_cases hproven : (g.slots.get id).any SlotRecord.provenForReservation = true
  · rw [if_pos hproven] at hr
    obtain ⟨rfl, rfl⟩ := Prod.mk.inj (Option.some.inj hr)
    exact ⟨h, rfl, fun s hs _ => hs⟩
  · rw [if_neg hproven] at hr
    -- a slot without a proof is not reserved
    have hfree : ∀ s, g.slots.get id = some s → s.reserved = false := by
      intro s hs
      by_contra hres
      have := (h.proven id s hs (by simpa using hres)).1
      simp [hs, this] at hproven
    cases hp : g.provenPeers.get id with
    | none =>
      simp only [hp] at hr
      obtain ⟨rfl, rfl⟩ := Prod.mk.inj (Option.some.inj hr)
      exact ⟨h, rfl, fun s hs _ => hs⟩
    | some proven =>
      simp only [hp] at hr
      split at hr
      · obtain ⟨rfl, rfl⟩ := Prod.mk.inj (Option.some.inj hr)
        refine ⟨?_, OrdMap.get_set_self _ _ _, fun s hs hres => ?_⟩
        · have hmem := h.remembered id proven hp
          have hnot : ((g.slots.get id).getD
              ⟨false, true, OrdSet.empty, granted, none⟩).reserved = false := by
            cases hs : g.slots.get id with
            | none => rfl
            | some s => exact hfree s hs
          refine h.setSlot (fun hres => ?_) (fun agent ha => ?_) fun agent => ?_
          · rw [hnot] at hres
            cases hres
          · rw [OrdSet.mem_add] at ha
            rcases ha with rfl | ha
            · exact hmem
            · cases hs : g.slots.get id with
              | none => simp [hs] at ha
              | some s =>
                rw [hs] at ha
                exact h.agents id s hs agent ha
          · refine h.room ((share_of_not_reserved ?_ agent).le.trans (Nat.zero_le _))
            exact hnot
        · rw [hfree s hs] at hres
          cases hres
      · cases hr

theorem LedgerInvariant.forgetProof (h : LedgerInvariant cfg ⟨g, admitted⟩) (id : PeerId) :
    LedgerInvariant cfg ⟨{ g with provenPeers := g.provenPeers.erase id }, admitted⟩ := by
  refine ⟨h.capped, h.proven, h.agents, fun x proof hx => ?_⟩
  simp only [OrdMap.get_erase] at hx
  split at hx
  · cases hx
  · exact h.remembered x proof hx

/-- **A grant, and a refusal.**  Either way the invariant is kept; a grant leaves a reserved slot behind. -/
theorem LedgerInvariant.deny (h : LedgerInvariant cfg ⟨g, admitted⟩) (now granted : ℤ) (id : PeerId) :
    LedgerInvariant cfg ⟨(denyInboundRelayReservation cfg now granted g id).2, admitted⟩ ∧
      ((denyInboundRelayReservation cfg now granted g id).1 = false →
        ∃ slot, (denyInboundRelayReservation cfg now granted g id).2.slots.get id = some slot ∧
          slot.reserved = true) := by
  rw [denyInboundRelayReservation]
  cases hr : restoreProof now granted g id with
  | none => exact ⟨h.forgetProof id, fun hdeny => by cases hdeny⟩
  | some r =>
    obtain ⟨slot, g₁⟩ := r
    obtain ⟨h₁, hget, -⟩ := restoreProof_spec h hr
    simp only
    cases hf : slot.filter fun slot => slot.provenForReservation && decide (slot.agents.size ≠ 0) with
    | none => exact ⟨⟨h₁.capped, h₁.proven, h₁.agents, h₁.remembered⟩, fun hdeny => by cases hdeny⟩
    | some s =>
      obtain ⟨rfl, hs⟩ := Option.filter_eq_some_iff.1 hf
      simp only [Bool.and_eq_true, decide_eq_true_eq] at hs
      simp only
      split
      · exact ⟨h₁, fun hdeny => by cases hdeny⟩
      · rename_i hroom
        refine ⟨h₁.setSlot (fun _ => hs) (fun agent ha => h₁.agents id s hget agent ha) fun agent => ?_,
          fun _ => ⟨_, OrdMap.get_set_self _ _ _, rfl⟩⟩
        by_cases ha : agent ∈ s.agents
        · have hlt : reservedSlotsForAgent g₁ agent id.text < cfg.slotCap := by
            by_contra hge
            exact hroom (List.any_eq_true.2 ⟨agent, ha, by simpa using hge⟩)
          have := share_le_one (some { s with reserved := true }) agent
          omega
        · refine h₁.room ?_
          simp [share, ha]

theorem LedgerInvariant.refresh (h : LedgerInvariant cfg ⟨g, admitted⟩) {id : PeerId}
    {slot : SlotRecord} (hget : g.slots.get id = some slot) (hres : slot.reserved = true)
    (now granted : ℤ) : (denyInboundRelayReservation cfg now granted g id).1 = false := by
  obtain ⟨hproven, hsize⟩ := h.proven id slot hget hres
  have hrestore : restoreProof now granted g id = some (some slot, g) := by
    rw [restoreProof, hget]
    simp [hproven]
  have hfilter : (some slot).filter (fun slot => slot.provenForReservation &&
      decide (slot.agents.size ≠ 0)) = some slot := by
    simp [hproven, hsize]
  have hroom : ¬(slot.agents.members.any fun agent =>
      decide (cfg.slotCap ≤ reservedSlotsForAgent g agent id.text)) = true := by
    intro hany
    obtain ⟨agent, ha, hfull⟩ := List.any_eq_true.1 hany
    have hfull := of_decide_eq_true hfull
    -- the slot itself is one of the at most `cap` that the agent holds
    have hcap := h.capped agent
    have hown : share (some slot) agent = 1 := by
      have : agent ∈ slot.agents := ha
      simp [share, hres, this]
    rw [heldBy_eq g agent id, hget, hown] at hcap
    omega
  simp only [denyInboundRelayReservation, hrestore, hfilter, if_neg hroom]

/-! ### Every run -/

theorem shrinks_sweep (now : ℤ) (g : GaterState) : Shrinks g (sweepProofBookkeeping now g) :=
  ⟨fun _ _ h => h, fun _ => le_rfl, fun _ _ h => ((OrdMap.get_filter _ _).1 h).1⟩

theorem shrinks_reapIdleSlots (cfg : GaterConfig) (swept now : ℤ) (g : GaterState) :
    Shrinks g (reapIdleSlots cfg swept now g).2 := by
  simp only [reapIdleSlots]
  split
  · exact shrinks_sweep swept g
  · exact (shrinks_sweep swept g).trans (shrinks_releaseSlots _ _)

theorem LedgerInvariant.step {l : Ledger} (h : LedgerInvariant cfg l) (op : GaterOp) :
    LedgerInvariant cfg (l.step cfg op) := by
  cases op with
  | admitSlot connected now peerId agent forReservation => exact h.admitSlot ..
  | denyInboundRelayReservation now granted source => exact (h.deny now granted source).1
  | recordActivity now peerId => exact h.recordActivity now peerId
  | recordDisconnect peerId => exact h.shrinks (shrinks_releaseSlot _ peerId)
  | reapIdleSlots swept now => exact h.shrinks (shrinks_reapIdleSlots cfg swept now _)

theorem ledgerInvariant_run (cfg : GaterConfig) (ops : List GaterOp) :
    LedgerInvariant cfg (Ledger.run cfg ops) := by
  have hrun : ∀ (ops : List GaterOp) (l : Ledger), LedgerInvariant cfg l →
      LedgerInvariant cfg (ops.foldl (Ledger.step cfg) l) := by
    intro ops
    induction ops with
    | nil => intro l h; exact h
    | cons op rest ih => intro l h; exact ih _ (h.step op)
  refine hrun ops {} ⟨fun agent => Nat.zero_le _, ?_, ?_, ?_⟩ <;> intro id x hx <;> cases hx

end

/-- **The ledger of reservations, after any calls.**  No agent is attributed to more than the cap of
reserved slots; a reserved slot is proven and names an agent that was admitted for its peer; a reservation is
granted only to such a peer; and a peer that holds one is granted it again. -/
theorem reservation_ledger_invariant (cfg : GaterConfig) (ops : List GaterOp) :
    (∀ agent, ((Ledger.run cfg ops).gater.slots.count fun _ slot =>
        slot.reserved && decide (agent ∈ slot.agents)) ≤ cfg.slotCap) ∧
    (∀ id slot, (Ledger.run cfg ops).gater.slots.get id = some slot → slot.reserved = true →
        slot.provenForReservation = true ∧
          ∃ agent ∈ slot.agents, (id, agent) ∈ (Ledger.run cfg ops).authenticated) ∧
    (∀ now granted id,
        (denyInboundRelayReservation cfg now granted (Ledger.run cfg ops).gater id).1 = false →
        ∃ slot, (denyInboundRelayReservation cfg now granted (Ledger.run cfg ops).gater id).2.slots.get id =
            some slot ∧ slot.reserved = true ∧ slot.provenForReservation = true ∧
          ∃ agent ∈ slot.agents, (id, agent) ∈ (Ledger.run cfg ops).authenticated) ∧
    (∀ now granted id slot, (Ledger.run cfg ops).gater.slots.get id = some slot → slot.reserved = true →
        (denyInboundRelayReservation cfg now granted (Ledger.run cfg ops).gater id).1 = false) := by
  have h := ledgerInvariant_run cfg ops
  have hnamed : ∀ {l : Ledger}, LedgerInvariant cfg l → ∀ id slot, l.gater.slots.get id = some slot →
      slot.reserved = true → slot.provenForReservation = true ∧
        ∃ agent ∈ slot.agents, (id, agent) ∈ l.authenticated := by
    intro l hl id slot hget hres
    obtain ⟨hproven, hsize⟩ := hl.proven id slot hget hres
    refine ⟨hproven, ?_⟩
    by_contra hnone
    refine hsize (OrdSet.size_eq_zero.2 fun agent ha => hnone ⟨agent, ha, ?_⟩)
    exact hl.agents id slot hget agent ha
  refine ⟨h.capped, hnamed h, fun now granted id hallow => ?_, fun now granted id slot hget hres => ?_⟩
  · obtain ⟨hinv, hslot⟩ := h.deny now granted id
    obtain ⟨slot, hget, hres⟩ := hslot hallow
    exact ⟨slot, hget, hres, hnamed hinv id slot hget hres⟩
  · exact h.refresh hget hres now granted

end Cello.Relay
