import Cello.Lib.GuardedRun
import Mathlib.Algebra.Order.Ring.Rat
import Mathlib.Data.List.Forall2
import Mathlib.Data.List.Infix

/-!
# The relay pool

`packages/directory/src/relay-pool-manager.ts`.  The pool is filled by entries of the node registry
(`seedRelayEntries`) and by signed manifests (`applyManifest`).  What a relay was seeded with is to survive the
manifests, so a manifest is merged with the entries of the pool.  But an entry of the pool may come from an older
manifest; it is merged all the same, and what a new manifest says of a relay that was never seeded takes effect only
as far as the old one left room for it (`takes_effect_iff`).

A manifest that was parsed shares nothing with the pool, and entries are values here.
-/

namespace Cello.Directory.RelayPool

open Lib

/-! ### The pool -/

inductive RelayStatus where
  | active
  | draining
deriving DecidableEq

structure RelayManifestEntry where
  relayId : String
  endpoint : String
  region : String
  status : RelayStatus
  healthCheckUrl : String
  peerId : Option String
  multiaddrs : Option (List String)
deriving DecidableEq

/-- A manifest, as far as it is applied. -/
structure RelayPoolManifest where
  version : ℚ
  relays : List RelayManifestEntry

structure RelayState where
  consecutiveFailures : ℕ
  consecutiveSuccesses : ℕ
  available : Bool
  healthCheckUrl : String

structure Pool where
  currentVersion : ℚ
  currentRelays : List RelayManifestEntry
  failureState : String → Option RelayState
  relayHealthCheckUrls : String → Option String
  relayMultiaddrs : String → Option String

def Pool.empty : Pool := ⟨0, [], fun _ => none, fun _ => none, fun _ => none⟩

/-- `relays.find(r => r.relayId === relayId)`. -/
def find (relays : List RelayManifestEntry) (relayId : String) : Option RelayManifestEntry :=
  relays.find? fun r => decide (r.relayId = relayId)

def changeFirst (relayId : String) (f : RelayManifestEntry → RelayManifestEntry) :
    List RelayManifestEntry → List RelayManifestEntry
  | [] => []
  | r :: rest => if r.relayId = relayId then f r :: rest else r :: changeFirst relayId f rest

/-- `multiaddrs?.length`: the addresses, where there are any. -/
def given (multiaddrs : Option (List String)) : Bool := !(multiaddrs.getD []).isEmpty

def truthy (s : Option String) : Bool := !(s.getD "").isEmpty

/-- `multiaddrs?.some(a => a.includes("/dns4/"))`. -/
def hasDns (multiaddrs : Option (List String)) : Bool :=
  (multiaddrs.getD []).any fun a => decide ("/dns4/".toList <:+: a.toList)

def newState (entry : RelayManifestEntry) : RelayState := ⟨0, 0, true, entry.healthCheckUrl⟩

/-! ### Seeds and manifests -/

def address (seed entry : RelayManifestEntry) : RelayManifestEntry :=
  { entry with
    multiaddrs := if given seed.multiaddrs then seed.multiaddrs else entry.multiaddrs
    peerId := if truthy seed.peerId then seed.peerId else entry.peerId }

def seedRelayEntry (pool : Pool) (entry : RelayManifestEntry) : Pool :=
  if (find pool.currentRelays entry.relayId).isSome then
    { pool with currentRelays := changeFirst entry.relayId (address entry) pool.currentRelays }
  else
    { pool with
      currentRelays := pool.currentRelays ++ [entry]
      failureState := fun id => if id = entry.relayId then some (newState entry) else pool.failureState id }

def seedRelayEntries (pool : Pool) (entries : List RelayManifestEntry) : Pool := entries.foldl seedRelayEntry pool

/-- An entry of a manifest, with what the pool has of its relay. -/
def merge (oldRelays : List RelayManifestEntry) (entry : RelayManifestEntry) : RelayManifestEntry :=
  match find oldRelays entry.relayId with
  | none => entry
  | some seeded =>
    { entry with
      multiaddrs :=
        if hasDns seeded.multiaddrs then seeded.multiaddrs
        else if !given entry.multiaddrs && given seeded.multiaddrs then seeded.multiaddrs
        else entry.multiaddrs
      peerId := if truthy seeded.peerId then seeded.peerId else entry.peerId }

/-- Whether a relay was in the pool and is not in the manifest. -/
def leaves (pool : Pool) (manifest : RelayPoolManifest) (relayId : String) : Bool :=
  (pool.failureState relayId).isSome && !(manifest.relays.any fun r => decide (r.relayId = relayId))

/-- `applyManifest`, and whether it accepts. -/
def applyManifest (pool : Pool) (manifest : RelayPoolManifest) : Pool × Bool :=
  if manifest.version ≤ pool.currentVersion then (pool, false)
  else
    ({ currentVersion := manifest.version
       currentRelays := manifest.relays.map (merge pool.currentRelays)
       failureState := fun id =>
         if leaves pool manifest id then none
         else (pool.failureState id).or ((find manifest.relays id).map newState)
       relayHealthCheckUrls := fun id => if leaves pool manifest id then none else pool.relayHealthCheckUrls id
       relayMultiaddrs := fun id => if leaves pool manifest id then none else pool.relayMultiaddrs id }, true)

/-! ### Runs -/

inductive Call where
  | seed (entries : List RelayManifestEntry)
  | apply (manifest : RelayPoolManifest)

/-- What a relay was seeded with since it came into the pool. -/
structure Seed where
  peerId : Option String
  multiaddrs : Option (List String)

/-- With what is seeded now over what was seeded before. -/
def Seed.after (before : Option Seed) (entry : RelayManifestEntry) : Seed where
  peerId := if truthy entry.peerId then entry.peerId else before.bind Seed.peerId
  multiaddrs := if given entry.multiaddrs then entry.multiaddrs else before.bind Seed.multiaddrs

/-- The pool, and what its relays were seeded with. -/
structure Seeded where
  pool : Pool
  seeds : String → Option Seed

def Seeded.seedEntry (s : Seeded) (entry : RelayManifestEntry) : Seeded where
  pool := seedRelayEntry s.pool entry
  seeds id := if id = entry.relayId then some (.after (s.seeds id) entry) else s.seeds id

def Seeded.step (s : Seeded) : Call → Seeded
  | .seed entries => entries.foldl Seeded.seedEntry s
  | .apply manifest =>
    { pool := (applyManifest s.pool manifest).1
      seeds := fun id =>
        if (applyManifest s.pool manifest).2 && !(manifest.relays.any fun r => decide (r.relayId = id)) then none
        else s.seeds id }

def Seeded.start : Seeded := ⟨.empty, fun _ => none⟩

theorem pool_foldl_seedEntry (entries : List RelayManifestEntry) (s : Seeded) :
    (entries.foldl Seeded.seedEntry s).pool = seedRelayEntries s.pool entries := by
  induction entries generalizing s with
  | nil => rfl
  | cons entry entries ih => exact ih (s.seedEntry entry)

/-- The relays that a run names as seeds. -/
def named (calls : List Call) (relayId : String) : Prop :=
  ∃ entries, Call.seed entries ∈ calls ∧ ∃ entry ∈ entries, entry.relayId = relayId

/-! ### The law -/

def KeepsSeed (seed : Seed) (entry : RelayManifestEntry) : Prop :=
  (∀ peerId, seed.peerId = some peerId → entry.peerId = some peerId) ∧
    (hasDns seed.multiaddrs = true → entry.multiaddrs = seed.multiaddrs)

def AsCarried (mine carried : RelayManifestEntry) : Prop :=
  mine.peerId = carried.peerId ∧ mine.multiaddrs = carried.multiaddrs ∧ mine.status = carried.status ∧
    mine.healthCheckUrl = carried.healthCheckUrl

/-- A manifest that is accepted is newer, and takes effect but for what was seeded; one that is not changes nothing. -/
def TakesEffect (seededEver : String → Prop) (s : Seeded) (manifest : RelayPoolManifest) (s' : Seeded) : Prop :=
  ((applyManifest s.pool manifest).2 = false → s'.pool = s.pool) ∧
  ((applyManifest s.pool manifest).2 = true →
    s.pool.currentVersion < manifest.version ∧ s'.pool.currentVersion = manifest.version ∧
    s'.pool.currentRelays.map RelayManifestEntry.relayId = manifest.relays.map RelayManifestEntry.relayId ∧
    List.Forall₂ (fun mine carried => ¬ seededEver carried.relayId → AsCarried mine carried)
      s'.pool.currentRelays manifest.relays ∧
    ∀ mine ∈ s'.pool.currentRelays, ∀ seed, s'.seeds mine.relayId = some seed → KeepsSeed seed mine)

/-- What a manifest says of the relays that are never seeded leaves nothing to the entries of the pool: it repeats
their addresses where one is a name, has addresses where they have, and repeats their peer ids. -/
def Repeats (seededEver : String → Prop) (s : Seeded) : Call → Prop
  | .seed _ => True
  | .apply manifest => (applyManifest s.pool manifest).2 = true →
      ∀ carried ∈ manifest.relays, ¬ seededEver carried.relayId →
        ∀ old, find s.pool.currentRelays carried.relayId = some old →
          (hasDns old.multiaddrs = true → carried.multiaddrs = old.multiaddrs) ∧
          (given old.multiaddrs = true → given carried.multiaddrs = true) ∧
          (truthy old.peerId = true → carried.peerId = old.peerId)

/-! ### Finding an entry -/

theorem relayId_of_find {relays : List RelayManifestEntry} {id : String} {r : RelayManifestEntry}
    (h : find relays id = some r) : r.relayId = id := by
  have hp := List.find?_some h
  exact of_decide_eq_true hp

theorem find_cons_self {r : RelayManifestEntry} {id : String} (h : r.relayId = id) (rest : List RelayManifestEntry) :
    find (r :: rest) id = some r := by
  simp [find, h]

theorem find_cons_of_ne {r : RelayManifestEntry} {id : String} (h : r.relayId ≠ id) (rest : List RelayManifestEntry) :
    find (r :: rest) id = find rest id := by
  simp [find, h]

theorem find_append_singleton (relays : List RelayManifestEntry) (r : RelayManifestEntry) (id : String) :
    find (relays ++ [r]) id = (find relays id).or (if r.relayId = id then some r else none) := by
  rw [find, List.find?_append, ← find]
  by_cases h : r.relayId = id <;> simp [h]

section Changed

variable {f : RelayManifestEntry → RelayManifestEntry} (hf : ∀ r, (f r).relayId = r.relayId)
  (relays : List RelayManifestEntry)

include hf

theorem find_map (id : String) : find (relays.map f) id = (find relays id).map f := by
  rw [find, List.find?_map, find]
  have hsame : ((fun r : RelayManifestEntry => decide (r.relayId = id)) ∘ f) = fun r => decide (r.relayId = id) := by
    funext r
    rw [Function.comp_apply, hf]
  rw [hsame]

theorem find_changeFirst (id : String) : find (changeFirst id f relays) id = (find relays id).map f := by
  induction relays with
  | nil => rfl
  | cons r rest ih =>
    rw [changeFirst]
    by_cases hr : r.relayId = id
    · rw [if_pos hr, find_cons_self ((hf r).trans hr), find_cons_self hr, Option.map_some]
    · rw [if_neg hr, find_cons_of_ne hr, find_cons_of_ne hr, ih]

theorem find_changeFirst_of_ne {id id' : String} (hne : id' ≠ id) :
    find (changeFirst id f relays) id' = find relays id' := by
  induction relays with
  | nil => rfl
  | cons r rest ih =>
    rw [changeFirst]
    by_cases hr : r.relayId = id
    · have hr' : r.relayId ≠ id' := fun h => hne (h.symm.trans hr)
      rw [if_pos hr, find_cons_of_ne (by rwa [hf]), find_cons_of_ne hr']
    · rw [if_neg hr]
      by_cases hr' : r.relayId = id'
      · rw [find_cons_self hr', find_cons_self hr']
      · rw [find_cons_of_ne hr', find_cons_of_ne hr', ih]

end Changed

@[simp] theorem relayId_merge (old : List RelayManifestEntry) (r : RelayManifestEntry) :
    (merge old r).relayId = r.relayId := by
  unfold merge
  split <;> rfl

/-! ### What a manifest changes -/

/-- **A merge leaves an entry as it is just if the pool has nothing that it prefers.** -/
theorem asCarried_merge_iff (old : List RelayManifestEntry) (r : RelayManifestEntry) :
    AsCarried (merge old r) r ↔ ∀ o, find old r.relayId = some o →
      (hasDns o.multiaddrs = true → r.multiaddrs = o.multiaddrs) ∧
      (given o.multiaddrs = true → given r.multiaddrs = true) ∧ (truthy o.peerId = true → r.peerId = o.peerId) := by
  unfold AsCarried merge
  cases hold : find old r.relayId with
  | none => simp
  | some o =>
    simp only [Option.some.injEq, forall_eq', and_true]
    have hpeer : (if truthy o.peerId = true then o.peerId else r.peerId) = r.peerId ↔
        (truthy o.peerId = true → r.peerId = o.peerId) := by
      by_cases ht : truthy o.peerId = true
      · rw [if_pos ht]
        exact ⟨fun h _ => h.symm, fun h => (h ht).symm⟩
      · rw [if_neg ht]
        exact iff_of_true rfl fun h => absurd h ht
    have haddresses : (if hasDns o.multiaddrs = true then o.multiaddrs
        else if (!given r.multiaddrs && given o.multiaddrs) = true then o.multiaddrs else r.multiaddrs) = r.multiaddrs ↔
        (hasDns o.multiaddrs = true → r.multiaddrs = o.multiaddrs) ∧
          (given o.multiaddrs = true → given r.multiaddrs = true) := by
      by_cases hdns : hasDns o.multiaddrs = true
      · rw [if_pos hdns]
        refine ⟨fun h => ⟨fun _ => h.symm, fun hgiven => h ▸ hgiven⟩, fun h => (h.1 hdns).symm⟩
      · rw [if_neg hdns]
        split
        · rename_i hmissing
          rw [Bool.and_eq_true, Bool.not_eq_true'] at hmissing
          constructor
          · intro h
            rw [h, hmissing.1] at hmissing
            exact absurd hmissing.2 Bool.false_ne_true
          · intro h
            rw [h.2 hmissing.2] at hmissing
            exact absurd hmissing.1 (by decide)
        · rename_i hthere
          refine iff_of_true rfl ⟨fun h => absurd h hdns, fun hgiven => ?_⟩
          by_contra hmissing
          exact hthere (by simp [hgiven, hmissing])
    rw [hpeer, haddresses]
    tauto

theorem keepsSeed_merge {old : List RelayManifestEntry} {r o : RelayManifestEntry} {seed : Seed}
    (hold : find old r.relayId = some o) (htruthy : ∀ peerId, seed.peerId = some peerId → truthy seed.peerId = true)
    (h : KeepsSeed seed o) : KeepsSeed seed (merge old r) := by
  rw [merge, hold]
  refine ⟨fun peerId hpeer => ?_, fun hdns => ?_⟩
  · have hkept := h.1 peerId hpeer
    have ht := htruthy peerId hpeer
    rw [hpeer, ← hkept] at ht
    dsimp only
    rw [if_pos ht, hkept]
  · have hkept := h.2 hdns
    rw [← hkept] at hdns
    dsimp only
    rw [if_pos hdns, hkept]

theorem keepsSeed_after {before : Option Seed} {e : RelayManifestEntry}
    (h : ∀ seed, before = some seed → KeepsSeed seed e) (entry : RelayManifestEntry) :
    KeepsSeed (.after before entry) (address entry e) := by
  unfold Seed.after address
  refine ⟨fun peerId hpeer => ?_, fun hdns => ?_⟩
  · dsimp only at hpeer ⊢
    split
    · rename_i ht
      rwa [if_pos ht] at hpeer
    · rename_i ht
      rw [if_neg ht] at hpeer
      obtain ⟨seed, hseed, hpeer⟩ := Option.bind_eq_some_iff.1 hpeer
      exact (h seed hseed).1 peerId hpeer
  · dsimp only at hdns ⊢
    split
    · rfl
    · rename_i hg
      rw [if_neg hg] at hdns
      cases before with
      | none => cases hdns
      | some seed => exact (h seed rfl).2 hdns

theorem address_self (entry : RelayManifestEntry) : address entry entry = entry := by
  simp [address]

/-! ### What holds in every run -/

def Held (s : Seeded) : Prop :=
  ∀ id seed, s.seeds id = some seed →
    (∀ peerId, seed.peerId = some peerId → truthy seed.peerId = true) ∧
      ∃ entry, find s.pool.currentRelays id = some entry ∧ KeepsSeed seed entry

theorem Held.seedEntry {s : Seeded} (h : Held s) (entry : RelayManifestEntry) : Held (s.seedEntry entry) := by
  have haddress : ∀ r, (address entry r).relayId = r.relayId := fun _ => rfl
  intro id seed hseed
  rw [Seeded.seedEntry] at hseed ⊢
  dsimp only at hseed ⊢
  by_cases hid : id = entry.relayId
  · subst hid
    rw [if_pos rfl] at hseed
    cases hseed
    refine ⟨fun peerId hpeer => ?_, ?_⟩
    · rw [Seed.after] at hpeer ⊢
      dsimp only at hpeer ⊢
      split
      · assumption
      · rename_i ht
        rw [if_neg ht] at hpeer
        obtain ⟨before, hbefore, hpeer⟩ := Option.bind_eq_some_iff.1 hpeer
        have htruthy := (h _ before hbefore).1 peerId hpeer
        rwa [hbefore, Option.bind_some]
    · have hbefore : ∀ e, find s.pool.currentRelays entry.relayId = some e →
          ∀ before, s.seeds entry.relayId = some before → KeepsSeed before e := by
        intro e he before hbefore
        obtain ⟨-, e', he', hkeeps⟩ := h _ before hbefore
        cases he.symm.trans he'
        exact hkeeps
      rw [seedRelayEntry]
      cases he : find s.pool.currentRelays entry.relayId with
      | some e =>
        rw [if_pos (Option.isSome_some : (some e).isSome = true)]
        refine ⟨address entry e, ?_, keepsSeed_after (hbefore e he) entry⟩
        dsimp only
        rw [find_changeFirst haddress, he, Option.map_some]
      | none =>
        rw [if_neg (by simp)]
        have hfresh : s.seeds entry.relayId = none := by
          cases hseeds : s.seeds entry.relayId with
          | none => rfl
          | some before =>
            obtain ⟨-, e, he', -⟩ := h _ before hseeds
            cases he.symm.trans he'
        have hkeeps : KeepsSeed (.after none entry) (address entry entry) := keepsSeed_after (by rintro _ ⟨⟩) entry
        rw [address_self] at hkeeps
        refine ⟨entry, ?_, ?_⟩
        · dsimp only
          rw [find_append_singleton, he, Option.none_or, if_pos rfl]
        · rwa [hfresh]
  · rw [if_neg hid] at hseed
    obtain ⟨htruthy, e, he, hkeeps⟩ := h id seed hseed
    refine ⟨htruthy, e, ?_, hkeeps⟩
    rw [seedRelayEntry]
    split
    · exact (find_changeFirst_of_ne haddress _ hid).trans he
    · exact (find_append_singleton _ _ _).trans (by rw [he, Option.some_or])

theorem seeds_apply {s : Seeded} {manifest : RelayPoolManifest} (haccepted : (applyManifest s.pool manifest).2 = true)
    {id : String} {seed : Seed} (hseed : (s.step (.apply manifest)).seeds id = some seed) :
    s.seeds id = some seed ∧ ∃ r, find manifest.relays id = some r := by
  rw [Seeded.step] at hseed
  dsimp only at hseed
  rw [haccepted, Bool.true_and] at hseed
  split at hseed
  · cases hseed
  · rename_i hlisted
    refine ⟨hseed, ?_⟩
    rw [Bool.not_eq_true', Bool.not_eq_false, List.any_eq_true] at hlisted
    obtain ⟨r, hr, hid⟩ := hlisted
    exact Option.isSome_iff_exists.1 (List.find?_isSome.2 ⟨r, hr, hid⟩)

theorem applyManifest_of_accepted {pool : Pool} {manifest : RelayPoolManifest}
    (haccepted : (applyManifest pool manifest).2 = true) :
    pool.currentVersion < manifest.version ∧ (applyManifest pool manifest).1.currentVersion = manifest.version ∧
      (applyManifest pool manifest).1.currentRelays = manifest.relays.map (merge pool.currentRelays) := by
  unfold applyManifest at haccepted ⊢
  split at haccepted
  · cases haccepted
  · rename_i hnewer
    rw [if_neg hnewer]
    exact ⟨not_le.1 hnewer, rfl, rfl⟩

theorem applyManifest_of_refused {pool : Pool} {manifest : RelayPoolManifest}
    (hrefused : (applyManifest pool manifest).2 = false) : (applyManifest pool manifest).1 = pool := by
  unfold applyManifest at hrefused ⊢
  split at hrefused
  · rename_i hold
    rw [if_pos hold]
  · cases hrefused

theorem Held.apply {s : Seeded} (h : Held s) (manifest : RelayPoolManifest) : Held (s.step (.apply manifest)) := by
  cases haccepted : (applyManifest s.pool manifest).2 with
  | false =>
    have hsame : s.step (.apply manifest) = s := by
      rw [Seeded.step, applyManifest_of_refused haccepted, haccepted]
      rfl
    rwa [hsame]
  | true =>
    intro id seed hseed
    obtain ⟨hbefore, r, hr⟩ := seeds_apply haccepted hseed
    obtain ⟨htruthy, o, ho, hkeeps⟩ := h id seed hbefore
    refine ⟨htruthy, merge s.pool.currentRelays r, ?_, ?_⟩
    · have hrelays := (applyManifest_of_accepted haccepted).2.2
      rw [Seeded.step, hrelays, find_map (relayId_merge _), hr, Option.map_some]
    · rw [← relayId_of_find hr] at ho
      exact keepsSeed_merge ho htruthy hkeeps

theorem Held.step {s : Seeded} (h : Held s) (call : Call) : Held (s.step call) := by
  cases call with
  | apply manifest => exact h.apply manifest
  | seed entries =>
    rw [Seeded.step]
    induction entries generalizing s with
    | nil => exact h
    | cons entry entries ih => exact ih (h.seedEntry entry)

theorem held_run {s : Seeded} (h : Held s) (calls : List Call) : Held (calls.foldl Seeded.step s) := by
  induction calls generalizing s with
  | nil => exact h
  | cons call calls ih => exact ih (h.step call)

/-- **A manifest takes effect just if it repeats what the pool has.** -/
theorem takesEffect_iff {s : Seeded} (h : Held s) (seededEver : String → Prop) (manifest : RelayPoolManifest) :
    TakesEffect seededEver s manifest (s.step (.apply manifest)) ↔ Repeats seededEver s (.apply manifest) := by
  cases haccepted : (applyManifest s.pool manifest).2 with
  | false =>
    refine iff_of_true ⟨fun _ => applyManifest_of_refused haccepted, fun h => ?_⟩ fun h => ?_
    · rw [haccepted] at h
      cases h
    · rw [haccepted] at h
      cases h
  | true =>
    obtain ⟨hnewer, hversion, hrelays⟩ := applyManifest_of_accepted haccepted
    have hpool : (s.step (.apply manifest)).pool.currentRelays = manifest.relays.map (merge s.pool.currentRelays) :=
      hrelays
    have hmerged : List.Forall₂ (fun mine carried => ¬ seededEver carried.relayId → AsCarried mine carried)
        (s.step (.apply manifest)).pool.currentRelays manifest.relays ↔
        ∀ r ∈ manifest.relays, ¬ seededEver r.relayId → AsCarried (merge s.pool.currentRelays r) r := by
      rw [hpool, List.forall₂_map_left_iff, List.forall₂_same]
    constructor
    · rintro ⟨-, heffect⟩ _ r hr hnever
      exact (asCarried_merge_iff _ r).1 (hmerged.1 (heffect haccepted).2.2.2.1 r hr hnever)
    · intro hrepeats
      refine ⟨fun hrefused => (by rw [haccepted] at hrefused; cases hrefused), fun _ => ?_⟩
      refine ⟨hnewer, hversion, ?_, ?_, ?_⟩
      · rw [hpool, List.map_map]
        exact List.map_congr_left fun r _ => relayId_merge _ r
      · exact hmerged.2 fun r hr hnever => (asCarried_merge_iff _ r).2 (hrepeats haccepted r hr hnever)
      · intro mine hmine seed hseed
        rw [hpool] at hmine
        obtain ⟨r, hr, rfl⟩ := List.mem_map.1 hmine
        rw [relayId_merge] at hseed
        obtain ⟨hbefore, -⟩ := seeds_apply haccepted hseed
        obtain ⟨htruthy, o, ho, hkeeps⟩ := h r.relayId seed hbefore
        exact keepsSeed_merge ho htruthy hkeeps

/-- **Every newer manifest of a run takes effect just if every one of them repeats what the pool has** of the relays
that the run never seeds. -/
theorem takes_effect_iff (calls : List Call) :
    (∀ n manifest, calls[n]? = some (.apply manifest) →
      TakesEffect (named calls) ((calls.take n).foldl Seeded.step .start) manifest
        ((calls.take (n + 1)).foldl Seeded.step .start)) ↔
      Guarded Seeded.step (Repeats (named calls)) .start calls := by
  have hheld : ∀ n, Held ((calls.take n).foldl Seeded.step .start) :=
    fun n => held_run (by rintro _ _ ⟨⟩) (calls.take n)
  constructor
  · intro h
    refine Guarded.of_forall fun n call hcall => ?_
    cases call with
    | seed entries => trivial
    | apply manifest =>
      have heffect := h n manifest hcall
      rw [foldl_take_succ hcall, takesEffect_iff (hheld n)] at heffect
      exact heffect
  · intro h n manifest hcall
    rw [foldl_take_succ hcall, takesEffect_iff (hheld n)]
    exact h.at hcall

/-! ### A relay that moves -/

def moving (peerId : String) (addr : String) : RelayManifestEntry :=
  ⟨"relay", "wss://relay.example.com", "us-east-1", .active, "http://10.0.0.1:4000/health", some peerId, some [addr]⟩

def twoManifests : List Call :=
  [.apply ⟨1, [moving "12D3KooWA" "/dns4/a.example.com/tcp/443/wss"]⟩,
    .apply ⟨2, [moving "12D3KooWB" "/dns4/b.example.com/tcp/443/wss"]⟩]

/-- Of a relay that was never seeded the pool keeps the peer id and the name of the first manifest. -/
theorem old_manifest_outlives_new :
    (twoManifests.foldl Seeded.step .start).pool.currentVersion = 2 ∧
      (twoManifests.foldl Seeded.step .start).pool.currentRelays =
        [moving "12D3KooWA" "/dns4/a.example.com/tcp/443/wss"] ∧
      ¬ ∀ n manifest, twoManifests[n]? = some (.apply manifest) →
        TakesEffect (named twoManifests) ((twoManifests.take n).foldl Seeded.step .start) manifest
          ((twoManifests.take (n + 1)).foldl Seeded.step .start) := by
  have hrelays : (twoManifests.foldl Seeded.step .start).pool.currentRelays =
      [moving "12D3KooWA" "/dns4/a.example.com/tcp/443/wss"] := by decide
  refine ⟨by decide, hrelays, fun h => ?_⟩
  have hcarried := ((h 1 _ rfl).2 (by decide)).2.2.2.1
  have hall : (twoManifests.take (1 + 1)) = twoManifests := rfl
  rw [hall, hrelays] at hcarried
  have hnever : ¬ named twoManifests "relay" := by
    rintro ⟨entries, hmem, -⟩
    simp [twoManifests] at hmem
  have hpeer := ((List.forall₂_cons.1 hcarried).1 hnever).1
  exact absurd hpeer (by decide)

end Cello.Directory.RelayPool
