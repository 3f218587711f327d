import Cello.Relay.ContentStore.Refinement

/-!
# The calls of the store in files

A deposit and the other calls, as the queues see them.
-/

namespace Cello.Relay.ContentStore

open Lib Cello.Interfaces

namespace FileStore

variable {lim : ContentStoreLimits} {now : ℤ} {s : FileStore} {mb : Mailboxes}

/-! ### A deposit -/

theorem evict_indexed (r : String) (incomingBytes : ℕ) : ∀ (l : List (String × ContentStoreEntry))
    (ev : Evicting), ev.bucket.entries = l.map indexed →
      (evict lim r incomingBytes (l.map indexed) ev).bucket.entries =
          (l.drop (Mailboxes.evictions lim incomingBytes l ev.usage)).map indexed ∧
        (evict lim r incomingBytes (l.map indexed) ev).usage.totalBytes = ev.usage.totalBytes -
          queueBytes l + queueBytes (l.drop (Mailboxes.evictions lim incomingBytes l ev.usage)) ∧
        (evict lim r incomingBytes (l.map indexed) ev).usage.totalEntries = ev.usage.totalEntries -
          l.length + (l.drop (Mailboxes.evictions lim incomingBytes l ev.usage)).length ∧
        (evict lim r incomingBytes (l.map indexed) ev).disk = ev.disk.unlinkAll r
          ((l.take (Mailboxes.evictions lim incomingBytes l ev.usage)).map indexed) := by
  intro l
  induction l with
  | nil =>
    intro ev hl
    simp [evict, Mailboxes.evictions, hl, Disk.unlinkAll]
  | cons oldest rest ih =>
    intro ev hl
    have hsame : tooFull lim ev.usage incomingBytes =
      InMemoryContentStore.tooFull lim ev.usage incomingBytes := rfl
    rw [List.map_cons, evict, Mailboxes.evictions, hsame]
    split
    · obtain ⟨hentries, hbytes, hcount, hdisk⟩ := ih
        { bucket := ev.bucket.erase oldest.1
          usage := ev.usage.without oldest.2.ciphertext.length
          disk := ev.disk.unlink r (fileOf oldest) } (Bucket.entries_erase_head hl)
      rw [List.drop_succ_cons, List.take_succ_cons]
      refine ⟨hentries, hbytes.trans ?_, hcount.trans ?_, hdisk⟩
      · rw [queueBytes, queueBytes, queueBytes, List.map_cons, List.sum_cons]
        simp only [Usage.without]
        ring
      · rw [List.length_cons]
        simp only [Usage.without]
        push_cast
        ring
    · rw [List.drop_zero]
      exact ⟨hl, by ring, by ring, rfl⟩

theorem Holds.unlinkAll {r : String} : ∀ (n : ℕ) {l : List (String × ContentStoreEntry)} {d : Disk},
    Holds d r l → Keyed l → (l.map Prod.fst).Nodup →
      Holds (d.unlinkAll r ((l.take n).map indexed)) r (l.drop n) := by
  intro n
  induction n with
  | zero => exact fun h _ _ => h
  | succ n ih =>
    intro l d h hkeyed hnodup
    cases l with
    | nil => exact h
    | cons e rest =>
      have hone := h.unlink hkeyed hnodup List.mem_cons_self
      have hrest := @without_middle [] rest e hnodup
      rw [List.nil_append, List.nil_append] at hrest
      rw [hrest] at hone
      rw [List.take_succ_cons, List.map_cons, List.drop_succ_cons]
      exact ih hone (fun x hx => hkeyed x (List.mem_cons_of_mem _ hx)) (List.nodup_cons.1 hnodup).2

/-- **A deposit whose key is free.** -/
theorem Represents.park (h : s.Represents mb) {s₁ : FileStore} {bucket : Bucket} {entry : ContentStoreEntry}
    {r c : String} (hr : entry.recipientPubkey.toHex = r) (hc : entry.contentHash.toHex = c)
    (hindex : s₁.index = s.index) (hloaded : s₁.loaded = true)
    (hbucket : bucket.entries = (Mailboxes.without c (mb r)).map indexed)
    (husage : usage s₁ bucket = Mailboxes.usageFor s.totals (mb r) c)
    (hholds : Holds s₁.disk r (Mailboxes.without c (mb r)))
    (hother : ∀ r' f, r' ≠ r → s₁.disk.read r' f = s.disk.read r' f)
    (hfree : Mailboxes.taken lim now (mb r) c = false) :
    (park lim none s₁ bucket entry).1.Represents
        (Function.update mb r (Mailboxes.deposited lim now s.totals (mb r) entry)) ∧
      (park lim none s₁ bucket entry).2 = Mailboxes.depositAnswer lim now s.totals (mb r) entry := by
  have hbytes : s₁.totalBytes = s.totalBytes - (queueBytes (mb r) - queueBytes (Mailboxes.without c (mb r))) :=
    congrArg Usage.totalBytes husage
  have hentries : s₁.totalEntries = s.totalEntries - ((mb r).length - (Mailboxes.without c (mb r)).length) :=
    congrArg Usage.totalEntries husage
  have hkeyed := keyed_without (h.keyed r) c
  have hnodup : ((Mailboxes.without c (mb r)).map Prod.fst).Nodup :=
    (List.filter_sublist.map Prod.fst).nodup (h.nodup _)
  have hsame : refused lim = InMemoryContentStore.refused lim := rfl
  have hsame' : refusal lim = InMemoryContentStore.refusal lim := rfl
  unfold FileStore.park Mailboxes.deposited Mailboxes.depositAnswer
  simp only [hr, hc, hfree, Bool.false_eq_true, if_false, husage, hsame, hsame']
  split
  · refine ⟨h.replace bucket hbucket hloaded ?_ ?_ ?_ hkeyed hholds hother, rfl⟩
    · rw [← hindex]
      exact replaceBucket_eq s₁ _ bucket
    · show s₁.totalBytes = _
      rw [hbytes]
      ring
    · show s₁.totalEntries = _
      rw [hentries]
      ring
  · rw [hbucket]
    generalize hu : Mailboxes.usageFor s.totals (mb r) c = u at husage ⊢
    generalize hfreed : Mailboxes.without c (mb r) = freed
      at hbucket hholds hbytes hentries hkeyed hnodup ⊢
    obtain ⟨hleft, hleftBytes, hleftCount, hleftDisk⟩ := @evict_indexed lim r entry.ciphertext.length freed
      ⟨bucket, u, s₁.disk⟩ hbucket
    dsimp only at hleft hleftBytes hleftCount hleftDisk
    generalize evict lim r entry.ciphertext.length (freed.map indexed)
      ⟨bucket, u, s₁.disk⟩ = evicted at hleft hleftBytes hleftCount hleftDisk ⊢
    generalize Mailboxes.evictions lim entry.ciphertext.length freed u = n
      at hleft hleftBytes hleftCount hleftDisk ⊢
    have hnew : c ∉ (freed.drop n).map Prod.fst := by
      rw [List.map_drop, ← hfreed]
      exact fun hmem => InMemoryContentStore.notMem_without _ _ (List.mem_of_mem_drop hmem)
    have hkeyed' : Keyed (freed.drop n ++ [(c, entry)]) := by
      intro x hx
      rw [List.mem_append, List.mem_singleton] at hx
      rcases hx with hx | rfl
      · exact hkeyed x (List.mem_of_mem_drop hx)
      · exact hc.symm
    have hnodup' : ((freed.drop n ++ [(c, entry)]).map Prod.fst).Nodup := by
      rw [List.map_append, List.map_singleton, ← List.concat_eq_append]
      exact List.Nodup.concat hnew ((List.drop_sublist n freed).map Prod.fst |>.nodup hnodup)
    have hholds' := (Holds.unlinkAll n hholds hkeyed hnodup).write hkeyed' hnodup'
    have hnewIndex := congrArg (fun index => index.set r
      (evicted.bucket.set c (indexEntry c entry)
        (named_indexEntry (hc ▸ underscore_notMem_toHex entry.contentHash) entry))) hindex
    refine ⟨h.replace _ ?_ hloaded (.inl hnewIndex) ?_ ?_ hkeyed' ?_ ?_, rfl⟩
    · have hnew' : c ∉ evicted.bucket.map.keys := by
        rw [OrdMap.keys, show evicted.bucket.map.entries = _ from hleft, List.map_map]
        exact hnew
      have hset := OrdMap.entries_set_of_notMem (indexEntry c entry) hnew'
      rw [show evicted.bucket.map.entries = _ from hleft] at hset
      rw [List.map_append]
      exact hset
    · show evicted.usage.totalBytes + _ = _
      rw [hleftBytes, ← hu, InMemoryContentStore.queueBytes_append]
      simp only [Mailboxes.usageFor, totals, queueBytes, List.map_cons, List.map_nil, List.sum_cons,
        List.sum_nil, hfreed]
      ring
    · show evicted.usage.totalEntries + 1 = _
      rw [hleftCount, ← hu, List.length_append, List.length_singleton]
      simp only [Mailboxes.usageFor, totals, hfreed]
      push_cast
      ring
    · show Holds (evicted.disk.write _ _ _) _ _
      rw [hleftDisk]
      exact hholds'
    · intro r' f hne
      show (evicted.disk.write _ _ _).read r' f = _
      rw [Disk.read_write, if_neg (fun heq => hne heq.1), hleftDisk,
        Disk.read_unlinkAll _ _ _ _ _ (.inl hne), hother r' f hne]

theorem getList_indexed (c : String) (l : List (String × ContentStoreEntry)) :
    OrdMap.getList c (l.map indexed) = (OrdMap.getList c l).map (indexEntry c) := by
  induction l with
  | nil => rfl
  | cons e rest ih =>
    rw [List.map_cons, OrdMap.getList, OrdMap.getList, ih]
    by_cases he : e.1 = c
    · rw [if_pos he, if_pos (show (indexed e).1 = c from he), ← he]
      rfl
    · rw [if_neg he, if_neg (show ¬(indexed e).1 = c from he)]

theorem usage_without {bucket : Bucket} {l : List (String × ContentStoreEntry)}
    (h : bucket.entries = l.map indexed) (c : String) : (bucket.erase c).entries =
      (Mailboxes.without c l).map indexed := by
  rw [← without_indexed, ← h]
  rfl

theorem Represents.deposit (h : s.Represents mb) (entry : ContentStoreEntry) :
    (depositLoaded lim now none s entry).1.Represents (Function.update mb entry.recipientPubkey.toHex
        (Mailboxes.deposited lim now s.totals (mb entry.recipientPubkey.toHex) entry)) ∧
      (depositLoaded lim now none s entry).2 =
        Mailboxes.depositAnswer lim now s.totals (mb entry.recipientPubkey.toHex) entry := by
  unfold depositLoaded
  dsimp only
  generalize hr : entry.recipientPubkey.toHex = r
  generalize hc : entry.contentHash.toHex = c
  have hmb : ((s.index.get r).getD Bucket.empty).entries = (mb r).map indexed := h.box r
  generalize (s.index.get r).getD Bucket.empty = bucket at hmb ⊢
  have hget : bucket.get c = (OrdMap.getList c (mb r)).map (indexEntry c) := by
    rw [← getList_indexed, ← hmb]
    rfl
  rw [hget]
  cases hentry : OrdMap.getList c (mb r) with
  | none =>
    have hnot : c ∉ (mb r).map Prod.fst := by
      intro hmem
      obtain ⟨e, he, hkey⟩ := List.mem_map.1 hmem
      rw [← hkey, (OrdMap.getList_eq_some_iff e.1 e.2 _ (h.nodup _)).2 he] at hentry
      cases hentry
    have hwithout := without_of_notMem hnot
    refine h.park hr hc rfl h.loaded (by rw [hwithout, hmb]) ?_ (by rw [hwithout]; exact h.disk _)
      (fun _ _ _ => rfl) ?_
    · obtain ⟨hbytes, hsize⟩ := sizes_of_entries hmb
      unfold usage Mailboxes.usageFor
      rw [hwithout, hbytes, show (bucket.entries.length : ℤ) = _ from hsize]
      simp [totals]
    · rw [Mailboxes.taken, hentry]
      rfl
  | some existing =>
    have hmem : (c, existing) ∈ mb r :=
      (OrdMap.getList_eq_some_iff _ _ _ (h.nodup _)).1 hentry
    dsimp only [Option.map_some]
    split
    next hexpired =>
      have hfreed := usage_without hmb c
      have hholds := (h.disk r).unlink (h.keyed _) (h.nodup _) hmem
      have hother : ∀ r' f, r' ≠ r →
          (s.disk.unlink r (indexEntry c existing).fileName).read r' f = s.disk.read r' f := by
        intro r' f hne
        rw [Disk.read_unlink, if_neg fun heq => hne heq.1]
      refine h.park hr hc rfl h.loaded hfreed ?_ hholds hother ?_
      · obtain ⟨hbytes, hsize⟩ := sizes_of_entries hfreed
        obtain ⟨hlost, hone⟩ := sizes_without (h.nodup _) hmem
        unfold usage Mailboxes.usageFor
        dsimp only at hlost hone ⊢
        rw [hbytes, show ((bucket.erase c).entries.length : ℤ) = _ from hsize, hlost, hone]
        simp only [totals, Usage.mk.injEq, and_true]
        constructor
        · show s.totalBytes - (existing.ciphertext.length : ℤ) = _
          ring
        · ring
      · rw [Mailboxes.taken, hentry, Option.any_some]
        have hexpired' : Mailboxes.expired lim now (c, existing) = true := hexpired
        rw [hexpired']
        rfl
    next hfresh =>
      have htaken : Mailboxes.taken lim now (mb r) c = true := by
        rw [Mailboxes.taken, hentry, Option.any_some]
        have hfresh' : Mailboxes.expired lim now (c, existing) = false := Bool.eq_false_iff.2 hfresh
        rw [hfresh']
        rfl
      unfold Mailboxes.deposited Mailboxes.depositAnswer
      simp only [hc, htaken, if_true, Function.update_eq_self]
      exact ⟨h, trivial⟩

/-! ### Every call -/

theorem Represents.pullOne (h : s.Represents mb) (r c : String) :
    (pullOne lim now s r c).1.Represents
        (Function.update mb r (Mailboxes.lookedAt lim now (mb r) c)) ∧
      (pullOne lim now s r c).2 = .entry (Mailboxes.pulled lim now (mb r) c) := by
  have hget : ((s.index.get r).bind fun bucket => bucket.get c) =
      (OrdMap.getList c (mb r)).map (indexEntry c) := by
    rw [← getList_indexed, ← h.box, bucketOf]
    cases s.index.get r <;> rfl
  unfold FileStore.pullOne Mailboxes.lookedAt Mailboxes.pulled
  rw [hget]
  cases hentry : OrdMap.getList c (mb r) with
  | none =>
    simp only [Option.any_none, Bool.false_eq_true, if_false, Function.update_eq_self]
    exact ⟨h, rfl⟩
  | some e =>
    have hmem : (c, e) ∈ mb r := (OrdMap.getList_eq_some_iff _ _ _ (h.nodup _)).1 hentry
    simp only [Option.map_some, Option.any_some, Option.filter_some]
    by_cases hexpired : Mailboxes.expired lim now (c, e) = true
    · have hexpired' : isExpired lim now (indexEntry c e).depositedAt = true := hexpired
      simp only [hexpired, hexpired', if_true, Bool.not_true, Bool.false_eq_true, if_false]
      exact ⟨h.remove r c, trivial⟩
    · have hfresh : isExpired lim now (indexEntry c e).depositedAt = false := Bool.eq_false_iff.2 hexpired
      have hread : s.readEntry r c = (s, some e) := h.readEntry hmem
      simp only [Bool.eq_false_iff.2 hexpired, hfresh, Bool.false_eq_true, if_false, Bool.not_false,
        if_true, Function.update_eq_self, hread]
      exact ⟨h, trivial⟩

theorem Represents.notMem_keys (h : s.Represents mb) {r : String} (hr : r ∉ s.index.keys) : mb r = [] := by
  rw [OrdMap.mem_keys_iff, Bool.not_eq_true, Option.isSome_eq_false_iff,
    Option.isNone_iff_eq_none] at hr
  have hbox := h.box r
  rw [bucketOf, hr] at hbox
  exact List.map_eq_nil_iff.1 hbox.symm

/-- **The store in files does what mailboxes do.** -/
theorem call_represents (h : s.Represents mb) (c : StoreCall) :
    (callLoaded lim now s c).1.Represents (Mailboxes.after lim now s.totals mb c) ∧
      (callLoaded lim now s c).2 = Mailboxes.answer lim now s.totals
        (s.totalEntries - (callLoaded lim now s c).1.totalEntries) mb c := by
  cases c with
  | deposit entry => exact h.deposit entry
  | hasContent r =>
    have hafter : (dropExpired lim now r s (s.bucketOf r)).Represents _ := h.drop r
    refine ⟨hafter, ?_⟩
    show StoreResult.has _ = _
    rw [hafter.box, Function.update_self, List.isEmpty_map]
    rfl
  | listContentHashesFor r =>
    have hafter : (dropExpired lim now r s (s.bucketOf r)).Represents _ := h.drop r
    refine ⟨hafter, ?_⟩
    show StoreResult.hashes _ = _
    rw [hafter.box, Function.update_self, List.map_map]
    rfl
  | pull r =>
    obtain ⟨hrep, hout⟩ := @Represents.pullFrom lim now r (mb r) [] s mb h rfl
    rw [← h.box] at hrep hout
    refine ⟨hrep, ?_⟩
    show StoreResult.entries _ = _
    rw [hout]
    rfl
  | pullOne r c => exact h.pullOne r c
  | confirmPickup r c => exact ⟨h.remove r c, rfl⟩
  | sweepExpired =>
    have hentries : ∀ e ∈ s.index.entries, e.2.entries = (mb e.1).map indexed := by
      intro e he
      have hbox := h.box e.1
      rwa [bucketOf, (OrdMap.get_eq_some_iff s.index e.1 e.2).2 he, Option.getD_some] at hbox
    obtain ⟨hrep, hcount⟩ := @Represents.sweep lim now s.index.entries s mb 0 h s.index.nodup
      hentries
    have hall : (fun r => if r ∈ s.index.entries.map Prod.fst then Mailboxes.fresh lim now (mb r)
        else mb r) = fun r => Mailboxes.fresh lim now (mb r) := by
      funext r
      split
      · rfl
      next hr =>
        rw [h.notMem_keys hr]
        rfl
    rw [hall] at hrep
    refine ⟨hrep, ?_⟩
    show StoreResult.count _ = StoreResult.count _
    rw [hcount, zero_add]
    rfl

end FileStore

end Cello.Relay.ContentStore
