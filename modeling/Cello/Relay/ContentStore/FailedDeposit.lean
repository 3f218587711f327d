import Cello.Relay.ContentStore.FileStore

/-!
# A deposit that fails

What a deposit costs its recipient when it ends with an error.  A refusal comes before anything is evicted
and costs nothing.  A write that fails comes after the eviction, so what was evicted for it is gone:
`failed_deposit_iff` says when that leaves everything parked.
-/

namespace Cello.Relay.ContentStore

open Lib Cello.Interfaces

namespace FileStore

/-! ### The law -/

/-- What the index holds under a key. -/
def get (s : FileStore) (r c : String) : Option IndexEntry :=
  (s.index.get r).bind fun bucket => bucket.get c

/-- The totals are the sums over the index. -/
structure Totalled (s : FileStore) : Prop where
  bytes : s.totalBytes = s.index.total Bucket.bytes
  entries : s.totalEntries = s.index.total Bucket.size

/-- **Nothing is lost**: what was parked and has not expired is still parked with the same content, and the
totals are the sums. -/
structure CostsNothing (lim : ContentStoreLimits) (now : ℤ) (s s' : FileStore) : Prop where
  parked : ∀ r c m, s.get r c = some m → isExpired lim now m.depositedAt = false →
    s'.get r c = some m ∧ s'.disk.read r m.fileName = s.disk.read r m.fileName
  totalled : s'.Totalled

/-! ### The condition -/

def keyOf (entry : ContentStoreEntry) : String := entry.contentHash.toHex

def others (s : FileStore) (entry : ContentStoreEntry) : List (String × IndexEntry) :=
  (s.bucketOf entry.recipientPubkey.toHex).filter fun e => decide (e.1 ≠ keyOf entry)

/-- The usage without what stands under the key. -/
def roomFor (s : FileStore) (entry : ContentStoreEntry) : Usage where
  totalBytes := s.totalBytes -
    (((s.get entry.recipientPubkey.toHex (keyOf entry)).map fun m => (m.bytes : ℤ)).getD 0)
  totalEntries := s.totalEntries -
    (((s.get entry.recipientPubkey.toHex (keyOf entry)).map fun _ => (1 : ℤ)).getD 0)
  bucketBytes := ((s.others entry).map fun e => (e.2.bytes : ℤ)).sum
  bucketEntries := (s.others entry).length

/-- **No entry that has not expired is in the way**: there is room once those in front of it are gone. -/
def RoomInTime (lim : ContentStoreLimits) (now : ℤ) (s : FileStore) (entry : ContentStoreEntry) : Prop :=
  ∀ (k : ℕ) (e : String × IndexEntry), (s.others entry)[k]? = some e →
    isExpired lim now e.2.depositedAt = false →
      tooFull lim (usageAfter (s.roomFor entry) ((s.others entry).take k)) entry.ciphertext.length = false

/-! ### Usage -/

theorem usageAfter_append (u : Usage) (l l' : List (String × IndexEntry)) :
    usageAfter u (l ++ l') = usageAfter (usageAfter u l) l' := List.foldl_append

theorem tooFull_without {lim : ContentStoreLimits} {u : Usage} {n incomingBytes : ℕ}
    (h : tooFull lim (u.without n) incomingBytes = true) : tooFull lim u incomingBytes = true := by
  rw [tooFull_iff] at h ⊢
  simp only [Usage.without] at h
  omega

theorem tooFull_usageAfter {lim : ContentStoreLimits} {incomingBytes : ℕ} (l : List (String × IndexEntry)) :
    ∀ {u : Usage}, tooFull lim (usageAfter u l) incomingBytes = true →
      tooFull lim u incomingBytes = true := by
  induction l with
  | nil => exact fun h => h
  | cons e rest ih => exact fun h => tooFull_without (ih h)

theorem tooFull_take {lim : ContentStoreLimits} {incomingBytes j k : ℕ} (hjk : j ≤ k) {u : Usage}
    {l : List (String × IndexEntry)} (h : tooFull lim (usageAfter u (l.take k)) incomingBytes = true) :
    tooFull lim (usageAfter u (l.take j)) incomingBytes = true := by
  obtain ⟨d, rfl⟩ := Nat.exists_eq_add_of_le hjk
  rw [List.take_add, usageAfter_append] at h
  exact tooFull_usageAfter _ h

theorem totals_usageAfter (l : List (String × IndexEntry)) : ∀ u : Usage,
    (usageAfter u l).totalBytes = u.totalBytes - (l.map fun e => (e.2.bytes : ℤ)).sum ∧
      (usageAfter u l).totalEntries = u.totalEntries - l.length := by
  induction l with
  | nil => simp [usageAfter]
  | cons e rest ih =>
    intro u
    obtain ⟨hbytes, hentries⟩ := ih (u.without e.2.bytes)
    rw [usageAfter, List.foldl_cons, ← usageAfter, hbytes, hentries, List.map_cons, List.sum_cons,
      List.length_cons]
    constructor
    · show u.totalBytes - e.2.bytes - _ = _
      ring
    · show u.totalEntries - 1 - _ = _
      push_cast
      ring

/-! ### Totals -/

def Surplus (s : FileStore) : ℤ × ℤ :=
  (s.totalBytes - s.index.total Bucket.bytes, s.totalEntries - s.index.total Bucket.size)

theorem totalled_iff (s : FileStore) : s.Totalled ↔ s.Surplus = (0, 0) := by
  rw [Surplus, Prod.mk.injEq, sub_eq_zero, sub_eq_zero]
  exact ⟨fun h => ⟨h.1, h.2⟩, fun h => ⟨h.1, h.2⟩⟩

/-! ### What a failed deposit leaves -/

section

variable {lim : ContentStoreLimits} {now : ℤ} {s s₁ s' : FileStore} {bucket : Bucket}
  {entry : ContentStoreEntry} {fault : Option String} {reason : String}

theorem get_eq (s : FileStore) (r c : String) :
    s.get r c = ((s.index.get r).getD Bucket.empty).get c := by
  unfold get
  cases s.index.get r <;> rfl

theorem mem_bucketOf {r c : String} {m : IndexEntry} : (c, m) ∈ s.bucketOf r ↔ s.get r c = some m := by
  rw [get_eq, Bucket.get_eq_some_iff, bucketOf]

theorem mem_others {e : String × IndexEntry} : e ∈ s.others entry ↔
    e.1 ≠ keyOf entry ∧ s.get entry.recipientPubkey.toHex e.1 = some e.2 := by
  rw [others, List.mem_filter, decide_eq_true_iff, mem_bucketOf, and_comm]

/-- **The key is free**: nothing stood under it, or what did has expired and is gone. -/
structure Freed (lim : ContentStoreLimits) (now : ℤ) (s : FileStore) (entry : ContentStoreEntry)
    (s₁ : FileStore) (bucket : Bucket) : Prop where
  index : s₁.index = s.index
  entries : bucket.entries = s.others entry
  usage : usage s₁ bucket = s.roomFor entry
  expired : ∀ m, s.get entry.recipientPubkey.toHex (keyOf entry) = some m →
    isExpired lim now m.depositedAt = true
  disk : ∀ r f, (r = entry.recipientPubkey.toHex →
      ∀ m, s.get entry.recipientPubkey.toHex (keyOf entry) = some m → f ≠ m.fileName) →
    s₁.disk.read r f = s.disk.read r f

theorem freed_of_error (h : depositLoaded lim now fault s entry = (s', .error reason)) :
    ∃ s₁ bucket, park lim fault s₁ bucket entry = (s', .error reason) ∧
      Freed lim now s entry s₁ bucket := by
  unfold depositLoaded at h
  dsimp only at h
  split at h
  next hnone =>
    have hget : s.get entry.recipientPubkey.toHex (keyOf entry) = none := by rw [get_eq]; exact hnone
    have hothers : s.bucketOf entry.recipientPubkey.toHex = s.others entry := by
      refine (List.filter_eq_self.2 fun e he => ?_).symm
      rw [decide_eq_true_iff]
      intro hk
      have hsome := mem_bucketOf.1 (show (e.1, e.2) ∈ _ from he)
      rw [hk, hget] at hsome
      cases hsome
    refine ⟨s, _, h, rfl, hothers, ?_, ?_, fun _ _ _ => rfl⟩
    · unfold usage roomFor
      rw [hget, ← hothers]
      simp only [Option.map_none, Option.getD_none, sub_zero]
      rfl
    · intro m hm
      rw [hget] at hm
      cases hm
  next prev hsome =>
    have hget : s.get entry.recipientPubkey.toHex (keyOf entry) = some prev := by rw [get_eq]; exact hsome
    split at h
    next hexpired =>
      refine ⟨_, _, h, rfl, rfl, ?_, ?_, ?_⟩
      · unfold usage roomFor
        rw [hget]
        rfl
      · intro m hm
        rw [hget] at hm
        exact Option.some.inj hm ▸ hexpired
      · intro r f hf
        rw [Disk.read_unlink, if_neg]
        rintro ⟨hr, hf'⟩
        exact hf hr prev hget hf'
    next => cases (Prod.mk.inj h).2

/-- What is left once the first `n` of the other entries have gone. -/
structure Left (s : FileStore) (entry : ContentStoreEntry) (s₁ : FileStore) (n : ℕ) (s' : FileStore) :
    Prop where
  index : ∃ b : Bucket, b.entries = (s.others entry).drop n ∧
    (s'.index = s.index.set entry.recipientPubkey.toHex b ∨
      b.entries.isEmpty = true ∧ s'.index = s.index.erase entry.recipientPubkey.toHex)
  totalBytes : s'.totalBytes = (usageAfter (s.roomFor entry) ((s.others entry).take n)).totalBytes
  totalEntries : s'.totalEntries = (usageAfter (s.roomFor entry) ((s.others entry).take n)).totalEntries
  disk : s'.disk = s₁.disk.unlinkAll entry.recipientPubkey.toHex ((s.others entry).take n)

theorem left_of_error (hfreed : Freed lim now s entry s₁ bucket)
    (h : park lim fault s₁ bucket entry = (s', .error reason)) :
    (refused lim (s.roomFor entry) entry.ciphertext.length = true ∧ Left s entry s₁ 0 s') ∨
    (refused lim (s.roomFor entry) entry.ciphertext.length = false ∧
      ∃ n ≤ (s.others entry).length, Left s entry s₁ n s' ∧
        (∀ j < n, tooFull lim (usageAfter (s.roomFor entry) ((s.others entry).take j))
          entry.ciphertext.length = true) ∧
        (n < (s.others entry).length →
          tooFull lim (usageAfter (s.roomFor entry) ((s.others entry).take n))
            entry.ciphertext.length = false)) := by
  unfold park at h
  dsimp only at h
  rw [hfreed.usage] at h
  have hbytes : s₁.totalBytes = (s.roomFor entry).totalBytes := congrArg Usage.totalBytes hfreed.usage
  have hentries : s₁.totalEntries = (s.roomFor entry).totalEntries :=
    congrArg Usage.totalEntries hfreed.usage
  split at h
  next hrefused =>
    refine .inl ⟨hrefused, ?_⟩
    obtain rfl := (Prod.mk.inj h).1
    refine ⟨⟨bucket, hfreed.entries, ?_⟩, hbytes, hentries, rfl⟩
    unfold replaceBucket
    split
    next hempty => exact .inr ⟨hempty, by rw [hfreed.index]⟩
    · exact .inl (by rw [hfreed.index])
  next hroom =>
    refine .inr ⟨Bool.eq_false_iff.2 hroom, ?_⟩
    obtain ⟨n, hn⟩ := evict_spec lim entry.recipientPubkey.toHex entry.ciphertext.length bucket.entries
      ⟨bucket, s.roomFor entry, s₁.disk⟩ rfl
    obtain ⟨hle, hdrop, husage, hdisk, hbefore, hafter⟩ := hn
    rw [hfreed.entries] at hle hdrop husage hdisk hbefore hafter
    refine ⟨n, hle, ?_, hbefore, hafter⟩
    split at h
    · obtain rfl := (Prod.mk.inj h).1
      rw [hfreed.entries]
      exact ⟨⟨_, hdrop, .inl (by rw [hfreed.index])⟩, by rw [husage], by rw [husage], hdisk⟩
    · cases (Prod.mk.inj h).2

/-! ### What is still parked -/

theorem others_nodup (s : FileStore) (entry : ContentStoreEntry) :
    ((s.others entry).map Prod.fst).Nodup :=
  (List.filter_sublist.map Prod.fst).nodup ((s.index.get _).getD Bucket.empty).map.nodup

theorem Left.get_of_ne {n : ℕ} (h : Left s entry s₁ n s') {r : String}
    (hr : r ≠ entry.recipientPubkey.toHex) (c : String) : s'.get r c = s.get r c := by
  obtain ⟨b, -, hindex | ⟨-, hindex⟩⟩ := h.index
  · rw [get, hindex, OrdMap.get_set_of_ne _ _ hr, get]
  · rw [get, hindex, OrdMap.get_erase_of_ne _ hr, get]

theorem Left.get_self {n : ℕ} (h : Left s entry s₁ n s') {c : String} {m : IndexEntry} :
    s'.get entry.recipientPubkey.toHex c = some m ↔ (c, m) ∈ (s.others entry).drop n := by
  obtain ⟨b, hb, hindex | ⟨hempty, hindex⟩⟩ := h.index
  · rw [get, hindex, OrdMap.get_set_self, Option.bind_some, Bucket.get_eq_some_iff, hb]
  · rw [get, hindex, OrdMap.get_erase_self, Option.bind_none]
    rw [hb, List.isEmpty_iff] at hempty
    rw [hempty]
    simp

theorem sum_split (l : List (String × IndexEntry)) (n : ℕ) :
    (l.map fun e => (e.2.bytes : ℤ)).sum =
      ((l.take n).map fun e => (e.2.bytes : ℤ)).sum + ((l.drop n).map fun e => (e.2.bytes : ℤ)).sum := by
  rw [← List.sum_append, ← List.map_append, List.take_append_drop]

theorem sizeAt_eq (s : FileStore) (entry : ContentStoreEntry) :
    s.index.sizeAt Bucket.bytes entry.recipientPubkey.toHex =
        ((s.get entry.recipientPubkey.toHex (keyOf entry)).map fun m => (m.bytes : ℤ)).getD 0 +
          ((s.others entry).map fun e => (e.2.bytes : ℤ)).sum ∧
      s.index.sizeAt Bucket.size entry.recipientPubkey.toHex =
        ((s.get entry.recipientPubkey.toHex (keyOf entry)).map fun _ => (1 : ℤ)).getD 0 +
          (s.others entry).length := by
  unfold others bucketOf
  rw [get_eq]
  cases hbucket : s.index.get entry.recipientPubkey.toHex with
  | none =>
    rw [OrdMap.sizeAt_none hbucket, OrdMap.sizeAt_none hbucket]
    exact ⟨rfl, rfl⟩
  | some bucket =>
    rw [OrdMap.sizeAt_some hbucket, OrdMap.sizeAt_some hbucket, Option.getD_some]
    have hbytes := bucket.map.total_erase (keyOf entry) fun m => (m.bytes : ℤ)
    have hcount := bucket.map.total_erase (keyOf entry) fun _ => 1
    rw [OrdMap.total_one, OrdMap.total_one] at hcount
    constructor
    · rw [Bucket.bytes, ← sub_eq_iff_eq_add']
      exact hbytes.symm
    · rw [Bucket.size, ← sub_eq_iff_eq_add']
      exact hcount.symm

/-- **The totals are as far from the sums as before.** -/
theorem Left.surplus {n : ℕ} (h : Left s entry s₁ n s') : s'.Surplus = s.Surplus := by
  obtain ⟨b, hb, hindex⟩ := h.index
  obtain ⟨hatBytes, hatSize⟩ := sizeAt_eq s entry
  obtain ⟨hbytes, hcount⟩ := totals_usageAfter ((s.others entry).take n) (s.roomFor entry)
  have hsplit := sum_split (s.others entry) n
  have hlength : ((s.others entry).take n).length + ((s.others entry).drop n).length =
      (s.others entry).length := by
    rw [← List.length_append, List.take_append_drop]
  have hbBytes : b.bytes = (((s.others entry).drop n).map fun e => (e.2.bytes : ℤ)).sum := by
    rw [Bucket.bytes_eq, hb]
  have hbSize : b.size = (((s.others entry).drop n).length : ℤ) := by rw [Bucket.size, hb]
  have htotal : s'.index.total Bucket.bytes = s.index.total Bucket.bytes -
        s.index.sizeAt Bucket.bytes entry.recipientPubkey.toHex + b.bytes ∧
      s'.index.total Bucket.size = s.index.total Bucket.size -
        s.index.sizeAt Bucket.size entry.recipientPubkey.toHex + b.size := by
    rcases hindex with hindex | ⟨hempty, hindex⟩
    · rw [hindex, OrdMap.total_set, OrdMap.total_set]
      exact ⟨rfl, rfl⟩
    · obtain ⟨hzero, hzero'⟩ := Bucket.sizes_of_isEmpty hempty
      rw [hindex, OrdMap.total_erase, OrdMap.total_erase, hzero, hzero', add_zero, add_zero]
      exact ⟨rfl, rfl⟩
  unfold Surplus
  rw [htotal.1, htotal.2, h.totalBytes, h.totalEntries, hbytes, hcount, hatBytes, hatSize, hbBytes, hbSize]
  unfold roomFor
  dsimp only
  rw [Prod.mk.injEq]
  constructor
  · omega
  · omega

/-- **What a failed deposit costs**: nothing, if what went had expired and the totals were right. -/
theorem Left.costsNothing_iff {n : ℕ} (hfreed : Freed lim now s entry s₁ bucket)
    (h : Left s entry s₁ n s') : CostsNothing lim now s s' ↔ s.Totalled ∧
      ∀ e ∈ (s.others entry).take n, isExpired lim now e.2.depositedAt = true := by
  have hnodup : (s.others entry).Nodup := List.Nodup.of_map _ (others_nodup s entry)
  constructor
  · intro hlaw
    have htotalled := (totalled_iff s').1 hlaw.totalled
    rw [h.surplus] at htotalled
    refine ⟨(totalled_iff s).2 htotalled, fun e he => ?_⟩
    by_contra hfresh
    have hget := (mem_others.1 (List.mem_of_mem_take he)).2
    have hkept := (hlaw.parked _ _ _ hget (Bool.eq_false_iff.2 hfresh)).1
    rw [h.get_self] at hkept
    have hsplit := List.nodup_append.1 ((List.take_append_drop n (s.others entry)).symm ▸ hnodup)
    exact hsplit.2.2 e he e hkept rfl
  · rintro ⟨htotalled, hexpired⟩
    refine ⟨fun r c m hget hfresh => ?_, ?_⟩
    · by_cases hr : r = entry.recipientPubkey.toHex
      · subst hr
        have hkey : c ≠ keyOf entry := by
          rintro rfl
          rw [hfreed.expired m hget] at hfresh
          cases hfresh
        have hother : (c, m) ∈ s.others entry := mem_others.2 ⟨hkey, hget⟩
        have hnot : (c, m) ∉ (s.others entry).take n := fun hmem => by
          rw [hexpired _ hmem] at hfresh
          cases hfresh
        have hdrop : (c, m) ∈ (s.others entry).drop n := by
          rw [← List.take_append_drop n (s.others entry), List.mem_append] at hother
          exact hother.resolve_left hnot
        refine ⟨h.get_self.2 hdrop, ?_⟩
        -- no other entry of the bucket has the file
        have hfile : ∀ c' m', s.get entry.recipientPubkey.toHex c' = some m' →
            m'.fileName = m.fileName → (c', m') = (c, m) := by
          intro c' m' hget' heq
          exact Bucket.eq_of_fileName (mem_bucketOf.2 hget') (mem_bucketOf.2 hget) heq
        rw [h.disk, Disk.read_unlinkAll]
        · refine hfreed.disk _ _ fun _ m' hm' heq => hkey ?_
          exact (Prod.mk.inj (hfile _ _ hm' heq.symm)).1.symm
        · refine .inr fun e he heq => hnot ?_
          have hget' := (mem_others.1 (List.mem_of_mem_take he)).2
          rw [← hfile e.1 e.2 hget' heq]
          exact he
      · rw [h.get_of_ne hr, h.disk, Disk.read_unlinkAll _ _ _ _ _ (.inl hr)]
        exact ⟨hget, hfreed.disk _ _ fun heq => absurd heq hr⟩
    · rw [totalled_iff, h.surplus, ← totalled_iff]
      exact htotalled

end

/-- **When a failed deposit costs nothing.**  A deposit that ends with an error leaves everything parked that
has not expired, and the totals right, exactly if they were right before and it was refused, or nothing that
has not expired was in the way of the entry. -/
theorem failed_deposit_iff (lim : ContentStoreLimits) (now : ℤ) (fault : Option String) (s : FileStore)
    (entry : ContentStoreEntry) {s' : FileStore} {reason : String}
    (h : deposit lim now fault s entry = (s', .error reason)) :
    CostsNothing lim now s.ensureLoaded s' ↔ s.ensureLoaded.Totalled ∧
      (refused lim (s.ensureLoaded.roomFor entry) entry.ciphertext.length = true ∨
        RoomInTime lim now s.ensureLoaded entry) := by
  obtain ⟨s₁, bucket, hpark, hfreed⟩ := freed_of_error h
  obtain ⟨hrefused, hleft⟩ | ⟨hroom, n, hle, hleft, hbefore, hafter⟩ := left_of_error hfreed hpark
  · rw [hleft.costsNothing_iff hfreed]
    refine and_congr_right fun _ => ⟨fun _ => .inl hrefused, fun _ e he => ?_⟩
    rw [List.take_zero] at he
    cases he
  · rw [hleft.costsNothing_iff hfreed, hroom]
    refine and_congr_right fun _ => ⟨fun hexpired => .inr fun k e hk hfresh => ?_, ?_⟩
    · have hkn : n ≤ k := by
        by_contra hlt
        have hmem : e ∈ (s.ensureLoaded.others entry).take n :=
          List.mem_of_getElem? ((List.getElem?_take_of_lt (not_le.1 hlt)).trans hk)
        rw [hexpired e hmem] at hfresh
        cases hfresh
      have hlength : n < (s.ensureLoaded.others entry).length :=
        lt_of_le_of_lt hkn (List.getElem?_eq_some_iff.1 hk).1
      by_contra hfull
      rw [tooFull_take hkn (Bool.eq_true_of_not_eq_false hfull)] at hafter
      cases hafter hlength
    · rintro (hrefused | hintime) e he
      · cases hrefused
      · by_contra hfresh
        obtain ⟨k, hk⟩ := List.mem_iff_getElem?.1 he
        have hkn : k < n := by
          have hlt := (List.getElem?_eq_some_iff.1 hk).1
          rw [List.length_take] at hlt
          omega
        rw [List.getElem?_take_of_lt hkn] at hk
        have hfalse := hintime k e hk (Bool.eq_false_iff.2 hfresh)
        rw [hbefore k hkn] at hfalse
        cases hfalse

/-! ### A refusal, and a write that fails -/

namespace Sample

/-- One entry for each recipient. -/
def limits : ContentStoreLimits := { defaultLimits with maxRecipientEntries := 1 }

def mail (content : UInt8) (depositedAt : ℤ) (bytes : ℕ) : ContentStoreEntry :=
  ⟨[7], [content], [9], List.replicate bytes content, depositedAt⟩

/-- A store with one entry. -/
def parkedOne : FileStore := (deposit limits 0 none {} (mail 1 0 1)).1

end Sample

/-- What can never fit is refused, and the mail that is there stays. -/
theorem failed_deposit_refused :
    (deposit { Sample.limits with maxRecipientBytes := 1 } 1 none Sample.parkedOne (Sample.mail 2 1 2)).2 =
      .error "content_store_recipient_full" ∧
    CostsNothing { Sample.limits with maxRecipientBytes := 1 } 1 Sample.parkedOne.ensureLoaded
      (deposit { Sample.limits with maxRecipientBytes := 1 } 1 none Sample.parkedOne
        (Sample.mail 2 1 2)).1 := by
  have herror : (deposit { Sample.limits with maxRecipientBytes := 1 } 1 none Sample.parkedOne
      (Sample.mail 2 1 2)).2 = .error "content_store_recipient_full" := by decide
  refine ⟨herror, (failed_deposit_iff { Sample.limits with maxRecipientBytes := 1 } 1 none
    Sample.parkedOne (Sample.mail 2 1 2) (Prod.ext rfl herror)).2 ⟨⟨?_, ?_⟩, .inl ?_⟩⟩
  · decide
  · decide
  · decide

/-- **A write that fails costs the mail that made room for it.**  The disk is full; the new entry is not
parked, and neither is the old one any more. -/
theorem failed_deposit_evicts :
    (deposit Sample.limits 1 (some "ENOSPC") Sample.parkedOne (Sample.mail 2 1 1)).2 = .error "ENOSPC" ∧
    ¬CostsNothing Sample.limits 1 Sample.parkedOne.ensureLoaded
      (deposit Sample.limits 1 (some "ENOSPC") Sample.parkedOne (Sample.mail 2 1 1)).1 := by
  refine ⟨by decide, fun hlaw => ?_⟩
  have hparked : Sample.parkedOne.ensureLoaded.get "07" "01" = some (indexEntry "01" (Sample.mail 1 0 1)) := by
    decide
  have hgone : (deposit Sample.limits 1 (some "ENOSPC") Sample.parkedOne (Sample.mail 2 1 1)).1.get "07" "01" =
      none := by decide
  have hkept := (hlaw.parked _ _ _ hparked (by decide)).1
  rw [hgone] at hkept
  cases hkept

end FileStore

end Cello.Relay.ContentStore
