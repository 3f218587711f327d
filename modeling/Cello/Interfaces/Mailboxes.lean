import Cello.Interfaces.ContentStore
import Cello.Lib.OrdTotal

/-!
# Mailboxes

What a content store is for: every recipient has a queue of entries, in order of arrival, under different
keys.  A call changes the queues as `Mailboxes.after` says and is answered as `Mailboxes.answer` says, and
the store in memory does just that (`InMemoryContentStore.call_represents`).
-/

namespace Cello.Interfaces

open Lib

abbrev Mailboxes := String → List (String × ContentStoreEntry)

/-- The bytes and the entries of all queues. -/
structure Totals where
  bytes : ℤ
  entries : ℤ

def queueBytes (l : List (String × ContentStoreEntry)) : ℤ :=
  (l.map fun e => (e.2.ciphertext.length : ℤ)).sum

namespace Mailboxes

variable (lim : ContentStoreLimits) (now : ℤ)

def expired (e : String × ContentStoreEntry) : Bool := decide (lim.ttlMs ≤ now - e.2.depositedAt)

def without (c : String) (l : List (String × ContentStoreEntry)) : List (String × ContentStoreEntry) :=
  l.filter fun e => decide (e.1 ≠ c)

def fresh (l : List (String × ContentStoreEntry)) : List (String × ContentStoreEntry) :=
  l.filter fun e => !expired lim now e

/-- How many entries have to go before there is room. -/
def evictions (incomingBytes : ℕ) : List (String × ContentStoreEntry) → Usage → ℕ
  | [], _ => 0
  | oldest :: rest, u =>
    if InMemoryContentStore.tooFull lim u incomingBytes then
      evictions incomingBytes rest (u.without oldest.2.ciphertext.length) + 1
    else 0

def usageFor (t : Totals) (l : List (String × ContentStoreEntry)) (c : String) : Usage where
  totalBytes := t.bytes - (queueBytes l - queueBytes (without c l))
  totalEntries := t.entries - (l.length - (without c l).length)
  bucketBytes := queueBytes (without c l)
  bucketEntries := (without c l).length

def taken (l : List (String × ContentStoreEntry)) (c : String) : Bool :=
  (OrdMap.getList c l).any fun e => !expired lim now (c, e)

/-- The queue after a deposit. -/
def deposited (t : Totals) (l : List (String × ContentStoreEntry)) (entry : ContentStoreEntry) :
    List (String × ContentStoreEntry) :=
  let c := entry.contentHash.toHex
  let u := usageFor t l c
  if taken lim now l c then l
  else if InMemoryContentStore.refused lim u entry.ciphertext.length then without c l
  else (without c l).drop (evictions lim entry.ciphertext.length (without c l) u) ++ [(c, entry)]

/-- The answer to a deposit. -/
def depositAnswer (t : Totals) (l : List (String × ContentStoreEntry)) (entry : ContentStoreEntry) :
    StoreResult :=
  let c := entry.contentHash.toHex
  if taken lim now l c then .done
  else if InMemoryContentStore.refused lim (usageFor t l c) entry.ciphertext.length then
    .error (InMemoryContentStore.refusal lim entry.ciphertext.length)
  else .done

def pulled (l : List (String × ContentStoreEntry)) (c : String) : Option ContentStoreEntry :=
  (OrdMap.getList c l).filter fun e => !expired lim now (c, e)

def lookedAt (l : List (String × ContentStoreEntry)) (c : String) : List (String × ContentStoreEntry) :=
  if (OrdMap.getList c l).any fun e => expired lim now (c, e) then without c l else l

/-- The queues after a call. -/
def after (t : Totals) (mb : Mailboxes) : StoreCall → Mailboxes
  | .deposit entry =>
    Function.update mb entry.recipientPubkey.toHex
      (deposited lim now t (mb entry.recipientPubkey.toHex) entry)
  | .hasContent r | .listContentHashesFor r | .pull r => Function.update mb r (fresh lim now (mb r))
  | .pullOne r c => Function.update mb r (lookedAt lim now (mb r) c)
  | .confirmPickup r c => Function.update mb r (without c (mb r))
  | .sweepExpired => fun r => fresh lim now (mb r)

/-- The answer to a call; `lost` is how many entries have gone with it. -/
def answer (t : Totals) (lost : ℤ) (mb : Mailboxes) : StoreCall → StoreResult
  | .deposit entry => depositAnswer lim now t (mb entry.recipientPubkey.toHex) entry
  | .hasContent r => .has (!(fresh lim now (mb r)).isEmpty)
  | .listContentHashesFor r => .hashes ((fresh lim now (mb r)).map Prod.fst)
  | .pull r => .entries ((fresh lim now (mb r)).map Prod.snd)
  | .pullOne r c => .entry (pulled lim now (mb r) c)
  | .confirmPickup _ _ => .done
  | .sweepExpired => .count lost

end Mailboxes

/-! ### The store in memory -/

namespace InMemoryContentStore

/-- The store holds the queues, and its totals are the sums. -/
structure Represents (s : InMemoryContentStore) (mb : Mailboxes) : Prop where
  box : ∀ r, s.bucketOf r = mb r
  bytes : s.totalBytes = s.byRecipient.total bucketBytes
  entries : s.totalEntries = s.byRecipient.total fun b => (b.entries.length : ℤ)

def totals (s : InMemoryContentStore) : Totals := ⟨s.totalBytes, s.totalEntries⟩

variable {lim : ContentStoreLimits} {now : ℤ} {s : InMemoryContentStore} {mb : Mailboxes}

theorem bucketOf_of_byRecipient {s' : InMemoryContentStore} {rKey : String}
    {bucket : OrdMap String ContentStoreEntry} (h : s'.byRecipient = s.byRecipient.set rKey bucket ∨
      bucket.entries.isEmpty = true ∧ s'.byRecipient = s.byRecipient.erase rKey) (r : String) :
    s'.bucketOf r = if r = rKey then bucket.entries else s.bucketOf r := by
  unfold bucketOf
  rcases h with h | ⟨hempty, h⟩
  · rw [h, OrdMap.get_set]
    split <;> rfl
  · rw [h, OrdMap.get_erase]
    split
    · rw [List.isEmpty_iff.1 hempty]
      rfl
    · rfl

theorem total_of_byRecipient {s' : InMemoryContentStore} {rKey : String}
    {bucket : OrdMap String ContentStoreEntry} {size : OrdMap String ContentStoreEntry → ℤ}
    (hsize : ∀ b : OrdMap String ContentStoreEntry, b.entries = [] → size b = 0)
    (h : s'.byRecipient = s.byRecipient.set rKey bucket ∨
      bucket.entries.isEmpty = true ∧ s'.byRecipient = s.byRecipient.erase rKey) :
    s'.byRecipient.total size =
      s.byRecipient.total size - size ((s.byRecipient.get rKey).getD OrdMap.empty) + size bucket := by
  have hat : s.byRecipient.sizeAt size rKey = size ((s.byRecipient.get rKey).getD OrdMap.empty) :=
    s.byRecipient.sizeAt_eq_getD rKey (hsize _ rfl)
  rcases h with h | ⟨hempty, h⟩
  · rw [h, OrdMap.total_set, hat]
  · rw [h, OrdMap.total_erase, hat, hsize bucket (List.isEmpty_iff.1 hempty), add_zero]

theorem Represents.replace (h : s.Represents mb) {s' : InMemoryContentStore} {rKey : String}
    (bucket : OrdMap String ContentStoreEntry) {l : List (String × ContentStoreEntry)}
    (hl : bucket.entries = l) (hbucket : s'.byRecipient = s.byRecipient.set rKey bucket ∨
      bucket.entries.isEmpty = true ∧ s'.byRecipient = s.byRecipient.erase rKey)
    (hbytes : s'.totalBytes = s.totalBytes - queueBytes (mb rKey) + queueBytes l)
    (hentries : s'.totalEntries = s.totalEntries - (mb rKey).length + l.length) :
    s'.Represents (Function.update mb rKey l) := by
  subst hl
  have hold := h.box rKey
  refine ⟨fun r => ?_, ?_, ?_⟩
  · rw [bucketOf_of_byRecipient hbucket, Function.update_apply, h.box]
  · rw [hbytes, total_of_byRecipient (fun b hb => by rw [bucketBytes, hb]; rfl) hbucket, h.bytes, ← hold]
    rfl
  · rw [hentries, total_of_byRecipient (fun b hb => by rw [hb]; rfl) hbucket, h.entries, ← hold]
    rfl

theorem replaceBucket_eq (s : InMemoryContentStore) (rKey : String)
    (bucket : OrdMap String ContentStoreEntry) :
    s.replaceBucket rKey bucket = s.byRecipient.set rKey bucket ∨
      bucket.entries.isEmpty = true ∧ s.replaceBucket rKey bucket = s.byRecipient.erase rKey := by
  unfold replaceBucket
  split
  next hempty => exact .inr ⟨hempty, rfl⟩
  · exact .inl rfl

theorem Represents.get_bucket (h : s.Represents mb) {rKey c : String}
    {bucket : OrdMap String ContentStoreEntry} (hbucket : s.byRecipient.get rKey = some bucket) :
    mb rKey = bucket.entries ∧ bucket.get c = OrdMap.getList c (mb rKey) := by
  have hbox := h.box rKey
  rw [bucketOf, hbucket, Option.getD_some] at hbox
  exact ⟨hbox.symm, by rw [← hbox, OrdMap.get]⟩

theorem Represents.none (h : s.Represents mb) {rKey : String} (hnone : s.byRecipient.get rKey = none) :
    mb rKey = [] := by
  have hbox := h.box rKey
  rw [bucketOf, hnone] at hbox
  exact hbox.symm

/-! ### Removal -/

theorem queueBytes_split (l : List (String × ContentStoreEntry)) (p : String × ContentStoreEntry → Bool) :
    queueBytes l = queueBytes (l.filter p) + queueBytes (l.filter fun e => !p e) := by
  induction l with
  | nil => rfl
  | cons e rest ih =>
    rw [queueBytes, List.map_cons, List.sum_cons, ← queueBytes, ih]
    by_cases he : p e = true
    · rw [List.filter_cons_of_pos he, List.filter_cons_of_neg (by simp [he]), queueBytes, queueBytes,
        queueBytes, List.map_cons, List.sum_cons]
      ring
    · rw [List.filter_cons_of_neg he, List.filter_cons_of_pos (by simp [he]), queueBytes, queueBytes,
        queueBytes, List.map_cons, List.sum_cons]
      ring

theorem length_split (l : List (String × ContentStoreEntry)) (p : String × ContentStoreEntry → Bool) :
    l.length = (l.filter p).length + (l.filter fun e => !p e).length := by
  rw [← List.length_append]
  exact (List.filter_append_perm p l).length_eq.symm

theorem Represents.expire (h : s.Represents mb) (rKey : String) :
    (deleteExpiredFromBucket lim now s rKey).Represents
      (Function.update mb rKey (Mailboxes.fresh lim now (mb rKey))) := by
  unfold deleteExpiredFromBucket
  cases hget : s.byRecipient.get rKey with
  | none =>
    have hempty := h.none hget
    rw [hempty, show Mailboxes.fresh lim now [] = mb rKey by rw [hempty]; rfl, Function.update_eq_self]
    exact h
  | some bucket =>
    obtain ⟨hmb, -⟩ := h.get_bucket (c := "") hget
    rw [hmb]
    have hsplit := queueBytes_split bucket.entries fun e => isExpired lim now e.2
    have hlength := length_split bucket.entries fun e => isExpired lim now e.2
    refine h.replace _ rfl (replaceBucket_eq s rKey _) ?_ ?_
    · rw [hmb]
      show s.totalBytes - queueBytes (bucket.entries.filter fun e => isExpired lim now e.2) =
        s.totalBytes - queueBytes bucket.entries +
          queueBytes (bucket.entries.filter fun e => !isExpired lim now e.2)
      omega
    · rw [hmb]
      show s.totalEntries - (bucket.entries.filter fun e => isExpired lim now e.2).length =
        s.totalEntries - bucket.entries.length +
          (bucket.entries.filter fun e => !isExpired lim now e.2).length
      omega

theorem Represents.remove (h : s.Represents mb) (rKey c : String) :
    (s.removeEntry rKey c).Represents (Function.update mb rKey (Mailboxes.without c (mb rKey))) := by
  unfold removeEntry
  cases hget : s.byRecipient.get rKey with
  | none =>
    have hempty := h.none hget
    rw [hempty, show Mailboxes.without c [] = mb rKey by rw [hempty]; rfl, Function.update_eq_self]
    exact h
  | some bucket =>
    obtain ⟨hmb, hc⟩ := h.get_bucket (c := c) hget
    dsimp only
    cases hentry : bucket.get c with
    | none =>
      rw [hmb, show Mailboxes.without c bucket.entries = mb rKey from
        (OrdMap.entries_erase_of_none hentry).trans hmb.symm, Function.update_eq_self]
      exact h
    | some e =>
      dsimp only
      rw [hmb]
      have hbytes := bucket.total_erase c fun e => (e.ciphertext.length : ℤ)
      have hcount := bucket.total_erase c fun _ => 1
      rw [OrdMap.sizeAt_some hentry] at hbytes hcount
      refine h.replace _ rfl (replaceBucket_eq s rKey _) ?_ ?_
      · rw [hmb]
        show s.totalBytes - (e.ciphertext.length : ℤ) = s.totalBytes -
          bucket.total (fun e : ContentStoreEntry => (e.ciphertext.length : ℤ)) +
            (bucket.erase c).total fun e : ContentStoreEntry => (e.ciphertext.length : ℤ)
        omega
      · rw [OrdMap.total_one, OrdMap.total_one] at hcount
        rw [hmb]
        show s.totalEntries - 1 = s.totalEntries - bucket.entries.length + (bucket.erase c).entries.length
        omega

/-! ### A deposit -/

theorem evict_spec (incomingBytes : ℕ) : ∀ (l : List (String × ContentStoreEntry))
    (bucket : OrdMap String ContentStoreEntry) (u : Usage), bucket.entries = l →
      (evict lim incomingBytes l bucket u).1.entries =
          l.drop (Mailboxes.evictions lim incomingBytes l u) ∧
        (evict lim incomingBytes l bucket u).2.totalBytes =
          u.totalBytes - queueBytes l + queueBytes (l.drop (Mailboxes.evictions lim incomingBytes l u)) ∧
        (evict lim incomingBytes l bucket u).2.totalEntries =
          u.totalEntries - l.length + (l.drop (Mailboxes.evictions lim incomingBytes l u)).length := by
  intro l
  induction l with
  | nil =>
    intro bucket u hl
    simp [evict, Mailboxes.evictions, hl]
  | cons oldest rest ih =>
    intro bucket u hl
    rw [evict, Mailboxes.evictions]
    split
    · obtain ⟨hentries, hbytes, hcount⟩ := ih (bucket.erase oldest.1)
        (u.without oldest.2.ciphertext.length) (OrdMap.entries_erase_head hl)
      rw [List.drop_succ_cons]
      refine ⟨hentries, ?_, ?_⟩
      · rw [hbytes, queueBytes, queueBytes, queueBytes, List.map_cons, List.sum_cons]
        simp only [Usage.without]
        ring
      · rw [hcount, List.length_cons]
        simp only [Usage.without]
        push_cast
        ring
    · rw [List.drop_zero]
      exact ⟨hl, by ring, by ring⟩

theorem queueBytes_append (l l' : List (String × ContentStoreEntry)) :
    queueBytes (l ++ l') = queueBytes l + queueBytes l' := by
  rw [queueBytes, List.map_append, List.sum_append, ← queueBytes, ← queueBytes]

theorem notMem_without (c : String) (l : List (String × ContentStoreEntry)) :
    c ∉ (Mailboxes.without c l).map Prod.fst := by
  rw [List.mem_map]
  rintro ⟨e, he, rfl⟩
  have hne := (List.mem_filter.1 he).2
  simp at hne

/-- **A deposit whose key is free.** -/
theorem Represents.park (h : s.Represents mb) {s₁ : InMemoryContentStore} {r c : String}
    {bucket : OrdMap String ContentStoreEntry} {entry : ContentStoreEntry} (hc : entry.contentHash.toHex = c)
    (hs₁ : s₁.byRecipient = s.byRecipient) (hbucket : bucket.entries = Mailboxes.without c (mb r))
    (husage : usage s₁ bucket = Mailboxes.usageFor s.totals (mb r) c)
    (hfree : Mailboxes.taken lim now (mb r) c = false) :
    (park lim s₁ r c bucket entry).1.Represents
        (Function.update mb r (Mailboxes.deposited lim now s.totals (mb r) entry)) ∧
      (park lim s₁ r c bucket entry).2 = Mailboxes.depositAnswer lim now s.totals (mb r) entry := by
  have hbytes : s₁.totalBytes = s.totalBytes - (queueBytes (mb r) - queueBytes (Mailboxes.without c (mb r))) :=
    congrArg Usage.totalBytes husage
  have hentries : s₁.totalEntries = s.totalEntries - ((mb r).length - (Mailboxes.without c (mb r)).length) :=
    congrArg Usage.totalEntries husage
  unfold InMemoryContentStore.park Mailboxes.deposited Mailboxes.depositAnswer
  simp only [hc, hfree, Bool.false_eq_true, if_false, husage]
  split
  · refine ⟨h.replace bucket hbucket ?_ ?_ ?_, rfl⟩
    · rw [← hs₁]
      exact replaceBucket_eq s₁ _ bucket
    · show s₁.totalBytes = _
      rw [hbytes]
      ring
    · show s₁.totalEntries = _
      rw [hentries]
      ring
  · obtain ⟨hleft, hleftBytes, hleftCount⟩ := @evict_spec lim entry.ciphertext.length bucket.entries bucket
      (Mailboxes.usageFor s.totals (mb r) c) rfl
    rw [hbucket] at hleft hleftBytes hleftCount ⊢
    generalize hevicted : evict lim entry.ciphertext.length (Mailboxes.without c (mb r)) bucket
      (Mailboxes.usageFor s.totals (mb r) c) = evicted at hleft hleftBytes hleftCount ⊢
    have hnew : c ∉ evicted.1.keys := by
      rw [OrdMap.keys, hleft, List.map_drop]
      exact fun hmem => notMem_without _ _ (List.mem_of_mem_drop hmem)
    have hset := OrdMap.entries_set_of_notMem entry hnew
    rw [hleft] at hset
    refine ⟨h.replace _ hset (.inl ?_) ?_ ?_, rfl⟩
    · rw [← hs₁]
    · show evicted.2.totalBytes + _ = _
      rw [hleftBytes, queueBytes_append]
      simp only [Mailboxes.usageFor, totals, queueBytes, List.map_cons, List.map_nil, List.sum_cons,
        List.sum_nil]
      ring
    · show evicted.2.totalEntries + 1 = _
      rw [hleftCount, List.length_append, List.length_singleton]
      simp only [Mailboxes.usageFor, totals]
      push_cast
      ring

theorem Represents.deposit (h : s.Represents mb) (entry : ContentStoreEntry) :
    (deposit lim now s entry).1.Represents (Function.update mb entry.recipientPubkey.toHex
        (Mailboxes.deposited lim now s.totals (mb entry.recipientPubkey.toHex) entry)) ∧
      (deposit lim now s entry).2 =
        Mailboxes.depositAnswer lim now s.totals (mb entry.recipientPubkey.toHex) entry := by
  unfold InMemoryContentStore.deposit
  dsimp only
  generalize entry.recipientPubkey.toHex = r
  generalize hc : entry.contentHash.toHex = c
  have hmb : ((s.byRecipient.get r).getD OrdMap.empty).entries = mb r := h.box r
  generalize (s.byRecipient.get r).getD OrdMap.empty = bucket at hmb ⊢
  have hget : bucket.get c = OrdMap.getList c (mb r) := by
    rw [← hmb, OrdMap.get]
  cases hentry : bucket.get c with
  | none =>
    have hwithout : Mailboxes.without c (mb r) = mb r := by
      rw [← hmb]
      exact OrdMap.entries_erase_of_none hentry
    refine h.park hc rfl (hmb.trans hwithout.symm) ?_ ?_
    · unfold usage Mailboxes.usageFor bucketBytes
      rw [hwithout, hmb]
      simp [queueBytes, totals]
    · rw [Mailboxes.taken, ← hget, hentry]
      rfl
  | some existing =>
    dsimp only
    have hbytes := bucket.total_erase c fun e => (e.ciphertext.length : ℤ)
    have hcount := bucket.total_erase c fun _ => 1
    rw [OrdMap.sizeAt_some hentry] at hbytes hcount
    rw [OrdMap.total_one, OrdMap.total_one] at hcount
    split
    next hexpired =>
      refine h.park hc rfl (hmb ▸ rfl) ?_ ?_
      · unfold usage Mailboxes.usageFor
        rw [← hmb]
        have hleft : s.totalBytes - (existing.ciphertext.length : ℤ) = s.totalBytes -
            (bucket.total (fun e : ContentStoreEntry => (e.ciphertext.length : ℤ)) -
              (bucket.erase c).total
                fun e : ContentStoreEntry => (e.ciphertext.length : ℤ)) := by omega
        have hleft' : s.totalEntries - 1 = s.totalEntries - ((bucket.entries.length : ℤ) -
            (bucket.erase c).entries.length) := by omega
        dsimp only
        rw [hleft, hleft']
        rfl
      · rw [Mailboxes.taken, ← hget, hentry, Option.any_some]
        simpa [Mailboxes.expired, isExpired] using hexpired
    next hfresh =>
      have htaken : Mailboxes.taken lim now (mb r) c = true := by
        rw [Mailboxes.taken, ← hget, hentry, Option.any_some]
        simpa [Mailboxes.expired, isExpired] using hfresh
      unfold Mailboxes.deposited Mailboxes.depositAnswer
      simp only [hc, htaken, if_true, Function.update_eq_self]
      exact ⟨h, trivial⟩

/-! ### A sweep -/

theorem totalEntries_expire (h : s.Represents mb) (rKey : String) :
    ((s.bucketOf rKey).length : ℤ) - ((deleteExpiredFromBucket lim now s rKey).bucketOf rKey).length =
      s.totalEntries - (deleteExpiredFromBucket lim now s rKey).totalEntries := by
  have hafter : (deleteExpiredFromBucket lim now s rKey).Represents _ := h.expire rKey
  rw [h.box, hafter.box, Function.update_self]
  unfold deleteExpiredFromBucket
  cases hget : s.byRecipient.get rKey with
  | none =>
    rw [h.none hget]
    simp [Mailboxes.fresh]
  | some bucket =>
    obtain ⟨hmb, -⟩ := h.get_bucket (c := "") hget
    have hlength := length_split bucket.entries fun e => isExpired lim now e.2
    rw [hmb]
    show (bucket.entries.length : ℤ) - (bucket.entries.filter fun e => !isExpired lim now e.2).length =
      s.totalEntries - (s.totalEntries - (bucket.entries.filter fun e => isExpired lim now e.2).length)
    omega

theorem fresh_fresh (l : List (String × ContentStoreEntry)) :
    Mailboxes.fresh lim now (Mailboxes.fresh lim now l) = Mailboxes.fresh lim now l := by
  rw [Mailboxes.fresh, Mailboxes.fresh, List.filter_filter]
  simp

theorem Represents.sweep : ∀ (keys : List String) {s : InMemoryContentStore} {mb : Mailboxes}
    (deleted : ℤ), s.Represents mb →
      (sweepExpired lim now keys (s, deleted)).1.Represents
          (fun r => if r ∈ keys then Mailboxes.fresh lim now (mb r) else mb r) ∧
        (sweepExpired lim now keys (s, deleted)).2 =
          deleted + (s.totalEntries - (sweepExpired lim now keys (s, deleted)).1.totalEntries) := by
  intro keys
  induction keys with
  | nil =>
    intro s mb deleted h
    simpa [sweepExpired] using h
  | cons rKey rest ih =>
    intro s mb deleted h
    obtain ⟨hrep, hcount⟩ := ih (deleted + ((s.bucketOf rKey).length -
      ((deleteExpiredFromBucket lim now s rKey).bucketOf rKey).length)) (h.expire rKey)
    rw [sweepExpired]
    refine ⟨?_, ?_⟩
    · convert hrep using 2 with r
      by_cases hr : r = rKey
      · subst hr
        rw [Function.update_self, fresh_fresh, if_pos List.mem_cons_self, ite_self]
      · rw [Function.update_of_ne hr]
        simp [hr]
    · rw [hcount, totalEntries_expire h]
      ring

/-! ### Every call -/

theorem Represents.notMem_keys (h : s.Represents mb) {r : String} (hr : r ∉ s.byRecipient.keys) :
    mb r = [] := by
  refine h.none ?_
  rwa [OrdMap.mem_keys_iff, Bool.not_eq_true, Option.isSome_eq_false_iff,
    Option.isNone_iff_eq_none] at hr

theorem Represents.pullOne (h : s.Represents mb) (r c : String) :
    (pullOne lim now s r c).1.Represents
        (Function.update mb r (Mailboxes.lookedAt lim now (mb r) c)) ∧
      (pullOne lim now s r c).2 = .entry (Mailboxes.pulled lim now (mb r) c) := by
  have hmb : ((s.byRecipient.get r).getD OrdMap.empty).entries = mb r := h.box r
  have hget : ((s.byRecipient.get r).getD OrdMap.empty).get c = OrdMap.getList c (mb r) := by
    rw [← hmb, OrdMap.get]
  unfold InMemoryContentStore.pullOne Mailboxes.lookedAt Mailboxes.pulled
  rw [hget]
  cases OrdMap.getList c (mb r) with
  | none =>
    simp only [Option.any_none, Bool.false_eq_true, if_false, Function.update_eq_self]
    exact ⟨h, rfl⟩
  | some e =>
    simp only [Option.any_some, Option.filter_some]
    by_cases hexpired : Mailboxes.expired lim now (c, e) = true
    · have hexpired' : isExpired lim now e = true := hexpired
      simp only [hexpired, hexpired', if_true, Bool.not_true, Bool.false_eq_true, if_false]
      exact ⟨h.remove r c, trivial⟩
    · have hfresh : isExpired lim now e = false := Bool.eq_false_iff.2 hexpired
      simp only [Bool.eq_false_iff.2 hexpired, hfresh, Bool.false_eq_true, if_false, Bool.not_false,
        if_true, Function.update_eq_self]
      exact ⟨h, trivial⟩

/-- **The store in memory does what mailboxes do.** -/
theorem call_represents (h : s.Represents mb) (c : StoreCall) :
    (call lim now s c).1.Represents (Mailboxes.after lim now s.totals mb c) ∧
      (call lim now s c).2 = Mailboxes.answer lim now s.totals
        (s.totalEntries - (call lim now s c).1.totalEntries) mb c := by
  cases c with
  | deposit entry => exact h.deposit entry
  | hasContent r =>
    have hafter : (deleteExpiredFromBucket lim now s r).Represents _ := h.expire r
    refine ⟨hafter, ?_⟩
    show StoreResult.has _ = _
    rw [hafter.box, Function.update_self]
    rfl
  | listContentHashesFor r =>
    have hafter : (deleteExpiredFromBucket lim now s r).Represents _ := h.expire r
    refine ⟨hafter, ?_⟩
    show StoreResult.hashes _ = _
    rw [hafter.box, Function.update_self]
    rfl
  | pull r =>
    have hafter : (deleteExpiredFromBucket lim now s r).Represents _ := h.expire r
    refine ⟨hafter, ?_⟩
    show StoreResult.entries _ = _
    rw [hafter.box, Function.update_self]
    rfl
  | pullOne r c => exact h.pullOne r c
  | confirmPickup r c => exact ⟨h.remove r c, rfl⟩
  | sweepExpired =>
    obtain ⟨hrep, hcount⟩ := @Represents.sweep lim now s.byRecipient.keys s mb 0 h
    have hall : (fun r => if r ∈ s.byRecipient.keys then Mailboxes.fresh lim now (mb r) else mb r) =
        fun r => Mailboxes.fresh lim now (mb r) := by
      funext r
      split
      · rfl
      next hr =>
        rw [h.notMem_keys hr]
        rfl
    rw [hall] at hrep
    refine ⟨hrep, ?_⟩
    · show StoreResult.count _ = StoreResult.count _
      rw [hcount, zero_add]
      rfl

end InMemoryContentStore

end Cello.Interfaces
