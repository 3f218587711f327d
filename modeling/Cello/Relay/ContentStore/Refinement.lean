import Cello.Interfaces.Mailboxes
import Cello.Relay.ContentStore.FailedDeposit

/-!
# The store in files holds mailboxes

The index lists the queues, each entry is in its file, and there are no other files of ours.  Every call
keeps this, changes the queues and is answered as mailboxes are (`FileStore.call_represents`).
-/

namespace Cello.Relay.ContentStore

open Lib Cello.Interfaces

def indexed (e : String × ContentStoreEntry) : String × IndexEntry := (e.1, indexEntry e.1 e.2)

def fileOf (e : String × ContentStoreEntry) : String := (indexEntry e.1 e.2).fileName

def Keyed (l : List (String × ContentStoreEntry)) : Prop := ∀ e ∈ l, e.1 = e.2.contentHash.toHex

theorem named_of_keyed {l : List (String × ContentStoreEntry)} (hl : Keyed l) {e : String × ContentStoreEntry}
    (he : e ∈ l) : (indexEntry e.1 e.2).Named e.1 := by
  refine named_indexEntry ?_ e.2
  rw [hl e he]
  exact underscore_notMem_toHex _

/-- A directory holds the files of a queue, and none else that is ours. -/
structure Holds (d : Disk) (r : String) (l : List (String × ContentStoreEntry)) : Prop where
  read : ∀ e ∈ l, d.read r (fileOf e) = some (some e.2)
  only : ∀ f name, parseEntryFileName f = some name → d.read r f ≠ none → ∃ e ∈ l, fileOf e = f

namespace Holds

variable {d d' : Disk} {r : String} {l : List (String × ContentStoreEntry)}

theorem of_read (h : Holds d r l) (hread : ∀ f, d'.read r f = d.read r f) : Holds d' r l :=
  ⟨fun e he => (hread _).trans (h.read e he), fun f name hf hne => h.only f name hf (hread f ▸ hne)⟩

theorem fileOf_inj (hkeyed : Keyed l) (hnodup : (l.map Prod.fst).Nodup) {e e' : String × ContentStoreEntry}
    (he : e ∈ l) (he' : e' ∈ l) (h : fileOf e = fileOf e') : e = e' :=
  List.inj_on_of_nodup_map hnodup he he'
    ((named_of_keyed hkeyed he).key_eq (named_of_keyed hkeyed he') h)

theorem unlink (h : Holds d r l) (hkeyed : Keyed l) (hnodup : (l.map Prod.fst).Nodup)
    {e : String × ContentStoreEntry} (he : e ∈ l) :
    Holds (d.unlink r (fileOf e)) r (Mailboxes.without e.1 l) := by
  refine ⟨fun x hx => ?_, fun f name hf hne => ?_⟩
  · obtain ⟨hxl, hxe⟩ := List.mem_filter.1 hx
    rw [Disk.read_unlink, if_neg, h.read x hxl]
    rintro ⟨-, hfile⟩
    rw [fileOf_inj hkeyed hnodup hxl he hfile] at hxe
    simp at hxe
  · rw [Disk.read_unlink] at hne
    split at hne
    · exact absurd rfl hne
    next hother =>
      obtain ⟨x, hx, rfl⟩ := h.only f name hf hne
      refine ⟨x, List.mem_filter.2 ⟨hx, decide_eq_true fun hkey => hother ⟨rfl, ?_⟩⟩, rfl⟩
      rw [List.inj_on_of_nodup_map hnodup hx he hkey]

theorem write (h : Holds d r l) {c : String} {entry : ContentStoreEntry}
    (hkeyed : Keyed (l ++ [(c, entry)])) (hnodup : ((l ++ [(c, entry)]).map Prod.fst).Nodup) :
    Holds (d.write r (fileOf (c, entry)) entry) r (l ++ [(c, entry)]) := by
  have hlast : (c, entry) ∈ l ++ [(c, entry)] := List.mem_append_right _ List.mem_cons_self
  refine ⟨fun x hx => ?_, fun f name hf hne => ?_⟩
  · rw [Disk.read_write]
    split
    next hfile => rw [fileOf_inj hkeyed hnodup hx hlast hfile.2]
    next hother =>
      rw [List.mem_append, List.mem_singleton] at hx
      rcases hx with hx | rfl
      · exact h.read x hx
      · exact absurd ⟨rfl, rfl⟩ hother
  · rw [Disk.read_write] at hne
    split at hne
    next hfile => exact ⟨(c, entry), hlast, hfile.2.symm⟩
    next =>
      obtain ⟨x, hx, hfile⟩ := h.only f name hf hne
      exact ⟨x, List.mem_append_left _ hx, hfile⟩

end Holds

namespace FileStore

/-- The store holds the queues. -/
structure Represents (s : FileStore) (mb : Mailboxes) : Prop where
  loaded : s.loaded = true
  box : ∀ r, s.bucketOf r = (mb r).map indexed
  keyed : ∀ r, Keyed (mb r)
  disk : ∀ r, Holds s.disk r (mb r)
  totalled : s.Totalled

def totals (s : FileStore) : Totals := ⟨s.totalBytes, s.totalEntries⟩

variable {lim : ContentStoreLimits} {now : ℤ} {s : FileStore} {mb : Mailboxes}

theorem Represents.nodup (h : s.Represents mb) (r : String) : ((mb r).map Prod.fst).Nodup := by
  have hnodup := ((s.index.get r).getD Bucket.empty).map.nodup
  have hbox : ((s.index.get r).getD Bucket.empty).map.entries = (mb r).map indexed := h.box r
  rw [hbox, List.map_map] at hnodup
  exact hnodup

theorem sizes_of_entries {b : Bucket} {l : List (String × ContentStoreEntry)}
    (h : b.entries = l.map indexed) : b.bytes = queueBytes l ∧ b.size = l.length := by
  rw [Bucket.bytes_eq, Bucket.size, h, List.map_map, List.length_map]
  exact ⟨rfl, rfl⟩

/-- **A new queue for one recipient**: the totals change by what the queue changes. -/
theorem Represents.replace (h : s.Represents mb) {s' : FileStore} {r : String} (bucket : Bucket)
    {l : List (String × ContentStoreEntry)} (hl : bucket.entries = l.map indexed)
    (hloaded : s'.loaded = true)
    (hindex : s'.index = s.index.set r bucket ∨
      bucket.entries.isEmpty = true ∧ s'.index = s.index.erase r)
    (hbytes : s'.totalBytes = s.totalBytes - queueBytes (mb r) + queueBytes l)
    (hentries : s'.totalEntries = s.totalEntries - (mb r).length + l.length) (hkeyed : Keyed l)
    (hdisk : Holds s'.disk r l) (hother : ∀ r' f, r' ≠ r → s'.disk.read r' f = s.disk.read r' f) :
    s'.Represents (Function.update mb r l) := by
  have hold : ((s.index.get r).getD Bucket.empty).entries = (mb r).map indexed := h.box r
  obtain ⟨holdBytes, holdSize⟩ := sizes_of_entries hold
  obtain ⟨hnewBytes, hnewSize⟩ := sizes_of_entries hl
  have htotal : ∀ size : Bucket → ℤ, size Bucket.empty = 0 →
      (bucket.entries.isEmpty = true → size bucket = 0) → s'.index.total size =
        s.index.total size - size ((s.index.get r).getD Bucket.empty) + size bucket := by
    intro size hzero hempty
    rw [← s.index.sizeAt_eq_getD r hzero]
    rcases hindex with hindex | ⟨hnil, hindex⟩
    · rw [hindex, OrdMap.total_set]
    · rw [hindex, OrdMap.total_erase, hempty hnil, add_zero]
  refine ⟨hloaded, fun r' => ?_, fun r' => ?_, fun r' => ?_, ?_, ?_⟩
  · rw [Function.update_apply]
    unfold bucketOf
    rcases hindex with hindex | ⟨hnil, hindex⟩
    · rw [hindex, OrdMap.get_set]
      split
      next heq => exact hl
      · exact h.box r'
    · rw [hindex, OrdMap.get_erase]
      split
      · rw [← hl, List.isEmpty_iff.1 hnil]
        rfl
      · exact h.box r'
  · rw [Function.update_apply]
    split
    · exact hkeyed
    · exact h.keyed r'
  · rw [Function.update_apply]
    split
    next heq => exact heq ▸ hdisk
    next hne => exact (h.disk r').of_read fun f => hother r' f hne
  · rw [hbytes, htotal Bucket.bytes rfl fun hnil => (Bucket.sizes_of_isEmpty hnil).1, holdBytes, hnewBytes,
      h.totalled.bytes]
  · rw [hentries, htotal Bucket.size rfl fun hnil => (Bucket.sizes_of_isEmpty hnil).2, holdSize, hnewSize,
      h.totalled.entries]

theorem replaceBucket_eq (s : FileStore) (r : String) (bucket : Bucket) :
    s.replaceBucket r bucket = s.index.set r bucket ∨
      bucket.entries.isEmpty = true ∧ s.replaceBucket r bucket = s.index.erase r := by
  unfold replaceBucket
  split
  next hempty => exact .inr ⟨hempty, rfl⟩
  · exact .inl rfl

/-! ### Removal -/

theorem without_indexed (c : String) (l : List (String × ContentStoreEntry)) :
    (l.map indexed).filter (fun e => decide (e.1 ≠ c)) = (Mailboxes.without c l).map indexed := by
  rw [Mailboxes.without, List.filter_map]
  rfl

theorem mem_of_get (h : s.Represents mb) {r c : String} {bucket : Bucket} {m : IndexEntry}
    (hbucket : s.index.get r = some bucket) (hm : bucket.get c = some m) :
    ∃ e ∈ mb r, e.1 = c ∧ indexEntry e.1 e.2 = m := by
  have hbox := h.box r
  rw [bucketOf, hbucket, Option.getD_some] at hbox
  have hmem := Bucket.get_eq_some_iff.1 hm
  rw [hbox] at hmem
  obtain ⟨e, he, heq⟩ := List.mem_map.1 hmem
  exact ⟨e, he, (Prod.mk.inj heq).1, (Prod.mk.inj heq).2⟩

theorem sizes_without {l : List (String × ContentStoreEntry)} (hnodup : (l.map Prod.fst).Nodup)
    {e : String × ContentStoreEntry} (he : e ∈ l) :
    queueBytes (Mailboxes.without e.1 l) = queueBytes l - e.2.ciphertext.length ∧
      ((Mailboxes.without e.1 l).length : ℤ) = l.length - 1 := by
  have hget : (⟨l, hnodup⟩ : OrdMap String ContentStoreEntry).get e.1 = some e.2 :=
    (OrdMap.get_eq_some_iff _ _ _).2 he
  have hbytes := OrdMap.total_erase ⟨l, hnodup⟩ e.1 fun e : ContentStoreEntry => (e.ciphertext.length : ℤ)
  have hcount := OrdMap.total_erase ⟨l, hnodup⟩ e.1 fun _ : ContentStoreEntry => 1
  rw [OrdMap.sizeAt_some hget] at hbytes hcount
  rw [OrdMap.total_one, OrdMap.total_one] at hcount
  exact ⟨hbytes, hcount⟩

theorem without_of_notMem {c : String} {l : List (String × ContentStoreEntry)}
    (h : c ∉ l.map Prod.fst) : Mailboxes.without c l = l :=
  List.filter_eq_self.2 fun _ he => decide_eq_true fun hk => h (hk ▸ List.mem_map_of_mem he)

theorem keyed_without {l : List (String × ContentStoreEntry)} (h : Keyed l) (c : String) :
    Keyed (Mailboxes.without c l) := fun e he => h e (List.mem_of_mem_filter he)

theorem Represents.remove (h : s.Represents mb) (r c : String) :
    (s.removeFromIndex r c).Represents (Function.update mb r (Mailboxes.without c (mb r))) := by
  unfold removeFromIndex
  cases hget : s.index.get r with
  | none =>
    have hempty : mb r = [] := by
      have hbox := h.box r
      rw [bucketOf, hget] at hbox
      exact List.map_eq_nil_iff.1 hbox.symm
    rw [hempty, show Mailboxes.without c [] = mb r by rw [hempty]; rfl, Function.update_eq_self]
    exact h
  | some bucket =>
    dsimp only
    have hbox : bucket.entries = (mb r).map indexed := by
      have hbox := h.box r
      rwa [bucketOf, hget, Option.getD_some] at hbox
    cases hm : bucket.get c with
    | none =>
      have hnot : c ∉ (mb r).map Prod.fst := by
        intro hmem
        obtain ⟨e, he, rfl⟩ := List.mem_map.1 hmem
        have hin : indexed e ∈ bucket.entries := hbox ▸ List.mem_map_of_mem he
        rw [Bucket.get_eq_some_iff.2 hin] at hm
        cases hm
      rw [without_of_notMem hnot, Function.update_eq_self]
      exact h
    | some m =>
      obtain ⟨e, he, rfl, rfl⟩ := mem_of_get h hget hm
      obtain ⟨hbytes, hcount⟩ := sizes_without (h.nodup r) he
      refine h.replace (bucket.erase e.1) ?_ h.loaded (replaceBucket_eq s r _) ?_ ?_
        (keyed_without (h.keyed r) _) ((h.disk r).unlink (h.keyed r) (h.nodup r) he) ?_
      · show bucket.entries.filter _ = _
        rw [hbox, without_indexed]
      · show s.totalBytes - (e.2.ciphertext.length : ℤ) = _
        omega
      · show s.totalEntries - 1 = _
        omega
      · intro r' f hne
        exact (Disk.read_unlink _ _ _ _ _).trans (if_neg fun heq => hne heq.1)

/-! ### What has expired -/

theorem without_middle {pre rest : List (String × ContentStoreEntry)} {e : String × ContentStoreEntry}
    (hnodup : ((pre ++ e :: rest).map Prod.fst).Nodup) :
    Mailboxes.without e.1 (pre ++ e :: rest) = pre ++ rest := by
  rw [List.map_append, List.map_cons] at hnodup
  have hpre : e.1 ∉ pre.map Prod.fst := fun hmem =>
    (List.nodup_append.1 hnodup).2.2 _ hmem _ List.mem_cons_self rfl
  have hrest : e.1 ∉ rest.map Prod.fst := (List.nodup_cons.1 (List.nodup_append.1 hnodup).2.1).1
  have hsplit : Mailboxes.without e.1 (pre ++ e :: rest) =
      Mailboxes.without e.1 pre ++ Mailboxes.without e.1 rest := by
    rw [Mailboxes.without, List.filter_append, List.filter_cons_of_neg (by simp)]
    rfl
  rw [hsplit, without_of_notMem hpre, without_of_notMem hrest]

theorem fresh_cons (e : String × ContentStoreEntry) (rest : List (String × ContentStoreEntry)) :
    Mailboxes.fresh lim now (e :: rest) =
      if Mailboxes.expired lim now e then Mailboxes.fresh lim now rest
      else e :: Mailboxes.fresh lim now rest := by
  unfold Mailboxes.fresh
  by_cases he : Mailboxes.expired lim now e = true
  · rw [List.filter_cons_of_neg (by simp [he]), if_pos he]
  · rw [List.filter_cons_of_pos (by simp [he]), if_neg he]

theorem Represents.dropFrom {r : String} : ∀ (rest pre : List (String × ContentStoreEntry)) {s : FileStore}
    {mb : Mailboxes}, s.Represents mb → mb r = pre ++ rest →
      (dropExpired lim now r s (rest.map indexed)).Represents
        (Function.update mb r (pre ++ Mailboxes.fresh lim now rest)) := by
  intro rest
  induction rest with
  | nil =>
    intro pre s mb h hmb
    rw [show pre ++ Mailboxes.fresh lim now [] = mb r from hmb.symm, Function.update_eq_self]
    exact h
  | cons e rest ih =>
    intro pre s mb h hmb
    rw [List.map_cons, fresh_cons]
    unfold dropExpired
    have hnodup := h.nodup r
    by_cases he : Mailboxes.expired lim now e = true
    · rw [if_pos he, show isExpired lim now (indexed e).2.depositedAt = true from he, if_pos rfl]
      have hremove := h.remove r e.1
      rw [hmb] at hnodup
      rw [hmb, without_middle hnodup] at hremove
      have hrest := ih pre hremove (Function.update_self _ _ _)
      rwa [Function.update_idem] at hrest
    · have hfresh : isExpired lim now (indexed e).2.depositedAt = false := Bool.eq_false_iff.2 he
      rw [if_neg he, hfresh, if_neg Bool.false_ne_true]
      have hrest := ih (pre ++ [e]) h (by rw [hmb, List.append_assoc]; rfl)
      rwa [List.append_assoc] at hrest

theorem Represents.drop (h : s.Represents mb) (r : String) :
    (dropExpired lim now r s (s.bucketOf r)).Represents
      (Function.update mb r (Mailboxes.fresh lim now (mb r))) := by
  rw [h.box]
  exact h.dropFrom (mb r) [] rfl

theorem Represents.readEntry (h : s.Represents mb) {r : String} {e : String × ContentStoreEntry}
    (he : e ∈ mb r) : s.readEntry r e.1 = (s, some e.2) := by
  have hget : s.get r e.1 = some (indexEntry e.1 e.2) := by
    rw [← mem_bucketOf, h.box]
    exact List.mem_map.2 ⟨e, he, rfl⟩
  have hread : s.disk.read r (indexEntry e.1 e.2).fileName = some (some e.2) := (h.disk r).read e he
  unfold FileStore.readEntry
  rw [show ((s.index.get r).bind fun bucket => bucket.get e.1) = some (indexEntry e.1 e.2) from hget]
  dsimp only
  rw [hread]

/-- `pull` drops what has expired and reads the others. -/
theorem Represents.pullFrom {r : String} : ∀ (rest pre : List (String × ContentStoreEntry)) {s : FileStore}
    {mb : Mailboxes}, s.Represents mb → mb r = pre ++ rest →
      (pullFrom lim now r s (rest.map indexed)).1.Represents
          (Function.update mb r (pre ++ Mailboxes.fresh lim now rest)) ∧
        (pullFrom lim now r s (rest.map indexed)).2 = (Mailboxes.fresh lim now rest).map Prod.snd := by
  intro rest
  induction rest with
  | nil =>
    intro pre s mb h hmb
    rw [show pre ++ Mailboxes.fresh lim now [] = mb r from hmb.symm, Function.update_eq_self]
    exact ⟨h, rfl⟩
  | cons e rest ih =>
    intro pre s mb h hmb
    rw [List.map_cons, fresh_cons]
    unfold FileStore.pullFrom
    have hnodup := h.nodup r
    have hmem : e ∈ mb r := by
      rw [hmb]
      exact List.mem_append_right _ List.mem_cons_self
    by_cases he : Mailboxes.expired lim now e = true
    · simp only [he, show isExpired lim now (indexed e).2.depositedAt = true from he, if_true]
      have hremove := h.remove r e.1
      rw [hmb] at hnodup
      rw [hmb, without_middle hnodup] at hremove
      have hrest := ih pre hremove (Function.update_self _ _ _)
      rwa [Function.update_idem] at hrest
    · have hfresh : isExpired lim now (indexed e).2.depositedAt = false := Bool.eq_false_iff.2 he
      obtain ⟨hrep, hout⟩ := ih (pre ++ [e]) h (by rw [hmb, List.append_assoc]; rfl)
      have hread : s.readEntry r (indexed e).1 = (s, some e.2) := h.readEntry hmem
      simp only [he, hfresh, if_false, Bool.false_eq_true, hread]
      rw [List.append_assoc] at hrep
      exact ⟨hrep, by rw [hout]; rfl⟩

theorem totalEntries_removeFromIndex {r c : String} {m : IndexEntry} (h : s.get r c = some m) :
    (s.removeFromIndex r c).totalEntries = s.totalEntries - 1 := by
  unfold get at h
  unfold removeFromIndex
  cases hbucket : s.index.get r with
  | none =>
    rw [hbucket] at h
    cases h
  | some bucket =>
    rw [hbucket, Option.bind_some] at h
    simp only [h]

theorem totalEntries_dropFrom {r : String} : ∀ (rest pre : List (String × ContentStoreEntry))
    {s : FileStore} {mb : Mailboxes}, s.Represents mb → mb r = pre ++ rest →
      (dropExpired lim now r s (rest.map indexed)).totalEntries =
        s.totalEntries - expiredIn lim now (rest.map indexed) := by
  intro rest
  induction rest with
  | nil => simp [dropExpired, expiredIn]
  | cons e rest ih =>
    intro pre s mb h hmb
    rw [List.map_cons, expiredIn, List.countP_cons]
    unfold dropExpired
    have hnodup := h.nodup r
    have hget : s.get r (indexed e).1 = some (indexed e).2 := by
      rw [← mem_bucketOf, h.box, hmb]
      exact List.mem_map.2 ⟨e, List.mem_append_right _ List.mem_cons_self, rfl⟩
    by_cases he : isExpired lim now (indexed e).2.depositedAt = true
    · have hremove := h.remove r e.1
      rw [hmb] at hnodup
      rw [hmb, without_middle hnodup] at hremove
      have hrest := ih pre hremove (Function.update_self _ _ _)
      have hone : (s.removeFromIndex r e.1).totalEntries = s.totalEntries - 1 :=
        totalEntries_removeFromIndex hget
      rw [hone] at hrest
      rw [if_pos he, if_pos he]
      refine hrest.trans ?_
      rw [expiredIn]
      push_cast
      ring
    · have hrest := ih (pre ++ [e]) h (by rw [hmb, List.append_assoc]; rfl)
      rw [if_neg he, if_neg he, hrest, expiredIn, add_zero]

/-! ### A sweep -/

theorem Represents.sweep : ∀ (rest : List (String × Bucket)) {s : FileStore} {mb : Mailboxes} (deleted : ℤ),
    s.Represents mb → (rest.map Prod.fst).Nodup →
      (∀ e ∈ rest, e.2.entries = (mb e.1).map indexed) →
      (sweepFrom lim now rest (s, deleted)).1.Represents
          (fun r => if r ∈ rest.map Prod.fst then Mailboxes.fresh lim now (mb r) else mb r) ∧
        (sweepFrom lim now rest (s, deleted)).2 =
          deleted + (s.totalEntries - (sweepFrom lim now rest (s, deleted)).1.totalEntries) := by
  intro rest
  induction rest with
  | nil =>
    intro s mb deleted h _ _
    simpa [sweepFrom] using h
  | cons e rest ih =>
    obtain ⟨r, bucket⟩ := e
    intro s mb deleted h hnodup hentries
    rw [List.map_cons, List.nodup_cons] at hnodup
    have hbucket : bucket.entries = (mb r).map indexed := hentries (r, bucket) List.mem_cons_self
    have hdrop : (dropExpired lim now r s bucket.entries).Represents
        (Function.update mb r (Mailboxes.fresh lim now (mb r))) := by
      rw [hbucket]
      exact h.dropFrom (mb r) [] rfl
    have hlost : (dropExpired lim now r s bucket.entries).totalEntries =
        s.totalEntries - expiredIn lim now bucket.entries := by
      rw [hbucket]
      exact totalEntries_dropFrom (mb r) [] h rfl
    have hothers : ∀ x ∈ rest, x.2.entries =
        (Function.update mb r (Mailboxes.fresh lim now (mb r)) x.1).map indexed := by
      intro x hx
      have hne : x.1 ≠ r := fun heq => hnodup.1 (List.mem_map.2 ⟨x, hx, heq⟩)
      rw [Function.update_of_ne hne]
      exact hentries x (List.mem_cons_of_mem _ hx)
    obtain ⟨hrep, hcount⟩ := ih (deleted + expiredIn lim now bucket.entries) hdrop hnodup.2 hothers
    unfold sweepFrom
    refine ⟨?_, ?_⟩
    · have hboxes : (fun x => if x ∈ rest.map Prod.fst then Mailboxes.fresh lim now
            (Function.update mb r (Mailboxes.fresh lim now (mb r)) x)
          else Function.update mb r (Mailboxes.fresh lim now (mb r)) x) =
          fun x => if x ∈ ((r, bucket) :: rest).map Prod.fst then Mailboxes.fresh lim now (mb x)
            else mb x := by
        funext x
        by_cases hx : x = r
        · subst hx
          rw [if_neg hnodup.1, Function.update_self, List.map_cons, if_pos List.mem_cons_self]
        · rw [Function.update_of_ne hx, List.map_cons]
          simp only [List.mem_cons, hx, false_or]
      rw [← hboxes]
      exact hrep
    · rw [hcount, hlost]
      ring

end FileStore

end Cello.Relay.ContentStore
