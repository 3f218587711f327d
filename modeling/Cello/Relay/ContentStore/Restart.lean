import Cello.Lib.StableSort
import Cello.Relay.ContentStore.Calls

/-!
# Opening the files again

What a new store reads off the names of the files.  The order of the queues is in no name: it is found again
where it is the order of the deposits' times, and where those are equal, the order in which the directory is
listed (`Represents.restart`).
-/

namespace Cello.Relay.ContentStore

open Lib Cello.Interfaces

/-! ### The files of a directory -/

theorem parsedFile_some {f : String} {p : ParsedFile} (h : parsedFile f = some p) : p.fileName = f := by
  unfold parsedFile at h
  split at h
  · cases h
  · exact Option.some.inj h ▸ rfl

theorem parsedFile_of_reads {f : String} {name : EntryName} (h : parseEntryFileName f = some name) :
    parsedFile f = some ⟨name, f, h⟩ := by
  unfold parsedFile
  split
  next hnone =>
    rw [h] at hnone
    cases hnone
  next name' hsome =>
    rw [h] at hsome
    obtain rfl := Option.some.inj hsome
    rfl

def ParsedFile.indexed (f : ParsedFile) : String × IndexEntry := (f.name.cHex, f.entry)

namespace FileStore

variable {s : FileStore} {d : Disk} {mb : Mailboxes}

/-! ### Loading -/

theorem loadFiles_spec (r : String) : ∀ (files : List ParsedFile) (s : FileStore) (bucket : Bucket),
    (bucket.entries.map Prod.fst ++ files.map fun f => f.name.cHex).Nodup →
      (loadFiles r files (s, bucket)).1 =
          { s with
            totalBytes := s.totalBytes + (files.map fun f => (f.name.bytes : ℤ)).sum
            totalEntries := s.totalEntries + files.length } ∧
        (loadFiles r files (s, bucket)).2.entries = bucket.entries ++ files.map ParsedFile.indexed := by
  intro files
  induction files with
  | nil =>
    intro s bucket _
    simp [loadFiles]
  | cons f rest ih =>
    intro s bucket hnodup
    have hnew : f.name.cHex ∉ bucket.entries.map Prod.fst := fun hmem =>
      (List.nodup_append.1 hnodup).2.2 _ hmem _ List.mem_cons_self rfl
    have hnone : bucket.get f.name.cHex = none := by
      by_contra hsome
      obtain ⟨m, hm⟩ := Option.ne_none_iff_exists'.1 hsome
      exact hnew (List.mem_map.2 ⟨_, Bucket.get_eq_some_iff.1 hm, rfl⟩)
    have hset : (bucket.set f.name.cHex f.entry (.inl f.reads)).entries =
        bucket.entries ++ [f.indexed] := OrdMap.entries_set_of_notMem f.entry hnew
    have hrest : ((bucket.set f.name.cHex f.entry (.inl f.reads)).entries.map Prod.fst ++
        rest.map fun f => f.name.cHex).Nodup := by
      rw [hset, List.map_append, List.append_assoc]
      exact hnodup
    rw [loadFiles]
    simp only [hnone]
    obtain ⟨hstore, hentries⟩ := ih
      { s with
        totalBytes := s.totalBytes + f.name.bytes
        totalEntries := s.totalEntries + 1 } _ hrest
    refine ⟨hstore.trans ?_, ?_⟩
    · rw [List.map_cons, List.sum_cons, List.length_cons]
      simp only [FileStore.mk.injEq, true_and, and_true]
      constructor
      · ring
      · push_cast
        ring
    · rw [hentries, hset, List.append_assoc]
      rfl

def KeysDistinct (d : Disk) : Prop := ∀ r, ((sortedFiles d r).map fun f => f.name.cHex).Nodup

/-- The store while it loads: the recipients of `done` are in. -/
structure Loading (d : Disk) (done : List String) (s : FileStore) : Prop where
  disk : s.disk = d
  loaded : s.loaded = true
  totalled : s.Totalled
  box : ∀ r, s.bucketOf r = if r ∈ done then (sortedFiles d r).map ParsedFile.indexed else []
  others : ∀ r, r ∉ done → s.index.get r = none

theorem Loading.recipient {done : List String} (h : Loading d done s) (hd : KeysDistinct d) {r : String}
    (hr : r ∉ done) : Loading d (r :: done) (s.loadRecipient r) := by
  obtain ⟨hstore, hentries⟩ := loadFiles_spec r (sortedFiles s.disk r) s Bucket.empty (by
    rw [h.disk]
    exact hd r)
  have hnone := h.others r hr
  unfold loadRecipient
  rw [h.disk] at hstore hentries ⊢
  generalize loadFiles r (sortedFiles d r) (s, Bucket.empty) = result at hstore hentries ⊢
  obtain ⟨s', bucket⟩ := result
  obtain rfl := hstore
  have hbucket : bucket.entries = (sortedFiles d r).map ParsedFile.indexed := hentries
  have hbytes : bucket.bytes = ((sortedFiles d r).map fun f => (f.name.bytes : ℤ)).sum := by
    rw [Bucket.bytes_eq, hbucket, List.map_map]
    rfl
  have hsize : bucket.size = (sortedFiles d r).length := by
    rw [Bucket.size, hbucket, List.length_map]
  dsimp only
  split
  next hempty =>
    have hnil : sortedFiles d r = [] := by
      rw [List.isEmpty_iff, hbucket] at hempty
      exact List.map_eq_nil_iff.1 hempty
    refine ⟨rfl, h.loaded, ⟨?_, ?_⟩, fun x => ?_, fun x hx => ?_⟩
    · show s.totalBytes + _ = _
      rw [hnil, h.totalled.bytes]
      exact add_zero _
    · show s.totalEntries + _ = _
      rw [hnil, h.totalled.entries]
      exact add_zero _
    · refine (h.box x).trans ?_
      by_cases hx : x = r
      · subst hx
        rw [if_neg hr, if_pos List.mem_cons_self, hnil]
        rfl
      · simp only [List.mem_cons, hx, false_or]
    · exact h.others x fun hmem => hx (List.mem_cons_of_mem _ hmem)
  · refine ⟨rfl, h.loaded, ⟨?_, ?_⟩, fun x => ?_, fun x hx => ?_⟩
    · show s.totalBytes + _ = (s.index.set r bucket).total _
      rw [OrdMap.total_set, OrdMap.sizeAt_none hnone, h.totalled.bytes, hbytes, sub_zero]
    · show s.totalEntries + _ = (s.index.set r bucket).total _
      rw [OrdMap.total_set, OrdMap.sizeAt_none hnone, h.totalled.entries, hsize, sub_zero]
    · show (((s.index.set r bucket).get x).getD Bucket.empty).entries = _
      rw [OrdMap.get_set]
      by_cases hx : x = r
      · subst hx
        rw [if_pos rfl, if_pos List.mem_cons_self]
        exact hbucket
      · rw [if_neg hx]
        refine (h.box x).trans ?_
        simp only [List.mem_cons, hx, false_or]
    · show (s.index.set r bucket).get x = none
      rw [List.mem_cons, not_or] at hx
      rw [OrdMap.get_set_of_ne _ _ hx.1]
      exact h.others x hx.2

theorem Loading.foldl (hd : KeysDistinct d) : ∀ (rest done : List String) {s : FileStore},
    Loading d done s → (rest ++ done).Nodup →
      ∃ done', Loading d done' (rest.foldl loadRecipient s) ∧ ∀ r, r ∈ done' ↔ r ∈ rest ∨ r ∈ done := by
  intro rest
  induction rest with
  | nil => exact fun done s h _ => ⟨done, h, by simp⟩
  | cons r rest ih =>
    intro done s h hnodup
    rw [List.cons_append, List.nodup_cons, List.mem_append, not_or] at hnodup
    obtain ⟨done', hloading, hmem⟩ := ih (r :: done) (h.recipient hd hnodup.1.2)
      (List.perm_middle.nodup_iff.2 (List.nodup_cons.2 ⟨by
        rw [List.mem_append, not_or]
        exact hnodup.1, hnodup.2⟩))
    refine ⟨done', hloading, fun x => ?_⟩
    rw [hmem, List.mem_cons, List.mem_cons]
    tauto

/-- **What a new store holds**: the files of every recipient whose key is not empty. -/
theorem ensureLoaded_opened (hd : KeysDistinct d) : (opened d).ensureLoaded.disk = d ∧
    (opened d).ensureLoaded.loaded = true ∧ (opened d).ensureLoaded.Totalled ∧
      ∀ r, (opened d).ensureLoaded.bucketOf r =
        if r = "" then [] else (sortedFiles d r).map ParsedFile.indexed := by
  have hstart : Loading d [] { opened d with loaded := true } :=
    ⟨rfl, rfl, ⟨rfl, rfl⟩, fun r => by simp [bucketOf, opened, Bucket.empty, Bucket.entries, OrdMap.empty,
      OrdMap.get, OrdMap.getList], fun r _ => rfl⟩
  have hnodup : ((d.keys.filter fun r => decide (r ≠ "")) ++ []).Nodup := by
    rw [List.append_nil]
    exact d.nodup.filter _
  obtain ⟨done, h, hdone⟩ := hstart.foldl hd _ _ hnodup
  have hload : (opened d).ensureLoaded =
      (d.keys.filter fun r => decide (r ≠ "")).foldl loadRecipient { opened d with loaded := true } := rfl
  rw [hload]
  refine ⟨h.disk, h.loaded, h.totalled, fun r => (h.box r).trans ?_⟩
  have hmem : r ∈ done ↔ r ∈ d.keys ∧ r ≠ "" := by
    rw [hdone, List.mem_filter]
    simp
  by_cases hempty : r = ""
  · rw [if_pos hempty, if_neg fun hr => (hmem.1 hr).2 hempty]
  · rw [if_neg hempty]
    by_cases hr : r ∈ d.keys
    · rw [if_pos (hmem.2 ⟨hr, hempty⟩)]
    · rw [if_neg fun h => hr (hmem.1 h).1]
      rw [OrdMap.mem_keys_iff, Bool.not_eq_true, Option.isSome_eq_false_iff,
        Option.isNone_iff_eq_none] at hr
      unfold sortedFiles Disk.list
      rw [hr]
      rfl

/-! ### Finding the order again -/

/-- The file system holds the same files; it may list them in another order. -/
def SameFiles (d d' : Disk) : Prop := ∀ r f, d'.read r f = d.read r f

/-- **The queues are in an order that the names tell.**  Recipients and hashes are not empty, the entries of
a queue arrived in the order of their times, and of two with one time the first is listed first. -/
structure Orderly (s : FileStore) (d : Disk) : Prop where
  recipient : s.bucketOf "" = []
  key : ∀ r, ∀ e ∈ s.bucketOf r, e.1 ≠ ""
  order : ∀ r, (s.bucketOf r).Pairwise fun a b => a.2.depositedAt < b.2.depositedAt ∨
    a.2.depositedAt = b.2.depositedAt ∧ [a.2.fileName, b.2.fileName].Sublist (d.list r)

theorem reads_fileOf {l : List (String × ContentStoreEntry)} (hl : Keyed l) {e : String × ContentStoreEntry}
    (he : e ∈ l) (hne : e.1 ≠ "") :
    parseEntryFileName (fileOf e) = some ⟨e.1, e.2.depositedAt, e.2.ciphertext.length⟩ := by
  refine parse_entryFileName hne ?_ _ _
  rw [hl e he]
  exact underscore_notMem_toHex _

theorem mem_list {r f : String} : f ∈ d.list r ↔ d.read r f ≠ none := by
  rw [Disk.list, OrdMap.mem_keys_iff, Option.isSome_iff_ne_none, Disk.read]
  cases d.get r <;> rfl

/-- **The sorted files are the queue.** -/
theorem sortedFiles_eq (h : s.Represents mb) {d : Disk} (hsame : SameFiles s.disk d)
    (horderly : Orderly s d) {r : String} :
    (sortedFiles d r).map ParsedFile.indexed = (mb r).map indexed := by
  have hkey : ∀ e ∈ mb r, e.1 ≠ "" := by
    intro e he
    have hin : indexed e ∈ s.bucketOf r := by
      rw [h.box]
      exact List.mem_map_of_mem he
    exact horderly.key r _ hin
  have hreads : ∀ e ∈ mb r, ∃ p, parsedFile (fileOf e) = some p ∧ p.indexed = indexed e := by
    intro e he
    exact ⟨_, parsedFile_of_reads (reads_fileOf (h.keyed r) he (hkey e he)), rfl⟩
  have hparse : ∀ e ∈ mb r, ((parsedFile (fileOf e)).map ParsedFile.indexed) = some (indexed e) := by
    intro e he
    obtain ⟨p, hp, hindexed⟩ := hreads e he
    rw [hp, Option.map_some, hindexed]
  have hqueue : ((mb r).filterMap fun e => parsedFile (fileOf e)).map ParsedFile.indexed =
      (mb r).map indexed := by
    rw [List.map_filterMap, ← List.filterMap_eq_map]
    exact List.filterMap_congr fun e he => hparse e he
  have hlistNodup : (d.list r).Nodup := ((d.get r).getD OrdMap.empty).nodup
  have hinj : ∀ f f' p, p ∈ parsedFile f → p ∈ parsedFile f' → f = f' := fun f f' p hf hf' =>
    (parsedFile_some hf).symm.trans (parsedFile_some hf')
  have hfilesNodup : ((d.list r).filterMap parsedFile).Nodup := hlistNodup.filterMap hinj
  have hqueueNodup : ((mb r).filterMap fun e => parsedFile (fileOf e)).Nodup := by
    refine List.Nodup.of_map ParsedFile.indexed ?_
    rw [hqueue]
    refine List.Nodup.of_map Prod.fst ?_
    rw [List.map_map]
    exact h.nodup r
  have hperm : ((mb r).filterMap fun e => parsedFile (fileOf e)).Perm
      ((d.list r).filterMap parsedFile) := by
    refine (List.perm_ext_iff_of_nodup hqueueNodup hfilesNodup).2 fun p => ?_
    rw [List.mem_filterMap, List.mem_filterMap]
    constructor
    · rintro ⟨e, he, hp⟩
      refine ⟨fileOf e, mem_list.2 ?_, hp⟩
      rw [hsame r, (h.disk r).read e he]
      exact Option.some_ne_none _
    · rintro ⟨f, hf, hp⟩
      rw [mem_list, hsame r] at hf
      have hname : parseEntryFileName f = some p.name := parsedFile_some hp ▸ p.reads
      obtain ⟨e, he, rfl⟩ := (h.disk r).only f p.name hname hf
      exact ⟨e, he, hp⟩
  have hstable : ((mb r).filterMap fun e => parsedFile (fileOf e)).Pairwise
      (StablyBefore (fun f => f.name.depositedAt) ((d.list r).filterMap parsedFile)) := by
    have horder := horderly.order r
    rw [h.box, ← hqueue, List.pairwise_map] at horder
    refine horder.imp_of_mem fun {p q} hp hq hpq => hpq.imp_right fun ⟨htime, hlisted⟩ => ⟨htime, ?_⟩
    have hparsed := hlisted.filterMap parsedFile
    have hself : ∀ p : ParsedFile, parsedFile p.fileName = some p := fun p => parsedFile_of_reads p.reads
    have hp' : parsedFile p.indexed.2.fileName = some p := hself p
    have hq' : parsedFile q.indexed.2.fileName = some q := hself q
    rw [List.filterMap_cons_some hp', List.filterMap_cons_some hq'] at hparsed
    exact hparsed
  rw [sortedFiles, insertionSort_eq_of_stable _ hfilesNodup hperm hstable, hqueue]

theorem Represents.restart (h : s.Represents mb) {d : Disk} (hsame : SameFiles s.disk d)
    (horderly : Orderly s d) :
    (opened d).ensureLoaded.Represents mb ∧ (opened d).ensureLoaded.disk = d := by
  have hkeys : KeysDistinct d := by
    intro r
    have hnodup := h.nodup r
    have hfst := congrArg (List.map Prod.fst) (sortedFiles_eq h hsame horderly (r := r))
    rw [List.map_map, List.map_map] at hfst
    rw [show (mb r).map Prod.fst = (sortedFiles d r).map fun f => f.name.cHex from hfst.symm] at hnodup
    exact hnodup
  obtain ⟨hdisk, hloaded, htotalled, hbox⟩ := ensureLoaded_opened hkeys
  refine ⟨⟨hloaded, fun r => ?_, h.keyed, fun r => ?_, htotalled⟩, hdisk⟩
  · rw [hbox, sortedFiles_eq h hsame horderly]
    split
    next hr =>
      have hnone := horderly.recipient
      rw [h.box] at hnone
      rw [hr, hnone]
    · rfl
  · rw [hdisk]
    exact (h.disk r).of_read (hsame r)

end FileStore

end Cello.Relay.ContentStore
