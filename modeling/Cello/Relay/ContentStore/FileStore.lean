import Cello.Interfaces.ContentStore
import Cello.Lib.OrdTotal
import Cello.Relay.ContentStore.FileNames

/-!
# The content store in files

`packages/relay/src/adapters/file-content-store.ts`, one call at a time.  The index is in memory, the
content in one file for each entry, and a store that is new reads its index off the names of the files.

A file that holds no entry (cut short, or with a wrong checksum) is `none` on the disk.  The temporary files
of a write are left out: their names are not ours.
-/

namespace Cello.Relay.ContentStore

open Lib Cello.Interfaces

/-! ### The index -/

structure IndexEntry where
  bytes : ℕ
  depositedAt : ℤ
  fileName : String
deriving DecidableEq, Repr

def IndexEntry.Named (cHex : String) (m : IndexEntry) : Prop :=
  parseEntryFileName m.fileName = some ⟨cHex, m.depositedAt, m.bytes⟩ ∨
    (cHex = "" ∧ m.fileName = entryFileName "" m.depositedAt m.bytes)

theorem IndexEntry.Named.key_eq {c c' : String} {m m' : IndexEntry} (h : m.Named c) (h' : m'.Named c')
    (heq : m.fileName = m'.fileName) : c = c' := by
  rcases h with h | ⟨rfl, h⟩ <;> rcases h' with h' | ⟨rfl, h'⟩
  · rw [heq, h'] at h
    exact (EntryName.mk.inj (Option.some.inj h)).1.symm
  · rw [heq, h', parse_entryFileName_empty] at h
    cases h
  · rw [← heq, h, parse_entryFileName_empty] at h'
    cases h'
  · rfl

def indexEntry (cHex : String) (e : ContentStoreEntry) : IndexEntry where
  bytes := e.ciphertext.length
  depositedAt := e.depositedAt
  fileName := entryFileName cHex e.depositedAt e.ciphertext.length

theorem named_indexEntry {cHex : String} (hplain : '_' ∉ cHex.toList) (e : ContentStoreEntry) :
    (indexEntry cHex e).Named cHex := by
  by_cases hne : cHex = ""
  · subst hne
    exact .inr ⟨rfl, rfl⟩
  · exact .inl (parse_entryFileName hne hplain _ _)

/-- What the index holds for one recipient, in order of arrival. -/
structure Bucket where
  map : OrdMap String IndexEntry
  named : ∀ c m, map.get c = some m → m.Named c

namespace Bucket

def empty : Bucket := ⟨OrdMap.empty, fun _ _ h => by cases h⟩

def entries (b : Bucket) : List (String × IndexEntry) := b.map.entries

def get (b : Bucket) (c : String) : Option IndexEntry := b.map.get c

def set (b : Bucket) (c : String) (m : IndexEntry) (hm : m.Named c) : Bucket where
  map := b.map.set c m
  named c' m' h := by
    rw [OrdMap.get_set] at h
    split at h
    next heq =>
      obtain rfl := Option.some.inj h
      exact heq ▸ hm
    · exact b.named c' m' h

def erase (b : Bucket) (c : String) : Bucket where
  map := b.map.erase c
  named c' m' h := by
    rw [OrdMap.get_erase] at h
    split at h
    · cases h
    · exact b.named c' m' h

/-- The bytes of a bucket. -/
def bytes (b : Bucket) : ℤ := b.map.total fun m => (m.bytes : ℤ)

/-- The number of its entries. -/
def size (b : Bucket) : ℤ := b.entries.length

theorem get_eq_some_iff {b : Bucket} {c : String} {m : IndexEntry} :
    b.get c = some m ↔ (c, m) ∈ b.entries :=
  OrdMap.get_eq_some_iff b.map c m

theorem named_of_mem {b : Bucket} {e : String × IndexEntry} (h : e ∈ b.entries) : e.2.Named e.1 :=
  b.named e.1 e.2 (get_eq_some_iff.2 h)

theorem entries_erase_head {b : Bucket} {e : String × IndexEntry} {rest : List (String × IndexEntry)}
    (h : b.entries = e :: rest) : (b.erase e.1).entries = rest :=
  OrdMap.entries_erase_head h

theorem bytes_eq (b : Bucket) : b.bytes = (b.entries.map fun e => (e.2.bytes : ℤ)).sum := rfl

theorem sizes_of_isEmpty {b : Bucket} (h : b.entries.isEmpty = true) : b.bytes = 0 ∧ b.size = 0 := by
  rw [List.isEmpty_iff] at h
  rw [bytes_eq, size, h]
  exact ⟨rfl, rfl⟩

theorem eq_of_fileName {b : Bucket} {e e' : String × IndexEntry} (he : e ∈ b.entries)
    (he' : e' ∈ b.entries) (h : e.2.fileName = e'.2.fileName) : e = e' := by
  have hkey := (named_of_mem he).key_eq (named_of_mem he') h
  exact List.inj_on_of_nodup_map b.map.nodup he he' hkey

end Bucket

/-! ### The disk -/

abbrev Disk := OrdMap String (OrdMap String (Option ContentStoreEntry))

namespace Disk

def read (d : Disk) (r fileName : String) : Option (Option ContentStoreEntry) :=
  (d.get r).bind fun dir => dir.get fileName

def unlink (d : Disk) (r fileName : String) : Disk :=
  match d.get r with
  | none => d
  | some dir => d.set r (dir.erase fileName)

def write (d : Disk) (r fileName : String) (e : ContentStoreEntry) : Disk :=
  d.set r (((d.get r).getD OrdMap.empty).set fileName (some e))

/-- `readdir` of a recipient's directory. -/
def list (d : Disk) (r : String) : List String := ((d.get r).getD OrdMap.empty).keys

theorem read_unlink (d : Disk) (r f r' f' : String) :
    (d.unlink r f).read r' f' = if r' = r ∧ f' = f then none else d.read r' f' := by
  unfold unlink
  cases hdir : d.get r with
  | none =>
    dsimp only
    split
    next h => rw [h.1, read, hdir, Option.bind_none]
    · rfl
  | some dir =>
    dsimp only
    by_cases hr : r' = r
    · subst hr
      rw [read, OrdMap.get_set_self, Option.bind_some, OrdMap.get_erase, read, hdir, Option.bind_some]
      simp only [true_and]
    · rw [read, OrdMap.get_set_of_ne _ _ hr, if_neg (fun h => hr h.1), read]

theorem read_write (d : Disk) (r f : String) (e : ContentStoreEntry) (r' f' : String) :
    (d.write r f e).read r' f' = if r' = r ∧ f' = f then some (some e) else d.read r' f' := by
  unfold write
  by_cases hr : r' = r
  · subst hr
    rw [read, OrdMap.get_set_self, Option.bind_some, OrdMap.get_set, read]
    simp only [true_and]
    split
    · rfl
    · cases d.get r' <;> rfl
  · rw [read, OrdMap.get_set_of_ne _ _ hr, if_neg (fun h => hr h.1), read]

def unlinkAll (d : Disk) (r : String) (l : List (String × IndexEntry)) : Disk :=
  l.foldl (fun d e => d.unlink r e.2.fileName) d

theorem read_unlinkAll (r r' f : String) : ∀ (l : List (String × IndexEntry)) (d : Disk),
    (r' ≠ r ∨ ∀ e ∈ l, e.2.fileName ≠ f) → (d.unlinkAll r l).read r' f = d.read r' f := by
  intro l
  induction l with
  | nil => exact fun _ _ => rfl
  | cons e rest ih =>
    intro d h
    have hrest : r' ≠ r ∨ ∀ x ∈ rest, x.2.fileName ≠ f :=
      h.imp_right fun h x hx => h x (List.mem_cons_of_mem _ hx)
    have hfirst : ¬(r' = r ∧ f = e.2.fileName) := fun heq =>
      h.elim (fun hr => hr heq.1) fun h => h e List.mem_cons_self heq.2.symm
    rw [unlinkAll, List.foldl_cons]
    exact (ih (d.unlink r e.2.fileName) hrest).trans (by rw [read_unlink, if_neg hfirst])

end Disk

/-! ### The store -/

structure FileStore where
  disk : Disk := OrdMap.empty
  index : OrdMap String Bucket := OrdMap.empty
  totalBytes : ℤ := 0
  totalEntries : ℤ := 0
  loaded : Bool := false

/-- A file of ours. -/
structure ParsedFile where
  name : EntryName
  fileName : String
  reads : parseEntryFileName fileName = some name

def parsedFile (fileName : String) : Option ParsedFile :=
  match h : parseEntryFileName fileName with
  | none => none
  | some name => some ⟨name, fileName, h⟩

def sortedFiles (d : Disk) (r : String) : List ParsedFile :=
  ((d.list r).filterMap parsedFile).insertionSort fun a b => a.name.depositedAt ≤ b.name.depositedAt

def ParsedFile.entry (f : ParsedFile) : IndexEntry := ⟨f.name.bytes, f.name.depositedAt, f.fileName⟩

namespace FileStore

/-- The files of a recipient enter a bucket; of two with one key the older is deleted. -/
def loadFiles (r : String) : List ParsedFile → FileStore × Bucket → FileStore × Bucket
  | [], acc => acc
  | f :: rest, (s, bucket) =>
    let s' :=
      match bucket.get f.name.cHex with
      | none => s
      | some existing =>
        { s with
          disk := s.disk.unlink r existing.fileName
          totalBytes := s.totalBytes - existing.bytes
          totalEntries := s.totalEntries - 1 }
    loadFiles r rest
      ({ s' with
          totalBytes := s'.totalBytes + f.name.bytes
          totalEntries := s'.totalEntries + 1 },
        bucket.set f.name.cHex f.entry (.inl f.reads))

def loadRecipient (s : FileStore) (r : String) : FileStore :=
  match loadFiles r (sortedFiles s.disk r) (s, Bucket.empty) with
  | (s', bucket) => if bucket.entries.isEmpty then s' else { s' with index := s'.index.set r bucket }

/-- `#ensureLoaded`.  The files of an empty key of a recipient lie in the root, and `readdir` of a file
fails. -/
def ensureLoaded (s : FileStore) : FileStore :=
  if s.loaded then s
  else (s.disk.keys.filter fun r => decide (r ≠ "")).foldl loadRecipient { s with loaded := true }

section

variable (lim : ContentStoreLimits) (now : ℤ)

/-- `#isExpired`. -/
def isExpired (depositedAt : ℤ) : Bool := decide (lim.ttlMs ≤ now - depositedAt)

def replaceBucket (s : FileStore) (r : String) (bucket : Bucket) : OrdMap String Bucket :=
  if bucket.entries.isEmpty then s.index.erase r else s.index.set r bucket

/-- `#removeFromIndex`. -/
def removeFromIndex (s : FileStore) (r c : String) : FileStore :=
  match s.index.get r with
  | none => s
  | some bucket =>
    match bucket.get c with
    | none => s
    | some m =>
      { s with
        index := s.replaceBucket r (bucket.erase c)
        totalBytes := s.totalBytes - m.bytes
        totalEntries := s.totalEntries - 1
        disk := s.disk.unlink r m.fileName }

/-- `#readEntry`: a file that holds no entry is dropped. -/
def readEntry (s : FileStore) (r c : String) : FileStore × Option ContentStoreEntry :=
  match (s.index.get r).bind fun bucket => bucket.get c with
  | none => (s, none)
  | some m =>
    match s.disk.read r m.fileName with
    | none => (s, none)
    | some none => (s.removeFromIndex r c, none)
    | some (some e) => (s, some e)

/-! ### A deposit -/

def usage (s : FileStore) (bucket : Bucket) : Usage where
  totalBytes := s.totalBytes
  totalEntries := s.totalEntries
  bucketBytes := bucket.bytes
  bucketEntries := bucket.entries.length

/-- A deposit that cannot fit, however much of the bucket goes. -/
def refused (u : Usage) (incomingBytes : ℕ) : Bool :=
  decide (lim.maxBytes - (u.totalBytes - u.bucketBytes) < incomingBytes) ||
    decide (lim.maxRecipientBytes < incomingBytes) ||
    decide (lim.maxEntries - (u.totalEntries - u.bucketEntries) < 1) ||
    decide (lim.maxRecipientEntries < 1)

/-- `RELAY_PARK_REFUSALS`. -/
def refusal (incomingBytes : ℕ) : String :=
  if lim.maxRecipientBytes < incomingBytes ∨ lim.maxRecipientEntries < 1 then
    "content_store_recipient_full"
  else "content_store_full"

def tooFull (u : Usage) (incomingBytes : ℕ) : Bool :=
  decide (lim.maxEntries < u.totalEntries + 1) ||
    decide (lim.maxBytes < u.totalBytes + incomingBytes) ||
    decide (lim.maxRecipientBytes < u.bucketBytes + incomingBytes) ||
    decide (lim.maxRecipientEntries < u.bucketEntries + 1)

theorem tooFull_iff {u : Usage} {incomingBytes : ℕ} : tooFull lim u incomingBytes = true ↔
    lim.maxEntries < u.totalEntries + 1 ∨ lim.maxBytes < u.totalBytes + incomingBytes ∨
      lim.maxRecipientBytes < u.bucketBytes + incomingBytes ∨
        lim.maxRecipientEntries < u.bucketEntries + 1 := by
  simp [tooFull, or_assoc]

/-- The store and a bucket that is not back in its index, with what they use. -/
structure Evicting where
  bucket : Bucket
  usage : Usage
  disk : Disk

/-- The oldest entries go until there is room; the list is what is left of the bucket. -/
def evict (r : String) (incomingBytes : ℕ) : List (String × IndexEntry) → Evicting → Evicting
  | [], ev => ev
  | oldest :: rest, ev =>
    if tooFull lim ev.usage incomingBytes then
      evict r incomingBytes rest
        { bucket := ev.bucket.erase oldest.1
          usage := ev.usage.without oldest.2.bytes
          disk := ev.disk.unlink r oldest.2.fileName }
    else ev

def usageAfter (u : Usage) (l : List (String × IndexEntry)) : Usage :=
  l.foldl (fun u e => u.without e.2.bytes) u

/-- **What the loop does**: the first `n` entries go, and `n` is the least number that makes room. -/
structure Evicted (lim : ContentStoreLimits) (r : String) (incomingBytes : ℕ) (ev ev' : Evicting)
    (n : ℕ) : Prop where
  le : n ≤ ev.bucket.entries.length
  entries : ev'.bucket.entries = ev.bucket.entries.drop n
  usage : ev'.usage = usageAfter ev.usage (ev.bucket.entries.take n)
  disk : ev'.disk = ev.disk.unlinkAll r (ev.bucket.entries.take n)
  before : ∀ j < n, tooFull lim (usageAfter ev.usage (ev.bucket.entries.take j)) incomingBytes = true
  after : n < ev.bucket.entries.length →
    tooFull lim (usageAfter ev.usage (ev.bucket.entries.take n)) incomingBytes = false

theorem evict_spec (r : String) (incomingBytes : ℕ) : ∀ (l : List (String × IndexEntry)) (ev : Evicting),
    ev.bucket.entries = l → ∃ n, Evicted lim r incomingBytes ev (evict lim r incomingBytes l ev) n := by
  intro l
  induction l with
  | nil =>
    intro ev hl
    exact ⟨0, Nat.zero_le _, rfl, rfl, rfl, fun j hj => absurd hj (Nat.not_lt_zero j), by simp [hl]⟩
  | cons oldest rest ih =>
    intro ev hl
    rw [evict]
    split
    next hfull =>
      obtain ⟨n, h⟩ := ih ⟨ev.bucket.erase oldest.1, ev.usage.without oldest.2.bytes,
        ev.disk.unlink r oldest.2.fileName⟩ (Bucket.entries_erase_head hl)
      have hrest := Bucket.entries_erase_head hl
      refine ⟨n + 1, ?_, ?_, ?_, ?_, ?_, ?_⟩
      · simpa [hl, hrest] using h.le
      · rw [h.entries, hl, hrest, List.drop_succ_cons]
      · rw [h.usage, hl, hrest, List.take_succ_cons]
        rfl
      · rw [h.disk, hl, hrest, List.take_succ_cons]
        rfl
      · intro j hj
        cases j with
        | zero => exact hfull
        | succ j =>
          have hj' := h.before j (Nat.lt_of_succ_lt_succ hj)
          rw [hrest] at hj'
          rw [hl, List.take_succ_cons]
          exact hj'
      · intro hlt
        have hn := h.after (by simpa [hl, hrest] using hlt)
        rw [hrest] at hn
        rw [hl, List.take_succ_cons]
        exact hn
    next hroom =>
      exact ⟨0, Nat.zero_le _, rfl, rfl, rfl, fun j hj => absurd hj (Nat.not_lt_zero j),
        fun _ => Bool.eq_false_iff.2 hroom⟩

/-- The deposit of an entry whose key is free; `fault` is why the write of the file fails, if it does. -/
def park (fault : Option String) (s : FileStore) (bucket : Bucket) (entry : ContentStoreEntry) :
    FileStore × StoreResult :=
  let r := entry.recipientPubkey.toHex
  let c := entry.contentHash.toHex
  let incomingBytes := entry.ciphertext.length
  if refused lim (usage s bucket) incomingBytes then
    ({ s with index := s.replaceBucket r bucket }, .error (refusal lim incomingBytes))
  else
    let ev := evict lim r incomingBytes bucket.entries ⟨bucket, usage s bucket, s.disk⟩
    match fault with
    | some reason =>
      ({ s with
          disk := ev.disk
          index := s.index.set r ev.bucket
          totalBytes := ev.usage.totalBytes
          totalEntries := ev.usage.totalEntries }, .error reason)
    | none =>
      ({ s with
          disk := ev.disk.write r (indexEntry c entry).fileName entry
          index := s.index.set r
            (ev.bucket.set c (indexEntry c entry)
              (named_indexEntry (underscore_notMem_toHex entry.contentHash) entry))
          totalBytes := ev.usage.totalBytes + incomingBytes
          totalEntries := ev.usage.totalEntries + 1 }, .done)

/-- `deposit`, once the index is loaded. -/
def depositLoaded (fault : Option String) (s : FileStore) (entry : ContentStoreEntry) :
    FileStore × StoreResult :=
  let r := entry.recipientPubkey.toHex
  let c := entry.contentHash.toHex
  let bucket := (s.index.get r).getD Bucket.empty
  match bucket.get c with
  | none => park lim fault s bucket entry
  | some prev =>
    if isExpired lim now prev.depositedAt then
      park lim fault
        { s with
          totalBytes := s.totalBytes - prev.bytes
          totalEntries := s.totalEntries - 1
          disk := s.disk.unlink r prev.fileName }
        (bucket.erase c) entry
    else (s, .done)

def deposit (fault : Option String) (s : FileStore) (entry : ContentStoreEntry) :
    FileStore × StoreResult :=
  depositLoaded lim now fault s.ensureLoaded entry

/-! ### The other calls -/

def bucketOf (s : FileStore) (r : String) : List (String × IndexEntry) :=
  ((s.index.get r).getD Bucket.empty).entries

def dropExpired (r : String) (s : FileStore) : List (String × IndexEntry) → FileStore
  | [] => s
  | (c, m) :: rest =>
    dropExpired r (if isExpired lim now m.depositedAt then s.removeFromIndex r c else s) rest

/-- `pull`, over a snapshot of the bucket. -/
def pullFrom (r : String) (s : FileStore) : List (String × IndexEntry) → FileStore × List ContentStoreEntry
  | [] => (s, [])
  | (c, m) :: rest =>
    if isExpired lim now m.depositedAt then pullFrom r (s.removeFromIndex r c) rest
    else
      match s.readEntry r c with
      | (s', entry) =>
        match pullFrom r s' rest with
        | (s'', out) => (s'', entry.toList ++ out)

def pullOne (s : FileStore) (r c : String) : FileStore × StoreResult :=
  match (s.index.get r).bind fun bucket => bucket.get c with
  | none => (s, .entry none)
  | some m =>
    if isExpired lim now m.depositedAt then (s.removeFromIndex r c, .entry none)
    else
      match s.readEntry r c with
      | (s', entry) => (s', .entry entry)

def expiredIn (l : List (String × IndexEntry)) : ℕ := l.countP fun e => isExpired lim now e.2.depositedAt

/-- `sweepExpired`, over a snapshot of the index. -/
def sweepFrom : List (String × Bucket) → FileStore × ℤ → FileStore × ℤ
  | [], acc => acc
  | (r, bucket) :: rest, (s, deleted) =>
    sweepFrom rest (dropExpired lim now r s bucket.entries, deleted + expiredIn lim now bucket.entries)

/-- A call, once the index is loaded, where no file operation fails. -/
def callLoaded (s : FileStore) : StoreCall → FileStore × StoreResult
  | .deposit entry => depositLoaded lim now none s entry
  | .hasContent r =>
    let s' := dropExpired lim now r s (s.bucketOf r)
    (s', .has (!(s'.bucketOf r).isEmpty))
  | .listContentHashesFor r =>
    let s' := dropExpired lim now r s (s.bucketOf r)
    (s', .hashes ((s'.bucketOf r).map Prod.fst))
  | .pull r =>
    match pullFrom lim now r s (s.bucketOf r) with
    | (s', out) => (s', .entries out)
  | .pullOne r c => pullOne lim now s r c
  | .confirmPickup r c => (s.removeFromIndex r c, .done)
  | .sweepExpired =>
    match sweepFrom lim now s.index.entries (s, 0) with
    | (s', deleted) => (s', .count deleted)

def call (s : FileStore) (c : StoreCall) : FileStore × StoreResult := callLoaded lim now s.ensureLoaded c

/-- A new store over the files that are there. -/
def opened (disk : Disk) : FileStore := { disk := disk }

end

end FileStore

end Cello.Relay.ContentStore
