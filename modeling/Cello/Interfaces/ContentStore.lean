import Cello.Lib.JsValue
import Cello.Lib.OrdMap

/-!
# Content stores

`packages/interfaces/src/content-store.ts` and the store in memory of
`packages/interfaces/src/stubs/in-memory-content-store.ts`.  Parked content waits for its recipient, in
order of arrival, under the hash of the content.

Times are whole milliseconds, as `Date.now()` gives them, and a call reads the clock once.
-/

namespace Cello.Interfaces

open Lib

/-! ### What is parked, and what is asked -/

structure ContentStoreEntry where
  recipientPubkey : Bytes
  contentHash : Bytes
  sessionId : Bytes
  ciphertext : Bytes
  depositedAt : ℤ
deriving DecidableEq, Repr

structure ContentStoreLimits where
  ttlMs : ℤ
  maxBytes : ℤ
  maxEntries : ℤ
  maxRecipientBytes : ℤ
  maxRecipientEntries : ℤ
deriving DecidableEq, Repr

/-- The defaults of the source. -/
def defaultLimits : ContentStoreLimits where
  ttlMs := 30 * 24 * 60 * 60 * 1000
  maxBytes := 256 * 1024 * 1024
  maxEntries := 10000
  maxRecipientBytes := 16 * 1024 * 1024
  maxRecipientEntries := 625

inductive StoreCall where
  | deposit (entry : ContentStoreEntry)
  | hasContent (recipient : String)
  | listContentHashesFor (recipient : String)
  | pull (recipient : String)
  | pullOne (recipient contentHash : String)
  | confirmPickup (recipient contentHash : String)
  | sweepExpired
deriving DecidableEq, Repr

inductive StoreResult where
  | done
  | error (reason : String)
  | has (answer : Bool)
  | hashes (contentHashes : List String)
  | entries (parked : List ContentStoreEntry)
  | entry (parked : Option ContentStoreEntry)
  | count (deleted : ℤ)
deriving DecidableEq, Repr

/-- What a store holds in all, and in the bucket of one recipient. -/
structure Usage where
  totalBytes : ℤ
  totalEntries : ℤ
  bucketBytes : ℤ
  bucketEntries : ℤ
deriving DecidableEq, Repr

def Usage.without (u : Usage) (bytes : ℕ) : Usage where
  totalBytes := u.totalBytes - bytes
  totalEntries := u.totalEntries - 1
  bucketBytes := u.bucketBytes - bytes
  bucketEntries := u.bucketEntries - 1

/-! ### The store in memory -/

structure InMemoryContentStore where
  byRecipient : OrdMap String (OrdMap String ContentStoreEntry) := OrdMap.empty
  totalBytes : ℤ := 0
  totalEntries : ℤ := 0

namespace InMemoryContentStore

variable (lim : ContentStoreLimits) (now : ℤ)

/-- `#isExpired`. -/
def isExpired (e : ContentStoreEntry) : Bool := decide (lim.ttlMs ≤ now - e.depositedAt)

def bucketBytes (bucket : OrdMap String ContentStoreEntry) : ℤ :=
  (bucket.entries.map fun e => (e.2.ciphertext.length : ℤ)).sum

def usage (s : InMemoryContentStore) (bucket : OrdMap String ContentStoreEntry) : Usage where
  totalBytes := s.totalBytes
  totalEntries := s.totalEntries
  bucketBytes := bucketBytes bucket
  bucketEntries := bucket.entries.length

/-- A deposit that cannot fit, however much of the bucket goes. -/
def refused (u : Usage) (incomingBytes : ℕ) : Bool :=
  decide (lim.maxBytes - (u.totalBytes - u.bucketBytes) < incomingBytes) ||
    decide (lim.maxRecipientBytes < incomingBytes) ||
    decide (lim.maxEntries - (u.totalEntries - u.bucketEntries) < 1) ||
    decide (lim.maxRecipientEntries < 1)

def refusal (incomingBytes : ℕ) : String :=
  if lim.maxRecipientBytes < incomingBytes ∨ lim.maxRecipientEntries < 1 then
    "content_store_recipient_full"
  else "content_store_full"

def tooFull (u : Usage) (incomingBytes : ℕ) : Bool :=
  decide (lim.maxEntries < u.totalEntries + 1) ||
    decide (lim.maxBytes < u.totalBytes + incomingBytes) ||
    decide (lim.maxRecipientBytes < u.bucketBytes + incomingBytes) ||
    decide (lim.maxRecipientEntries < u.bucketEntries + 1)

/-- The oldest entries go until there is room; the list is what is left of the bucket. -/
def evict (incomingBytes : ℕ) : List (String × ContentStoreEntry) → OrdMap String ContentStoreEntry →
    Usage → OrdMap String ContentStoreEntry × Usage
  | [], bucket, u => (bucket, u)
  | oldest :: rest, bucket, u =>
    if tooFull lim u incomingBytes then
      evict incomingBytes rest (bucket.erase oldest.1) (u.without oldest.2.ciphertext.length)
    else (bucket, u)

/-- The deposit of an entry whose key is free. -/
def park (s : InMemoryContentStore) (rKey cKey : String) (bucket : OrdMap String ContentStoreEntry)
    (entry : ContentStoreEntry) : InMemoryContentStore × StoreResult :=
  let incomingBytes := entry.ciphertext.length
  let u := usage s bucket
  if refused lim u incomingBytes then
    ({ s with byRecipient :=
        if bucket.entries.isEmpty then s.byRecipient.erase rKey else s.byRecipient.set rKey bucket },
      .error (refusal lim incomingBytes))
  else
    match evict lim incomingBytes bucket.entries bucket u with
    | (bucket', u') =>
      ({ byRecipient := s.byRecipient.set rKey (bucket'.set cKey entry)
         totalBytes := u'.totalBytes + incomingBytes
         totalEntries := u'.totalEntries + 1 }, .done)

def deposit (s : InMemoryContentStore) (entry : ContentStoreEntry) :
    InMemoryContentStore × StoreResult :=
  let rKey := entry.recipientPubkey.toHex
  let cKey := entry.contentHash.toHex
  let bucket := (s.byRecipient.get rKey).getD OrdMap.empty
  match bucket.get cKey with
  | none => park lim s rKey cKey bucket entry
  | some existing =>
    if isExpired lim now existing then
      park lim
        { s with
          totalBytes := s.totalBytes - existing.ciphertext.length
          totalEntries := s.totalEntries - 1 }
        rKey cKey (bucket.erase cKey) entry
    else (s, .done)

def replaceBucket (s : InMemoryContentStore) (rKey : String)
    (bucket : OrdMap String ContentStoreEntry) : OrdMap String (OrdMap String ContentStoreEntry) :=
  if bucket.entries.isEmpty then s.byRecipient.erase rKey else s.byRecipient.set rKey bucket

/-- `#deleteExpiredFromBucket`. -/
def deleteExpiredFromBucket (s : InMemoryContentStore) (rKey : String) : InMemoryContentStore :=
  match s.byRecipient.get rKey with
  | none => s
  | some bucket =>
    let expired := bucket.entries.filter fun e => isExpired lim now e.2
    { byRecipient := s.replaceBucket rKey (bucket.filter fun _ e => !isExpired lim now e)
      totalBytes := s.totalBytes - (expired.map fun e => (e.2.ciphertext.length : ℤ)).sum
      totalEntries := s.totalEntries - expired.length }

def bucketOf (s : InMemoryContentStore) (rKey : String) : List (String × ContentStoreEntry) :=
  ((s.byRecipient.get rKey).getD OrdMap.empty).entries

/-- The store without one entry. -/
def removeEntry (s : InMemoryContentStore) (rKey cKey : String) : InMemoryContentStore :=
  match s.byRecipient.get rKey with
  | none => s
  | some bucket =>
    match bucket.get cKey with
    | none => s
    | some e =>
      { byRecipient := s.replaceBucket rKey (bucket.erase cKey)
        totalBytes := s.totalBytes - e.ciphertext.length
        totalEntries := s.totalEntries - 1 }

def pullOne (s : InMemoryContentStore) (rKey cKey : String) : InMemoryContentStore × StoreResult :=
  match ((s.byRecipient.get rKey).getD OrdMap.empty).get cKey with
  | none => (s, .entry none)
  | some e => if isExpired lim now e then (s.removeEntry rKey cKey, .entry none) else (s, .entry (some e))

/-- `sweepExpired`: the buckets in turn; a bucket counts what it lost. -/
def sweepExpired : List String → InMemoryContentStore × ℤ → InMemoryContentStore × ℤ
  | [], acc => acc
  | rKey :: rest, (s, deleted) =>
    let s' := deleteExpiredFromBucket lim now s rKey
    sweepExpired rest (s', deleted + ((s.bucketOf rKey).length - (s'.bucketOf rKey).length))

def call (s : InMemoryContentStore) : StoreCall → InMemoryContentStore × StoreResult
  | .deposit entry => deposit lim now s entry
  | .hasContent r =>
    let s' := deleteExpiredFromBucket lim now s r
    (s', .has (!(s'.bucketOf r).isEmpty))
  | .listContentHashesFor r =>
    let s' := deleteExpiredFromBucket lim now s r
    (s', .hashes ((s'.bucketOf r).map Prod.fst))
  | .pull r =>
    let s' := deleteExpiredFromBucket lim now s r
    (s', .entries ((s'.bucketOf r).map Prod.snd))
  | .pullOne r c => pullOne lim now s r c
  | .confirmPickup r c => (s.removeEntry r c, .done)
  | .sweepExpired =>
    match sweepExpired lim now s.byRecipient.keys (s, 0) with
    | (s', deleted) => (s', .count deleted)

end InMemoryContentStore

end Cello.Interfaces
