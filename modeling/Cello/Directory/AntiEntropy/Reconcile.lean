import Cello.Directory.AntiEntropy.TierB

/-!
# What a node must pull

`packages/directory/src/set-reconciliation.ts`, `version-reconcile.ts` and the digests of
`ae-round.ts`.  A table is summarised by a digest and compared in one step; only when the
digests differ is the detail fetched and the difference taken.

The texts under the digests are definitions of their own.  Equal digests stand for equal
contents as soon as those texts do not collide (`mem_iff_of_tableDigest`,
`get_eq_of_tierBTableDigest`); nothing is asked of the hash elsewhere.
-/

namespace Cello.Directory.AntiEntropy

open Lib

def bucketCount : ℕ := 256

/-- `RECORD_HASH_RE`: sixty-four lower-case hex digits. -/
def isRecordHash (h : String) : Bool := decide (h.length = 64) && h.toList.all Text.isHexDigit

/-- The bucket of a record hash: the value of its first two digits. -/
def bucketIndex (h : String) : ℕ :=
  (h.toList.take 2).foldl (fun n c => 16 * n + Text.hexValue c) 0

def malformedHash (h : String) : AeError :=
  .store ("malformed record hash: " ++ Json.stringify (.str h) ++ " (expected 64 lowercase hex)")

/-- A set of record hashes in order of first arrival, or the first hash that is malformed. -/
def validatedSet (hashes : List String) : Except AeError (List String) :=
  match hashes.find? fun h => !isRecordHash h with
  | some h => .error (malformedHash h)
  | none => .ok hashes.eraseDups

/-- The text under the digest of bucket `i` of a set: its hashes, sorted and joined. -/
def bucketText (set : List String) (i : ℕ) : String :=
  Text.concat (Text.sortBy id (set.filter fun h => bucketIndex h = i))

/-- The digests of all buckets of a set. -/
def bucketVector (sha : Sha256) (set : List String) : List String :=
  (List.range bucketCount).map fun i => sha.hex (bucketText set i)

def bucketDigests (sha : Sha256) (hashes : List String) : Except AeError (List String) :=
  (validatedSet hashes).map (bucketVector sha)

def tableDigest (sha : Sha256) (buckets : List String) : String := sha.hex (Text.concat buckets)

def computeTableDigest (sha : Sha256) (hashes : List String) : Except AeError String :=
  (bucketDigests sha hashes).map (tableDigest sha)

/-- The hashes the peer holds and this node lacks. -/
def missingLocally (mine peer : List String) : List String :=
  (peer.filter fun h => h ∉ mine).eraseDups

/-- The keys whose version the peer holds and this node lacks or disagrees with. -/
def versionKeysToPull (mine peer : OrdMap String String) : List String :=
  (peer.entries.filter fun e => mine.get e.1 ≠ some e.2).map Prod.fst

def versionsText (versions : OrdMap String String) : String :=
  Json.stringify (.arr ((Text.sortBy Prod.fst versions.entries).map fun e =>
    .arr [.str e.1, .str e.2]))

def tierBTableDigest (sha : Sha256) (versions : OrdMap String String) : String :=
  sha.hex (versionsText versions)

section

variable {sha : Sha256}

/-! ### Record hashes -/

theorem isRecordHash_hex (sha : HexSha256) (s : String) : isRecordHash (sha.hex s) = true := by
  simp only [isRecordHash, sha.length_hex, decide_true, Bool.true_and, List.all_eq_true]
  exact sha.hex_digits s

theorem bucketIndex_lt {h : String} (hh : isRecordHash h = true) : bucketIndex h < bucketCount := by
  simp only [isRecordHash, Bool.and_eq_true, decide_eq_true_eq, List.all_eq_true] at hh
  obtain ⟨hlen, hdig⟩ := hh
  rw [← String.length_toList] at hlen
  unfold bucketIndex
  match hl : h.toList with
  | [] => rw [hl] at hlen; cases hlen
  | [x] => rw [hl] at hlen; cases hlen
  | x :: y :: r =>
    rw [hl] at hdig
    have hx := Text.hexValue_lt (hdig x (by simp))
    have hy := Text.hexValue_lt (hdig y (by simp))
    simp only [List.take, List.foldl, bucketCount]
    omega

theorem validatedSet_of_valid {hashes : List String} (h : ∀ x ∈ hashes, isRecordHash x = true) :
    validatedSet hashes = .ok hashes.eraseDups := by
  unfold validatedSet
  have hnone : (hashes.find? fun x => !isRecordHash x) = none := by
    rw [List.find?_eq_none]
    intro x hx
    simp [h x hx]
  rw [hnone]

theorem computeTableDigest_of_valid {hashes : List String}
    (h : ∀ x ∈ hashes, isRecordHash x = true) :
    computeTableDigest sha hashes =
      .ok (tableDigest sha (bucketVector sha hashes.eraseDups)) := by
  rw [computeTableDigest, bucketDigests, validatedSet_of_valid h]
  rfl

/-! ### Equal digests, equal contents -/

theorem mem_bucket {set : List String} {i : ℕ} {x : String} :
    x ∈ Text.sortBy id (set.filter fun h => bucketIndex h = i) ↔ x ∈ set ∧ bucketIndex x = i := by
  simp [List.mem_filter]

def digestTexts (sha : Sha256) (set : List String) : List String :=
  Text.concat (bucketVector sha set) :: (List.range bucketCount).map (bucketText set)

theorem bucketText_mem_digestTexts {set : List String} {i : ℕ} (hi : i < bucketCount) :
    bucketText set i ∈ digestTexts sha set :=
  List.mem_cons_of_mem _ (List.mem_map.2 ⟨i, List.mem_range.2 hi, rfl⟩)

theorem bucket_eq_of_text {s t : List String} (hs : ∀ x ∈ s, isRecordHash x = true)
    (ht : ∀ x ∈ t, isRecordHash x = true) {i : ℕ} (h : bucketText s i = bucketText t i) :
    Text.sortBy id (s.filter fun h => bucketIndex h = i) =
      Text.sortBy id (t.filter fun h => bucketIndex h = i) := by
  refine Text.concat_inj (w := 64) (by decide) ?_ ?_ h
  · intro y hy
    have := hs y (mem_bucket.1 hy).1
    simp only [isRecordHash, Bool.and_eq_true, decide_eq_true_eq] at this
    exact this.1
  · intro y hy
    have := ht y (mem_bucket.1 hy).1
    simp only [isRecordHash, Bool.and_eq_true, decide_eq_true_eq] at this
    exact this.1

theorem mem_iff_of_tableDigest {s t : List String} (hs : ∀ x ∈ s, isRecordHash x = true)
    (ht : ∀ x ∈ t, isRecordHash x = true)
    (hfree : Set.InjOn sha.hex {x | x ∈ digestTexts sha s ∨ x ∈ digestTexts sha t})
    (h : tableDigest sha (bucketVector sha s) = tableDigest sha (bucketVector sha t)) (x : String) :
    x ∈ s ↔ x ∈ t := by
  have hlen : ∀ l : List String, ∀ d ∈ bucketVector sha l, d.length = 64 := by
    intro l d hd
    obtain ⟨i, -, rfl⟩ := List.mem_map.1 hd
    exact sha.length_hex _
  have hvec : bucketVector sha s = bucketVector sha t :=
    Text.concat_inj (by decide) (hlen s) (hlen t)
      (hfree (Or.inl List.mem_cons_self) (Or.inr List.mem_cons_self) h)
  -- bucket by bucket, the sorted lists of hashes agree
  have hbucket : ∀ i < bucketCount,
      Text.sortBy id (s.filter fun h => bucketIndex h = i) =
        Text.sortBy id (t.filter fun h => bucketIndex h = i) := by
    intro i hi
    have hhex : sha.hex (bucketText s i) = sha.hex (bucketText t i) :=
      List.map_inj_left.1 hvec i (List.mem_range.2 hi)
    exact bucket_eq_of_text hs ht
      (hfree (Or.inl (bucketText_mem_digestTexts hi)) (Or.inr (bucketText_mem_digestTexts hi)) hhex)
  constructor
  · intro hx
    have := mem_bucket.2 ⟨hx, rfl⟩
    rw [hbucket _ (bucketIndex_lt (hs x hx))] at this
    exact (mem_bucket.1 this).1
  · intro hx
    have := mem_bucket.2 ⟨hx, rfl⟩
    rw [← hbucket _ (bucketIndex_lt (ht x hx))] at this
    exact (mem_bucket.1 this).1

theorem mem_missingLocally {mine peer : List String} {x : String} :
    x ∈ missingLocally mine peer ↔ x ∈ peer ∧ x ∉ mine := by
  simp [missingLocally, List.mem_filter]

theorem missingLocally_eq_nil {mine peer : List String} (h : ∀ x ∈ peer, x ∈ mine) :
    missingLocally mine peer = [] := by
  rw [List.eq_nil_iff_forall_not_mem]
  intro x hx
  obtain ⟨hp, hm⟩ := mem_missingLocally.1 hx
  exact hm (h x hp)

theorem get_eq_of_tierBTableDigest {u v : OrdMap String String}
    (hfree : sha.hex (versionsText u) = sha.hex (versionsText v) →
      versionsText u = versionsText v)
    (h : tierBTableDigest sha u = tierBTableDigest sha v) (k : String) : u.get k = v.get k := by
  have htext := Json.stringify_inj (hfree h)
  have hmap := Json.arr.inj htext
  have hinj : Function.Injective fun e : String × String => Json.arr [.str e.1, .str e.2] := by
    intro e f hef
    simp only [Json.arr.injEq, List.cons.injEq, Json.str.injEq, and_true] at hef
    exact Prod.ext hef.1 hef.2
  have hsorted := List.map_injective_iff.2 hinj hmap
  ext x
  rw [OrdMap.get_eq_some_iff, OrdMap.get_eq_some_iff, ← Text.mem_sortBy Prod.fst, hsorted,
    Text.mem_sortBy]

theorem mem_versionKeysToPull {mine peer : OrdMap String String} {k : String} :
    k ∈ versionKeysToPull mine peer ↔ ∃ v, peer.get k = some v ∧ mine.get k ≠ some v := by
  simp only [versionKeysToPull, List.mem_map, List.mem_filter, decide_eq_true_eq]
  constructor
  · rintro ⟨e, ⟨he, hne⟩, rfl⟩
    exact ⟨e.2, (OrdMap.get_eq_some_iff peer _ _).2 he, hne⟩
  · rintro ⟨v, hv, hne⟩
    exact ⟨(k, v), ⟨(OrdMap.get_eq_some_iff peer _ _).1 hv, hne⟩, rfl⟩

theorem nodup_versionKeysToPull (mine peer : OrdMap String String) :
    (versionKeysToPull mine peer).Nodup :=
  peer.nodup.sublist (List.filter_sublist.map _)

theorem versionKeysToPull_eq_nil {mine peer : OrdMap String String}
    (h : ∀ k, mine.get k = peer.get k) : versionKeysToPull mine peer = [] := by
  rw [List.eq_nil_iff_forall_not_mem]
  intro k hk
  obtain ⟨v, hv, hne⟩ := mem_versionKeysToPull.1 hk
  exact hne ((h k).trans hv)

end

end Cello.Directory.AntiEntropy
