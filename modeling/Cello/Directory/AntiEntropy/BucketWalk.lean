import Cello.Directory.AntiEntropy.Channel
import Cello.Directory.AntiEntropy.Convergence
import Cello.Directory.AntiEntropy.RemoteView

/-!
# The bucket walk

`set-reconciliation.ts` on both ends of `ae-channel.ts`.  A dialer that finds the digest of a table different asks for
the digests of the peer's buckets, and then for the hashes of the buckets that differ from its own.

A bucket is skipped when the two texts under its digests are one, and then it holds nothing that the dialer lacks
(`mem_differingBuckets_of_missing`).  So the walk leaves out only hashes that a plan would not have named, in the order
in which the peer lists them (`missingLocally_served`).  One bound of the wire lies across it: a walk that would bring
more items than a frame may is refused (`walk_eq`).
-/

namespace Cello.Directory.AntiEntropy

open Lib

/-! ### Digests of sets -/

theorem nodup_eraseDups {l : List String} : l.eraseDups.Nodup := by
  induction hn : l.length using Nat.strong_induction_on generalizing l with
  | _ n ih =>
    cases l with
    | nil => exact List.nodup_nil
    | cons a rest =>
      have hlen : (rest.filter fun b => !b == a).length < n := by
        rw [← hn]
        exact Nat.lt_succ_of_le (List.length_filter_le _ _)
      rw [List.eraseDups_cons]
      refine List.nodup_cons.2 ⟨fun ha => ?_, ih _ hlen rfl⟩
      simpa using (List.mem_filter.1 (List.mem_eraseDups.1 ha)).2

section

variable {sha : Sha256}

theorem bucketVector_congr {s t : List String} (h : ∀ x, x ∈ s ↔ x ∈ t) :
    bucketVector sha s.eraseDups = bucketVector sha t.eraseDups := by
  have hperm : s.eraseDups.Perm t.eraseDups := by
    rw [List.perm_ext_iff_of_nodup nodup_eraseDups nodup_eraseDups]
    intro x
    rw [List.mem_eraseDups, List.mem_eraseDups, h x]
  refine List.map_congr_left fun i _ => ?_
  rw [bucketText, bucketText, Text.sortBy_perm (hperm.filter _)]

theorem bucketDigests_of_valid {s : List String} (h : ∀ x ∈ s, isRecordHash x = true) :
    bucketDigests sha s = .ok (bucketVector sha s.eraseDups) := by
  rw [bucketDigests, validatedSet_of_valid h]
  rfl

theorem computeTableDigest_eq_iff {s t : List String} (hs : ∀ x ∈ s, isRecordHash x = true)
    (ht : ∀ x ∈ t, isRecordHash x = true)
    (hfree : Set.InjOn sha.hex {x | x ∈ digestTexts sha s.eraseDups ∨ x ∈ digestTexts sha t.eraseDups}) :
    computeTableDigest sha s = computeTableDigest sha t ↔ ∀ x, x ∈ s ↔ x ∈ t := by
  rw [computeTableDigest_of_valid hs, computeTableDigest_of_valid ht]
  constructor
  · intro h x
    have hmem := mem_iff_of_tableDigest (fun y hy => hs y (List.mem_eraseDups.1 hy))
      (fun y hy => ht y (List.mem_eraseDups.1 hy)) hfree (Except.ok.inj h) x
    rwa [List.mem_eraseDups, List.mem_eraseDups] at hmem
  · intro h
    rw [bucketVector_congr h]

/-! ### The differing buckets -/

theorem mem_differingBuckets {s t : List String} {i : ℕ} :
    i ∈ differingBuckets (bucketVector sha s) (bucketVector sha t) ↔
      i < bucketCount ∧ sha.hex (bucketText s i) ≠ sha.hex (bucketText t i) := by
  rw [differingBuckets, List.mem_filter, List.mem_range]
  refine and_congr_right fun hi => ?_
  simp [bucketVector, List.getElem?_range hi]

theorem mem_differingBuckets_of_missing {s t : List String} (hs : ∀ x ∈ s, isRecordHash x = true)
    (ht : ∀ x ∈ t, isRecordHash x = true)
    (hfree : Set.InjOn sha.hex {x | x ∈ digestTexts sha s ∨ x ∈ digestTexts sha t}) {x : String} (hx : x ∈ t)
    (hmissing : x ∉ s) : bucketIndex x ∈ differingBuckets (bucketVector sha s) (bucketVector sha t) := by
  have hi := bucketIndex_lt (ht x hx)
  refine mem_differingBuckets.2 ⟨hi, fun he => ?_⟩
  have htext := hfree (.inl (bucketText_mem_digestTexts hi)) (.inr (bucketText_mem_digestTexts hi)) he
  have hbucket := mem_bucket.2 ⟨hx, rfl⟩
  rw [← bucket_eq_of_text hs ht htext] at hbucket
  exact hmissing (mem_bucket.1 hbucket).1

/-- What the peer lists of the buckets that differ. -/
def servedHashes (sha : Sha256) (mine theirs : List String) : List String :=
  theirs.filter fun h => decide (bucketIndex h ∈
    differingBuckets (bucketVector sha mine.eraseDups) (bucketVector sha theirs.eraseDups))

theorem missingLocally_served {mine theirs : List String} (hmine : ∀ x ∈ mine, isRecordHash x = true)
    (htheirs : ∀ x ∈ theirs, isRecordHash x = true)
    (hfree : Set.InjOn sha.hex {x | x ∈ digestTexts sha mine.eraseDups ∨ x ∈ digestTexts sha theirs.eraseDups}) :
    missingLocally mine (servedHashes sha mine theirs) = missingLocally mine theirs := by
  have hfilter : ((servedHashes sha mine theirs).filter fun h => decide (h ∉ mine)) =
      theirs.filter fun h => decide (h ∉ mine) := by
    rw [servedHashes, List.filter_filter]
    refine List.filter_congr fun x hx => ?_
    by_cases hxm : x ∈ mine
    · simp [hxm]
    · have hdiffers := mem_differingBuckets_of_missing (s := mine.eraseDups) (t := theirs.eraseDups)
        (fun y hy => hmine y (List.mem_eraseDups.1 hy)) (fun y hy => htheirs y (List.mem_eraseDups.1 hy)) hfree
        (List.mem_eraseDups.2 hx) fun h => hxm (List.mem_eraseDups.1 h)
      simp [hxm, hdiffers]
  rw [missingLocally, missingLocally, hfilter]

end

/-! ### The walk over the wire -/

/-- The two requests of a walk. -/
def bucketsReq (table : String) : JsAny := .obj [("type", .str "ae_buckets_req"), ("table", .str table)]

def bucketHashesReq (table : String) (buckets : List ℕ) : JsAny :=
  .obj [("type", .str "ae_bucket_hashes_req"), ("table", .str table),
    ("buckets", .arr (buckets.map fun i : ℕ => .num (.fin (i : ℚ))))]

def Sent.walkFrame {α β : Type} : Sent α β → Option JsAny
  | .buckets digests => some (.obj [("type", .str "ae_buckets"), ("digests", .arr (digests.map .str))])
  | .bucketHashes hashes => some (.obj [("type", .str "ae_bucket_hashes"), ("hashes", .arr (hashes.map .str))])
  | _ => none

section

variable {σ α β : Type} (sha : Sha256) (L : AeStoreView σ α β) (texts : List JsAny → List String) (store : σ)

/-- What comes back on a request of a walk from a node that serves its store; an end that cannot answer closes. -/
def served (request : JsAny) : Incoming :=
  match answer sha L texts store request with
  | .ok (some response) =>
    match response.walkFrame with
    | some frame => .frame frame
    | none => .closed
  | _ => .closed

/-- The peer answers the walk of this table from its store. -/
structure Serves (peer : Peer) (table : String) : Prop where
  buckets : peer.buckets table = .ok (served sha L texts store (bucketsReq table))
  bucketHashes : ∀ want, peer.bucketHashes table want = .ok (served sha L texts store (bucketHashesReq table want))

variable {sha L texts store}

theorem str_table {frame : JsAny} {table : String} (h : frame.prop "table" = .str table) (hne : table ≠ "") :
    str frame "table" = .ok table := by
  rw [str, h]
  exact if_neg hne

theorem served_bucketsReq {table : String} {theirs : List String} (hne : table ≠ "")
    (hread : L.tierARecordHashes store table = .ok theirs) (htheirs : ∀ x ∈ theirs, isRecordHash x = true) :
    served sha L texts store (bucketsReq table) =
      .frame (.obj [("type", .str "ae_buckets"),
        ("digests", .arr ((bucketVector sha theirs.eraseDups).map .str))]) := by
  have hanswer : answer sha L texts store (bucketsReq table) =
      .ok (some (.buckets (bucketVector sha theirs.eraseDups))) := by
    change (str (bucketsReq table) "table" >>= fun table => L.tierARecordHashes store table >>= fun hashes =>
      bucketDigests sha hashes >>= fun digests => Except.ok (some (Sent.buckets digests))) = _
    rw [str_table (show (bucketsReq table).prop "table" = .str table from rfl) hne]
    change (L.tierARecordHashes store table >>= _) = _
    rw [hread]
    change (bucketDigests sha theirs >>= _) = _
    rw [bucketDigests_of_valid htheirs]
    rfl
  rw [served, hanswer]
  rfl

theorem wantedBuckets_req {table : String} {want : List ℕ} (hlen : want.length ≤ maxWireItems) :
    wantedBuckets (bucketHashesReq table want) = .ok (want.map fun i : ℕ => (i : ℚ)) := by
  have hprop : (bucketHashesReq table want).prop "buckets" =
      .arr (want.map fun i : ℕ => .num (.fin (i : ℚ))) := rfl
  unfold wantedBuckets
  rw [hprop]
  dsimp only
  rw [if_pos (by simp [JsAny.typeOf]), bounded, if_neg (by rw [List.length_map]; omega)]
  simp [Except.map, List.filterMap_map]

theorem served_bucketHashesReq {table : String} {theirs : List String} {want : List ℕ} (hne : table ≠ "")
    (hread : L.tierARecordHashes store table = .ok theirs) (hlen : want.length ≤ maxWireItems) :
    served sha L texts store (bucketHashesReq table want) =
      .frame (.obj [("type", .str "ae_bucket_hashes"),
        ("hashes", .arr ((theirs.filter fun h => decide (bucketIndex h ∈ want)).map .str))]) := by
  have hanswer : answer sha L texts store (bucketHashesReq table want) =
      .ok (some (.bucketHashes (theirs.filter fun h => decide (bucketIndex h ∈ want)))) := by
    change (str (bucketHashesReq table want) "table" >>= fun table =>
      wantedBuckets (bucketHashesReq table want) >>= fun wanted => L.tierARecordHashes store table >>= fun all =>
        Except.ok (some (Sent.bucketHashes (all.filter fun h => decide ((bucketIndex h : ℚ) ∈ wanted))))) = _
    rw [str_table (show (bucketHashesReq table want).prop "table" = .str table from rfl) hne]
    change (wantedBuckets (bucketHashesReq table want) >>= _) = _
    rw [wantedBuckets_req hlen]
    change (L.tierARecordHashes store table >>= _) = _
    rw [hread]
    refine congrArg (fun l => Except.ok (some (Sent.bucketHashes l))) (List.filter_congr fun x _ => ?_)
    simp
  rw [served, hanswer]
  rfl

theorem stringItems_strings (l : List String) (what : String) : stringItems (.arr (l.map .str)) what = .ok l := by
  have hmap : (l.map JsAny.str).mapM stringValue = some l := by
    induction l with
    | nil => rfl
    | cons s rest ih => simp [List.mapM_cons, ih, stringValue]
  rw [stringItems, hmap]

theorem length_differingBuckets (a b : List String) : (differingBuckets a b).length ≤ maxWireItems := by
  refine (List.length_filter_le _ _).trans ?_
  rw [List.length_range]
  decide

/-- A dialer that holds `mine` walks the buckets of a peer that holds `theirs`, and texts of different sets have
different digests. -/
structure Walk (sha : Sha256) (L : AeStoreView σ α β) (texts : List JsAny → List String) (store : σ)
    (v : RemoteStoreView) (basis : LocalRoundState) (table : String) (mine theirs : List String) : Prop where
  named : table ≠ ""
  ownHashes : ∀ x ∈ mine, isRecordHash x = true
  peerHashes : ∀ x ∈ theirs, isRecordHash x = true
  collisionFree : Set.InjOn sha.hex {x | x ∈ digestTexts sha mine.eraseDups ∨ x ∈ digestTexts sha theirs.eraseDups}
  ownRead : v.localHashes table = .ok mine
  peerRead : L.tierARecordHashes store table = .ok theirs
  serves : Serves sha L texts store v.peer table
  readable : table ∉ basis.unreadableA
  planned : basis.tierA.get table = some mine

variable {v : RemoteStoreView} {basis : LocalRoundState} {table : String} {mine theirs : List String}

section

variable (h : Walk sha L texts store v basis table mine theirs)

include h

theorem Walk.peerBuckets :
    v.peerBuckets table = .ok (bucketVector sha theirs.eraseDups) := by
  have hlen : ((bucketVector sha theirs.eraseDups).map JsAny.str).length = 256 := by
    rw [List.length_map, bucketVector, List.length_map, List.length_range]
    rfl
  have hbound : boundedAny (.arr ((bucketVector sha theirs.eraseDups).map .str)) "ae_buckets digests" =
      .ok (.arr ((bucketVector sha theirs.eraseDups).map .str)) := by
    refine if_neg ?_
    rw [lengthOf, hlen]
    decide
  unfold RemoteStoreView.peerBuckets
  rw [h.serves.buckets, served_bucketsReq h.named h.peerRead h.peerHashes]
  generalize bucketVector sha theirs.eraseDups = digests at hbound ⊢
  change (boundedAny (.arr (digests.map .str)) "ae_buckets digests" >>= fun digests =>
    stringItems digests "ae_buckets digests") = _
  rw [hbound]
  exact stringItems_strings _ _

theorem Walk.hashes : v.tierARecordHashes sha table =
    bounded (servedHashes sha mine theirs) ("ae_bucket_hashes[" ++ table ++ "]") := by
  unfold RemoteStoreView.tierARecordHashes
  rw [h.peerBuckets]
  change (v.localHashes table >>= fun own =>
    v.hashesOfBuckets sha table (bucketVector sha theirs.eraseDups) own) = _
  rw [h.ownRead]
  change v.hashesOfBuckets sha table (bucketVector sha theirs.eraseDups) mine = _
  unfold RemoteStoreView.hashesOfBuckets
  rw [bucketDigests_of_valid h.ownHashes]
  generalize hwant : differingBuckets (bucketVector sha mine.eraseDups) (bucketVector sha theirs.eraseDups) = want
  have hlen : want.length ≤ maxWireItems := hwant ▸ length_differingBuckets _ _
  have hserved : servedHashes sha mine theirs = theirs.filter fun x => decide (bucketIndex x ∈ want) := by
    rw [servedHashes, hwant]
  rw [hserved]
  change (if (differingBuckets (bucketVector sha mine.eraseDups) (bucketVector sha theirs.eraseDups)).length = 0
    then _ else _) = _
  rw [hwant]
  split_ifs with hnone
  · obtain rfl := List.length_eq_zero_iff.1 hnone
    simp [bounded]
  · rw [h.serves.bucketHashes, served_bucketHashesReq h.named h.peerRead hlen]
    change (stringItems (.arr _) "ae_bucket_hashes hashes" >>= _) = _
    rw [stringItems_strings]
    rfl

theorem Walk.served_eq_nil (he : computeTableDigest sha mine = computeTableDigest sha theirs) :
    servedHashes sha mine theirs = [] := by
  have hset := (computeTableDigest_eq_iff h.ownHashes h.peerHashes h.collisionFree).1 he
  refine List.filter_eq_nil_iff.2 fun x _ => ?_
  simp [mem_differingBuckets, bucketVector_congr hset]

theorem Walk.plan {d : String} (hd : computeTableDigest sha theirs = .ok d) :
    planTableA sha basis table ⟨d, v.tierARecordHashes sha table⟩ =
      (bounded (servedHashes sha mine theirs) ("ae_bucket_hashes[" ++ table ++ "]")).map fun _ =>
        missingLocally mine theirs := by
  obtain ⟨own, hown⟩ : ∃ own, computeTableDigest sha mine = .ok own :=
    ⟨_, computeTableDigest_of_valid h.ownHashes⟩
  have hmissing := missingLocally_served h.ownHashes h.peerHashes h.collisionFree
  unfold bounded
  by_cases hlen : maxWireItems < (servedHashes sha mine theirs).length
  · have hne : d ≠ own := by
      rintro rfl
      rw [h.served_eq_nil (hown.trans hd.symm)] at hlen
      exact absurd hlen (by decide)
    rw [planTableA, if_neg h.readable, h.planned, Option.getD_some]
    dsimp only
    rw [hown, h.hashes, bounded, if_pos hlen]
    change (if d = own then _ else _) = _
    rw [if_neg hne]
    rfl
  · rw [planTableA_of_ok h.readable h.planned hown (h.hashes.trans (if_neg hlen)), if_neg hlen, hmissing]
    dsimp only [Except.map]
    split_ifs with he
    · have hset := (computeTableDigest_eq_iff h.ownHashes h.peerHashes h.collisionFree).1
        (hown.trans (he ▸ hd.symm))
      rw [missingLocally_eq_nil fun x hx => (hset x).2 hx]
    · rfl

theorem Walk.plainPlan {d : String} (hd : computeTableDigest sha theirs = .ok d) :
    planTableA sha basis table ⟨d, L.tierARecordHashes store table⟩ = .ok (missingLocally mine theirs) := by
  obtain ⟨own, hown⟩ : ∃ own, computeTableDigest sha mine = .ok own :=
    ⟨_, computeTableDigest_of_valid h.ownHashes⟩
  rw [planTableA_of_ok h.readable h.planned hown h.peerRead]
  split_ifs with he
  · have hset := (computeTableDigest_eq_iff h.ownHashes h.peerHashes h.collisionFree).1
      (hown.trans (he ▸ hd.symm))
    rw [missingLocally_eq_nil fun x hx => (hset x).2 hx]
  · rfl

end

/-- **The bucket walk loses nothing.**  Digests are of sets and tell them apart, the differing buckets hold every hash
that is missing, and the plan is that of a plain exchange unless the wire refuses the frame. -/
theorem bucket_walk_exact (h : Walk sha L texts store v basis table mine theirs) :
    (∀ own, (∀ x, x ∈ own ↔ x ∈ mine) → bucketDigests sha own = bucketDigests sha mine ∧
      computeTableDigest sha own = computeTableDigest sha mine) ∧
    (computeTableDigest sha mine = computeTableDigest sha theirs ↔ ∀ x, x ∈ mine ↔ x ∈ theirs) ∧
    (∀ x, (∃ i ∈ differingBuckets (bucketVector sha mine.eraseDups) (bucketVector sha theirs.eraseDups),
      x ∈ missingLocally mine (theirs.filter fun y => decide (bucketIndex y = i))) ↔ x ∈ theirs ∧ x ∉ mine) ∧
    ∀ d, computeTableDigest sha theirs = .ok d →
      ((servedHashes sha mine theirs).length ≤ maxWireItems →
        planTableA sha basis table ⟨d, v.tierARecordHashes sha table⟩ =
          planTableA sha basis table ⟨d, L.tierARecordHashes store table⟩) ∧
      (maxWireItems < (servedHashes sha mine theirs).length →
        ∃ e, planTableA sha basis table ⟨d, v.tierARecordHashes sha table⟩ = .error e ∧ e.isWireError = true) := by
  refine ⟨fun own hown => ?_, computeTableDigest_eq_iff h.ownHashes h.peerHashes h.collisionFree, fun x => ?_,
    fun d hd => ⟨fun hlen => ?_, fun hlen => ?_⟩⟩
  · have hvalid : ∀ x ∈ own, isRecordHash x = true := fun x hx => h.ownHashes x ((hown x).1 hx)
    rw [computeTableDigest, computeTableDigest, bucketDigests_of_valid hvalid, bucketDigests_of_valid h.ownHashes,
      bucketVector_congr hown]
    exact ⟨rfl, rfl⟩
  · rw [← mem_missingLocally, ← missingLocally_served h.ownHashes h.peerHashes h.collisionFree]
    simp only [mem_missingLocally, servedHashes, List.mem_filter, decide_eq_true_eq]
    constructor
    · rintro ⟨i, hi, ⟨hx, rfl⟩, hmissing⟩
      exact ⟨⟨hx, hi⟩, hmissing⟩
    · rintro ⟨⟨hx, hi⟩, hmissing⟩
      exact ⟨_, hi, ⟨hx, rfl⟩, hmissing⟩
  · rw [h.plan hd, h.plainPlan hd, bounded, if_neg (not_lt.2 hlen)]
    rfl
  · rw [h.plan hd, bounded, if_pos hlen]
    exact ⟨_, rfl, rfl⟩

end

/-! ### Two buckets, and a peer with one hash that is listed many times -/

namespace BucketWalk.Sample

open Convergence.Sample (clearedHash revocationHash revocationBucket emptyDigest)

/-- A store of which only the hashes are looked at. -/
def listing (sha : Sha256) (theirs : List String) : AeStoreView Unit JsAny JsAny where
  tierATables _ := ["agents"]
  tierBTables _ := []
  tierATableDigest _ _ := computeTableDigest sha theirs
  tierARecordHashes _ _ := .ok theirs
  tierBTableDigest _ _ := .ok (tierBTableDigest sha OrdMap.empty)
  tierBVersions _ _ := .ok OrdMap.empty
  serveTierA _ _ _ := .ok []
  serveTierB _ _ _ := .ok []
  applyTierA s _ _ := (s, .ok 0)
  applyTierB s _ _ := (s, .ok ⟨0, 0, [], none⟩)

/-- A dialer that holds `mine`, on a wire to a peer that holds `theirs`. -/
def dialer (sha : Sha256) (mine theirs : List String) : RemoteStoreView where
  timeoutMs := 30000
  peer :=
    { state := ⟨OrdMap.empty, OrdMap.empty⟩
      buckets := fun table => .ok (served sha (listing sha theirs) (fun _ => []) () (bucketsReq table))
      bucketHashes := fun table want =>
        .ok (served sha (listing sha theirs) (fun _ => []) () (bucketHashesReq table want))
      versions := fun _ => .ok .closed
      recordsA := fun _ _ => .ok .closed
      recordsB := fun _ _ => .ok .closed }
  localHashes _ := .ok mine

def basis (mine : List String) : LocalRoundState :=
  ⟨⟨[("agents", mine)], List.nodup_singleton _⟩, OrdMap.empty, [], []⟩

/-- A record of the dialer alone, in the bucket of one that it lacks. -/
def ownHash : BitVec 256 :=
  0xe83b6c2e35affc979e397e8154bd8d584d30bbc2a435b3fd01a33fe1f1d48e32

def ownBucket : BitVec 256 :=
  0x6fdef59b43e3a96221f3a4850943a04ce1e300f647204576c662b1a41dd0667b

def clearedBucket : BitVec 256 :=
  0x2ed7c29011a4e3d8bc5a193f36bfece975683b6c4507abc17fc57756640f52d1

def mine : List String := [hexText clearedHash, hexText ownHash]

/-- What the peer lists, one hash twice. -/
def theirs : List String := [hexText revocationHash, hexText clearedHash, hexText revocationHash]

/-- The text under the table digest of two hashes in two buckets. -/
def pairBuckets (x y : String) (dx dy : BitVec 256) : String :=
  Text.concat ((List.range bucketCount).map fun i =>
    hexText (if bucketIndex x = i then dx else if bucketIndex y = i then dy else emptyDigest))

def table : List (String × BitVec 256) :=
  [("", emptyDigest),
   (hexText clearedHash, clearedBucket),
   (hexText ownHash, ownBucket),
   (hexText revocationHash, revocationBucket),
   (pairBuckets (hexText clearedHash) (hexText ownHash) clearedBucket ownBucket,
     0x8d91fbce1a21c98d21f9f3528e5a9bc1e1eeb89e5c483030eb991d0986049e57),
   (pairBuckets (hexText revocationHash) (hexText clearedHash) revocationBucket clearedBucket,
     0x0c640fd957bbbe27a9ae6db84eee61a84d0ceabc074b5f1eacf849b3ca6d5605)]

def sha : HexSha256 := .ofTable table emptyDigest

theorem hex_hashes : sha.hex (hexText clearedHash) = hexText clearedBucket ∧
    sha.hex (hexText ownHash) = hexText ownBucket ∧
    sha.hex (hexText revocationHash) = hexText revocationBucket := by
  refine ⟨congrArg hexText ?_, congrArg hexText ?_, congrArg hexText ?_⟩ <;> decide

theorem bucketText_pair {x y : String} (hne : bucketIndex x ≠ bucketIndex y) (i : ℕ) :
    bucketText [x, y] i = if bucketIndex x = i then x else if bucketIndex y = i then y else "" := by
  unfold bucketText
  by_cases hx : bucketIndex x = i
  · have hy : bucketIndex y ≠ i := hx ▸ hne.symm
    simp [hx, hy, Text.concat, Text.sortBy]
  · by_cases hy : bucketIndex y = i
    · simp [hx, hy, Text.concat, Text.sortBy]
    · simp [hx, hy, Text.concat, Text.sortBy]

theorem digestTexts_pair {x y t : String} {dx dy : BitVec 256} (hne : bucketIndex x ≠ bucketIndex y)
    (hx : sha.hex x = hexText dx) (hy : sha.hex y = hexText dy)
    (ht : t ∈ digestTexts sha.toSha256 [x, y]) :
    t = pairBuckets x y dx dy ∨ t = "" ∨ t = x ∨ t = y := by
  rcases List.mem_cons.1 ht with rfl | ht
  · left
    refine congrArg Text.concat (List.map_congr_left fun i _ => ?_)
    rw [bucketText_pair hne]
    split_ifs
    · exact hx
    · exact hy
    · rfl
  · obtain ⟨i, -, rfl⟩ := List.mem_map.1 ht
    rw [bucketText_pair hne]
    split_ifs <;> simp

theorem isRecordHash_hexText (d : BitVec 256) : isRecordHash (hexText d) = true :=
  isRecordHash_hex (.ofTable [] d) ""

theorem eraseDups_theirs : theirs.eraseDups = [hexText revocationHash, hexText clearedHash] := by
  decide +kernel

theorem eraseDups_mine : mine.eraseDups = [hexText clearedHash, hexText ownHash] := by
  decide +kernel

theorem walk_pair :
    Walk sha.toSha256 (listing sha.toSha256 theirs) (fun _ => []) () (dialer sha.toSha256 mine theirs) (basis mine)
      "agents" mine theirs where
  named := by decide
  ownHashes := fun x hx => by
    rcases List.mem_pair.1 hx with rfl | rfl <;> exact isRecordHash_hexText _
  peerHashes := fun x hx => by
    rcases List.mem_cons.1 hx with rfl | hx
    · exact isRecordHash_hexText _
    · rcases List.mem_pair.1 hx with rfl | rfl <;> exact isRecordHash_hexText _
  collisionFree := by
    rw [eraseDups_mine, eraseDups_theirs]
    refine (HexSha256.ofTable_injOn (by decide : (table.map Prod.snd).Nodup)).mono fun x hx => ?_
    rcases hx with hx | hx
    · rcases digestTexts_pair (by decide) hex_hashes.1 hex_hashes.2.1 hx with rfl | rfl | rfl | rfl <;>
        simp [table]
    · rcases digestTexts_pair (by decide) hex_hashes.2.2 hex_hashes.1 hx with rfl | rfl | rfl | rfl <;>
        simp [table]
  ownRead := rfl
  peerRead := rfl
  serves := ⟨rfl, fun _ => rfl⟩
  readable := List.not_mem_nil
  planned := rfl

def repeated (n : ℕ) : List String := List.replicate (n + 1) (hexText revocationHash)

theorem eraseDups_repeated (n : ℕ) : (repeated n).eraseDups = [hexText revocationHash] := by
  rw [repeated, List.replicate_succ, List.eraseDups_cons, List.filter_eq_nil_iff.2]
  · rfl
  · intro x hx
    simp [List.eq_of_mem_replicate hx]

theorem walk (n : ℕ) : Walk Convergence.Sample.sha.toSha256 (listing Convergence.Sample.sha.toSha256 (repeated n))
    (fun _ => []) () (dialer Convergence.Sample.sha.toSha256 [] (repeated n)) (basis []) "agents" [] (repeated n) where
  named := by decide
  ownHashes := fun x hx => absurd hx List.not_mem_nil
  peerHashes := fun x hx => by
    rw [List.eq_of_mem_replicate hx]
    exact isRecordHash_hexText _
  collisionFree := by
    rw [eraseDups_repeated]
    refine (HexSha256.ofTable_injOn (by decide : (Convergence.Sample.table.map Prod.snd).Nodup)).mono fun x hx => ?_
    rcases hx with hx | hx
    · rcases Convergence.Sample.digestTexts_behind hx with rfl | rfl <;> simp [Convergence.Sample.table]
    · rcases Convergence.Sample.digestTexts_ahead hx with rfl | rfl | rfl <;> simp [Convergence.Sample.table]
  ownRead := rfl
  peerRead := rfl
  serves := ⟨rfl, fun _ => rfl⟩
  readable := List.not_mem_nil
  planned := rfl

end BucketWalk.Sample

open BucketWalk.Sample in
/-- One hash is held by both, one by the dialer alone, and one by the peer alone, which lists it twice. -/
theorem bucket_walk_of_two :
    ∃ d, computeTableDigest sha.toSha256 theirs = .ok d ∧
      planTableA sha.toSha256 (basis mine) "agents"
          ⟨d, (dialer sha.toSha256 mine theirs).tierARecordHashes sha.toSha256 "agents"⟩ =
        planTableA sha.toSha256 (basis mine) "agents"
          ⟨d, (listing sha.toSha256 theirs).tierARecordHashes () "agents"⟩ ∧
      missingLocally mine theirs = [hexText Convergence.Sample.revocationHash] := by
  have hd : computeTableDigest sha.toSha256 theirs = .ok _ := computeTableDigest_of_valid walk_pair.peerHashes
  refine ⟨_, hd, ((bucket_walk_exact walk_pair).2.2.2 _ hd).1 ((List.length_filter_le _ _).trans ?_), ?_⟩
  · decide
  · decide +kernel

open BucketWalk.Sample in
/-- Where more hashes are missing than a frame may hold, the walk comes to no plan. -/
theorem bucket_walk_refused : ¬∀ (sha : Sha256) (L : AeStoreView Unit JsAny JsAny) (texts : List JsAny → List String)
    (store : Unit) (v : RemoteStoreView) (basis : LocalRoundState) (table : String) (mine theirs : List String)
    (d : String), Walk sha L texts store v basis table mine theirs → computeTableDigest sha theirs = .ok d →
      planTableA sha basis table ⟨d, v.tierARecordHashes sha table⟩ =
        planTableA sha basis table ⟨d, L.tierARecordHashes store table⟩ := by
  intro h
  have hwalk := walk 250000
  obtain ⟨d, hd⟩ : ∃ d, computeTableDigest Convergence.Sample.sha.toSha256 (repeated 250000) = .ok d :=
    ⟨_, computeTableDigest_of_valid hwalk.peerHashes⟩
  have hserved : servedHashes Convergence.Sample.sha.toSha256 [] (repeated 250000) = repeated 250000 := by
    refine List.filter_eq_self.2 fun x hx => decide_eq_true ?_
    refine mem_differingBuckets_of_missing (fun y hy => absurd hy List.not_mem_nil) (fun y hy => ?_)
      hwalk.collisionFree (List.mem_eraseDups.2 hx) List.not_mem_nil
    exact hwalk.peerHashes y (List.mem_eraseDups.1 hy)
  have hlen : maxWireItems < (servedHashes Convergence.Sample.sha.toSha256 [] (repeated 250000)).length := by
    rw [hserved, repeated, List.length_replicate, maxWireItems]
    exact Nat.lt_succ_self 250000
  have hplan := h _ _ _ _ _ _ _ _ _ _ hwalk hd
  rw [hwalk.plan hd, hwalk.plainPlan hd, bounded, if_pos hlen] at hplan
  cases hplan

end Cello.Directory.AntiEntropy
