import Cello.Directory.AntiEntropy.PgErrors
import Cello.Directory.AntiEntropy.Wire

/-!
# The peer as a store view

`RemoteStoreView` of `packages/directory/src/ae-channel.ts`: what the peer advertises and serves, as it
comes off the wire.  A round asks for each thing at most once, so what a peer does is what it answers to
each request.

To walk a table's buckets the view needs this node's own, and asks the local store for its record hashes
a second time.  Nothing else of a walk fails without the peer (`ofExchange_peerBuckets`,
`ofExchange_hashesOfBuckets`).  What is served is cut down to what was asked for (`mem_servedRecords`).
-/

namespace Cello.Directory.AntiEntropy

open Lib

/-! ### Values off the wire -/

/-- `v.length`. -/
def lengthOf : JsAny → JsAny
  | .str s => .num (.fin ((Text.codeUnits s).length : ℚ))
  | .bytes b => .num (.fin (b.length : ℚ))
  | .arr items => .num (.fin (items.length : ℚ))
  | v => v.prop "length"

/-- `v > n`, where `v` becomes a number. -/
def exceeds (v : JsAny) (n : ℕ) : Bool :=
  match v with
  | .undefined => false
  | .null => false
  | .bool b => decide (n < b.toNat)
  | .num x => x.gt n
  | .bigint m => decide ((n : ℤ) < m)
  | v => (Number.ofString v.toText).gt n

/-- `bounded`, of a value that may be no array. -/
def boundedAny (v : JsAny) (what : String) : Except AeError JsAny :=
  if exceeds (lengthOf v) maxWireItems then
    .error (.wire (what ++ " exceeds the wire bound (" ++ (lengthOf v).toText ++ " > " ++
      toString maxWireItems ++ ")"))
  else .ok v

/-- `Object.entries(v)` of an object that is no array. -/
def entriesOf : JsAny → Option (List (String × JsAny))
  | .obj members => some members
  | .bytes b => some (b.zipIdx.map fun (x, i) => (toString i, .num (.fin (x.toNat : ℚ))))
  | _ => none

def stringValue : JsAny → Option String
  | .str s => some s
  | _ => none

/-- An array of strings. -/
def stringItems (v : JsAny) (what : String) : Except AeError (List String) :=
  match v with
  | .arr items =>
    match items.mapM stringValue with
    | some strings => .ok strings
    | none => .error (.wire (what ++ " is not a string array"))
  | _ => .error (.wire (what ++ " is not a string array"))

/-- The loop of `records.filter`: the first record of each address that was asked for. -/
def requestedOnce (field : String) (requested : List String) :
    List String → List JsAny → List (String × JsAny)
  | _, [] => []
  | seen, r :: rest =>
    match r.prop field with
    | .str address =>
      if address ∈ requested ∧ address ∉ seen then
        (address, r.prop "body") :: requestedOnce field requested (address :: seen) rest
      else requestedOnce field requested seen rest
    | _ => requestedOnce field requested seen rest

/-- A request, and the frame that is waited for; the `send` of the request may throw, too. -/
def ask (expectType : String) (timeoutMs : ℕ) : Except String Incoming → Except AeError JsAny
  | .error message => .error (.unsent message)
  | .ok incoming => nextFrame expectType timeoutMs incoming

/-- The records of a served frame. -/
def servedRecords (frameType field : String) (timeoutMs : ℕ) (requested : List String)
    (incoming : Except String Incoming) : Except AeError (List (String × JsAny)) := do
  let frame ← ask frameType timeoutMs incoming
  match itemsOr frame "records" with
  | .arr items =>
    let records ← bounded items frameType
    .ok (requestedOnce field requested [] records)
  | _ => .error (.wire (frameType ++ " `records` is not an array"))

/-! ### The view -/

def differingBuckets (a b : List String) : List ℕ :=
  (List.range bucketCount).filter fun i => a[i]? ≠ b[i]?

/-- The digests that a peer has advertised, table by table. -/
structure WireState where
  tierA : OrdMap String String
  tierB : OrdMap String String

/-- A peer: what it has advertised, and for each request what it sends in answer, or what `send` throws. -/
structure Peer where
  state : WireState
  buckets : String → Except String Incoming
  bucketHashes : String → List ℕ → Except String Incoming
  versions : String → Except String Incoming
  recordsA : String → List String → Except String Incoming
  recordsB : String → List String → Except String Incoming

/-- `RemoteStoreView`. -/
structure RemoteStoreView where
  timeoutMs : ℕ
  peer : Peer
  /-- `this.#local.tierARecordHashes`, when a walk asks for it. -/
  localHashes : String → Except AeError (List String)

namespace RemoteStoreView

variable (sha : Sha256) (v : RemoteStoreView)

def peerBuckets (table : String) : Except AeError (List String) := do
  let frame ← ask "ae_buckets" v.timeoutMs (v.peer.buckets table)
  let digests ← boundedAny (itemsOr frame "digests") "ae_buckets digests"
  stringItems digests "ae_buckets digests"

/-- The hashes of the buckets that differ from this node's own. -/
def hashesOfBuckets (table : String) (buckets own : List String) : Except AeError (List String) := do
  let mine ← bucketDigests sha own
  let want := differingBuckets mine buckets
  if want.length = 0 then .ok []
  else
    let frame ← ask "ae_bucket_hashes" v.timeoutMs (v.peer.bucketHashes table want)
    let hashes ← stringItems (frame.prop "hashes") "ae_bucket_hashes hashes"
    bounded hashes ("ae_bucket_hashes[" ++ table ++ "]")

/-- The bucket walk. -/
def tierARecordHashes (table : String) : Except AeError (List String) := do
  let buckets ← v.peerBuckets table
  let own ← v.localHashes table
  v.hashesOfBuckets sha table buckets own

def tierBVersions (table : String) : Except AeError (OrdMap String String) := do
  let frame ← ask "ae_versions" v.timeoutMs (v.peer.versions table)
  match entriesOf (frame.prop "versions") with
  | none => .error (.wire ("ae_versions['" ++ table ++ "'] is not a map"))
  | some entries =>
    let entries ← bounded entries ("ae_versions[" ++ table ++ "]")
    match entries.mapM fun e => (stringValue e.2).map fun s => (e.1, s) with
    | some versions => .ok (OrdMap.ofList versions)
    | none => .error (.wire ("ae_versions['" ++ table ++ "'] has a non-string version"))

def serveTierA (table : String) (hashes : List String) : Except AeError (List (TierARecord JsAny)) :=
  (servedRecords "ae_records_a" "hash" v.timeoutMs hashes (v.peer.recordsA table hashes)).map fun records =>
    records.map fun r => ⟨r.1, r.2⟩

def serveTierB (table : String) (keys : List String) : Except AeError (List (TierBRecord JsAny)) :=
  (servedRecords "ae_records_b" "key" v.timeoutMs keys (v.peer.recordsB table keys)).map fun records =>
    records.map fun r => ⟨r.1, r.2⟩

def localOnly (operation : String) : AeError := .wire (operation ++ " is local-only, never remote")

def view : AeStoreView RemoteStoreView JsAny JsAny where
  tierATables := fun v => v.peer.state.tierA.keys
  tierBTables := fun v => v.peer.state.tierB.keys
  tierATableDigest := fun v table => .ok ((v.peer.state.tierA.get table).getD "")
  tierARecordHashes := tierARecordHashes sha
  tierBTableDigest := fun v table => .ok ((v.peer.state.tierB.get table).getD "")
  tierBVersions := tierBVersions
  serveTierA := serveTierA
  serveTierB := serveTierB
  applyTierA := fun v _ _ => (v, .error (localOnly "applyTierA"))
  applyTierB := fun v _ _ => (v, .error (localOnly "applyTierB"))

end RemoteStoreView

/-! ### What is served -/

theorem mem_requestedOnce {field : String} {requested : List String} {r : String × JsAny} :
    ∀ {items : List JsAny} {seen : List String}, r ∈ requestedOnce field requested seen items →
      r.1 ∈ requested := by
  intro items
  induction items with
  | nil => intro seen h; cases h
  | cons item rest ih =>
    intro seen h
    rw [requestedOnce] at h
    split at h
    · split_ifs at h with hfirst
      · rcases List.mem_cons.1 h with rfl | h
        · exact hfirst.1
        · exact ih h
      · exact ih h
    · exact ih h

theorem mem_servedRecords {frameType field : String} {timeoutMs : ℕ} {requested : List String}
    {incoming : Except String Incoming} {records : List (String × JsAny)}
    (h : servedRecords frameType field timeoutMs requested incoming = .ok records) :
    ∀ r ∈ records, r.1 ∈ requested := by
  unfold servedRecords at h
  obtain ⟨frame, -, h⟩ := bind_ok h
  split at h
  · obtain ⟨items, -, h⟩ := bind_ok h
    cases h
    exact fun r hr => mem_requestedOnce hr
  · cases h

theorem mem_serveTierA {v : RemoteStoreView} {table : String} {hashes : List String}
    {records : List (TierARecord JsAny)} (h : v.serveTierA table hashes = .ok records) :
    ∀ rec ∈ records, rec.hash ∈ hashes := by
  obtain ⟨served, hserved, rfl⟩ := exists_of_map_ok h
  intro rec hrec
  obtain ⟨r, hr, rfl⟩ := List.mem_map.1 hrec
  exact mem_servedRecords hserved r hr

/-! ### Errors of the exchange -/

theorem ofExchange_ask {frameType : String} {timeoutMs : ℕ} {answer : Except String Incoming} {e : AeError}
    (h : ask frameType timeoutMs answer = .error e) : e.ofExchange = true := by
  rcases answer with message | incoming
  · cases h
    rfl
  rw [ask] at h
  cases incoming with
  | frame w =>
    rw [nextFrame] at h
    split_ifs at h
    · cases h
      rfl
    · cases h
      rfl
  | malformed message =>
    cases h
    rfl
  | closed =>
    cases h
    rfl
  | silent =>
    cases h
    rfl
  | broken message =>
    cases h
    rfl

theorem ofExchange_bounded {α : Type} {items : List α} {what : String} {e : AeError}
    (h : bounded items what = .error e) : e.ofExchange = true := by
  unfold bounded at h
  split_ifs at h
  cases h
  rfl

theorem ofExchange_stringItems {w : JsAny} {what : String} {e : AeError}
    (h : stringItems w what = .error e) : e.ofExchange = true := by
  unfold stringItems at h
  split at h
  · split at h
    · cases h
    · cases h
      rfl
  · cases h
    rfl

namespace RemoteStoreView

variable {sha : Sha256} {v : RemoteStoreView}

theorem ofExchange_peerBuckets {table : String} {e : AeError} (h : v.peerBuckets table = .error e) :
    e.ofExchange = true := by
  rcases bind_error h with hframe | ⟨frame, -, h⟩
  · exact ofExchange_ask hframe
  · rcases bind_error h with hbound | ⟨digests, -, h⟩
    · unfold boundedAny at hbound
      split_ifs at hbound
      cases hbound
      rfl
    · exact ofExchange_stringItems h

theorem ofExchange_hashesOfBuckets {table : String} {buckets own : List String} {e : AeError}
    (hown : ∀ x ∈ own, isRecordHash x = true)
    (h : v.hashesOfBuckets sha table buckets own = .error e) : e.ofExchange = true := by
  rcases bind_error h with hmine | ⟨mine, -, h⟩
  · rw [bucketDigests, validatedSet_of_valid hown] at hmine
    cases hmine
  · dsimp only at h
    split_ifs at h
    rcases bind_error h with hframe | ⟨frame, -, h⟩
    · exact ofExchange_ask hframe
    · rcases bind_error h with hhashes | ⟨hashes, -, h⟩
      · exact ofExchange_stringItems hhashes
      · exact ofExchange_bounded h

theorem ofExchange_tierBVersions {table : String} {e : AeError} (h : v.tierBVersions table = .error e) :
    e.ofExchange = true := by
  rcases bind_error h with hframe | ⟨frame, -, h⟩
  · exact ofExchange_ask hframe
  · split at h
    · cases h
      rfl
    · rcases bind_error h with hbound | ⟨entries, -, h⟩
      · exact ofExchange_bounded hbound
      · split at h
        · cases h
        · cases h
          rfl

end RemoteStoreView

end Cello.Directory.AntiEntropy
