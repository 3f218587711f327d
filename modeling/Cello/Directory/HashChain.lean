import Cello.Lib.FlatJson
import Cello.Lib.IsoDate
import Cello.Lib.OrdMap
import Cello.Lib.Sha256
import Mathlib.Data.List.Induction

/-!
# The hash chain of a table

Each row of a protected table carries the hash of its contents and of the hash before it.  The
contents are written as JSON with the keys in order and without the columns that the database fills
in, and on the way a value is normalised, since a value may come from the application or back from
the driver: a text of digits becomes a number, a date becomes its ISO text, and so does a bare date.

The normalisation is what two accepted chains with one tail agree up to (`chain_tamper_evident`,
`Alike`): the text of an object can be cut off in front of the hash behind it in one way, and the
numbers and instants in it can be read back.
-/

namespace Cello.Directory.HashChain

open Lib FlatJson

/-! ### Rows -/

def Float64 := {n : JsNumber // ∀ q, n = .fin q → Number.IsDouble q}

deriving instance DecidableEq for Float64

/-- The time value of a `Date`, `none` for an invalid one. -/
def DateValue := Option {t : ℤ // IsoDate.InRange t}

deriving instance DecidableEq for DateValue

/-- What a column holds. -/
inductive ColumnValue where
  | null
  | bool (b : Bool)
  | number (n : Float64)
  | text (s : String)
  | date (d : DateValue)
  | buffer (b : Bytes)
deriving DecidableEq

/-- A row: an object by column name.  Assignment does not give an object a key `__proto__`. -/
structure Row where
  columns : OrdMap String ColumnValue
  own : "__proto__" ∉ columns.keys

/-! ### The excluded columns -/

/-- `ALWAYS_EXCLUDED_FROM_CHAIN`. -/
def alwaysExcludedFromChain : List String :=
  ["chain_hash", "id", "created_at", "registered_at", "requested_at", "attested_at", "sent_at",
    "recorded_at", "last_run_at", "applied_at", "signed_at"]

/-- `TABLE_EXTRA_EXCLUDED[tableName]`. -/
def tableExtraExcluded : String → List String
  | "notification_events" => ["sender_pseudonym"]
  | "connection_requests" =>
    ["conversation_id", "escalation_expires_at", "rejection_reason", "via_alias_id"]
  | "conversation_seals" => ["close_reason_code", "seal_date"]
  | "conversation_proof_leaves" => ["checkpoint_id"]
  | "relay_registrations" => ["deregistered_at"]
  | "user_accounts" => ["email_stub_hash"]
  | "sessions" => ["initiator_pubkey_hex", "target_pubkey_hex", "high_stakes"]
  | "seal_notarizations" => ["seal_type", "supersedes_notarization_id"]
  | _ => []

def isExcluded (tableName column : String) : Bool :=
  decide (column ∈ alwaysExcludedFromChain) || decide (column ∈ tableExtraExcluded tableName)

/-! ### The serialization -/

/-- `/^-?\d+$/`. -/
def isIntegerText (s : String) : Bool :=
  match s.toList with
  | '-' :: digits => !digits.isEmpty && digits.all Char.isDigit
  | digits => !digits.isEmpty && digits.all Char.isDigit

def integerOf (s : String) : ℤ :=
  match s.toList with
  | '-' :: digits => -(Nat.ofDigitChars 10 digits 0 : ℕ)
  | digits => (Nat.ofDigitChars 10 digits 0 : ℕ)

theorem ofBigint_isDouble (n : ℤ) : ∀ q, JsNumber.ofBigint n = .fin q → Number.IsDouble q := by
  intro q h
  unfold JsNumber.ofBigint at h
  split_ifs at h with h1 h2
  cases h
  exact Number.isDouble_ofInt (Double.ofInt_ofInt n) (abs_lt.2 ⟨by omega, by omega⟩)

/-- The double nearest to an integer. -/
def Float64.ofInteger (m : ℤ) : Float64 := ⟨JsNumber.ofBigint m, ofBigint_isDouble m⟩

/-- `Number(v)` of a text of digits. -/
def numberOf (s : String) : Float64 := .ofInteger (integerOf s)

def numberLeaf (n : Float64) : Leaf :=
  match h : n.1 with
  | .fin q => .num ⟨q, n.2 q h⟩
  | _ => .null

/-- The member of a column; `none` where `toISOString` throws. -/
def normalizeValue : ColumnValue → Option Leaf
  | .null => some .null
  | .bool b => some (.bool b)
  | .number n => some (numberLeaf n)
  | .buffer b => some (.buffer b)
  | .date d => d.map fun t => .str (IsoDate.isoText t.1)
  | .text s =>
    if isIntegerText s then some (numberLeaf (numberOf s))
    else if IsoDate.isBareDate s.toList then
      (IsoDate.midnight s.toList).map fun t => .str (IsoDate.isoText t)
    else some (.str s.toList)

def arrayIndex (key : String) : Option ℕ :=
  let n := Nat.ofDigitChars 10 key.toList 0
  if n.repr = key ∧ n < 4294967295 then some n else none

def ownKeys (keys : List String) : List String :=
  (keys.filter fun k => (arrayIndex k).isSome).insertionSort
      (fun a b => (arrayIndex a).getD 0 ≤ (arrayIndex b).getD 0) ++
    keys.filter fun k => (arrayIndex k).isNone

def chainedKeys (tableName : String) (row : Row) : List String :=
  ownKeys (Text.sortBy id (row.columns.keys.filter fun k => !isExcluded tableName k))

/-- The loop of `serializeRecord`. -/
def chainedMembers (row : Row) : List String → Option (List (String × Leaf))
  | [] => some []
  | k :: rest =>
    ((row.columns.get k).bind normalizeValue).bind fun leaf =>
      (chainedMembers row rest).map ((k, leaf) :: ·)

/-- `serializeRecord`. -/
def serializeRecord (tableName : String) (row : Row) : Option (List Char) :=
  (chainedMembers row (chainedKeys tableName row)).map renderObject

/-! ### The chain -/

/-- `CHAIN_GENESIS`. -/
def genesisText : String := "CELLO_CHAIN_GENESIS"

def chainText (serialized : List Char) (previousChainHash : String) : String :=
  String.ofList (serialized ++ previousChainHash.toList)

/-- `computeChainHash`. -/
def computeChainHash (sha : Sha256) (serialized : List Char) (previousChainHash : String) : String :=
  sha.hex (chainText serialized previousChainHash)

structure ChainVerificationResult where
  valid : Bool
  rowCount : ℕ
  breakAtSequence : Option ℕ := none
  storedHash : Option ColumnValue := none
  recomputedHash : Option String := none
deriving DecidableEq

/-- The loop of `verifyChain`, from the row at position `i` on. -/
def verifyChainLoop (sha : Sha256) (tableName : String) (rowCount : ℕ) :
    ℕ → String → List Row → Option ChainVerificationResult
  | _, _, [] => some { valid := true, rowCount := rowCount }
  | i, previousHash, row :: rest =>
    (serializeRecord tableName row).bind fun serialized =>
      let recomputed := computeChainHash sha serialized previousHash
      if row.columns.get "chain_hash" = some (.text recomputed) then
        verifyChainLoop sha tableName rowCount (i + 1) recomputed rest
      else
        some
          { valid := false
            rowCount := rowCount
            breakAtSequence := some (i + 1)
            storedHash := row.columns.get "chain_hash"
            recomputedHash := some recomputed }

/-- `verifyChain`; `none` where it throws. -/
def verifyChain (sha : Sha256) (tableName : String) (rows : List Row) :
    Option ChainVerificationResult :=
  verifyChainLoop sha tableName rows.length 0 (sha.hex genesisText) rows

/-- The chain is accepted. -/
def Accepted (sha : Sha256) (tableName : String) (rows : List Row) : Prop :=
  ∃ r, verifyChain sha tableName rows = some r ∧ r.valid = true

/-- Every row carries the hash of its text and of the hash before it. -/
def Linked (sha : Sha256) (tableName : String) : String → List Row → Prop
  | _, [] => True
  | previous, row :: rest =>
    ∃ s, serializeRecord tableName row = some s ∧
      row.columns.get "chain_hash" = some (.text (computeChainHash sha s previous)) ∧
      Linked sha tableName (computeChainHash sha s previous) rest

theorem verifyChainLoop_valid_iff {sha : Sha256} {tableName : String} {rowCount : ℕ} {rows : List Row}
    {i : ℕ} {previous : String} :
    (∃ r, verifyChainLoop sha tableName rowCount i previous rows = some r ∧ r.valid = true) ↔
      Linked sha tableName previous rows := by
  induction rows generalizing i previous with
  | nil => exact ⟨fun _ => trivial, fun _ => ⟨_, rfl, rfl⟩⟩
  | cons row rest ih =>
    unfold verifyChainLoop Linked
    cases hs : serializeRecord tableName row with
    | none => simp
    | some s =>
      simp only [Option.bind_some, Option.some.injEq, exists_eq_left']
      split_ifs with hstored
      · rw [ih, and_iff_right hstored]
      · simp [hstored]

theorem accepted_iff {sha : Sha256} {tableName : String} {rows : List Row} :
    Accepted sha tableName rows ↔ Linked sha tableName (sha.hex genesisText) rows :=
  verifyChainLoop_valid_iff

/-! ### What a text says of its row -/

theorem mem_ownKeys {keys : List String} {k : String} : k ∈ ownKeys keys ↔ k ∈ keys := by
  unfold ownKeys
  rw [List.mem_append, List.mem_insertionSort, List.mem_filter, List.mem_filter, ← and_or_left]
  cases arrayIndex k <;> simp

theorem mem_chainedKeys {tableName : String} {row : Row} {k : String} :
    k ∈ chainedKeys tableName row ↔ k ∈ row.columns.keys ∧ isExcluded tableName k = false := by
  unfold chainedKeys
  rw [mem_ownKeys, Text.mem_sortBy, List.mem_filter, Bool.not_eq_true']

theorem chainedMembers_some {row : Row} : ∀ {keys : List String} {members : List (String × Leaf)},
    chainedMembers row keys = some members →
      members.map Prod.fst = keys ∧
        ∀ m ∈ members, (row.columns.get m.1).bind normalizeValue = some m.2 := by
  intro keys
  induction keys with
  | nil =>
    intro members h
    cases h
    exact ⟨rfl, fun m hm => absurd hm List.not_mem_nil⟩
  | cons k rest ih =>
    intro members h
    simp only [chainedMembers, Option.bind_eq_some_iff, Option.map_eq_some_iff] at h
    obtain ⟨leaf, hleaf, tail, htail, rfl⟩ := h
    obtain ⟨hkeys, hvalues⟩ := ih htail
    refine ⟨by rw [List.map_cons, hkeys], fun m hm => ?_⟩
    rcases List.mem_cons.1 hm with rfl | hm
    · exact Option.bind_eq_some_iff.2 hleaf
    · exact hvalues m hm

theorem chainedMembers_congr {row row' : Row} {keys : List String}
    (h : ∀ k ∈ keys,
      (row.columns.get k).bind normalizeValue = (row'.columns.get k).bind normalizeValue) :
    chainedMembers row keys = chainedMembers row' keys := by
  induction keys with
  | nil => rfl
  | cons k rest ih =>
    rw [chainedMembers, chainedMembers, h k List.mem_cons_self,
      ih fun j hj => h j (List.mem_cons_of_mem k hj)]

theorem serializeRecord_congr {tableName : String} {row row' : Row}
    (h : ∀ k, isExcluded tableName k = false →
      (row.columns.get k).map normalizeValue = (row'.columns.get k).map normalizeValue) :
    serializeRecord tableName row = serializeRecord tableName row' := by
  have hperm : (row.columns.keys.filter fun k => !isExcluded tableName k).Perm
      (row'.columns.keys.filter fun k => !isExcluded tableName k) := by
    refine (List.perm_ext_iff_of_nodup (row.columns.nodup.filter _) (row'.columns.nodup.filter _)).2
      fun k => ?_
    rw [List.mem_filter, List.mem_filter, Bool.not_eq_true']
    refine and_congr_left fun hk => OrdMap.mem_keys_iff.trans (Iff.trans ?_ OrdMap.mem_keys_iff.symm)
    rw [← Option.isSome_map (f := normalizeValue), h k hk, Option.isSome_map]
  have hkeys : chainedKeys tableName row = chainedKeys tableName row' :=
    congrArg ownKeys (Text.sortBy_perm hperm)
  rw [serializeRecord, serializeRecord, hkeys]
  refine congrArg (Option.map renderObject) (chainedMembers_congr fun k hk => ?_)
  have hbind : ∀ v : Option ColumnValue, v.bind normalizeValue = (v.map normalizeValue).join := by
    intro v
    cases v <;> rfl
  rw [hbind, hbind, h k (mem_chainedKeys.1 hk).2]

/-- A value that is read as this number. -/
inductive ReadsAs : ColumnValue → Float64 → Prop
  | number (n : Float64) : ReadsAs (.number n) n
  | digits {s : String} : isIntegerText s = true → ReadsAs (.text s) (numberOf s)

/-- A value that is written as JSON's `null`. -/
inductive Blank : ColumnValue → Prop
  | null : Blank .null
  | number {v : ColumnValue} {n : Float64} : ReadsAs v n → (∀ q, n.1 ≠ .fin q) → Blank v

/-- A value that is this instant. -/
inductive IsInstant : ColumnValue → ℤ → Prop
  | date (t : {t : ℤ // IsoDate.InRange t}) : IsInstant (.date (some t)) t.1
  | bare {s : String} {t : ℤ} : IsoDate.isBareDate s.toList = true →
      IsoDate.midnight s.toList = some t → IsInstant (.text s) t
  | iso {t : ℤ} : IsoDate.InRange t → IsInstant (.text (String.ofList (IsoDate.isoText t))) t

/-- Values that the chain does not tell apart. -/
inductive Alike : ColumnValue → ColumnValue → Prop
  | refl (v : ColumnValue) : Alike v v
  | number {v w : ColumnValue} {n : Float64} : ReadsAs v n → ReadsAs w n → Alike v w
  | blank {v w : ColumnValue} : Blank v → Blank w → Alike v w
  | instant {v w : ColumnValue} {t : ℤ} : IsInstant v t → IsInstant w t → Alike v w

theorem IsInstant.inRange {v : ColumnValue} {t : ℤ} (h : IsInstant v t) : IsoDate.InRange t := by
  cases h with
  | date t => exact t.2
  | bare hbare ht => exact IsoDate.midnight_inRange hbare ht
  | iso ht => exact ht

/-- What a value is when this is written for it. -/
def Origin (v : ColumnValue) : Leaf → Prop
  | .null => Blank v
  | .bool b => v = .bool b
  | .num q => ∃ n : Float64, n.1 = .fin q.1 ∧ ReadsAs v n
  | .buffer b => v = .buffer b
  | .str l => v = .text (String.ofList l) ∨ ∃ t, IsInstant v t ∧ l = IsoDate.isoText t

theorem origin_numberLeaf {v : ColumnValue} {n : Float64} (h : ReadsAs v n) :
    Origin v (numberLeaf n) := by
  unfold numberLeaf
  split
  · exact ⟨n, ‹_›, h⟩
  · exact Blank.number h ‹_›

theorem origin_normalizeValue {v : ColumnValue} {leaf : Leaf} (h : normalizeValue v = some leaf) :
    Origin v leaf := by
  cases v with
  | null => cases h; exact Blank.null
  | bool b => cases h; exact rfl
  | number n => cases h; exact origin_numberLeaf (ReadsAs.number n)
  | buffer b => cases h; exact rfl
  | date d =>
    obtain ⟨t, rfl, rfl⟩ := Option.map_eq_some_iff.1 h
    exact Or.inr ⟨t.1, IsInstant.date t, rfl⟩
  | text s =>
    simp only [normalizeValue] at h
    split_ifs at h with hdigits hbare
    · cases h
      exact origin_numberLeaf (ReadsAs.digits hdigits)
    · obtain ⟨t, ht, rfl⟩ := Option.map_eq_some_iff.1 h
      exact Or.inr ⟨t, IsInstant.bare hbare ht, rfl⟩
    · cases h
      exact Or.inl (by rw [String.ofList_toList])

theorem alike_of_normalizeValue {v w : ColumnValue} {leaf : Leaf} (hv : normalizeValue v = some leaf)
    (hw : normalizeValue w = some leaf) : Alike v w := by
  have hv := origin_normalizeValue hv
  have hw := origin_normalizeValue hw
  cases leaf with
  | null => exact Alike.blank hv hw
  | bool b =>
    rw [show v = .bool b from hv, show w = .bool b from hw]
    exact Alike.refl _
  | buffer b =>
    rw [show v = .buffer b from hv, show w = .buffer b from hw]
    exact Alike.refl _
  | num q =>
    obtain ⟨n, hn, hvn⟩ := hv
    obtain ⟨m, hm, hwm⟩ := hw
    obtain rfl : n = m := Subtype.ext (hn.trans hm.symm)
    exact Alike.number hvn hwm
  | str l =>
    -- a text that is not normalised may be the ISO text of the other row's instant
    rcases hv with rfl | ⟨t, hvt, rfl⟩ <;> rcases hw with rfl | ⟨u, hwu, hl⟩
    · exact Alike.refl _
    · rw [hl]
      exact Alike.instant (IsInstant.iso hwu.inRange) hwu
    · exact Alike.instant hvt (IsInstant.iso hvt.inRange)
    · obtain rfl := IsoDate.isoText_inj hvt.inRange hwu.inRange hl
      exact Alike.instant hvt hwu

/-- Two rows agree on a column, up to the normalisation. -/
def AlikeIn (k : String) (row row' : Row) : Prop :=
  (row.columns.get k = none ∧ row'.columns.get k = none) ∨
    ∃ v w, row.columns.get k = some v ∧ row'.columns.get k = some w ∧ Alike v w

theorem alikeIn_of_serializeRecord {tableName : String} {row row' : Row} {s : List Char}
    (h : serializeRecord tableName row = some s) (h' : serializeRecord tableName row' = some s)
    {k : String} (hk : isExcluded tableName k = false) : AlikeIn k row row' := by
  obtain ⟨members, hmembers, rfl⟩ := Option.map_eq_some_iff.1 h
  obtain ⟨members', hmembers', hrender⟩ := Option.map_eq_some_iff.1 h'
  obtain rfl : members' = members :=
    (renderObject_append_inj (congrArg (· ++ []) hrender)).1
  obtain ⟨hkeys, hvalues⟩ := chainedMembers_some hmembers
  obtain ⟨hkeys', hvalues'⟩ := chainedMembers_some hmembers'
  by_cases hmem : k ∈ members'.map Prod.fst
  · obtain ⟨m, hm, rfl⟩ := List.mem_map.1 hmem
    obtain ⟨v, hv, hnv⟩ := Option.bind_eq_some_iff.1 (hvalues m hm)
    obtain ⟨w, hw, hnw⟩ := Option.bind_eq_some_iff.1 (hvalues' m hm)
    exact Or.inr ⟨v, w, hv, hw, alike_of_normalizeValue hnv hnw⟩
  · have habsent : ∀ r : Row, members'.map Prod.fst = chainedKeys tableName r →
        r.columns.get k = none := by
      intro r hr
      cases hget : r.columns.get k with
      | none => rfl
      | some v =>
        rw [OrdMap.get_eq_some_iff] at hget
        rw [hr] at hmem
        exact absurd (mem_chainedKeys.2 ⟨List.mem_map_of_mem hget, hk⟩) hmem
    exact Or.inl ⟨habsent row hkeys, habsent row' hkeys'⟩

/-! ### Back along the chain -/

section Chain

variable (sha : Sha256)

def hashAfter (serialized : List (List Char)) : String :=
  serialized.foldl (fun previous s => computeChainHash sha s previous) (sha.hex genesisText)

def textsFrom (previous : String) : List (List Char) → List String
  | [] => []
  | s :: rest => chainText s previous :: textsFrom (computeChainHash sha s previous) rest

/-- Everything that is hashed when the rows are verified. -/
def hashedTexts (tableName : String) (rows : List Row) : List String :=
  genesisText ::
    textsFrom sha (sha.hex genesisText) (rows.filterMap (serializeRecord tableName))

variable {sha} {tableName : String}

theorem textsFrom_concat (previous : String) (ss : List (List Char)) (s : List Char) :
    textsFrom sha previous (ss ++ [s]) = textsFrom sha previous ss ++
      [chainText s (ss.foldl (fun previous s => computeChainHash sha s previous) previous)] := by
  induction ss generalizing previous with
  | nil => rfl
  | cons t ss ih => rw [List.cons_append, textsFrom, ih, textsFrom, List.foldl_cons, List.cons_append]

theorem chainText_ne_genesis (members : List (String × Leaf)) (previous : String) :
    chainText (renderObject members) previous ≠ genesisText := by
  intro h
  have hl := congrArg String.toList h
  rw [chainText, String.toList_ofList] at hl
  exact absurd (List.cons.inj hl).1 (by decide)

theorem hashAfter_concat (ss : List (List Char)) (s : List Char) :
    hashAfter sha (ss ++ [s]) = sha.hex (chainText s (hashAfter sha ss)) := by
  rw [hashAfter, List.foldl_append]
  rfl

theorem mem_textsFrom_concat {ss : List (List Char)} {s : List Char} {t : String} :
    t ∈ textsFrom sha (sha.hex genesisText) (ss ++ [s]) ↔
      t ∈ textsFrom sha (sha.hex genesisText) ss ∨ t = chainText s (hashAfter sha ss) := by
  rw [textsFrom_concat, List.mem_append, List.mem_singleton]
  rfl

theorem chainText_inj {l m : List (String × Leaf)} {previous previous' : String}
    (h : chainText (renderObject l) previous = chainText (renderObject m) previous') :
    l = m ∧ previous = previous' := by
  obtain ⟨hmembers, hprevious⟩ := renderObject_append_inj (String.ofList_injective h)
  exact ⟨hmembers, String.toList_injective hprevious⟩

theorem hashAfter_concat_ne {S : Set String} (hcoll : Set.InjOn sha.hex S) (hgenesis : genesisText ∈ S)
    {ss : List (List Char)} {s : List Char} (hs : ∃ m, s = renderObject m)
    (hmem : chainText s (hashAfter sha ss) ∈ S) :
    hashAfter sha (ss ++ [s]) ≠ hashAfter sha [] := by
  obtain ⟨m, rfl⟩ := hs
  intro h
  rw [hashAfter_concat] at h
  exact chainText_ne_genesis _ _ (hcoll hmem hgenesis h)

/-- **One tail, one history**: texts of objects with the same hash behind them are the same texts. -/
theorem hashAfter_inj {S : Set String} (hcoll : Set.InjOn sha.hex S) (hgenesis : genesisText ∈ S)
    {ss ts : List (List Char)} (hss : ∀ s ∈ ss, ∃ m, s = renderObject m)
    (hts : ∀ s ∈ ts, ∃ m, s = renderObject m)
    (hmem : ∀ t ∈ textsFrom sha (sha.hex genesisText) ss, t ∈ S)
    (hmem' : ∀ t ∈ textsFrom sha (sha.hex genesisText) ts, t ∈ S)
    (h : hashAfter sha ss = hashAfter sha ts) : ss = ts := by
  -- from the tail back: the last hashes agree, hence what was hashed last, hence the hash before it
  induction ss using List.reverseRecOn generalizing ts with
  | nil =>
    cases ts using List.reverseRecOn with
    | nil => rfl
    | append_singleton ts t =>
      exact absurd h.symm (hashAfter_concat_ne hcoll hgenesis (hts t (by simp))
        (hmem' _ (mem_textsFrom_concat.2 (Or.inr rfl))))
  | append_singleton ss s ih =>
    have hlast := hmem _ (mem_textsFrom_concat.2 (Or.inr rfl))
    cases ts using List.reverseRecOn with
    | nil => exact absurd h (hashAfter_concat_ne hcoll hgenesis (hss s (by simp)) hlast)
    | append_singleton ts t =>
      have hlast' := hmem' _ (mem_textsFrom_concat.2 (Or.inr rfl))
      obtain ⟨l, rfl⟩ := hss s (by simp)
      obtain ⟨m, rfl⟩ := hts t (by simp)
      rw [hashAfter_concat, hashAfter_concat] at h
      obtain ⟨rfl, hprevious⟩ := chainText_inj (hcoll hlast hlast' h)
      rw [ih (fun s hs => hss s (List.mem_append_left _ hs))
        (fun t ht => hts t (List.mem_append_left _ ht))
        (fun t ht => hmem t (mem_textsFrom_concat.2 (Or.inl ht)))
        (fun t ht => hmem' t (mem_textsFrom_concat.2 (Or.inl ht))) hprevious]

theorem mem_texts {rows : List Row} {s : List Char}
    (hs : s ∈ rows.filterMap (serializeRecord tableName)) : ∃ m, s = renderObject m := by
  obtain ⟨row, -, hrow⟩ := List.mem_filterMap.1 hs
  obtain ⟨m, -, rfl⟩ := Option.map_eq_some_iff.1 hrow
  exact ⟨m, rfl⟩

theorem Linked.map_serializeRecord {rows : List Row} {previous : String}
    (h : Linked sha tableName previous rows) :
    rows.map (serializeRecord tableName) =
      (rows.filterMap (serializeRecord tableName)).map some := by
  induction rows generalizing previous with
  | nil => rfl
  | cons row rest ih =>
    obtain ⟨s, hs, -, hrest⟩ := h
    rw [List.map_cons, List.filterMap_cons_some hs, List.map_cons, ih hrest, hs]

theorem Linked.getLast {rows : List Row} {previous : String} (h : Linked sha tableName previous rows)
    (hne : rows ≠ []) :
    (rows.getLast hne).columns.get "chain_hash" = some (.text
      ((rows.filterMap (serializeRecord tableName)).foldl
        (fun previous s => computeChainHash sha s previous) previous)) := by
  induction rows generalizing previous with
  | nil => exact absurd rfl hne
  | cons row rest ih =>
    obtain ⟨s, hs, hstored, hrest⟩ := h
    rw [List.filterMap_cons_some hs, List.foldl_cons]
    cases rest with
    | nil => exact hstored
    | cons next rest => exact ih hrest (List.cons_ne_nil next rest)

def tailHash (previous : String) (rows : List Row) : String :=
  match rows.getLast?.bind fun row => row.columns.get "chain_hash" with
  | some (.text hash) => hash
  | _ => previous

theorem tailHash_of_getLast {rows : List Row} (hne : rows ≠ []) {hash : String}
    (h : (rows.getLast hne).columns.get "chain_hash" = some (.text hash)) (previous : String) :
    tailHash previous rows = hash := by
  rw [tailHash, List.getLast?_eq_some_getLast hne, Option.bind_some, h]

theorem Linked.concat {rows : List Row} {previous : String} (h : Linked sha tableName previous rows)
    {row : Row} {s : List Char} (hs : serializeRecord tableName row = some s)
    (hstored : row.columns.get "chain_hash" =
      some (.text (computeChainHash sha s (tailHash previous rows)))) :
    Linked sha tableName previous (rows ++ [row]) := by
  induction rows generalizing previous with
  | nil => exact ⟨s, hs, hstored, trivial⟩
  | cons first rest ih =>
    obtain ⟨t, ht, hfirst, hrest⟩ := h
    refine ⟨t, ht, hfirst, ih hrest ?_⟩
    have htail : tailHash previous (first :: rest) = tailHash (computeChainHash sha t previous) rest := by
      cases rest with
      | nil => exact tailHash_of_getLast (List.cons_ne_nil first []) hfirst previous
      | cons next rest =>
        have hlast := hrest.getLast (List.cons_ne_nil next rest)
        rw [tailHash_of_getLast (List.cons_ne_nil next rest) hlast]
        exact tailHash_of_getLast (List.cons_ne_nil first (next :: rest)) hlast previous
    rw [← htail]
    exact hstored

/-- **Two accepted chains with one tail have the same rows**, up to the normalisation of values:
whatever is changed, inserted, removed or moved before the tail is found. -/
theorem chain_tamper_evident {rows rows' : List Row} (hne : rows ≠ []) (hne' : rows' ≠ [])
    (haccepted : Accepted sha tableName rows) (haccepted' : Accepted sha tableName rows')
    (htail : (rows.getLast hne).columns.get "chain_hash" =
      (rows'.getLast hne').columns.get "chain_hash")
    (hcoll : Set.InjOn sha.hex
      {t | t ∈ hashedTexts sha tableName rows ∨ t ∈ hashedTexts sha tableName rows'}) :
    rows.length = rows'.length ∧
      ∀ (i : ℕ) (row row' : Row), rows[i]? = some row → rows'[i]? = some row' →
        ∀ k, isExcluded tableName k = false → AlikeIn k row row' := by
  have hlinked := accepted_iff.1 haccepted
  have hlinked' := accepted_iff.1 haccepted'
  rw [hlinked.getLast hne, hlinked'.getLast hne', Option.some.injEq, ColumnValue.text.injEq] at htail
  have htexts : rows.filterMap (serializeRecord tableName) =
      rows'.filterMap (serializeRecord tableName) :=
    hashAfter_inj hcoll (Or.inl List.mem_cons_self) (fun s => mem_texts) (fun s => mem_texts)
      (fun t ht => Or.inl (List.mem_cons_of_mem _ ht))
      (fun t ht => Or.inr (List.mem_cons_of_mem _ ht)) htail
  have hmap : rows.map (serializeRecord tableName) = rows'.map (serializeRecord tableName) := by
    rw [hlinked.map_serializeRecord, hlinked'.map_serializeRecord, htexts]
  refine ⟨by simpa using congrArg List.length hmap, fun i row row' hrow hrow' k hk => ?_⟩
  have hat := congrArg (·[i]?) hmap
  simp only [List.getElem?_map, hrow, hrow', Option.map_some, Option.some.injEq] at hat
  have hsome : serializeRecord tableName row ∈ rows.map (serializeRecord tableName) :=
    List.mem_map_of_mem (List.mem_of_getElem? hrow)
  rw [hlinked.map_serializeRecord] at hsome
  obtain ⟨s, -, hs⟩ := List.mem_map.1 hsome
  exact alikeIn_of_serializeRecord hs.symm (hat.symm.trans hs.symm) hk

end Chain

/-! ### Digits that are not told apart -/

namespace Sample

def genesisDigest : BitVec 256 :=
  0x40040ec0f3cf8b6f3a1a55ee497daf9b50703ed706bf6a48be5fee85c81d01fa#256

def digest : BitVec 256 :=
  0x11a3f21e3d5fc9fdf7a919d032b8265693b0711d3a234c7381a0aa40cd2d1f97#256

def rowText : List Char :=
  "\x7b\"conversation_id\":\"5f0c9a52-6b1e-4d36-9a6f-2f1f3f5f9a01\",\"party_pseudonym\":7\x7d".toList

def lastDigest : BitVec 256 :=
  0xe33e556f65dad79c5239a4cb8b83e2c2728481d531d38c306a09881b15270b9c#256

def lastText : List Char :=
  "\x7b\"conversation_id\":\"5f0c9a52-6b1e-4d36-9a6f-2f1f3f5f9a01\",\"party_pseudonym\":8\x7d".toList

def sha : Sha256 := HexSha256.toSha256 <|
  .ofTable [(genesisText, genesisDigest), (chainText rowText (hexText genesisDigest), digest),
      (chainText lastText (hexText digest), lastDigest)]
    0xe3b0c44298fc1c149afbf4c8996fb92427ae41e4649b934ca495991b7852b855#256

def row (pseudonym : String) : Row where
  columns :=
    ⟨[("id", .text "1"), ("conversation_id", .text "5f0c9a52-6b1e-4d36-9a6f-2f1f3f5f9a01"),
      ("party_pseudonym", .text pseudonym), ("chain_hash", .text (hexText digest))], by simp⟩
  own := by simp [OrdMap.keys]

/-- The row behind it. -/
def lastRow : Row where
  columns :=
    ⟨[("id", .text "2"), ("conversation_id", .text "5f0c9a52-6b1e-4d36-9a6f-2f1f3f5f9a01"),
      ("party_pseudonym", .text "8"), ("chain_hash", .text (hexText lastDigest))], by simp⟩
  own := by simp [OrdMap.keys]

theorem serializeRecord_row :
    serializeRecord "conversation_participation" (row "7") = some rowText ∧
      serializeRecord "conversation_participation" (row "007") = some rowText := by
  decide +kernel

theorem serializeRecord_lastRow :
    serializeRecord "conversation_participation" lastRow = some lastText := by
  decide +kernel

theorem hex_genesis : sha.hex genesisText = hexText genesisDigest := by decide

theorem hex_row : sha.hex (chainText rowText (hexText genesisDigest)) = hexText digest := by
  decide +kernel

theorem hex_lastRow : sha.hex (chainText lastText (hexText digest)) = hexText lastDigest := by
  decide +kernel

theorem accepted_row {pseudonym : String}
    (h : serializeRecord "conversation_participation" (row pseudonym) = some rowText) :
    Accepted sha "conversation_participation" [row pseudonym] := by
  refine accepted_iff.2 ⟨rowText, h, ?_, trivial⟩
  rw [computeChainHash, hex_genesis, hex_row]
  rfl

theorem hashedTexts_row {pseudonym : String}
    (h : serializeRecord "conversation_participation" (row pseudonym) = some rowText) :
    hashedTexts sha "conversation_participation" [row pseudonym] =
      [genesisText, chainText rowText (hexText genesisDigest)] := by
  rw [hashedTexts, List.filterMap_cons_some h, hex_genesis]
  rfl

theorem injOn_row : Set.InjOn sha.hex
    {t | t ∈ hashedTexts sha "conversation_participation" [row "7"] ∨
      t ∈ hashedTexts sha "conversation_participation" [row "007"]} := by
  rw [hashedTexts_row serializeRecord_row.1, hashedTexts_row serializeRecord_row.2]
  refine (HexSha256.ofTable_injOn (by decide)).mono fun t ht => ?_
  have hrow : t = genesisText ∨ t = chainText rowText (hexText genesisDigest) := by simpa using ht
  simpa using hrow.imp_right Or.inl

theorem accepted_rows {pseudonym : String}
    (h : serializeRecord "conversation_participation" (row pseudonym) = some rowText) :
    Accepted sha "conversation_participation" [row pseudonym, lastRow] := by
  refine accepted_iff.2 ⟨rowText, h, ?_, lastText, serializeRecord_lastRow, ?_, trivial⟩
  · rw [computeChainHash, hex_genesis, hex_row]
    rfl
  · rw [computeChainHash, computeChainHash, hex_genesis, hex_row, hex_lastRow]
    rfl

theorem hashedTexts_rows {pseudonym : String}
    (h : serializeRecord "conversation_participation" (row pseudonym) = some rowText) :
    hashedTexts sha "conversation_participation" [row pseudonym, lastRow] =
      [genesisText, chainText rowText (hexText genesisDigest), chainText lastText (hexText digest)] := by
  rw [hashedTexts, List.filterMap_cons_some h, List.filterMap_cons_some serializeRecord_lastRow,
    hex_genesis, List.filterMap_nil, textsFrom, textsFrom, textsFrom, computeChainHash, hex_row]

theorem injOn_rows : Set.InjOn sha.hex
    {t | t ∈ hashedTexts sha "conversation_participation" [row "7", lastRow] ∨
      t ∈ hashedTexts sha "conversation_participation" [row "007", lastRow]} := by
  rw [hashedTexts_rows serializeRecord_row.1, hashedTexts_rows serializeRecord_row.2]
  refine (HexSha256.ofTable_injOn (by decide)).mono fun t ht => ?_
  simpa using ht

end Sample

open Sample in
/-- Two chains of two rows with one tail. -/
theorem chain_tamper_evident_digits :
    isExcluded "conversation_participation" "party_pseudonym" = false ∧
      AlikeIn "party_pseudonym" (row "7") (row "007") := by
  have hincluded : isExcluded "conversation_participation" "party_pseudonym" = false := by decide
  have halike := (chain_tamper_evident (List.cons_ne_nil _ _) (List.cons_ne_nil _ _)
    (accepted_rows serializeRecord_row.1) (accepted_rows serializeRecord_row.2) rfl injOn_rows).2
  exact ⟨hincluded, halike 0 _ _ rfl rfl _ hincluded⟩

open Sample in
/-- Two accepted chains of one row with one tail hash, whose pseudonyms differ. -/
theorem leading_zeros_not_evident :
    Accepted sha "conversation_participation" [row "7"] ∧
      Accepted sha "conversation_participation" [row "007"] ∧
      (row "7").columns.get "chain_hash" = (row "007").columns.get "chain_hash" ∧
      isExcluded "conversation_participation" "party_pseudonym" = false ∧
      (row "7").columns.get "party_pseudonym" ≠ (row "007").columns.get "party_pseudonym" ∧
      Set.InjOn sha.hex
        {t | t ∈ hashedTexts sha "conversation_participation" [row "7"] ∨
          t ∈ hashedTexts sha "conversation_participation" [row "007"]} :=
  ⟨accepted_row serializeRecord_row.1, accepted_row serializeRecord_row.2, rfl, by decide,
    by decide, injOn_row⟩

end Cello.Directory.HashChain
