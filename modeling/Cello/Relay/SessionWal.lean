import Cello.Lib.Base64
import Cello.Lib.FlatJson
import Cello.Lib.Framing
import Cello.Lib.JsObject

/-!
# The write-ahead log of a session

`packages/relay/src/adapters/file-session-wal.ts`.  An entry is the length of a JSON text, the text and the first four
bytes of its hash.  Two readers take a file apart, one after a crash and one while the session goes on; they have the
same loop, and differ in the words in which they report what they cannot read (`Wording`).

Either is the reading of blocks behind their length, with each block taken for a leaf (`toOption_parseEntries`): so
the two read the same, and what is known of blocks is known of the log.  The hash, `JSON.parse` and `Buffer.from` are
Node's.
-/

namespace Cello.Relay.SessionWal

open Lib

/-! ### Entries -/

/-- A leaf, with a number when it is written and whatever stands there when it is read. -/
structure Leaf (ν : Type) where
  sequenceNumber : ν
  senderPubkey : Bytes
  contentHash : Bytes
  senderSignature : Bytes
  prevRoot : Bytes
  structure1Cbor : Bytes

def Leaf.asRead (l : Leaf FlatJson.Finite) : Leaf JsAny := { l with sequenceNumber := .num (.fin l.sequenceNumber.1) }

/-- `Buffer.from(JSON.stringify(v), "utf8")` of a flat object. -/
def jsonBytes (members : List (String × FlatJson.Leaf)) : Bytes :=
  (String.ofList (FlatJson.renderObject members)).toUTF8.data.toList

def plainValue : FlatJson.Leaf → Option JsAny
  | .num x => some (.num (.fin x.1))
  | .str s => some (.str (String.ofList s))
  | _ => none

def plainMembers : List (String × FlatJson.Leaf) → Option (List (String × JsAny))
  | [] => some []
  | (name, v) :: rest => (plainValue v).bind fun v => (plainMembers rest).map ((name, v) :: ·)

theorem jsonBytes_inj {l m : List (String × FlatJson.Leaf)} (h : jsonBytes l = jsonBytes m) : l = m := by
  have htext := String.ofList_injective (String.toByteArray_inj.1 (ByteArray.ext (Array.toList_inj.1 h)))
  have happend : FlatJson.renderObject l ++ [] = FlatJson.renderObject m ++ [] := by rw [htext]
  exact (FlatJson.renderObject_append_inj happend).1

/-- What of Node the log is built on. -/
structure NodeLibrary where
  sha256 : Bytes → Bytes
  length_sha256 : ∀ b, (sha256 b).length = 32
  /-- `JSON.parse(b.toString("utf8"))`; `none` where it throws. -/
  jsonParse : Bytes → Option JsAny
  /-- Of names of letters: a number as a name would have its own place in the object. -/
  jsonParse_jsonBytes : ∀ members values, (members.map Prod.fst).Nodup →
    (∀ m ∈ members, ∀ c ∈ m.1.toList, c.isAlpha = true) → plainMembers members = some values →
    jsonParse (jsonBytes members) = some (.obj values)
  /-- `Buffer.from(v, "base64")`; `none` where it throws. -/
  bufferFrom : JsAny → Option Bytes
  bufferFrom_encode : ∀ b, bufferFrom (.str (String.ofList (Base64.encode b))) = some b

/-- `Buffer.from` of a text. -/
def bufferFromText : JsAny → Option Bytes
  | .str s => some (Base64.decode s.toList)
  | _ => none

open scoped Classical in
/-- A library with the hash left open. -/
noncomputable def NodeLibrary.of (sha256 : Bytes → Bytes) (hlength : ∀ b, (sha256 b).length = 32) : NodeLibrary where
  sha256 := sha256
  length_sha256 := hlength
  jsonParse b := if h : ∃ members, jsonBytes members = b then (plainMembers h.choose).map .obj else none
  jsonParse_jsonBytes := by
    intro members values _ _ hvalues
    have hwritten : ∃ members', jsonBytes members' = jsonBytes members := ⟨members, rfl⟩
    rw [dif_pos hwritten, jsonBytes_inj hwritten.choose_spec, hvalues]
    rfl
  bufferFrom := bufferFromText
  bufferFrom_encode := by
    intro b
    rw [bufferFromText, String.toList_ofList, Base64.decode_encode]

/-- `WalJsonEntry`. -/
def walEntry (l : Leaf FlatJson.Finite) : List (String × FlatJson.Leaf) :=
  [("seq", .num l.sequenceNumber), ("spk", .str (Base64.encode l.senderPubkey)),
    ("ch", .str (Base64.encode l.contentHash)), ("ss", .str (Base64.encode l.senderSignature)),
    ("pr", .str (Base64.encode l.prevRoot)), ("sc", .str (Base64.encode l.structure1Cbor))]

def serializeEntry (l : Leaf FlatJson.Finite) : Bytes := jsonBytes (walEntry l)

section

variable (node : NodeLibrary)

/-- `none` where it throws: the text is no JSON, it is `null`, or a member is nothing that a buffer is made of. -/
def deserializeEntry (json : Bytes) : Option (Leaf JsAny) :=
  match node.jsonParse json with
  | none => none
  | some .null => none
  | some entry => do
    let senderPubkey ← node.bufferFrom (entry.prop "spk")
    let contentHash ← node.bufferFrom (entry.prop "ch")
    let senderSignature ← node.bufferFrom (entry.prop "ss")
    let prevRoot ← node.bufferFrom (entry.prop "pr")
    let structure1Cbor ← node.bufferFrom (match entry.prop "sc" with
      | .undefined => .str ""
      | .null => .str ""
      | v => v)
    some { sequenceNumber := entry.prop "seq", senderPubkey, contentHash, senderSignature, prevRoot, structure1Cbor }

def computeChecksum (json : Bytes) : Bytes := (node.sha256 json).take 4

/-- The bytes of an entry. -/
def frame (json : Bytes) : Bytes := Framing.frame (computeChecksum node) json

/-- What `append` leaves in the file; `none` where the length has no place in the header and it throws. -/
def append (file : Bytes) (l : Leaf FlatJson.Finite) : Option Bytes :=
  if (serializeEntry l).length < 2 ^ 32 then some (file ++ frame node (serializeEntry l)) else none

def appendAll (file : Bytes) (leaves : List (Leaf FlatJson.Finite)) : Option Bytes := leaves.foldlM (append node) file

/-! ### The readers -/

/-- The words of a reader. -/
structure Wording where
  truncatedHeader : ℕ → ℕ → String
  truncatedEntry : ℕ → ℕ → ℕ → String

def corruptEntry (entryIndex : ℕ) : String := "corrupt_entry at entryIndex " ++ toString entryIndex

/-- The loop of a reader, from an offset on; the reason that is logged with `relay.wal.unrecoverable` where it gives
up. -/
def parseEntries (w : Wording) (file : Bytes) (offset entryIndex : ℕ) : Except String (List (Leaf JsAny)) :=
  if offset < file.length then
    if file.length < offset + 4 then .error (w.truncatedHeader offset (file.length - offset))
    else
      let jsonLen := Uint32.read (file.drop offset)
      if file.length < offset + 4 + jsonLen + 4 then .error (w.truncatedEntry entryIndex (offset + 4) jsonLen)
      else
        let json := (file.drop (offset + 4)).take jsonLen
        let storedChecksum := (file.drop (offset + 4 + jsonLen)).take 4
        if storedChecksum ≠ computeChecksum node json then .error (corruptEntry entryIndex)
        else
          match deserializeEntry node json with
          | none => .error (corruptEntry entryIndex ++ ": json_parse_failed")
          | some leaf => (parseEntries w file (offset + 4 + jsonLen + 4) (entryIndex + 1)).map (leaf :: ·)
  else .ok []
termination_by file.length - offset

def reconstructWording : Wording where
  truncatedHeader offset remain :=
    "truncated_header at offset " ++ toString offset ++ " (" ++ toString remain ++ " bytes remain)"
  truncatedEntry entryIndex offset jsonLen :=
    "truncated_entry at entryIndex " ++ toString entryIndex ++ ", offset " ++ toString offset ++ ", jsonLen " ++
      toString jsonLen

def readAllWording : Wording where
  truncatedHeader offset _ := "truncated_header at offset " ++ toString offset
  truncatedEntry entryIndex _ _ := "truncated_entry at entryIndex " ++ toString entryIndex

/-- `reconstruct`, where the file is there or not; `none` is `RELAY_SESSION_UNRECOVERABLE`. -/
def reconstruct : Option Bytes → Option (List (Leaf JsAny))
  | none => some []
  | some file => (parseEntries node reconstructWording file 0 0).toOption

/-- `#readAllFromFile`. -/
def readAllFromFile : Option Bytes → Option (List (Leaf JsAny))
  | none => some []
  | some file => (parseEntries node readAllWording file 0 0).toOption

/-! ### A leaf and its text -/

theorem length_computeChecksum (json : Bytes) : (computeChecksum node json).length = 4 := by
  rw [computeChecksum, List.length_take, node.length_sha256]
  rfl

theorem deserializeEntry_serializeEntry (l : Leaf FlatJson.Finite) :
    deserializeEntry node (serializeEntry l) = some l.asRead := by
  have hparse := node.jsonParse_jsonBytes (walEntry l) _ (show ["seq", "spk", "ch", "ss", "pr", "sc"].Nodup by decide)
    (by
      intro m hm
      have hname : ∀ name ∈ ["seq", "spk", "ch", "ss", "pr", "sc"], name.toList.all Char.isAlpha = true := by decide
      exact List.all_eq_true.1 (hname m.1 (List.mem_map_of_mem hm)))
    rfl
  unfold deserializeEntry
  rw [serializeEntry, hparse]
  dsimp only [JsAny.prop, List.lookup_cons, List.lookup_nil]
  simp only [String.reduceBEq, Option.getD_some, node.bufferFrom_encode, Option.bind_eq_bind, Option.bind_some]
  rfl

/-! ### The readers are one -/

theorem toOption_map {ε α β : Type} (f : α → β) (x : Except ε α) : (x.map f).toOption = x.toOption.map f := by
  cases x <;> rfl

theorem drop_ne_nil {file : Bytes} {offset : ℕ} (h : offset < file.length) : file.drop offset ≠ [] := by
  rw [ne_eq, List.drop_eq_nil_iff]
  omega

theorem next_drop (trailer : Bytes → Bytes) (file : Bytes) (offset : ℕ) :
    Framing.next trailer (file.drop offset) =
      if file.length < offset + 4 then none
      else if file.length < offset + 4 + Uint32.read (file.drop offset) + 4 then none
      else if (file.drop (offset + 4 + Uint32.read (file.drop offset))).take 4 ≠
          trailer ((file.drop (offset + 4)).take (Uint32.read (file.drop offset))) then none
      else some ((file.drop (offset + 4)).take (Uint32.read (file.drop offset)),
        file.drop (offset + 4 + Uint32.read (file.drop offset) + 4)) := by
  have hheader : (file.drop offset).length < 4 ↔ file.length < offset + 4 := by
    rw [List.length_drop]
    omega
  have hentry : (file.drop offset).length < 4 + Uint32.read (file.drop offset) + 4 ↔
      file.length < offset + 4 + Uint32.read (file.drop offset) + 4 := by
    rw [List.length_drop]
    omega
  simp only [Framing.next, hheader, hentry, List.drop_drop, ← Nat.add_assoc]

/-- **A reader reads blocks**, each as a leaf. -/
theorem toOption_parseEntries (w : Wording) (file : Bytes) (offset entryIndex : ℕ) :
    (parseEntries node w file offset entryIndex).toOption =
      (Framing.blocks (computeChecksum node) (file.drop offset)).bind (List.mapM (deserializeEntry node)) := by
  fun_induction parseEntries node w file offset entryIndex with
  | case1 offset _ hin hheader =>
    rw [Framing.blocks_next _ (drop_ne_nil hin), next_drop, if_pos hheader]
    rfl
  | case2 offset _ hin hheader jsonLen hentry =>
    rw [Framing.blocks_next _ (drop_ne_nil hin), next_drop, if_neg hheader, if_pos hentry]
    rfl
  | case3 offset _ hin hheader jsonLen hentry json storedChecksum hsum =>
    rw [Framing.blocks_next _ (drop_ne_nil hin), next_drop, if_neg hheader, if_neg hentry, if_pos hsum]
    rfl
  | case4 offset _ hin hheader jsonLen hentry json storedChecksum hsum hleaf =>
    rw [Framing.blocks_next _ (drop_ne_nil hin), next_drop, if_neg hheader, if_neg hentry, if_neg hsum,
      Option.bind_some]
    cases Framing.blocks (computeChecksum node) (file.drop (offset + 4 + jsonLen + 4)) with
    | none => rfl
    | some bs =>
      rw [Option.map_some, Option.bind_some, List.mapM_cons, hleaf]
      rfl
  | case5 offset _ hin hheader jsonLen hentry json storedChecksum hsum leaf hleaf ih =>
    rw [Framing.blocks_next _ (drop_ne_nil hin), next_drop, if_neg hheader, if_neg hentry, if_neg hsum,
      Option.bind_some]
    rw [toOption_map, ih]
    cases Framing.blocks (computeChecksum node) (file.drop (offset + 4 + jsonLen + 4)) with
    | none => rfl
    | some bs =>
      rw [Option.map_some, Option.bind_some, Option.bind_some, List.mapM_cons, hleaf]
      cases bs.mapM (deserializeEntry node) <;> rfl
  | case6 offset _ hout =>
    have hnil : file.drop offset = [] := by
      rw [List.drop_eq_nil_iff]
      omega
    rw [hnil, Framing.blocks_nil]
    rfl

theorem reconstruct_some (file : Bytes) :
    reconstruct node (some file) =
      (Framing.blocks (computeChecksum node) file).bind (List.mapM (deserializeEntry node)) :=
  toOption_parseEntries node reconstructWording file 0 0

theorem readAllFromFile_eq_reconstruct (file : Option Bytes) : readAllFromFile node file = reconstruct node file := by
  cases file with
  | none => rfl
  | some file => exact (toOption_parseEntries node _ file 0 0).trans (toOption_parseEntries node _ file 0 0).symm

/-! ### What was appended -/

theorem appendAll_eq {leaves : List (Leaf FlatJson.Finite)} (hfit : ∀ l ∈ leaves, (serializeEntry l).length < 2 ^ 32)
    (file : Bytes) :
    appendAll node file leaves = some (file ++ (leaves.map serializeEntry).flatMap (frame node)) := by
  induction leaves generalizing file with
  | nil => rw [List.map_nil, List.flatMap_nil, List.append_nil]; rfl
  | cons l leaves ih =>
    have hrest := ih (fun l hl => hfit l (List.mem_cons_of_mem _ hl)) (file ++ frame node (serializeEntry l))
    rw [appendAll] at hrest ⊢
    rw [List.foldlM_cons, append, if_pos (hfit l List.mem_cons_self), Option.bind_eq_bind, Option.bind_some, hrest,
      List.map_cons, List.flatMap_cons, List.append_assoc]

theorem mapM_serializeEntry (leaves : List (Leaf FlatJson.Finite)) :
    (leaves.map serializeEntry).mapM (deserializeEntry node) = some (leaves.map Leaf.asRead) := by
  induction leaves with
  | nil => rfl
  | cons l leaves ih =>
    rw [List.map_cons, List.mapM_cons, deserializeEntry_serializeEntry, ih]
    rfl

section Fit

variable {leaves : List (Leaf FlatJson.Finite)} (hfit : ∀ l ∈ leaves, (serializeEntry l).length < 2 ^ 32)

include hfit

theorem appendAll_take (m : ℕ) :
    appendAll node [] (leaves.take m) = some (((leaves.map serializeEntry).take m).flatMap (frame node)) := by
  rw [appendAll_eq node fun l hl => hfit l (List.mem_of_mem_take hl), List.nil_append, List.map_take]

theorem serializeEntry_fit : ∀ json ∈ leaves.map serializeEntry, json.length < 2 ^ 32 := by
  intro json hjson
  obtain ⟨l, hl, rfl⟩ := List.mem_map.1 hjson
  exact hfit l hl

theorem reconstruct_appended :
    reconstruct node (some ((leaves.map serializeEntry).flatMap (frame node))) = some (leaves.map Leaf.asRead) := by
  have hread := Framing.blocks_flatMap (computeChecksum node) (length_computeChecksum node) (serializeEntry_fit hfit)
  rw [reconstruct_some]
  exact (congrArg (Option.bind · _) hread).trans (mapM_serializeEntry node leaves)

theorem reconstruct_take {n : ℕ}
    (hn : n ≤ ((leaves.map serializeEntry).flatMap (frame node)).length) :
    (∃ m ≤ leaves.length,
      appendAll node [] (leaves.take m) = some (((leaves.map serializeEntry).flatMap (frame node)).take n) ∧
      reconstruct node (some (((leaves.map serializeEntry).flatMap (frame node)).take n)) =
        some ((leaves.take m).map Leaf.asRead)) ∨
    ((∀ m ≤ leaves.length,
      appendAll node [] (leaves.take m) ≠ some (((leaves.map serializeEntry).flatMap (frame node)).take n)) ∧
      reconstruct node (some (((leaves.map serializeEntry).flatMap (frame node)).take n)) = none) := by
  have hcut := Framing.blocks_take (computeChecksum node) (length_computeChecksum node) (serializeEntry_fit hfit) hn
  rw [List.length_map] at hcut
  rcases hcut with ⟨m, hm, hlength, hread⟩ | ⟨hinside, hread⟩
  · refine .inl ⟨m, hm, ?_, ?_⟩
    · have hsplit := List.take_append_drop m (leaves.map serializeEntry)
      have hat : (((leaves.map serializeEntry).take m).flatMap (frame node)).length = n := hlength.symm
      rw [appendAll_take node hfit, ← hsplit, List.flatMap_append, hsplit, List.take_left' hat]
    · rw [reconstruct_some]
      refine (congrArg (Option.bind · _) hread).trans ?_
      rw [Option.bind_some, ← List.map_take, mapM_serializeEntry]
  · refine .inr ⟨?_, ?_⟩
    · intro m hm happend
      rw [appendAll_take node hfit] at happend
      have hlength := congrArg List.length (Option.some.inj happend)
      rw [List.length_take, Nat.min_eq_left hn] at hlength
      exact hinside m hm hlength.symm
    · rw [reconstruct_some]
      exact congrArg (Option.bind · _) hread

end Fit

theorem map_of_mapM {α β : Type} {f : α → Option β} {xs : List α} {ys : List β} (h : xs.mapM f = some ys) :
    xs.map f = ys.map some := by
  induction xs generalizing ys with
  | nil =>
    cases h
    rfl
  | cons x xs ih =>
    rw [List.mapM_cons] at h
    obtain ⟨y, hy, hrest⟩ := Option.bind_eq_some_iff.1 h
    obtain ⟨ys', hys, hcons⟩ := Option.bind_eq_some_iff.1 hrest
    cases hcons
    rw [List.map_cons, List.map_cons, hy, ih hys]

theorem frames_of_reconstruct {file : Bytes} {leaves : List (Leaf JsAny)}
    (h : reconstruct node (some file) = some leaves) :
    ∃ jsons : List Bytes, jsons.map (deserializeEntry node) = leaves.map some ∧
      (∀ json ∈ jsons, json.length < 2 ^ 32) ∧ file = jsons.flatMap (frame node) := by
  rw [reconstruct_some] at h
  obtain ⟨jsons, hread, hleaves⟩ := Option.bind_eq_some_iff.1 h
  obtain ⟨hfile, hlength⟩ := Framing.frames_of_blocks _ hread
  exact ⟨jsons, map_of_mapM hleaves, hlength, hfile⟩

/-- **The log is read back as it was written, also where a crash has cut it.**  What was appended is read as it was;
of a file that is cut, the entries before the cut where it stands between two, and nothing where it stands in one.
Whatever bytes a reader takes for a log are entries to the last, each with its own hash.  And the two readers read the
same. -/
theorem log_reads_back :
    (∀ leaves : List (Leaf FlatJson.Finite), (∀ l ∈ leaves, (serializeEntry l).length < 2 ^ 32) →
      ∃ file, appendAll node [] leaves = some file ∧
        reconstruct node (some file) = some (leaves.map Leaf.asRead) ∧
        ∀ n ≤ file.length,
          (∃ m ≤ leaves.length, appendAll node [] (leaves.take m) = some (file.take n) ∧
            reconstruct node (some (file.take n)) = some ((leaves.take m).map Leaf.asRead)) ∨
          ((∀ m ≤ leaves.length, appendAll node [] (leaves.take m) ≠ some (file.take n)) ∧
            reconstruct node (some (file.take n)) = none)) ∧
    (∀ file, reconstruct node (some file) = none ∨
      ∃ (jsons : List Bytes) (leaves : List (Leaf JsAny)), reconstruct node (some file) = some leaves ∧
        jsons.map (deserializeEntry node) = leaves.map some ∧ (∀ json ∈ jsons, json.length < 2 ^ 32) ∧
        file = jsons.flatMap fun json => Uint32.write json.length ++ (json ++ computeChecksum node json)) ∧
    (∀ file, readAllFromFile node file = reconstruct node file) := by
  refine ⟨?_, ?_, readAllFromFile_eq_reconstruct node⟩
  · intro leaves hfit
    refine ⟨(leaves.map serializeEntry).flatMap (frame node), ?_, ?_, fun n hn => reconstruct_take node hfit hn⟩
    · exact appendAll_eq node hfit []
    · exact reconstruct_appended node hfit
  · intro file
    cases h : reconstruct node (some file) with
    | none => exact .inl rfl
    | some leaves =>
      obtain ⟨jsons, hleaves, hlength, hfile⟩ := frames_of_reconstruct node h
      exact .inr ⟨jsons, leaves, rfl, hleaves, hlength, hfile⟩

end

/-! ### A log of two leaves -/

namespace Sample

def first : Leaf FlatJson.Finite := ⟨⟨1, by decide +kernel⟩, [1], [2], [3], [], [4]⟩

def second : Leaf FlatJson.Finite := ⟨⟨2, by decide +kernel⟩, [5], [6], [7], [8], [9]⟩

/-- The digests of the two texts. -/
def sha256 (b : Bytes) : Bytes :=
  Bytes.ofHex (if b = serializeEntry first then "e609c9810e1c30df78ef95a46a952325c0bc8fa232c07fb09af19244b7ae3ef2"
    else if b = serializeEntry second then "95709ff1e25a5fe2299bd0a741fb208a146f1b822f739441fef921e0e1619b54"
    else "e3b0c44298fc1c149afbf4c8996fb92427ae41e4649b934ca495991b7852b855")

theorem length_sha256 (b : Bytes) : (sha256 b).length = 32 := by
  unfold sha256
  split
  · decide +kernel
  · split <;> decide +kernel

noncomputable def node : NodeLibrary := .of sha256 length_sha256

theorem fit : ∀ l ∈ [first, second], (serializeEntry l).length < 2 ^ 32 := by
  have hlengths : [first, second].map (fun l => (serializeEntry l).length) = [66, 70] := by decide +kernel
  intro l hl
  have hlength : (serializeEntry l).length ∈ [66, 70] := hlengths ▸ List.mem_map_of_mem hl
  simp only [List.mem_cons, List.not_mem_nil, or_false] at hlength
  omega

theorem lengths : ∀ m < 3, (appendAll node [] ([first, second].take m)).map List.length = [0, 74, 152][m]? := by
  decide +kernel

end Sample

open Cello.Relay.SessionWal.Sample in
/-- The whole file, what a crash leaves between the two entries, and what it leaves inside the second. -/
theorem log_reads_back_cut : ∃ file, appendAll node [] [first, second] = some file ∧ file.length = 152 ∧
    reconstruct node (some file) = some [first.asRead, second.asRead] ∧
    reconstruct node (some (file.take 74)) = some [first.asRead] ∧
    reconstruct node (some (file.take 100)) = none := by
  obtain ⟨file, hfile, hread, hcut⟩ := (log_reads_back node).1 [first, second] fit
  have hlength : file.length = 152 := by
    have hboth := lengths 2 (by decide)
    rw [List.take_of_length_le (Nat.le_refl 2), hfile] at hboth
    exact Option.some.inj hboth
  -- of the two places only the first is the end of an entry
  have hat : ∀ {m n : ℕ}, m ≤ 2 → n ∈ [74, 100] → appendAll node [] ([first, second].take m) = some (file.take n) →
      m = 1 ∧ n = 74 := by
    intro m n hm hn happend
    have hends : ∀ m < 3, ∀ n ∈ [74, 100], [0, 74, 152][m]? = some (min n 152) → m = 1 ∧ n = 74 := by decide
    refine hends m (Nat.lt_succ_of_le hm) n hn ?_
    rw [← lengths m (Nat.lt_succ_of_le hm), happend, Option.map_some, List.length_take, hlength]
  refine ⟨file, hfile, hlength, hread, ?_, ?_⟩
  · rcases hcut 74 (by omega) with ⟨m, hm, happend, hthis⟩ | ⟨hnot, -⟩
    · obtain ⟨rfl, -⟩ := hat hm (by decide) happend
      exact hthis
    · refine absurd ?_ (hnot 1 (by decide))
      have hsplit : (appendAll node [] [first, second]).map (List.take 74) = appendAll node [] [first] := by
        decide +kernel
      rw [hfile] at hsplit
      exact hsplit.symm
  · rcases hcut 100 (by omega) with ⟨m, hm, happend, -⟩ | ⟨-, hthis⟩
    · exact absurd (hat hm (by decide) happend).2 (by decide)
    · exact hthis

end Cello.Relay.SessionWal
