import Cello.Lib.JsObject
import Cello.Lib.Text
import Cello.Directory.Seal.Countersigned

/-!
# The certificate that is pulled

A directory signs a seal over bytes that bind a hash of its legibility
(`packages/directory/src/seal-legibility.ts`) and stores the legibility as a JSON text
(`#recordCertificateFields` in `adapters/pg-directory-store.ts`).  A participant who missed the
push asks for the certificate later and gets the text parsed.

The hash is over the public keys, and a public key is a byte array.  JSON writes a byte array as
an object, `canonicalLegibilityBytes` reads a key that is neither bytes nor hex as thirty-two
zeros, and so the pulled legibility hashes to something else unless every key was zero.
-/

namespace Cello.Directory.Seal

open Lib Cello.Interfaces

def AttestationMode.text : AttestationMode → String
  | live => "live"
  | absent => "absent"
  | recovered => "recovered"

/-! ### The object -/

def SealLegibilityParticipant.toValue (p : SealLegibilityParticipant) : JsAny :=
  .obj [("pubkey", .bytes p.pubkey), ("content_frontier_seq", .num p.contentFrontierSeq),
    ("last_authored_seq", .num p.lastAuthoredSeq),
    ("attestation_mode", .str p.attestationMode.text)]

def SealLegibilityFinalMessage.toValue (m : SealLegibilityFinalMessage) : JsAny :=
  .obj [("sender_pubkey", .bytes m.senderPubkey), ("seq", .num m.seq), ("answered", .bool m.answered)]

def SealLegibility.toValue (l : SealLegibility) : JsAny :=
  .obj [("attests", .str l.attests), ("implies_assent", .bool l.impliesAssent),
    ("disclaimer", .str l.disclaimer),
    ("participants", .arr (l.participants.map SealLegibilityParticipant.toValue)),
    ("final_message", l.finalMessage.toValue),
    ("countersigned_through_seq", .num l.countersignedThroughSeq)]

/-! ### The bytes the seal is signed over -/

def zeros (n : ℕ) : Bytes := List.replicate n 0

/-- `Buffer.copy` into a fresh buffer of thirty-two bytes. -/
def copy32 (b : Bytes) : Bytes := b.take 32 ++ zeros (32 - b.length)

def legPubkey32 : JsAny → Bytes
  | .bytes b => copy32 b
  | .str s => if Bytes.isHex64 s then copy32 (Bytes.ofHex s) else zeros 32
  | _ => zeros 32

/-- `writeUInt32BE`. -/
def uint32BE (n : ℕ) : Bytes :=
  [.ofNat (n / 2 ^ 24), .ofNat (n / 2 ^ 16), .ofNat (n / 2 ^ 8), .ofNat n]

def legU32 (v : JsAny) : Bytes :=
  uint32BE (match v with
    | .bigint n => (JsNumber.ofBigint n).toUint32
    | .num n => n.toUint32
    | _ => 0)

def legModeByte : JsAny → UInt8
  | .str "live" => 1
  | .str "recovered" => 2
  | .str "absent" => 3
  | _ => 0

def legibilityHashDomain : Bytes := "CELLO-SEAL-LEGIBILITY-v1".toUTF8.toList

def participantBytes (p : JsAny) : Bytes :=
  legPubkey32 (p.prop "pubkey") ++ legU32 (p.prop "content_frontier_seq") ++
    legU32 (p.prop "last_authored_seq") ++ [legModeByte (p.prop "attestation_mode")]

def answeredByte : JsAny → UInt8
  | .bool true => 1
  | _ => 0

def finalMessageBytes (fm : JsAny) : Bytes :=
  legPubkey32 (fm.prop "sender_pubkey") ++ legU32 (fm.prop "seq") ++
    [answeredByte (fm.prop "answered")]

def canonicalLegibilityBytes (legibility : JsAny) : Bytes :=
  let participants := match legibility.prop "participants" with
    | .arr items => items
    | _ => []
  let fm := match legibility.prop "final_message" with
    | .undefined | .null =>
      .obj [("sender_pubkey", .undefined), ("seq", .num (0 : ℕ)), ("answered", .bool false)]
    | v => v
  legibilityHashDomain ++ uint32BE (participants.length % 2 ^ 32) ++
    participants.flatMap participantBytes ++ finalMessageBytes fm

/-- Nothing is bound where there is no legibility. -/
def bindLegibilityToTbs (sha256 : Bytes → Bytes) (tbs : Bytes) : JsAny → Bytes
  | .undefined | .null => tbs
  | legibility => tbs ++ sha256 (canonicalLegibilityBytes legibility)

/-! ### The two tables -/

inductive SealType where
  | unilateral
  | bilateral
deriving DecidableEq, Repr

structure SealNotarization where
  sessionId : Bytes
  sealedRoot : Bytes
  participantAPubkey : Bytes
  participantBPubkey : Bytes
  closeTimestamp : JsNumber
  frostSignature : Bytes
  sealType : Option SealType := none
  leafCount : Option ℕ := none
  signerPubkey : Option Bytes := none
  /-- `undefined` where the notarization came without one. -/
  legibility : JsAny := .undefined

/-- A row of `seal_notarizations`. -/
structure NotarizationRow where
  sessionId : Bytes
  sealType : SealType
  sealedRoot : Bytes
  participantAPubkey : Bytes
  participantBPubkey : Bytes
  closeTimestamp : JsNumber
  frostSignature : Bytes

/-- A row of `seal_certificate_fields`. -/
structure FieldsRow where
  sessionId : Bytes
  sealType : SealType
  leafCount : ℕ
  signerPubkey : Bytes
  legibility : Option JsonText

/-- The tables, the oldest row first. -/
structure Tables where
  notarizations : List NotarizationRow
  fields : List FieldsRow

/-- `legibility === undefined || legibility === null ? null : JSON.stringify(legibility)`. -/
def legibilityColumn : JsAny → Option JsonText
  | .undefined | .null => none
  | v => v.toJson

/-- `#recordCertificateFields`: nothing without a leaf count and a signer, and nothing over a row
that is there. -/
def recordCertificateFields (db : Tables) (n : SealNotarization) (sealType : SealType) : Tables :=
  match n.leafCount, n.signerPubkey with
  | some leafCount, some signerPubkey =>
    if ∃ f ∈ db.fields, f.sessionId = n.sessionId ∧ f.sealType = sealType then db
    else { db with fields := db.fields ++ [{
      sessionId := n.sessionId, sealType := sealType, leafCount := leafCount
      signerPubkey := signerPubkey, legibility := legibilityColumn n.legibility }] }
  | _, _ => db

/-- A second notarization of one session and type violates the unique key and is dropped. -/
def recordNotarization (db : Tables) (n : SealNotarization) : Tables :=
  let sealType := n.sealType.getD .bilateral
  if ∃ r ∈ db.notarizations, r.sessionId = n.sessionId ∧ r.sealType = sealType then db
  else
    recordCertificateFields
      { db with notarizations := db.notarizations ++ [{
        sessionId := n.sessionId, sealType := sealType, sealedRoot := n.sealedRoot
        participantAPubkey := n.participantAPubkey, participantBPubkey := n.participantBPubkey
        closeTimestamp := n.closeTimestamp, frostSignature := n.frostSignature }] }
      n sealType

/-! ### Reading back -/

/-- What a stored text is served as; what JSON wrote always parses. -/
def parseLegibility : Option JsonText → JsAny
  | none => .null
  | some raw => raw.parse

structure SealCertificate where
  sessionId : Bytes
  sealedRoot : Bytes
  frostSignature : Bytes
  signerPubkey : Bytes
  closeTimestamp : JsNumber
  leafCount : ℕ
  sealType : SealType
  legibility : JsAny

def joined (db : Tables) (sessionId : Bytes) : List (NotarizationRow × FieldsRow) :=
  (db.notarizations.filter fun n => decide (n.sessionId = sessionId)).flatMap fun n =>
    (db.fields.filter fun f => decide (f.sessionId = n.sessionId ∧ f.sealType = n.sealType)).map
      fun f => (n, f)

/-- `getSealCertificate`: a bilateral row before a unilateral one, the newest first.  The
participants come with it. -/
def getSealCertificate (db : Tables) (sessionId : Bytes) :
    Option (SealCertificate × Bytes × Bytes) :=
  let rows := (joined db sessionId).reverse
  (rows.filter (fun r => decide (r.1.sealType = .bilateral)) ++
      rows.filter (fun r => decide (r.1.sealType ≠ .bilateral))).head?.map fun (n, f) =>
    ({ sessionId := n.sessionId, sealedRoot := n.sealedRoot, frostSignature := n.frostSignature
       signerPubkey := f.signerPubkey, closeTimestamp := n.closeTimestamp
       leafCount := f.leafCount, sealType := n.sealType
       legibility := parseLegibility f.legibility },
      n.participantAPubkey, n.participantBPubkey)

inductive CertificateFrame where
  | sealCertificate (cert : SealCertificate)
  | sealCertificateError (sessionId : Bytes) (reason : String)

/-- `#processSealCertificateRequest`: a stranger is told what a missing session is told. -/
def processSealCertificateRequest (db : Tables) (sessionId : Bytes) (authedPubkeyHex : String) :
    CertificateFrame :=
  match getSealCertificate db sessionId with
  | some (cert, a, b) =>
    if a.toHex = authedPubkeyHex ∨ b.toHex = authedPubkeyHex then .sealCertificate cert
    else .sealCertificateError sessionId "not_found"
  | none => .sealCertificateError sessionId "not_found"

/-! ### What comes back -/

open JsAny (numberText bytesText)

def SealLegibilityParticipant.toText (p : SealLegibilityParticipant) : JsonText :=
  .obj [("pubkey", bytesText p.pubkey), ("content_frontier_seq", numberText p.contentFrontierSeq),
    ("last_authored_seq", numberText p.lastAuthoredSeq),
    ("attestation_mode", .str p.attestationMode.text)]

def SealLegibilityFinalMessage.toText (m : SealLegibilityFinalMessage) : JsonText :=
  .obj [("sender_pubkey", bytesText m.senderPubkey), ("seq", numberText m.seq),
    ("answered", .bool m.answered)]

def SealLegibility.toText (l : SealLegibility) : JsonText :=
  .obj [("attests", .str l.attests), ("implies_assent", .bool l.impliesAssent),
    ("disclaimer", .str l.disclaimer),
    ("participants", .arr (l.participants.map SealLegibilityParticipant.toText)),
    ("final_message", l.finalMessage.toText),
    ("countersigned_through_seq", numberText l.countersignedThroughSeq)]

open JsAny in
theorem participant_toJson (p : SealLegibilityParticipant) : p.toValue.toJson = some p.toText :=
  toJson_obj (membersJson_cons (toJson_bytes _) (membersJson_cons (toJson_num _)
    (membersJson_cons (toJson_num _) (membersJson_cons (toJson_str _) membersJson_nil))))

open JsAny in
theorem finalMessage_toJson (m : SealLegibilityFinalMessage) : m.toValue.toJson = some m.toText :=
  toJson_obj (membersJson_cons (toJson_bytes _) (membersJson_cons (toJson_num _)
    (membersJson_cons (toJson_bool _) membersJson_nil)))

open JsAny in
theorem legibility_toJson (l : SealLegibility) : l.toValue.toJson = some l.toText := by
  have hitems : itemsJson (l.participants.map SealLegibilityParticipant.toValue) =
      some (l.participants.map SealLegibilityParticipant.toText) :=
    itemsJson_map fun p _ => participant_toJson p
  refine toJson_obj (membersJson_cons (toJson_str _) ?_)
  refine membersJson_cons (toJson_bool _) (membersJson_cons (toJson_str _) ?_)
  refine membersJson_cons (toJson_arr hitems) (membersJson_cons (finalMessage_toJson _) ?_)
  exact membersJson_cons (toJson_num _) membersJson_nil

@[simp] theorem legU32_numberText (n : JsNumber) : legU32 (numberText n).parse = legU32 (.num n) := by
  cases n <;> rfl

@[simp] theorem legPubkey32_bytesText (b : Bytes) : legPubkey32 (bytesText b).parse = zeros 32 := rfl

theorem length_copy32 (b : Bytes) : (copy32 b).length = 32 := by
  simp only [copy32, zeros, List.length_append, List.length_take, List.length_replicate]
  omega

theorem participantBytes_toText (p : SealLegibilityParticipant) :
    participantBytes p.toText.parse =
      zeros 32 ++ legU32 (.num p.contentFrontierSeq) ++ legU32 (.num p.lastAuthoredSeq) ++
        [legModeByte (.str p.attestationMode.text)] := by
  simp [participantBytes, SealLegibilityParticipant.toText, JsonText.parse, JsonText.parseMembers,
    JsAny.prop, List.lookup_cons]

theorem participantBytes_toValue (p : SealLegibilityParticipant) :
    participantBytes p.toValue =
      copy32 p.pubkey ++ legU32 (.num p.contentFrontierSeq) ++ legU32 (.num p.lastAuthoredSeq) ++
        [legModeByte (.str p.attestationMode.text)] := rfl

theorem finalMessageBytes_toText (m : SealLegibilityFinalMessage) :
    finalMessageBytes m.toText.parse =
      zeros 32 ++ legU32 (.num m.seq) ++ [answeredByte (.bool m.answered)] := by
  simp [finalMessageBytes, SealLegibilityFinalMessage.toText, JsonText.parse, JsonText.parseMembers,
    JsAny.prop, List.lookup_cons]

theorem finalMessageBytes_toValue (m : SealLegibilityFinalMessage) :
    finalMessageBytes m.toValue =
      copy32 m.senderPubkey ++ legU32 (.num m.seq) ++ [answeredByte (.bool m.answered)] := rfl

theorem canonicalLegibilityBytes_toValue (l : SealLegibility) :
    canonicalLegibilityBytes l.toValue =
      legibilityHashDomain ++ uint32BE (l.participants.length % 2 ^ 32) ++
        l.participants.flatMap (fun p => participantBytes p.toValue) ++
          finalMessageBytes l.finalMessage.toValue := by
  have h : canonicalLegibilityBytes l.toValue =
      legibilityHashDomain ++
        uint32BE ((l.participants.map SealLegibilityParticipant.toValue).length % 2 ^ 32) ++
        (l.participants.map SealLegibilityParticipant.toValue).flatMap participantBytes ++
          finalMessageBytes l.finalMessage.toValue := rfl
  rw [h, List.length_map, List.flatMap_map]

theorem canonicalLegibilityBytes_toText (l : SealLegibility) :
    canonicalLegibilityBytes l.toText.parse =
      legibilityHashDomain ++ uint32BE (l.participants.length % 2 ^ 32) ++
        l.participants.flatMap (fun p => participantBytes p.toText.parse) ++
          finalMessageBytes l.finalMessage.toText.parse := by
  have h : canonicalLegibilityBytes l.toText.parse =
      legibilityHashDomain ++
        uint32BE ((JsonText.parseItems
          (l.participants.map SealLegibilityParticipant.toText)).length % 2 ^ 32) ++
        (JsonText.parseItems
          (l.participants.map SealLegibilityParticipant.toText)).flatMap participantBytes ++
          finalMessageBytes l.finalMessage.toText.parse := by
    rfl
  rw [h, JsAny.parseItems_map, List.length_map, List.flatMap_map]

/-! ### When it hashes to the same -/

theorem copy32_eq_zeros_iff (b : Bytes) : copy32 b = zeros 32 ↔ ∀ x ∈ b.take 32, x = 0 := by
  have hlen : (b.take 32).length + (32 - b.length) = 32 := by
    rw [List.length_take]
    omega
  rw [copy32, zeros, zeros, List.eq_replicate_iff, List.length_append, List.length_replicate]
  constructor
  · exact fun h x hx => h.2 x (List.mem_append_left _ hx)
  · refine fun h => ⟨hlen, fun x hx => ?_⟩
    rcases List.mem_append.1 hx with hx | hx
    · exact h x hx
    · exact List.eq_of_mem_replicate hx

theorem participantBytes_toText_eq_iff (p : SealLegibilityParticipant) :
    participantBytes p.toText.parse = participantBytes p.toValue ↔ copy32 p.pubkey = zeros 32 := by
  rw [participantBytes_toText, participantBytes_toValue, List.append_left_inj, List.append_left_inj,
    List.append_left_inj, eq_comm]

theorem finalMessageBytes_toText_eq_iff (m : SealLegibilityFinalMessage) :
    finalMessageBytes m.toText.parse = finalMessageBytes m.toValue ↔
      copy32 m.senderPubkey = zeros 32 := by
  rw [finalMessageBytes_toText, finalMessageBytes_toValue, List.append_left_inj,
    List.append_left_inj, eq_comm]

theorem length_participantBytes_toText (p : SealLegibilityParticipant) :
    (participantBytes p.toText.parse).length = (participantBytes p.toValue).length := by
  rw [participantBytes_toText, participantBytes_toValue]
  simp only [List.length_append, length_copy32, zeros, List.length_replicate]

theorem canonicalLegibilityBytes_returned_iff (l : SealLegibility) :
    canonicalLegibilityBytes l.toText.parse = canonicalLegibilityBytes l.toValue ↔
      (∀ p ∈ l.participants, copy32 p.pubkey = zeros 32) ∧
        copy32 l.finalMessage.senderPubkey = zeros 32 := by
  rw [canonicalLegibilityBytes_toText, canonicalLegibilityBytes_toValue, List.append_assoc,
    List.append_assoc _ _ (finalMessageBytes l.finalMessage.toValue), List.append_right_inj,
    ← finalMessageBytes_toText_eq_iff]
  have hparticipants : l.participants.flatMap (fun p => participantBytes p.toText.parse) =
      l.participants.flatMap (fun p => participantBytes p.toValue) ↔
        ∀ p ∈ l.participants, copy32 p.pubkey = zeros 32 := by
    rw [Text.flatMap_eq_flatMap_iff length_participantBytes_toText]
    exact forall₂_congr fun p _ => participantBytes_toText_eq_iff p
  rw [← hparticipants]
  constructor
  · intro h
    refine List.append_inj h ?_
    rw [List.length_flatMap, List.length_flatMap]
    simp only [length_participantBytes_toText]
  · rintro ⟨hp, hm⟩
    rw [hp, hm]

theorem legibility_parts {ext : Externals} {overrides : Bytes → Option AttestationMode}
    {leaves : List RelaySealLeaf} {l : SealLegibility}
    (h : buildSealLegibility ext overrides leaves = some l) :
    l.participants = participantsOf ext overrides leaves ∧
      finalMessageOf leaves = some l.finalMessage := by
  obtain ⟨m, hm, rfl⟩ := Option.map_eq_some_iff.1 h
  exact ⟨rfl, hm⟩

theorem legibility_keys_iff {ext : Externals} {overrides : Bytes → Option AttestationMode}
    {leaves : List RelaySealLeaf} {l : SealLegibility}
    (h : buildSealLegibility ext overrides leaves = some l) (P : Bytes → Prop) :
    ((∀ p ∈ l.participants, P p.pubkey) ∧ P l.finalMessage.senderPubkey) ↔
      ∀ leaf ∈ leaves, P leaf.s2.senderPubkey := by
  obtain ⟨hp, hm⟩ := legibility_parts h
  rw [hp]
  constructor
  · rintro ⟨hall, -⟩ leaf hleaf
    obtain ⟨q, hq, he⟩ := exists_participant ext overrides hleaf
    exact he ▸ hall q hq
  · intro hall
    constructor
    · intro p hmem
      obtain ⟨leaf, hleaf, he⟩ := participant_author hmem
      exact he ▸ hall leaf hleaf
    · obtain ⟨leaf, hleaf, he, -⟩ := finalMessage_leaf hm
      exact he ▸ hall leaf hleaf

/-! ### Through the tables -/

/-- The session has no seal of this type yet, and none that would be served before it. -/
structure NewSeal (db : Tables) (n : SealNotarization) : Prop where
  notarization : ∀ r ∈ db.notarizations, r.sessionId = n.sessionId →
    r.sealType ≠ n.sealType.getD .bilateral ∧ r.sealType ≠ .bilateral
  fields : ∀ f ∈ db.fields, f.sessionId = n.sessionId → f.sealType ≠ n.sealType.getD .bilateral

theorem served_first {db : Tables} {sessionId : Bytes} {n : NotarizationRow} {f : FieldsRow}
    {older : List (NotarizationRow × FieldsRow)} (hjoined : joined db sessionId = older ++ [(n, f)])
    (holder : ∀ r ∈ older, r.1.sealType ≠ .bilateral) {authed : String}
    (hauth : n.participantAPubkey.toHex = authed ∨ n.participantBPubkey.toHex = authed) :
    ∃ cert, processSealCertificateRequest db sessionId authed = .sealCertificate cert ∧
      cert.legibility = parseLegibility f.legibility := by
  have hrows : (joined db sessionId).reverse = (n, f) :: older.reverse := by
    rw [hjoined, List.reverse_append, List.reverse_singleton, List.singleton_append]
  have hnone : older.reverse.filter (fun r => decide (r.1.sealType = .bilateral)) = [] := by
    rw [List.filter_eq_nil_iff]
    intro r hr
    simpa using holder r (List.mem_reverse.1 hr)
  have hhead : ((joined db sessionId).reverse.filter (fun r => decide (r.1.sealType = .bilateral)) ++
      (joined db sessionId).reverse.filter
        (fun r => decide (r.1.sealType ≠ .bilateral))).head? = some (n, f) := by
    rw [hrows]
    by_cases hb : n.sealType = .bilateral
    · rw [List.filter_cons_of_pos (by simpa using hb), List.cons_append, List.head?_cons]
    · rw [List.filter_cons_of_neg (by simpa using hb), hnone, List.nil_append,
        List.filter_cons_of_pos (by simpa using hb), List.head?_cons]
  rw [processSealCertificateRequest, getSealCertificate, hhead]
  refine ⟨_, if_pos hauth, rfl⟩

theorem joined_append {db : Tables} {r : NotarizationRow} {f : FieldsRow}
    (hmatch : f.sessionId = r.sessionId ∧ f.sealType = r.sealType)
    (hn : ∀ n ∈ db.notarizations, n.sessionId = r.sessionId → n.sealType ≠ r.sealType)
    (hf : ∀ g ∈ db.fields, g.sessionId = r.sessionId → g.sealType ≠ r.sealType) :
    joined ⟨db.notarizations ++ [r], db.fields ++ [f]⟩ r.sessionId =
      joined db r.sessionId ++ [(r, f)] := by
  have hown : (db.fields ++ [f]).filter
      (fun g => decide (g.sessionId = r.sessionId ∧ g.sealType = r.sealType)) = [f] := by
    have hnone : db.fields.filter
        (fun g => decide (g.sessionId = r.sessionId ∧ g.sealType = r.sealType)) = [] := by
      rw [List.filter_eq_nil_iff]
      intro g hg
      simpa using hf g hg
    rw [List.filter_append, hnone, List.nil_append, List.filter_singleton]
    simp [hmatch]
  have hold : ∀ n ∈ db.notarizations.filter (fun n => decide (n.sessionId = r.sessionId)),
      (db.fields ++ [f]).filter (fun g => decide (g.sessionId = n.sessionId ∧ g.sealType = n.sealType)) =
        db.fields.filter (fun g => decide (g.sessionId = n.sessionId ∧ g.sealType = n.sealType)) := by
    intro n hmem
    obtain ⟨hmem, hs⟩ := List.mem_filter.1 hmem
    have hne : ¬ (f.sessionId = n.sessionId ∧ f.sealType = n.sealType) := fun h =>
      hn n hmem (of_decide_eq_true hs) (h.2.symm.trans hmatch.2)
    rw [List.filter_append, List.filter_singleton]
    simp [hne]
  rw [joined, joined, List.filter_append, List.filter_singleton, List.flatMap_append]
  congr 1
  · refine List.flatMap_congr fun n hmem => ?_
    rw [hold n hmem]
  · rw [decide_eq_true rfl, cond_true, List.flatMap_singleton, hown, List.map_singleton]

theorem served_after_record {db : Tables} {n : SealNotarization} {leafCount : ℕ} {signer : Bytes}
    (hnew : NewSeal db n) (hcount : n.leafCount = some leafCount)
    (hsigner : n.signerPubkey = some signer) {authed : String}
    (hauth : n.participantAPubkey.toHex = authed ∨ n.participantBPubkey.toHex = authed) :
    ∃ cert, processSealCertificateRequest (recordNotarization db n) n.sessionId authed =
        .sealCertificate cert ∧
      cert.legibility = parseLegibility (legibilityColumn n.legibility) := by
  have hn : ¬ ∃ r ∈ db.notarizations, r.sessionId = n.sessionId ∧
      r.sealType = n.sealType.getD .bilateral :=
    fun ⟨r, hr, hs, ht⟩ => (hnew.notarization r hr hs).1 ht
  have hf : ¬ ∃ f ∈ db.fields, f.sessionId = n.sessionId ∧ f.sealType = n.sealType.getD .bilateral :=
    fun ⟨f, hmem, hs, ht⟩ => hnew.fields f hmem hs ht
  rw [recordNotarization, if_neg hn, recordCertificateFields, hcount, hsigner]
  simp only [if_neg hf]
  refine served_first (joined_append ⟨rfl, rfl⟩ ?_ ?_) ?_ hauth
  · exact fun r hr hs => (hnew.notarization r hr hs).1
  · exact hnew.fields
  · intro r hr
    obtain ⟨m, hm, hr⟩ := List.mem_flatMap.1 hr
    obtain ⟨g, -, rfl⟩ := List.mem_map.1 hr
    obtain ⟨hm, hs⟩ := List.mem_filter.1 hm
    exact (hnew.notarization m hm (of_decide_eq_true hs)).2

theorem served_legibility (l : SealLegibility) :
    parseLegibility (legibilityColumn l.toValue) = l.toText.parse := by
  have h : legibilityColumn l.toValue = l.toValue.toJson := rfl
  rw [h, legibility_toJson]
  rfl

/-- **When a pulled certificate verifies.**  The legibility that is served has the bytes that were
signed, and binds to what was signed, exactly where no leaf was sent by a key. -/
theorem pulled_certificate_verifies_iff (ext : Externals)
    (overrides : Bytes → Option AttestationMode) (sha256 : Bytes → Bytes)
    (leaves : List RelaySealLeaf) (l : SealLegibility) (db : Tables) (n : SealNotarization)
    (leafCount : ℕ) (signer : Bytes) (authed : String)
    (hbuild : buildSealLegibility ext overrides leaves = some l)
    (hlegibility : n.legibility = l.toValue) (hcount : n.leafCount = some leafCount)
    (hsigner : n.signerPubkey = some signer) (hnew : NewSeal db n)
    (hauth : n.participantAPubkey.toHex = authed ∨ n.participantBPubkey.toHex = authed) :
    (∃ cert, processSealCertificateRequest (recordNotarization db n) n.sessionId authed =
        .sealCertificate cert ∧
      canonicalLegibilityBytes cert.legibility = canonicalLegibilityBytes l.toValue ∧
      ∀ tbs, bindLegibilityToTbs sha256 tbs cert.legibility =
        bindLegibilityToTbs sha256 tbs l.toValue) ↔
      ∀ leaf ∈ leaves, ∀ x ∈ leaf.s2.senderPubkey.take 32, x = 0 := by
  have hkeys := legibility_keys_iff hbuild (fun key => copy32 key = zeros 32)
  simp only [copy32_eq_zeros_iff] at hkeys
  obtain ⟨served, hserved, hleg⟩ := served_after_record hnew hcount hsigner hauth
  rw [hlegibility, served_legibility] at hleg
  have hbytes := canonicalLegibilityBytes_returned_iff l
  simp only [copy32_eq_zeros_iff] at hbytes
  rw [← hkeys, ← hbytes]
  constructor
  · rintro ⟨cert, hcert, heq, -⟩
    rw [hserved] at hcert
    cases hcert
    rwa [hleg] at heq
  · intro heq
    refine ⟨served, hserved, by rwa [hleg], fun tbs => ?_⟩
    have hl : bindLegibilityToTbs sha256 tbs l.toValue =
        tbs ++ sha256 (canonicalLegibilityBytes l.toValue) := rfl
    have hr : bindLegibilityToTbs sha256 tbs l.toText.parse =
        tbs ++ sha256 (canonicalLegibilityBytes l.toText.parse) := rfl
    rw [hleg, hl, hr, heq]

namespace Sample

/-- One message by `key 1`, and what a directory says of it. -/
def greeting : List RelaySealLeaf := Interfaces.Sample.chain 1 [] [] [(.msg, [1, 5, 0, 9, 1])]

def greetingLegibility : SealLegibility where
  participants :=
    [{ pubkey := Interfaces.Sample.key 1, contentFrontierSeq := (0 : ℕ), lastAuthoredSeq := (1 : ℕ)
       attestationMode := .absent }]
  finalMessage := { senderPubkey := Interfaces.Sample.key 1, seq := (1 : ℕ), answered := false }
  countersignedThroughSeq := (1 : ℕ)

theorem greeting_legibility :
    buildSealLegibility Interfaces.Sample.externals (fun _ => none) greeting =
      some greetingLegibility := by
  decide +kernel

def greetingNotarization : SealNotarization where
  sessionId := Interfaces.Sample.sid
  sealedRoot := zeros 32
  participantAPubkey := Interfaces.Sample.key 1
  participantBPubkey := Interfaces.Sample.key 2
  closeTimestamp := (7 : ℕ)
  frostSignature := zeros 64
  leafCount := some 1
  signerPubkey := some (Interfaces.Sample.key 3)
  legibility := greetingLegibility.toValue

theorem greeting_new : NewSeal ⟨[], []⟩ greetingNotarization := ⟨by simp, by simp⟩

end Sample

theorem pulled_certificate_of_greeting :
    (∃ cert, processSealCertificateRequest (recordNotarization ⟨[], []⟩ Sample.greetingNotarization)
          Interfaces.Sample.sid (Interfaces.Sample.key 2).toHex = .sealCertificate cert ∧
      canonicalLegibilityBytes cert.legibility =
        canonicalLegibilityBytes Sample.greetingLegibility.toValue ∧
      ∀ tbs, bindLegibilityToTbs id tbs cert.legibility =
        bindLegibilityToTbs id tbs Sample.greetingLegibility.toValue) ↔
      ∀ leaf ∈ Sample.greeting, ∀ x ∈ leaf.s2.senderPubkey.take 32, x = 0 :=
  pulled_certificate_verifies_iff Interfaces.Sample.externals (fun _ => none) id Sample.greeting
    Sample.greetingLegibility ⟨[], []⟩ Sample.greetingNotarization 1 _ _ Sample.greeting_legibility
    rfl rfl rfl Sample.greeting_new (Or.inr rfl)

/-- **The certificate of one message does not verify when it is pulled.** -/
theorem pulled_certificate_loses_keys :
    buildSealLegibility Interfaces.Sample.externals (fun _ => none) Sample.greeting =
        some Sample.greetingLegibility ∧
      ∃ cert, processSealCertificateRequest
          (recordNotarization ⟨[], []⟩ Sample.greetingNotarization) Interfaces.Sample.sid
          (Interfaces.Sample.key 2).toHex = .sealCertificate cert ∧
        canonicalLegibilityBytes cert.legibility ≠
          canonicalLegibilityBytes Sample.greetingLegibility.toValue ∧
        bindLegibilityToTbs id [] cert.legibility ≠
          bindLegibilityToTbs id [] Sample.greetingLegibility.toValue := by
  have hauth : Sample.greetingNotarization.participantAPubkey.toHex =
        (Interfaces.Sample.key 2).toHex ∨
      Sample.greetingNotarization.participantBPubkey.toHex = (Interfaces.Sample.key 2).toHex :=
    Or.inr rfl
  obtain ⟨cert, hcert, hleg⟩ := served_after_record Sample.greeting_new rfl rfl hauth
  have hne : canonicalLegibilityBytes Sample.greetingLegibility.toText.parse ≠
      canonicalLegibilityBytes Sample.greetingLegibility.toValue := by
    rw [Ne, canonicalLegibilityBytes_returned_iff]
    exact fun h => absurd h.2 (by decide)
  have hleg : cert.legibility = Sample.greetingLegibility.toText.parse :=
    hleg.trans (served_legibility Sample.greetingLegibility)
  refine ⟨Sample.greeting_legibility, cert, hcert, ?_, ?_⟩
  · rwa [hleg]
  · rw [hleg]
    exact hne

end Cello.Directory.Seal
