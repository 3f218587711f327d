import Cello.Directory.Seal.Certificate
import Cello.Lib.Uint32

/-!
# What the legibility bytes fix

`canonicalLegibilityBytes` of `packages/directory/src/seal-legibility.ts` as an encoding.  A participant takes
forty-one bytes and the rest sixty-five, so the length tells how many there are and the parts can be cut apart again
(`parts_of_bytes`).  `attests`, `implies_assent` and the disclaimer are constants of every certificate and are not
encoded; `countersigned_through_seq` is computed from the participants.
-/

namespace Cello.Directory.Seal

open Lib Cello.Interfaces

def Seq32 (s : JsNumber) : Prop := ∃ n : ℕ, n < 2 ^ 32 ∧ s = n

structure SealLegibilityParticipant.WellFormed (p : SealLegibilityParticipant) : Prop where
  pubkey : p.pubkey.length = 32
  contentFrontierSeq : Seq32 p.contentFrontierSeq
  lastAuthoredSeq : Seq32 p.lastAuthoredSeq

structure SealLegibility.WellFormed (l : SealLegibility) : Prop where
  participants : ∀ p ∈ l.participants, p.WellFormed
  senderPubkey : l.finalMessage.senderPubkey.length = 32
  seq : Seq32 l.finalMessage.seq

/-- The constants of a certificate. -/
structure SealLegibility.Constant (l : SealLegibility) : Prop where
  attests : l.attests = "receipt"
  impliesAssent : l.impliesAssent = false
  disclaimer : l.disclaimer = sealReceiptDisclaimer

/-- The object comes from `buildSealLegibility`. -/
def SealLegibility.Built (l : SealLegibility) : Prop :=
  ∃ ext overrides leaves, buildSealLegibility ext overrides leaves = some l

/-! ### The parts -/

theorem copy32_of_length {b : Bytes} (h : b.length = 32) : copy32 b = b := by
  rw [copy32, h, Nat.sub_self, List.take_of_length_le h.le]
  exact List.append_nil b

theorem toUint32_natCast {n : ℕ} (hn : n < 2 ^ 32) : (n : JsNumber).toUint32 = n := by
  rw [JsNumber.natCast_eq]
  simp only [JsNumber.toUint32, Rat.num_natCast, Rat.den_natCast, Nat.cast_one, Int.tdiv_one]
  omega

theorem legU32_inj {s t : JsNumber} (hs : Seq32 s) (ht : Seq32 t) (h : legU32 (.num s) = legU32 (.num t)) : s = t := by
  obtain ⟨m, hm, rfl⟩ := hs
  obtain ⟨n, hn, rfl⟩ := ht
  have hwrite : Uint32.write (m : JsNumber).toUint32 = Uint32.write (n : JsNumber).toUint32 := h
  rw [toUint32_natCast hm, toUint32_natCast hn] at hwrite
  rw [Uint32.write_inj hm hn hwrite]

theorem legModeByte_inj {m m' : AttestationMode} (h : legModeByte (.str m.text) = legModeByte (.str m'.text)) :
    m = m' := by
  cases m <;> cases m' <;> first | rfl | exact absurd h (by decide)

theorem length_participantBytes (p : SealLegibilityParticipant) : (participantBytes p.toValue).length = 41 := by
  rw [participantBytes_toValue]
  simp only [List.length_append, length_copy32, List.length_singleton]
  rfl

theorem participantBytes_inj {p p' : SealLegibilityParticipant} (hp : p.WellFormed) (hp' : p'.WellFormed)
    (h : participantBytes p.toValue = participantBytes p'.toValue) : p = p' := by
  rw [participantBytes_toValue, participantBytes_toValue, copy32_of_length hp.pubkey,
    copy32_of_length hp'.pubkey] at h
  obtain ⟨h, hmode⟩ := List.append_inj' h rfl
  obtain ⟨h, hauthored⟩ := List.append_inj' h rfl
  obtain ⟨hkey, hfrontier⟩ := List.append_inj' h rfl
  obtain ⟨pubkey, contentFrontierSeq, lastAuthoredSeq, attestationMode⟩ := p
  obtain rfl : pubkey = p'.pubkey := hkey
  obtain rfl : contentFrontierSeq = p'.contentFrontierSeq :=
    legU32_inj hp.contentFrontierSeq hp'.contentFrontierSeq hfrontier
  obtain rfl : lastAuthoredSeq = p'.lastAuthoredSeq := legU32_inj hp.lastAuthoredSeq hp'.lastAuthoredSeq hauthored
  obtain rfl : attestationMode = p'.attestationMode := legModeByte_inj (List.singleton_inj.1 hmode)
  rfl

theorem finalMessageBytes_inj {m m' : SealLegibilityFinalMessage} (hm : m.senderPubkey.length = 32)
    (hm' : m'.senderPubkey.length = 32) (hseq : Seq32 m.seq) (hseq' : Seq32 m'.seq)
    (h : finalMessageBytes m.toValue = finalMessageBytes m'.toValue) : m = m' := by
  rw [finalMessageBytes_toValue, finalMessageBytes_toValue, copy32_of_length hm, copy32_of_length hm'] at h
  obtain ⟨h, hanswered⟩ := List.append_inj' h rfl
  obtain ⟨hkey, hnumber⟩ := List.append_inj' h rfl
  obtain ⟨senderPubkey, seq, answered⟩ := m
  obtain rfl : senderPubkey = m'.senderPubkey := hkey
  obtain rfl : seq = m'.seq := legU32_inj hseq hseq' hnumber
  obtain ⟨_, _, answered'⟩ := m'
  cases answered <;> cases answered' <;> first | rfl | exact absurd hanswered (by simp [answeredByte])

theorem length_participants (l : List SealLegibilityParticipant) :
    (l.flatMap fun p => participantBytes p.toValue).length = 41 * l.length := by
  induction l with
  | nil => rfl
  | cons p rest ih => rw [List.flatMap_cons, List.length_append, length_participantBytes, ih, List.length_cons]; ring

theorem participants_inj {l l' : List SealLegibilityParticipant} (hl : ∀ p ∈ l, p.WellFormed)
    (hl' : ∀ p ∈ l', p.WellFormed)
    (h : (l.flatMap fun p => participantBytes p.toValue) = l'.flatMap fun p => participantBytes p.toValue) :
    l = l' := by
  induction l generalizing l' with
  | nil =>
    have hlen := congrArg List.length h
    rw [length_participants, length_participants, List.length_nil] at hlen
    exact (List.length_eq_zero_iff.1 (by omega)).symm
  | cons p rest ih =>
    cases l' with
    | nil =>
      have hlen := congrArg List.length h
      rw [length_participants, length_participants, List.length_nil, List.length_cons] at hlen
      omega
    | cons p' rest' =>
      rw [List.flatMap_cons, List.flatMap_cons] at h
      obtain ⟨hfirst, hrest⟩ := List.append_inj h (by rw [length_participantBytes, length_participantBytes])
      rw [participantBytes_inj (hl p List.mem_cons_self) (hl' p' List.mem_cons_self) hfirst,
        ih (fun q hq => hl q (List.mem_cons_of_mem _ hq)) (fun q hq => hl' q (List.mem_cons_of_mem _ hq)) hrest]

/-! ### The whole -/

theorem length_finalMessageBytes (m : SealLegibilityFinalMessage) : (finalMessageBytes m.toValue).length = 37 := by
  rw [finalMessageBytes_toValue]
  simp only [List.length_append, length_copy32, List.length_singleton]
  rfl

theorem parts_of_bytes {l l' : SealLegibility} (hl : l.WellFormed) (hl' : l'.WellFormed)
    (h : canonicalLegibilityBytes l.toValue = canonicalLegibilityBytes l'.toValue) :
    l.participants = l'.participants ∧ l.finalMessage = l'.finalMessage := by
  rw [canonicalLegibilityBytes_toValue, canonicalLegibilityBytes_toValue] at h
  obtain ⟨hfront, hfinal⟩ := List.append_inj' h (by rw [length_finalMessageBytes, length_finalMessageBytes])
  have hcount : ∀ n, (uint32BE n).length = 4 := fun _ => rfl
  obtain ⟨-, hparticipants⟩ := List.append_inj hfront (by rw [List.length_append, List.length_append, hcount, hcount])
  exact ⟨participants_inj hl.participants hl'.participants hparticipants,
    finalMessageBytes_inj hl.senderPubkey hl'.senderPubkey hl.seq hl'.seq hfinal⟩

theorem SealLegibility.Built.constant {l : SealLegibility} (h : l.Built) : l.Constant := by
  obtain ⟨ext, overrides, leaves, h⟩ := h
  obtain ⟨finalMessage, -, rfl⟩ := Option.map_eq_some_iff.1 h
  exact ⟨rfl, rfl, rfl⟩

theorem SealLegibility.Built.countersigned {l : SealLegibility} (h : l.Built) :
    l.countersignedThroughSeq = Seal.countersignedThroughSeq l.participants := by
  obtain ⟨ext, overrides, leaves, h⟩ := h
  obtain ⟨finalMessage, -, rfl⟩ := Option.map_eq_some_iff.1 h
  rfl

theorem eq_of_parts {l l' : SealLegibility} (hl : l.Constant) (hl' : l'.Constant)
    (h : l.participants = l'.participants ∧ l.finalMessage = l'.finalMessage) :
    { l with countersignedThroughSeq := l'.countersignedThroughSeq } = l' := by
  obtain ⟨attests, impliesAssent, disclaimer, participants, finalMessage, countersigned⟩ := l
  obtain ⟨attests', impliesAssent', disclaimer', participants', finalMessage', countersigned'⟩ := l'
  obtain ⟨rfl, rfl, rfl⟩ := hl
  obtain ⟨rfl, rfl, rfl⟩ := hl'
  obtain ⟨rfl, rfl⟩ := h
  rfl

theorem bind_inj {sha256 : Bytes → Bytes} (hlen : ∀ b, (sha256 b).length = 32) {tbs tbs' : Bytes}
    {l l' : SealLegibility}
    (hfree : Set.InjOn sha256 {canonicalLegibilityBytes l.toValue, canonicalLegibilityBytes l'.toValue})
    (h : bindLegibilityToTbs sha256 tbs l.toValue = bindLegibilityToTbs sha256 tbs' l'.toValue) :
    tbs = tbs' ∧ canonicalLegibilityBytes l.toValue = canonicalLegibilityBytes l'.toValue := by
  have hbound : tbs ++ sha256 (canonicalLegibilityBytes l.toValue) =
      tbs' ++ sha256 (canonicalLegibilityBytes l'.toValue) := h
  obtain ⟨htbs, hdigest⟩ := List.append_inj' hbound (by rw [hlen, hlen])
  exact ⟨htbs, hfree (.inl rfl) (.inr rfl) hdigest⟩

/-- **The canonical bytes identify the legibility**, up to `countersigned_through_seq`, and that too for what
`buildSealLegibility` makes; and so does what the seal is signed over. -/
theorem canonicalLegibilityBytes_identify {l l' : SealLegibility} (hl : l.WellFormed) (hl' : l'.WellFormed) :
    (canonicalLegibilityBytes l.toValue = canonicalLegibilityBytes l'.toValue →
      (l.participants = l'.participants ∧ l.finalMessage = l'.finalMessage) ∧
      (l.Constant → l'.Constant → { l with countersignedThroughSeq := l'.countersignedThroughSeq } = l') ∧
      (l.Built → l'.Built → l = l')) ∧
    ∀ (sha256 : Bytes → Bytes) (tbs tbs' : Bytes), (∀ b, (sha256 b).length = 32) →
      Set.InjOn sha256 {canonicalLegibilityBytes l.toValue, canonicalLegibilityBytes l'.toValue} →
      bindLegibilityToTbs sha256 tbs l.toValue = bindLegibilityToTbs sha256 tbs' l'.toValue → l.Built → l'.Built →
        tbs = tbs' ∧ l = l' := by
  have hbuilt : canonicalLegibilityBytes l.toValue = canonicalLegibilityBytes l'.toValue → l.Built → l'.Built →
      l = l' := by
    intro h hb hb'
    have hparts := parts_of_bytes hl hl' h
    have hseq : l.countersignedThroughSeq = l'.countersignedThroughSeq := by
      rw [hb.countersigned, hb'.countersigned, hparts.1]
    rw [← eq_of_parts hb.constant hb'.constant hparts, ← hseq]
  refine ⟨fun h => ⟨parts_of_bytes hl hl' h, fun hc hc' => eq_of_parts hc hc' (parts_of_bytes hl hl' h), hbuilt h⟩, ?_⟩
  intro sha256 tbs tbs' hlen hfree h hb hb'
  obtain ⟨htbs, hbytes⟩ := bind_inj hlen hfree h
  exact ⟨htbs, hbuilt hbytes hb hb'⟩

namespace LegibilityBytes.Sample

/-- One participant, who wrote the second leaf. -/
def legibility (mode : AttestationMode) : SealLegibility where
  participants := [⟨List.replicate 32 1, (1 : ℕ), (2 : ℕ), mode⟩]
  finalMessage := ⟨List.replicate 32 1, (2 : ℕ), false⟩
  countersignedThroughSeq := (2 : ℕ)

theorem wellFormed (mode : AttestationMode) : (legibility mode).WellFormed where
  participants := fun p hp => by
    rw [List.mem_singleton.1 hp]
    exact ⟨List.length_replicate, ⟨1, by decide, rfl⟩, ⟨2, by decide, rfl⟩⟩
  senderPubkey := List.length_replicate
  seq := ⟨2, by decide, rfl⟩

end LegibilityBytes.Sample

open LegibilityBytes.Sample in
/-- Another mode of attestation has other bytes. -/
theorem canonicalLegibilityBytes_tell_modes :
    canonicalLegibilityBytes (legibility .live).toValue ≠ canonicalLegibilityBytes (legibility .absent).toValue := by
  intro h
  have hparts := ((canonicalLegibilityBytes_identify (wellFormed .live) (wellFormed .absent)).1 h).1
  exact absurd hparts.1 (by decide)

end Cello.Directory.Seal
