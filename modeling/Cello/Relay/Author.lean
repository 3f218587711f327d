import Cello.Relay.CounterSubmit

/-!
# One author's messages at the relay

An honest author signs message after message, each linked to the one before it, and
submits the last one again and again until its acknowledgement arrives.  Meanwhile the
other participant submits what it likes, the author's leaves included.  `Reach` is
the set of such histories in which the session stays active.

A retransmission is recognized by its link and its content.  Two messages with the same
content after the same content have the same pair, and then the second is answered with
the acknowledgement of the first.  Where no pair repeats, every message has one place
in the log and every acknowledgement names it (`messages_placed_once`).
-/

namespace Cello.Relay

open Lib Cello.Interfaces

/-! ### The leaves of one author -/

/-- Position and content of the leaves by `author`, the first leaf at position `n`. -/
def authoredFrom (author : Bytes) : ℕ → List RelaySealLeaf → List (ℕ × Bytes)
  | _, [] => []
  | n, l :: rest =>
    if l.s2.senderPubkey = author then (n, l.s2.contentHash) :: authoredFrom author (n + 1) rest
    else authoredFrom author (n + 1) rest

/-- Positions in a log are counted from 1. -/
def authored (author : Bytes) (log : List RelaySealLeaf) : List (ℕ × Bytes) := authoredFrom author 1 log

theorem authoredFrom_append (author : Bytes) (l : RelaySealLeaf) : ∀ (log : List RelaySealLeaf) (n : ℕ),
    authoredFrom author n (log ++ [l]) = authoredFrom author n log ++
      if l.s2.senderPubkey = author then [(n + log.length, l.s2.contentHash)] else [] := by
  intro log
  induction log with
  | nil =>
    intro n
    by_cases h : l.s2.senderPubkey = author <;> simp [authoredFrom, h]
  | cons x rest ih =>
    intro n
    have hlen : n + 1 + rest.length = n + (rest.length + 1) := by omega
    by_cases hx : x.s2.senderPubkey = author <;> simp [authoredFrom, hx, ih, hlen]

theorem authored_append_own {author : Bytes} {log : List RelaySealLeaf} {l : RelaySealLeaf}
    (h : l.s2.senderPubkey = author) :
    authored author (log ++ [l]) = authored author log ++ [(log.length + 1, l.s2.contentHash)] := by
  rw [authored, authoredFrom_append, if_pos h, Nat.add_comm]
  rfl

theorem authored_append_other {author : Bytes} {log : List RelaySealLeaf} {l : RelaySealLeaf}
    (h : l.s2.senderPubkey ≠ author) : authored author (log ++ [l]) = authored author log := by
  rw [authored, authoredFrom_append, if_neg h, List.append_nil]
  rfl

theorem le_of_mem_authoredFrom {author : Bytes} : ∀ {log : List RelaySealLeaf} {n : ℕ} {e : ℕ × Bytes},
    e ∈ authoredFrom author n log → n ≤ e.1 := by
  intro log
  induction log with
  | nil => intro n e h; simp [authoredFrom] at h
  | cons x rest ih =>
    intro n e h
    rw [authoredFrom] at h
    split at h
    · rcases List.mem_cons.1 h with rfl | h
      · exact le_rfl
      · exact (Nat.le_succ n).trans (ih h)
    · exact (Nat.le_succ n).trans (ih h)

theorem nodup_positions (author : Bytes) : ∀ (log : List RelaySealLeaf) (n : ℕ),
    ((authoredFrom author n log).map Prod.fst).Nodup := by
  intro log
  induction log with
  | nil => intro n; simp [authoredFrom]
  | cons x rest ih =>
    intro n
    rw [authoredFrom]
    split
    · rw [List.map_cons, List.nodup_cons]
      refine ⟨fun hmem => ?_, ih (n + 1)⟩
      obtain ⟨e, he, hn⟩ := List.mem_map.1 hmem
      exact absurd (le_of_mem_authoredFrom he) (by omega)
    · exact ih (n + 1)

theorem lastOwnLeaf_eq (author : Bytes) (log : List RelaySealLeaf) :
    lastOwnLeaf log author = (authored author log).getLast?.map Prod.snd := by
  induction log using List.reverseRecOn with
  | nil => rfl
  | append_singleton log l ih =>
    by_cases h : l.s2.senderPubkey = author
    · rw [authored_append_own h]
      simp [lastOwnLeaf, h]
    · rw [authored_append_other h, ← ih]
      simp [lastOwnLeaf, h]

theorem alreadyHeld_iff (author contentHash : Bytes) (log : List RelaySealLeaf) :
    alreadyHeld log author contentHash = true ↔ contentHash ∈ (authored author log).map Prod.snd := by
  induction log using List.reverseRecOn with
  | nil => simp [alreadyHeld, authored, authoredFrom]
  | append_singleton log l ih =>
    have hsplit : alreadyHeld (log ++ [l]) author contentHash = true ↔
        alreadyHeld log author contentHash = true ∨
          (l.s2.senderPubkey = author ∧ l.s2.contentHash = contentHash) := by
      simp [alreadyHeld]
    by_cases h : l.s2.senderPubkey = author
    · rw [hsplit, ih, authored_append_own h]
      simp [h, eq_comm]
    · rw [hsplit, ih, authored_append_other h]
      simp [h]

/-! ### Histories -/

/-- The link of message number `i`: the content before it, or the start of the session. -/
def link (genesisRoot : Bytes) (contents : ℕ → Bytes) : ℕ → Bytes
  | 0 => genesisRoot
  | i + 1 => contents i

/-- The relay's session, and how far the author is. -/
structure World where
  session : RelaySessionState
  /-- Messages the author has signed. -/
  signed : ℕ
  /-- Messages whose acknowledgement has arrived. -/
  acked : ℕ
  /-- Messages of which the relay has handled a submit. -/
  handled : ℕ
  /-- Every acknowledgement sent for a submit of the author, with the number of its message. -/
  issued : List (ℕ × HashSubmitAck)

def acksOf (out : List Output) : List HashSubmitAck :=
  out.filterMap fun
    | .ack a => some a
    | _ => none

def SignerWorks (ext : RelayExternals) (mom : Moment) : Prop :=
  ext.hasSigningKey = true → ext.relayId.isSome ∧ ∀ m, (mom.sign m).isSome

section

variable (ext : RelayExternals) (assignment : SessionAssignment) (genesisRoot author : Bytes)
  (contents : ℕ → Bytes)

def initialWorld : World := ⟨recordSession assignment genesisRoot, 0, 0, 0, []⟩

def OnlySigned (signed : ℕ) (frame : HashSubmit) : Prop :=
  ext.verify author frame.structure1Cbor frame.senderSignature = true →
    ∀ s1, decodeStructure1 ext frame.structure1Cbor = some s1 →
      ∃ j < signed, s1.prevOwnHash = link genesisRoot contents j ∧ s1.contentHash = contents j

/-- One step of a history. -/
inductive AuthorStep : World → World → Prop
  /-- The next message is signed once the one before it is acknowledged. -/
  | sign (w : World) (h : w.signed = w.acked) :
      AuthorStep w { w with signed := w.signed + 1 }
  /-- A submit of the unacknowledged message, the first or a later one, reaches the relay. -/
  | submit (w : World) (h : w.signed = w.acked + 1) (mom : Moment) (hsign : SignerWorks ext mom)
      (frame : HashSubmit) (s1 : Structure1) (kind : LeafKind)
      (hleaf : HonestLeaf ext w.session author frame s1 kind)
      (hlink : s1.prevOwnHash = link genesisRoot contents w.acked)
      (hcontent : s1.contentHash = contents w.acked) (st : RelaySessionState)
      (hst : (processHashSubmitLocked ext mom (some w.session) author frame).session = some st)
      (hactive : st.status = .active) :
      AuthorStep w { w with
        session := st
        handled := w.acked + 1
        issued := w.issued ++
          (acksOf (processHashSubmitLocked ext mom (some w.session) author frame).out).map
            fun a => (w.acked, a) }
  /-- An acknowledgement of the open message arrives. -/
  | deliver (w : World) (a : HashSubmitAck) (h : (w.acked, a) ∈ w.issued) :
      AuthorStep w { w with acked := w.acked + 1 }
  /-- A submit on another connection. -/
  | other (w : World) (mom : Moment) (sender : Bytes) (hsender : sender ≠ author) (frame : HashSubmit)
      (hsigned : OnlySigned ext genesisRoot author contents w.signed frame) (st : RelaySessionState)
      (hst : (processHashSubmitLocked ext mom (some w.session) sender frame).session = some st)
      (hactive : st.status = .active) :
      AuthorStep w { w with session := st }

/-- The histories of an honest author in a session that stays active. -/
def Reach (w : World) : Prop :=
  Relation.ReflTransGen (AuthorStep ext genesisRoot author contents)
    (initialWorld assignment genesisRoot) w

end

/-- **Every message the relay handled has one place, and every acknowledgement names it.** -/
structure PlacedOnce (author : Bytes) (contents : ℕ → Bytes) (w : World) : Prop where
  /-- The author's leaves are its messages, in order. -/
  messages : (authored author w.session.leafLog).map Prod.snd =
    (List.range (authored author w.session.leafLog).length).map contents
  /-- They stand at different positions. -/
  positions : ((authored author w.session.leafLog).map Prod.fst).Nodup
  /-- A handled message has its leaf. -/
  handled : w.handled ≤ (authored author w.session.leafLog).length
  /-- No leaf is there that the author did not sign. -/
  signed : (authored author w.session.leafLog).length ≤ w.signed
  /-- An acknowledgement for message `i` names the position that holds it. -/
  acks : ∀ i a, (i, a) ∈ w.issued →
    (authored author w.session.leafLog)[i]? = some (a.sequenceNumber, contents i)

/-- No message has the link and the content of another. -/
def NoRepeat (genesisRoot : Bytes) (contents : ℕ → Bytes) (n : ℕ) : Prop :=
  ∀ i j, i < n → j < n → link genesisRoot contents i = link genesisRoot contents j →
    contents i = contents j → i = j

/-! ### What a submit does to an active session -/

theorem acksOf_append (a b : List Output) : acksOf (a ++ b) = acksOf a ++ acksOf b :=
  List.filterMap_append

theorem acksOf_eq_nil {out : List Output} (h : ∀ o ∈ out, ¬o.IsAck) : acksOf out = [] := by
  refine List.filterMap_eq_nil_iff.2 fun o ho => ?_
  cases o with
  | ack a => exact absurd ⟨a, rfl⟩ (h _ ho)
  | _ => rfl

theorem acksOf_sealTrigger (ext : RelayExternals) (mom : Moment) (kind : LeafKind)
    (st : RelaySessionState) : acksOf (sealTrigger ext mom kind st).out = [] := by
  refine acksOf_eq_nil fun o ho => ?_
  rw [sealTrigger] at ho
  split at ho
  · rcases maybeProcessSeal_cases ext mom.directories st with ⟨-, he⟩ | ⟨-, he⟩
    · simp [he] at ho
    · rw [he] at ho
      obtain ⟨c, -, rfl⟩ := List.mem_map.1 ho
      simp [Output.IsAck]
  · simp at ho

/-- The envelope of the next leaf. -/
def envelope (st : RelaySessionState) (frame : HashSubmit) (s1 : Structure1) : Structure2 where
  sequenceNumber := ((st.seqCounter + 1 : ℕ) : JsNumber)
  senderPubkey := s1.senderPubkey
  contentHash := s1.contentHash
  senderSignature := frame.senderSignature
  prevRoot := st.runningRoot

/-- A leaf sequenced in a session that is active afterwards. -/
structure Sequenced (ext : RelayExternals) (mom : Moment) (st : RelaySessionState) (sender : Bytes)
    (frame : HashSubmit) (w : Witnessed) (st' : RelaySessionState) : Prop where
  passed : Passed ext mom st sender frame w
  fresh : st.issuedAcks.get (submissionKey sender w.s1) = none
  linked : w.s1.prevOwnHash = expectedOwn st sender
  record : SameRecord (committed ext mom st sender frame w (envelope st frame w.s1)) st'

section

variable {ext : RelayExternals} {mom : Moment} {st st' : RelaySessionState} {sender : Bytes}
  {frame : HashSubmit} {w : Witnessed}

theorem submit_active (hbuild : BuildsStructure2 ext)
    (hst : (processHashSubmitLocked ext mom (some st) sender frame).session = some st')
    (hactive : st'.status = .active) :
    st' = st ∨ ∃ w, Sequenced ext mom st sender frame w st' := by
  have hsub := submitted ext mom st sender frame
  generalize processHashSubmitLocked ext mom (some st) sender frame = h at *
  cases hsub with
  | refused out hquiet => exact Or.inl (Option.some.inj hst).symm
  | replayed w hw already hget => exact Or.inl (Option.some.inj hst).symm
  | diverged w hw hget hlink =>
    obtain rfl := Option.some.inj hst
    simp [diverge] at hactive
  | sequenced w hw hget hlink s2 hs2 sent hsent =>
    rw [hbuild _ _ _ _ _ frame.signature_length] at hs2
    obtain rfl := Option.some.inj hs2
    exact Or.inr ⟨w, hw, hget, hlink, sealTrigger_sameRecord hst⟩

theorem honest_submit_active (hbuild : BuildsStructure2 ext) (hw : Passed ext mom st sender frame w)
    (hst : (processHashSubmitLocked ext mom (some st) sender frame).session = some st')
    (hactive : st'.status = .active) :
    (∃ already, st.issuedAcks.get (submissionKey sender w.s1) = some already ∧ st' = st ∧
        acksOf (processHashSubmitLocked ext mom (some st) sender frame).out = [already]) ∨
      (Sequenced ext mom st sender frame w st' ∧
        acksOf (processHashSubmitLocked ext mom (some st) sender frame).out =
          [ackFrame ext mom w.s1.contentHash (st.seqCounter + 1)
            (ext.encodeStructure2 (envelope st frame w.s1))]) := by
  have hs2 : ext.buildStructure2 (st.seqCounter + 1) w.s1.senderPubkey w.s1.contentHash
      frame.senderSignature st.runningRoot = some (envelope st frame w.s1) :=
    hbuild _ _ _ _ _ frame.signature_length
  have halerts := acksOf_eq_nil fun o ho => (quiet_counterSubmitAlerts st sender w.author o ho).1
  rw [processHashSubmitLocked_of_passed hw, sequenceLeaf] at hst ⊢
  cases hget : st.issuedAcks.get (submissionKey sender w.s1) with
  | some already =>
    simp only [hget] at hst ⊢
    exact Or.inl ⟨already, rfl, (Option.some.inj hst).symm, by rw [acksOf_append, halerts]; rfl⟩
  | none =>
    by_cases hlink : w.s1.prevOwnHash = expectedOwn st sender
    · simp only [hget, hlink, ne_eq, not_true_eq_false, if_false, hs2] at hst ⊢
      refine Or.inr ⟨⟨hw, hget, hlink, sealTrigger_sameRecord hst⟩, ?_⟩
      rw [acksOf_append, halerts, acksOf_append, acksOf_sealTrigger]
      rfl
    · simp only [hget, hlink, ne_eq, not_false_eq_true, if_true] at hst
      obtain rfl := Option.some.inj hst
      simp [diverge] at hactive

theorem Sequenced.leafLog (h : Sequenced ext mom st sender frame w st') :
    st'.leafLog = st.leafLog ++ [witnessedLeaf frame w (envelope st frame w.s1)] :=
  h.record.leafLog.trans (committed_leafLog ..)

theorem Sequenced.claimed (h : Sequenced ext mom st sender frame w st') :
    w.s1.senderPubkey = w.author := (identify_ok h.passed.identified).2.2.2.2.1

theorem Sequenced.authored_own (h : Sequenced ext mom st sender frame w st') :
    authored w.author st'.leafLog =
      authored w.author st.leafLog ++ [(st.leafLog.length + 1, w.s1.contentHash)] := by
  rw [h.leafLog]
  exact authored_append_own h.claimed

theorem Sequenced.authored_other (h : Sequenced ext mom st sender frame w st') {author : Bytes}
    (hne : w.author ≠ author) : authored author st'.leafLog = authored author st.leafLog := by
  rw [h.leafLog]
  exact authored_append_other fun he => hne (h.claimed.symm.trans he)

theorem ackFrame_sequenceNumber (ext : RelayExternals) (mom : Moment) (contentHash : Bytes) (seq : ℕ)
    (s2Cbor : Bytes) : (ackFrame ext mom contentHash seq s2Cbor).sequenceNumber = seq := by
  rw [ackFrame]
  split
  · split <;> rfl
  · rfl

theorem ackIsUsable_of_signerWorks (hsign : SignerWorks ext mom) (contentHash : Bytes) (seq : ℕ)
    (s2Cbor : Bytes) : ackIsUsable ext (ackFrame ext mom contentHash seq s2Cbor) = true := by
  cases hk : ext.hasSigningKey with
  | false => simp [ackIsUsable, hk]
  | true =>
    obtain ⟨hid, hworks⟩ := hsign hk
    obtain ⟨relayId, hid⟩ := Option.isSome_iff_exists.1 hid
    obtain ⟨signature, hsig⟩ :=
      Option.isSome_iff_exists.1 (hworks (ext.buildRelayAckTbs contentHash seq mom.now))
    simp [ackIsUsable, ackFrame, hk, hid, hsig]

theorem Sequenced.issuedAcks (h : Sequenced ext mom st sender frame w st')
    (hsign : SignerWorks ext mom) : st'.issuedAcks = st.issuedAcks.set (submissionKey sender w.s1)
      (ackFrame ext mom w.s1.contentHash (st.seqCounter + 1)
        (ext.encodeStructure2 (envelope st frame w.s1))) := by
  rw [h.record.issuedAcks, committed, recordAck, if_pos (ackIsUsable_of_signerWorks hsign ..)]
  rfl

theorem Sequenced.issuedAcks_other (h : Sequenced ext mom st sender frame w st') {author : Bytes}
    (hne : sender ≠ author) (prev contentHash : Bytes) :
    st'.issuedAcks.get (author, prev, contentHash) = st.issuedAcks.get (author, prev, contentHash) := by
  have hkey : (author, prev, contentHash) ≠ submissionKey sender w.s1 :=
    fun he => hne (Prod.mk.inj he).1.symm
  rw [h.record.issuedAcks, committed, recordAck]
  split
  · exact OrdMap.get_set_of_ne _ _ hkey
  · rfl

end

/-! ### The invariant -/

/-- The session is fresh or goes on, numbered by its log. -/
structure Ongoing (assignment : SessionAssignment) (genesisRoot : Bytes) (st : RelaySessionState) :
    Prop where
  active : st.status = .active
  awaitingReplay : st.awaitingReplay = false
  assignment : st.assignment = assignment
  genesis : st.genesisPrevRoot = genesisRoot
  counter : st.seqCounter = st.leafLog.length

theorem Sequenced.ongoing {ext : RelayExternals} {mom : Moment} {st st' : RelaySessionState}
    {sender : Bytes} {frame : HashSubmit} {w : Witnessed} {assignment : SessionAssignment}
    {genesisRoot : Bytes} (h : Sequenced ext mom st sender frame w st')
    (ho : Ongoing assignment genesisRoot st) (hactive : st'.status = .active) :
    Ongoing assignment genesisRoot st' where
  active := hactive
  awaitingReplay := by
    rw [h.record.awaitingReplay, committed_awaitingReplay]
    exact ho.awaitingReplay
  assignment := by
    rw [h.record.assignment, committed_assignment]
    exact ho.assignment
  genesis := by
    rw [h.record.genesisPrevRoot, committed_genesisPrevRoot]
    exact ho.genesis
  counter := by
    rw [h.record.seqCounter, committed_seqCounter, h.leafLog, ho.counter]
    simp

/-- What holds of every history in which no pair repeats. -/
structure AuthorInv (assignment : SessionAssignment) (genesisRoot author : Bytes)
    (contents : ℕ → Bytes) (w : World) : Prop
    extends PlacedOnce author contents w where
  ongoing : Ongoing assignment genesisRoot w.session
  acked_le : w.acked ≤ (authored author w.session.leafLog).length
  signed_le : w.signed ≤ w.acked + 1
  /-- A recorded acknowledgement is that of a message, and names its place. -/
  recorded : ∀ prev contentHash a, w.session.issuedAcks.get (author, prev, contentHash) = some a →
    ∃ i, prev = link genesisRoot contents i ∧ contentHash = contents i ∧
      (authored author w.session.leafLog)[i]? = some (a.sequenceNumber, contents i)
  /-- A message placed by the other side does not repeat the content it is linked to. -/
  unrecorded : ∀ i < (authored author w.session.leafLog).length,
    w.session.issuedAcks.get (author, link genesisRoot contents i, contents i) = none →
      contents i ≠ link genesisRoot contents i

section

variable {ext : RelayExternals} {assignment : SessionAssignment} {genesisRoot author : Bytes} {mom : Moment}
  {frame : HashSubmit} {st' : RelaySessionState} {st : RelaySessionState} {sender : Bytes}
  {contents : ℕ → Bytes} {w : World}

theorem authorInv_initial (hprior : assignment.priorRelayId = none) :
    AuthorInv assignment genesisRoot author contents (initialWorld assignment genesisRoot) where
  messages := rfl
  positions := List.nodup_nil
  handled := le_rfl
  signed := le_rfl
  acks := by simp [initialWorld]
  ongoing := ⟨rfl, by simp [initialWorld, recordSession, hprior], rfl, rfl, rfl⟩
  acked_le := le_rfl
  signed_le := Nat.zero_le _
  recorded := by simp [initialWorld, recordSession]
  unrecorded := by simp [initialWorld, recordSession, authored, authoredFrom]

theorem getElem?_append_of_some {α : Type*} {l : List α} {i : ℕ} {x : α} (h : l[i]? = some x) (y : α) :
    (l ++ [y])[i]? = some x := by
  rw [List.getElem?_append_left (List.getElem?_eq_some_iff.1 h).1]
  exact h

theorem messages_append {own : List (ℕ × Bytes)} {k n : ℕ}
    (h : own.map Prod.snd = (List.range own.length).map contents) (hk : own.length = k) :
    (own ++ [(n, contents k)]).map Prod.snd =
      (List.range (own ++ [(n, contents k)]).length).map contents := by
  simp [h, hk, List.range_succ]

theorem witness_own
    (hauthor : author = st.assignment.participantA ∨ author = st.assignment.participantB)
    (hv : ext.verify author frame.structure1Cbor frame.senderSignature = true) :
    witnessLeafSignature ext (expectedKeys st author) frame.structure1Cbor frame.senderSignature =
      some author := by
  rw [witnessLeafSignature, expectedKeys]
  by_cases hb : author = st.assignment.participantB
  · rw [if_pos hb, ← hb]
    simp [hv]
  · rw [if_neg hb, ← hauthor.resolve_right hb]
    simp [hv]

variable (h : AuthorInv assignment genesisRoot author contents w)

include h

theorem AuthorInv.expectedOwn_succ {k : ℕ} (hk : (authored author w.session.leafLog).length = k + 1) :
    expectedOwn w.session author = contents k := by
  rw [expectedOwn, lastOwnLeaf_eq, ← List.getLast?_map, h.messages, hk, List.range_succ]
  simp

theorem AuthorInv.length_eq_acked {s1 : Structure1} {kind : LeafKind} (hsigned : w.signed = w.acked + 1)
    (hlink : s1.prevOwnHash = link genesisRoot contents w.acked)
    (hcontent : s1.contentHash = contents w.acked)
    (hseq : Sequenced ext mom w.session author frame ⟨s1, author, kind⟩ st') :
    (authored author w.session.leafLog).length = w.acked := by
  have hle := h.acked_le
  have hle' := h.signed
  rcases Nat.lt_or_ge (authored author w.session.leafLog).length (w.acked + 1) with hlt | hge
  · omega
  -- otherwise the message has its leaf already, put there by the other side
  have hlen : (authored author w.session.leafLog).length = w.acked + 1 := by omega
  have hlast := h.expectedOwn_succ hlen
  have hself : contents w.acked = link genesisRoot contents w.acked := by
    rw [← hlast, ← hlink]
    exact hseq.linked.symm
  have hnone := hseq.fresh
  rw [submissionKey] at hnone
  simp only [hlink, hcontent] at hnone
  exact absurd hself (h.unrecorded w.acked (by omega) hnone)

theorem AuthorInv.sign (heq : w.signed = w.acked) :
    AuthorInv assignment genesisRoot author contents { w with signed := w.signed + 1 } :=
  { h with
    signed := h.signed.trans (Nat.le_succ _)
    signed_le := by
      show w.signed + 1 ≤ w.acked + 1
      omega }

theorem AuthorInv.deliver {a : HashSubmitAck} (ha : (w.acked, a) ∈ w.issued) :
    AuthorInv assignment genesisRoot author contents { w with acked := w.acked + 1 } :=
  { h with
    acked_le := (List.getElem?_eq_some_iff.1 (h.acks _ _ ha)).1
    signed_le := h.signed_le.trans (Nat.le_succ _) }

theorem AuthorInv.replayed (hrepeat : NoRepeat genesisRoot contents w.signed)
    (hsigned : w.signed = w.acked + 1) {already : HashSubmitAck} (hget : w.session.issuedAcks.get
      (author, link genesisRoot contents w.acked, contents w.acked) = some already) :
    AuthorInv assignment genesisRoot author contents { w with
      handled := w.acked + 1, issued := w.issued ++ [(w.acked, already)] } := by
  obtain ⟨i, hlink, hcontent, hi⟩ := h.recorded _ _ _ hget
  have hlt := (List.getElem?_eq_some_iff.1 hi).1
  have hle := h.signed
  obtain rfl : i = w.acked := hrepeat i w.acked (by omega) (by omega) hlink.symm hcontent.symm
  refine { h with handled := hlt, acks := fun i a hmem => ?_ }
  rcases List.mem_append.1 hmem with hmem | hmem
  · exact h.acks i a hmem
  · obtain ⟨rfl, rfl⟩ := Prod.mk.inj (List.mem_singleton.1 hmem)
    exact hi

theorem AuthorInv.submit_sequenced (hsign : SignerWorks ext mom) {s1 : Structure1} {kind : LeafKind}
    (hsigned : w.signed = w.acked + 1) (hlink : s1.prevOwnHash = link genesisRoot contents w.acked)
    (hcontent : s1.contentHash = contents w.acked)
    (hseq : Sequenced ext mom w.session author frame ⟨s1, author, kind⟩ st')
    (hactive : st'.status = .active) :
    AuthorInv assignment genesisRoot author contents { w with
      session := st', handled := w.acked + 1
      issued := w.issued ++ [(w.acked, ackFrame ext mom s1.contentHash (w.session.seqCounter + 1)
        (ext.encodeStructure2 (envelope w.session frame s1)))] } := by
  have hk := h.length_eq_acked hsigned hlink hcontent hseq
  have hown : authored author st'.leafLog =
      authored author w.session.leafLog ++ [(w.session.leafLog.length + 1, contents w.acked)] := by
    have := hseq.authored_own
    simp only [hcontent] at this
    exact this
  have hlen : (authored author st'.leafLog).length = w.acked + 1 := by simp [hown, hk]
  -- the new leaf is where the new acknowledgement says
  have hnew : (authored author st'.leafLog)[w.acked]? = some ((ackFrame ext mom s1.contentHash
      (w.session.seqCounter + 1) (ext.encodeStructure2 (envelope w.session frame s1))).sequenceNumber,
        contents w.acked) := by
    rw [hown, ackFrame_sequenceNumber, h.ongoing.counter, ← hk, List.getElem?_concat_length, hk]
  have hold : ∀ {i : ℕ} {e : ℕ × Bytes}, (authored author w.session.leafLog)[i]? = some e →
      (authored author st'.leafLog)[i]? = some e := by
    intro i e hi
    rw [hown]
    exact getElem?_append_of_some hi _
  have hacks := hseq.issuedAcks hsign
  simp only [submissionKey, hlink] at hacks
  refine
    { messages := by
        simp only [hown]
        exact messages_append h.messages hk
      positions := nodup_positions _ _ _
      handled := hlen.ge
      signed := by simp only [hlen]; omega
      acks := fun i a hmem => ?_
      ongoing := hseq.ongoing h.ongoing hactive
      acked_le := by simp only [hlen]; omega
      signed_le := h.signed_le
      recorded := fun prev ch a hget => ?_
      unrecorded := fun i hi hget => ?_ }
  · rcases List.mem_append.1 hmem with hmem | hmem
    · exact hold (h.acks i a hmem)
    · obtain ⟨rfl, rfl⟩ := Prod.mk.inj (List.mem_singleton.1 hmem)
      exact hnew
  · simp only [hacks, OrdMap.get_set] at hget
    split at hget
    · rename_i he
      obtain ⟨rfl, rfl⟩ := Prod.mk.inj (Prod.mk.inj he).2
      obtain rfl := Option.some.inj hget
      exact ⟨w.acked, rfl, hcontent, hnew⟩
    · obtain ⟨i, hp, hc, hi⟩ := h.recorded prev ch a hget
      exact ⟨i, hp, hc, hold hi⟩
  · simp only [hacks, OrdMap.get_set] at hget
    split at hget
    · simp at hget
    · rename_i he
      simp only [hlen] at hi
      rcases Nat.lt_succ_iff_lt_or_eq.1 hi with hi | rfl
      · exact h.unrecorded i (by omega) hget
      · exact absurd (by rw [hcontent]) he

/-- **A submit of the author keeps the invariant.** -/
theorem AuthorInv.submit (hbuild : BuildsStructure2 ext)
    (hauthor : author = assignment.participantA ∨ author = assignment.participantB)
    (hrepeat : NoRepeat genesisRoot contents w.signed) (hsigned : w.signed = w.acked + 1)
    (hsign : SignerWorks ext mom) {s1 : Structure1} {kind : LeafKind}
    (hleaf : HonestLeaf ext w.session author frame s1 kind)
    (hlink : s1.prevOwnHash = link genesisRoot contents w.acked)
    (hcontent : s1.contentHash = contents w.acked)
    (hst : (processHashSubmitLocked ext mom (some w.session) author frame).session = some st')
    (hactive : st'.status = .active) :
    AuthorInv assignment genesisRoot author contents { w with
      session := st', handled := w.acked + 1
      issued := w.issued ++
        (acksOf (processHashSubmitLocked ext mom (some w.session) author frame).out).map
          fun a => (w.acked, a) } := by
  have hauthor' : author = w.session.assignment.participantA ∨
      author = w.session.assignment.participantB := by
    rw [h.ongoing.assignment]
    exact hauthor
  have hpassed : Passed ext mom w.session author frame ⟨s1, author, kind⟩ :=
    hleaf.passed h.ongoing.active h.ongoing.awaitingReplay hauthor'
      (witness_own hauthor' hleaf.signed) fun hne => absurd rfl hne
  rcases honest_submit_active hbuild hpassed hst hactive with
    ⟨already, hget, rfl, hacks⟩ | ⟨hseq, hacks⟩
  · simp only [submissionKey, hlink, hcontent] at hget
    rw [hacks]
    exact h.replayed hrepeat hsigned hget
  · rw [hacks]
    exact h.submit_sequenced hsign hsigned hlink hcontent hseq hactive

theorem AuthorInv.handed_over (hsender : sender ≠ author) {wt : Witnessed}
    (hsigned : OnlySigned ext genesisRoot author contents w.signed frame)
    (hseq : Sequenced ext mom w.session sender frame wt st') (hwt : wt.author = author) :
    wt.s1.contentHash = contents (authored author w.session.leafLog).length ∧
      (authored author w.session.leafLog).length < w.signed ∧
      contents (authored author w.session.leafLog).length ∉
        (authored author w.session.leafLog).map Prod.snd := by
  obtain ⟨hdec, hwitness, -, -, -, hnew⟩ := identify_ok hseq.passed.identified
  rw [hwt] at hwitness hnew
  have hv := List.find?_some hwitness
  obtain ⟨j, hj, -, hc⟩ := hsigned hv wt.s1 hdec
  have hfresh : contents j ∉ (authored author w.session.leafLog).map Prod.snd := by
    rw [← hc, ← alreadyHeld_iff, hnew hsender]
    simp
  have hge : (authored author w.session.leafLog).length ≤ j := by
    by_contra hlt
    rw [h.messages] at hfresh
    exact hfresh (List.mem_map.2 ⟨j, List.mem_range.2 (by omega), rfl⟩)
  have h1 := h.signed_le
  have h2 := h.acked_le
  obtain rfl : j = (authored author w.session.leafLog).length := by omega
  exact ⟨hc, hj, hfresh⟩

/-- **A submit on another connection keeps the invariant.** -/
theorem AuthorInv.other (hbuild : BuildsStructure2 ext)
    (hideal : ∀ i < w.signed, contents i ≠ genesisRoot) (hsender : sender ≠ author)
    (hsigned : OnlySigned ext genesisRoot author contents w.signed frame)
    (hst : (processHashSubmitLocked ext mom (some w.session) sender frame).session = some st')
    (hactive : st'.status = .active) :
    AuthorInv assignment genesisRoot author contents { w with session := st' } := by
  rcases submit_active hbuild hst hactive with rfl | ⟨wt, hseq⟩
  · exact h
  have hacks := hseq.issuedAcks_other hsender
  by_cases hwt : wt.author = author
  · obtain ⟨hcontent, hlt, hfresh⟩ := h.handed_over hsender hsigned hseq hwt
    have hown := hseq.authored_own
    rw [hwt, hcontent] at hown
    have hlen : (authored author st'.leafLog).length =
        (authored author w.session.leafLog).length + 1 := by simp [hown]
    have hold : ∀ {i : ℕ} {e : ℕ × Bytes}, (authored author w.session.leafLog)[i]? = some e →
        (authored author st'.leafLog)[i]? = some e := by
      intro i e hi
      rw [hown]
      exact getElem?_append_of_some hi _
    refine
      { messages := by
          simp only [hown]
          exact messages_append h.messages rfl
        positions := nodup_positions _ _ _
        handled := by simp only [hlen]; exact h.handled.trans (Nat.le_succ _)
        signed := by simp only [hlen]; exact hlt
        acks := fun i a hmem => hold (h.acks i a hmem)
        ongoing := hseq.ongoing h.ongoing hactive
        acked_le := by simp only [hlen]; exact h.acked_le.trans (Nat.le_succ _)
        signed_le := h.signed_le
        recorded := fun prev ch a hget => ?_
        unrecorded := fun i hi hget => ?_ }
    · rw [hacks] at hget
      obtain ⟨i, hp, hc, hi⟩ := h.recorded prev ch a hget
      exact ⟨i, hp, hc, hold hi⟩
    · rw [hacks] at hget
      simp only [hlen] at hi
      rcases Nat.lt_succ_iff_lt_or_eq.1 hi with hi | rfl
      · exact h.unrecorded i hi hget
      · -- the leaf before it is held, so its content is another one
        cases hk : (authored author w.session.leafLog).length with
        | zero =>
          have h0 := hideal _ hlt
          rw [hk] at h0
          exact h0
        | succ k =>
          intro he
          rw [hk, he, h.messages, hk] at hfresh
          exact hfresh (List.mem_map.2 ⟨k, by simp, rfl⟩)
  · have hown := hseq.authored_other hwt
    refine
      { messages := by simp only [hown]; exact h.messages
        positions := nodup_positions _ _ _
        handled := by simp only [hown]; exact h.handled
        signed := by simp only [hown]; exact h.signed
        acks := by simp only [hown]; exact h.acks
        ongoing := hseq.ongoing h.ongoing hactive
        acked_le := by simp only [hown]; exact h.acked_le
        signed_le := h.signed_le
        recorded := by simp only [hown, hacks]; exact h.recorded
        unrecorded := by simp only [hown, hacks]; exact h.unrecorded }

end

theorem signed_mono {ext : RelayExternals} {genesisRoot author : Bytes} {contents : ℕ → Bytes}
    {w w' : World} (h : AuthorStep ext genesisRoot author contents w w') : w.signed ≤ w'.signed := by
  cases h with
  | sign => exact Nat.le_succ _
  | submit => exact le_rfl
  | deliver => exact le_rfl
  | other => exact le_rfl

/-- **Where no pair of link and content repeats, every message has one place.**  In every history of an
honest author in a session that stays active, whatever the other side submits in between: the author's
leaves are its messages in order, each message the relay handled has exactly one of them, and every
acknowledgement of a message names its position. -/
theorem messages_placed_once (ext : RelayExternals) (hbuild : BuildsStructure2 ext)
    (assignment : SessionAssignment) (hprior : assignment.priorRelayId = none)
    (genesisRoot author : Bytes)
    (hauthor : author = assignment.participantA ∨ author = assignment.participantB)
    (contents : ℕ → Bytes) (w : World) (hreach : Reach ext assignment genesisRoot author contents w)
    (hideal : ∀ i < w.signed, contents i ≠ genesisRoot)
    (hrepeat : NoRepeat genesisRoot contents w.signed) : PlacedOnce author contents w := by
  suffices h : AuthorInv assignment genesisRoot author contents w from h.toPlacedOnce
  induction hreach with
  | refl => exact authorInv_initial hprior
  | @tail w w' _ hstep ih =>
    -- what holds of the messages signed at the end holds of those signed so far
    have hmono := signed_mono hstep
    have hideal' : ∀ i < w.signed, contents i ≠ genesisRoot := fun i hi => hideal i (hi.trans_le hmono)
    have hrepeat' : NoRepeat genesisRoot contents w.signed :=
      fun i j hi hj => hrepeat i j (hi.trans_le hmono) (hj.trans_le hmono)
    have h := ih hideal' hrepeat'
    cases hstep with
    | sign heq => exact h.sign heq
    | submit hsigned mom hsign frame s1 kind hleaf hlink hcontent st hst hactive =>
      exact h.submit hbuild hauthor hrepeat' hsigned hsign hleaf hlink hcontent hst hactive
    | deliver a ha => exact h.deliver ha
    | other mom sender hsender frame hsigned st hst hactive =>
      exact h.other hbuild hideal' hsender hsigned hst hactive

/-! ### Two histories -/

namespace Sample

open Interfaces.Sample (key sid)

def assignment : SessionAssignment := ⟨sid, key 1, key 2, none⟩

/-- A message of sender 1 with content `c`, linked to `l`. -/
def message (c l : UInt8) : HashSubmit := frame 0 1 [1, c, 0, l, 1]

def claim (c l : UInt8) : Structure1 :=
  ⟨⟨List.replicate 32 c, sid, ((0 : ℕ) : JsNumber), .inl ((1 : ℕ) : JsNumber), genesis,
    List.replicate 32 l⟩, key 1⟩

/-- What the relay makes of the message in `st`. -/
def handled (c l : UInt8) (st : RelaySessionState) : Handled :=
  processHashSubmitLocked externals (moment unreachable) (some st) (key 1) (message c l)

/-- The author signs a message, submits it and gets its acknowledgement. -/
def round (c l : UInt8) (w : World) : World :=
  { session := (handled c l w.session).session.getD w.session
    signed := w.signed + 1
    acked := w.acked + 1
    handled := w.acked + 1
    issued := w.issued ++ (acksOf (handled c l w.session).out).map fun a => (w.acked, a) }

theorem signerWorks : SignerWorks externals (moment unreachable) := fun _ => ⟨rfl, fun _ => rfl⟩

theorem reach_round {contents : ℕ → Bytes} {w : World} {c l : UInt8}
    (h : Reach externals assignment genesis (key 1) contents w) (hsigned : w.signed = w.acked)
    (hleaf : HonestLeaf externals w.session (key 1) (message c l) (claim c l) .msg)
    (hlink : List.replicate 32 l = link genesis contents w.acked)
    (hcontent : List.replicate 32 c = contents w.acked)
    (hactive : ((handled c l w.session).session.map fun st => st.status) = some .active)
    (hacked : (acksOf (handled c l w.session).out).isEmpty = false) :
    Reach externals assignment genesis (key 1) contents (round c l w) := by
  obtain ⟨st, hst, hstatus⟩ := Option.map_eq_some_iff.1 hactive
  obtain ⟨a, rest, hacks⟩ := List.exists_cons_of_ne_nil (List.isEmpty_eq_false_iff.1 hacked)
  have hsigning := h.tail (.sign w hsigned)
  have hsubmit := hsigning.tail (.submit { w with signed := w.signed + 1 }
    (congrArg (· + 1) hsigned) (moment unreachable) signerWorks (message c l) (claim c l) .msg hleaf
    hlink hcontent st hst hstatus)
  have ha : a ∈ acksOf (handled c l w.session).out := hacks ▸ List.mem_cons_self
  have hdeliver := hsubmit.tail
    (.deliver _ a (List.mem_append_right _ (List.mem_map.2 ⟨a, ha, rfl⟩)))
  rw [round, hst]
  exact hdeliver

/-- Sender 1 says one thing, then another. -/
def twoMessages : ℕ → Bytes := fun i => List.replicate 32 (if i = 0 then 5 else 6)

/-- Sender 1 says the same thing again and again. -/
def sameMessage : ℕ → Bytes := fun _ => List.replicate 32 5

def start : World := initialWorld assignment genesis

theorem reach_twoMessages : Reach externals assignment genesis (key 1) twoMessages
    (round 6 5 (round 5 0 start)) := by
  refine reach_round (reach_round .refl rfl ?_ rfl rfl ?_ ?_) rfl ?_ rfl rfl ?_ ?_
  all_goals first | decide | (constructor <;> decide)

theorem noRepeat_twoMessages : ∀ i < 2, ∀ j < 2, link genesis twoMessages i = link genesis twoMessages j →
    twoMessages i = twoMessages j → i = j := by
  decide

theorem reach_sameMessage : Reach externals assignment genesis (key 1) sameMessage
    (round 5 5 (round 5 5 (round 5 0 start))) := by
  refine reach_round (reach_round (reach_round .refl rfl ?_ rfl rfl ?_ ?_) rfl ?_ rfl rfl ?_ ?_) rfl ?_
    rfl rfl ?_ ?_
  all_goals first | decide | (constructor <;> decide)

end Sample

/-- Two different messages are placed. -/
theorem messages_placed_once_two_messages :
    PlacedOnce (Interfaces.Sample.key 1) Sample.twoMessages
      (Sample.round 6 5 (Sample.round 5 0 Sample.start)) :=
  messages_placed_once Sample.externals Sample.buildsStructure2 Sample.assignment rfl Sample.genesis
    (Interfaces.Sample.key 1) (Or.inl rfl) Sample.twoMessages _ Sample.reach_twoMessages
    (by decide) fun i j hi hj => Sample.noRepeat_twoMessages i hi j hj

/-- **The same thing said a third time is swallowed.**  Three messages are signed, submitted and
acknowledged, and the log has two leaves; the third is acknowledged with the position of the second. -/
theorem third_message_swallowed :
    Reach Sample.externals Sample.assignment Sample.genesis (Interfaces.Sample.key 1)
        Sample.sameMessage (Sample.round 5 5 (Sample.round 5 5 (Sample.round 5 0 Sample.start))) ∧
      (∀ i < 3, Sample.sameMessage i ≠ Sample.genesis) ∧
      (Sample.round 5 5 (Sample.round 5 5 (Sample.round 5 0 Sample.start))).acked = 3 ∧
      (authored (Interfaces.Sample.key 1) (Sample.round 5 5 (Sample.round 5 5
        (Sample.round 5 0 Sample.start))).session.leafLog).length = 2 ∧
      ((Sample.round 5 5 (Sample.round 5 5 (Sample.round 5 0 Sample.start))).issued.map
        fun e => (e.1, e.2.sequenceNumber)) = [(0, 1), (1, 2), (2, 2)] :=
  ⟨Sample.reach_sameMessage, by decide, rfl, by decide, by decide⟩

end Cello.Relay
