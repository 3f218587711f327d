import Cello.Directory.AntiEntropy.Channel

/-!
# What an end of a channel can do

An end that takes a frame does one of four things (`receive_cases`): as a dialer it signs what it has
checked, as a responder it signs what it is asked for, as a responder it is satisfied with the other's
signature, or it goes on without a signature.  It is past its handshake, and has answered a request, only
if it has accepted (`Placed`).
-/

namespace Cello.Directory.AntiEntropy

open Lib

variable {σ α β μ : Type} {auth : PeerAuth μ} {s : Session α β} {env : Surroundings σ}
  {params : AePeerAuthParams}
  {incoming : Incoming}

/-- The two are the same end of a connection. -/
structure SameEnd (s s' : Session α β) : Prop where
  slot : s'.slot = s.slot
  identity : s'.identity = s.identity
  manifest : s'.manifest = s.manifest
  actualRemotePeerId : s'.actualRemotePeerId = s.actualRemotePeerId
  remoteNodeId : s'.remoteNodeId = s.remoteNodeId

theorem SameEnd.refl (s : Session α β) : SameEnd s s := ⟨rfl, rfl, rfl, rfl, rfl⟩

/-- An end goes on without a signature and without the end of its handshake. -/
structure Plain (s s' : Session α β) : Prop extends SameEnd s s' where
  accepted : s'.accepted = s.accepted
  phase : s'.phase = s.phase ∨ (∃ how, s'.phase = .ended how) ∨
    (∃ stage, s.phase = .serving stage) ∧ ∃ stage, s'.phase = .serving stage
  sent : s'.sent = s.sent ∨ ∃ stage, s.phase = .serving stage

theorem Plain.ended (s : Session α β) (how : Ended) : Plain s (s.ended how) :=
  ⟨⟨rfl, rfl, rfl, rfl, rfl⟩, rfl, Or.inr (Or.inl ⟨how, rfl⟩), Or.inl rfl⟩

/-- The other end's signature stands: what was signed, and by which of the keys. -/
structure Checked (auth : PeerAuth μ) (s : Session α β) (nonce : String) (params : AePeerAuthParams)
    (incoming : Incoming) : Prop where
  self : params.nodeId s.slot = s.identity.nodeId
  notSelf : params.nodeIdA ≠ params.nodeIdB
  nonce : params.nonceHex s.slot = nonce
  dialed : s.slot = .A → params.nodeIdB = s.remoteNodeId
  signature : ∃ pubkey frame sig, incoming = .frame frame ∧ frame.prop "sig" = .bytes sig ∧
    Pinned s.manifest (params.nodeId s.slot.opposite) s.actualRemotePeerId pubkey ∧
    auth.verifyAePeerAuth pubkey params sig = true

theorem buildTbs_ok {values : String} {tbs : μ} (h : buildTbs auth values params = .ok tbs) :
    auth.buildAePeerAuthTbs params = .ok tbs := by
  unfold buildTbs at h
  split at h
  · rename_i hbuilt
    cases h
    exact hbuilt
  · cases h

theorem readAuthB_ok {nonceA : String} {sig : Bytes}
    (h : readAuthB s nonceA incoming = .ok (params, sig)) :
    (∃ frame, incoming = .frame frame ∧ frame.prop "sig" = .bytes sig) ∧
      params.nodeIdA = s.identity.nodeId ∧ params.nodeIdB = s.remoteNodeId ∧
      params.nonceAHex = nonceA := by
  unfold readAuthB at h
  dsimp only at h
  obtain ⟨frame, hframe, h⟩ := bind_ok h
  obtain ⟨claimedNodeId, hclaimed, h⟩ := bind_ok h
  split_ifs at h with hremote
  · cases h
  · obtain ⟨-, -, h⟩ := bind_ok h
    obtain ⟨peerIdB, hpeerIdB, h⟩ := bind_ok h
    obtain ⟨nonceBHex, hnonceBHex, h⟩ := bind_ok h
    obtain ⟨timestamp, htimestamp, h⟩ := bind_ok h
    obtain ⟨sig', hsig, h⟩ := bind_ok h
    cases h
    exact ⟨⟨frame, (nextFrame_ok (mapError_ok hframe)).1, bytesField_ok (mapError_ok hsig)⟩, rfl,
      not_not.1 hremote, rfl⟩

theorem checkAuthB_ok {nonceA : String} {nowMs : ℤ} {tbs : μ} (hslot : s.slot = .A)
    (h : checkAuthB auth s nonceA nowMs incoming = .ok (params, tbs)) :
    Checked auth s nonceA params incoming ∧ auth.buildAePeerAuthTbs params = .ok tbs := by
  unfold checkAuthB at h
  obtain ⟨⟨params', sig⟩, hread, h⟩ := bind_ok h
  obtain ⟨⟨frame, hframe, hsig⟩, hself, hremote, hnonce⟩ := readAuthB_ok hread
  dsimp only at h
  split at h
  · cases h
  · rename_i hverified
    obtain ⟨tbs', hbuilt, h⟩ := bind_ok h
    cases h
    obtain ⟨-, hne, -, pubkey, hpinned, hverify⟩ := verifyPeerAuthFrame_ok hverified
    refine ⟨⟨?_, hne, ?_, fun _ => hremote, pubkey, frame, sig, hframe, hsig, ?_, hverify⟩,
      buildTbs_ok (mapError_ok hbuilt)⟩
    · rw [hslot]
      exact hself
    · rw [hslot]
      exact hnonce
    · rw [hslot]
      exact hpinned

theorem readHello_ok {nonceB : String} {nowMs : ℤ} {tbs : μ}
    (h : readHello auth s nonceB nowMs incoming = .ok (params, tbs)) :
    params.nodeIdB = s.identity.nodeId ∧ params.nonceBHex = nonceB ∧
      auth.buildAePeerAuthTbs params = .ok tbs := by
  unfold readHello at h
  obtain ⟨hello, -, h⟩ := bind_ok h
  obtain ⟨nodeIdA, -, h⟩ := bind_ok h
  obtain ⟨nonceAHex, -, h⟩ := bind_ok h
  obtain ⟨tbs', hbuilt, h⟩ := bind_ok h
  cases h
  exact ⟨rfl, rfl, buildTbs_ok hbuilt⟩

theorem checkAuthA_ok {nowMs : ℤ} (hslot : s.slot = .B) (hself : params.nodeIdB = s.identity.nodeId)
    (h : checkAuthA auth s params nowMs incoming = .ok ()) :
    Checked auth s params.nonceBHex params incoming := by
  unfold checkAuthA at h
  obtain ⟨frame, hframe, h⟩ := bind_ok h
  obtain ⟨sig, hsig, h⟩ := bind_ok h
  split at h
  · cases h
  · rename_i hverified
    obtain ⟨-, hne, -, pubkey, hpinned, hverify⟩ := verifyPeerAuthFrame_ok hverified
    refine ⟨?_, hne, ?_, fun hA => ?_, pubkey, frame, sig, (nextFrame_ok hframe).1, bytesField_ok hsig,
      ?_, hverify⟩
    · rw [hslot]
      exact hself
    · rw [hslot]
      rfl
    · rw [hslot] at hA
      cases hA
    · rw [hslot]
      exact hpinned

theorem send_cases (env : Surroundings σ) (frame : Sent α β) (fail : AeError → Ended)
    (next : Session α β → Session α β) :
    (∃ how, s.send env frame fail next = s.ended how) ∨
      s.send env frame fail next = next { s with sent := s.sent ++ [frame] } := by
  unfold Session.send
  split
  · exact Or.inl ⟨_, rfl⟩
  · exact Or.inr rfl

/-- What an end signs: as the dialer what it has checked, as the responder what it is asked for. -/
inductive Received (auth : PeerAuth μ) (s : Session α β) (env : Surroundings σ) (incoming : Incoming) :
    Reaction α β μ → Prop where
  | plain {s' : Session α β} (h : Plain s s') : Received auth s env incoming ⟨s', none⟩
  | dialed {nonceA : String} {params : AePeerAuthParams} {tbs : μ} {s' : Session α β}
      (hphase : s.phase = .awaitAuthB nonceA) (hchecked : Checked auth s nonceA params incoming)
      (htbs : auth.buildAePeerAuthTbs params = .ok tbs)
      (h : (∃ how, s' = s.ended how) ∨ ∃ sig,
        s' = Session.accept { s with sent := s.sent ++ [.authA sig] } params .rounds) :
      Received auth s env incoming ⟨s', some tbs⟩
  | greeted {params : AePeerAuthParams} {tbs : μ} {s' : Session α β}
      (hphase : s.phase = .awaitHello) (hself : params.nodeIdB = s.identity.nodeId)
      (hnonce : params.nonceBHex = env.nonce) (htbs : auth.buildAePeerAuthTbs params = .ok tbs)
      (h : (∃ how, s' = s.ended how) ∨ ∃ nodeId peerId nonce timestamp sig,
        s' = { s with
          sent := s.sent ++ [.authB nodeId peerId nonce timestamp sig], phase := .awaitAuthA params }) :
      Received auth s env incoming ⟨s', some tbs⟩
  | answered {params : AePeerAuthParams} (hphase : s.phase = .awaitAuthA params)
      (hchecked : Checked auth s params.nonceBHex params incoming) :
      Received auth s env incoming ⟨s.accept params (.serving "awaiting_first_request"), none⟩

theorem receiveAuthB_cases {nonceA : String} (hslot : s.slot = .A)
    (hphase : s.phase = .awaitAuthB nonceA) :
    Received auth s env incoming (receiveAuthB auth s nonceA env incoming) := by
  unfold receiveAuthB
  split
  · exact .plain (Plain.ended s _)
  · rename_i params tbs hcheck
    obtain ⟨hchecked, htbs⟩ := checkAuthB_ok hslot hcheck
    split
    · exact .plain (Plain.ended s _)
    · rename_i sig hsigned
      refine .dialed hphase hchecked htbs ?_
      exact (send_cases env (.authA sig) dialerCatch _).imp id fun h => ⟨sig, h⟩

theorem receiveHello_cases (hphase : s.phase = .awaitHello) :
    Received auth s env incoming (receiveHello auth s env incoming) := by
  unfold receiveHello
  split
  · exact .plain (Plain.ended s _)
  · rename_i params tbs hread
    obtain ⟨hself, hnonce, htbs⟩ := readHello_ok hread
    split
    · exact .plain (Plain.ended s _)
    · refine .greeted hphase hself hnonce htbs ?_
      exact (send_cases env _ (responderCatch "handshake") _).imp id fun h => ⟨_, _, _, _, _, h⟩

theorem receiveAuthA_cases (hslot : s.slot = .B) (hself : params.nodeIdB = s.identity.nodeId)
    (hphase : s.phase = .awaitAuthA params) :
    Received auth s env incoming ⟨receiveAuthA auth s params env incoming, none⟩ := by
  unfold receiveAuthA
  split
  · exact .plain (Plain.ended s _)
  · rename_i hcheck
    exact .answered hphase (checkAuthA_ok hslot hself hcheck)

theorem receiveRequest_cases {sha : Sha256} {L : AeStoreView σ α β} {texts : List JsAny → List String}
    {stage : String} (hphase : s.phase = .serving stage) :
    Plain s (receiveRequest sha L texts s stage env incoming) := by
  unfold receiveRequest
  split
  · exact Plain.ended s _
  · exact Plain.ended s _
  · dsimp only
    split
    · exact Plain.ended s _
    · exact Plain.ended s _
    · rename_i response hanswer
      obtain ⟨how, h⟩ | h := send_cases env response _ _
      · rw [h]
        exact Plain.ended s how
      · rw [h]
        exact ⟨⟨rfl, rfl, rfl, rfl, rfl⟩, rfl, Or.inr (Or.inr ⟨⟨stage, hphase⟩, _, rfl⟩),
          Or.inr ⟨stage, hphase⟩⟩

/-- The place of an end in its program goes with its slot, and with what it has accepted. -/
structure Placed (s : Session α β) : Prop where
  awaitAuthB : ∀ nonceA, s.phase = .awaitAuthB nonceA → s.slot = .A
  awaitHello : s.phase = .awaitHello → s.slot = .B ∧ s.accepted = none
  awaitAuthA : ∀ params, s.phase = .awaitAuthA params →
    s.slot = .B ∧ params.nodeIdB = s.identity.nodeId
  past : s.phase = .rounds ∨ (∃ stage, s.phase = .serving stage) → s.accepted ≠ none
  answers : (∃ frame ∈ s.sent, frame.isAnswer = true) → s.accepted ≠ none

theorem receive_cases {sha : Sha256} {L : AeStoreView σ α β} {texts : List JsAny → List String}
    (hs : Placed s) : Received auth s env incoming (receive auth sha L texts s env incoming) := by
  unfold receive
  split
  · rename_i nonceA hphase
    exact receiveAuthB_cases (hs.awaitAuthB nonceA hphase) hphase
  · rename_i hphase
    exact receiveHello_cases hphase
  · rename_i params hphase
    obtain ⟨hslot, hself⟩ := hs.awaitAuthA params hphase
    exact receiveAuthA_cases hslot hself hphase
  · rename_i stage hphase
    exact .plain (receiveRequest_cases hphase)
  · exact .plain ⟨SameEnd.refl s, rfl, Or.inl rfl, Or.inl rfl⟩
  · exact .plain ⟨SameEnd.refl s, rfl, Or.inl rfl, Or.inl rfl⟩

theorem Received.sameEnd {r : Reaction α β μ} (h : Received auth s env incoming r) :
    SameEnd s r.session := by
  cases h with
  | plain h => exact h.toSameEnd
  | dialed hphase hchecked htbs h =>
    obtain ⟨how, rfl⟩ | ⟨sig, rfl⟩ := h
    · exact ⟨rfl, rfl, rfl, rfl, rfl⟩
    · exact ⟨rfl, rfl, rfl, rfl, rfl⟩
  | greeted hphase hself hnonce htbs h =>
    obtain ⟨how, rfl⟩ | ⟨nodeId, peerId, nonce, timestamp, sig, rfl⟩ := h
    · exact ⟨rfl, rfl, rfl, rfl, rfl⟩
    · exact ⟨rfl, rfl, rfl, rfl, rfl⟩
  | answered hphase hchecked => exact ⟨rfl, rfl, rfl, rfl, rfl⟩

theorem Placed.answers_append {frame : Sent α β} (hs : Placed s) (hframe : frame.isAnswer = false)
    (h : ∃ f ∈ s.sent ++ [frame], f.isAnswer = true) : s.accepted ≠ none := by
  obtain ⟨f, hf, hanswer⟩ := h
  rw [List.mem_append, List.mem_singleton] at hf
  obtain hf | rfl := hf
  · exact hs.answers ⟨f, hf, hanswer⟩
  · rw [hframe] at hanswer
    cases hanswer

theorem Placed.ended (hs : Placed s) (how : Ended) : Placed (s.ended how) where
  awaitAuthB := fun _ h => by cases h
  awaitHello := fun h => by cases h
  awaitAuthA := fun _ h => by cases h
  past := by
    rintro (h | ⟨stage, h⟩)
    · cases h
    · cases h
  answers := hs.answers

theorem Placed.plain {s' : Session α β} (hs : Placed s) (h : Plain s s') : Placed s' := by
  have hanswers : (∃ frame ∈ s'.sent, frame.isAnswer = true) → s'.accepted ≠ none := by
    rw [h.accepted]
    obtain hsent | hserving := h.sent
    · rw [hsent]
      exact hs.answers
    · exact fun _ => hs.past (Or.inr hserving)
  obtain hphase | ⟨how, hphase⟩ | ⟨hserving, stage, hphase⟩ := h.phase
  · refine ⟨?_, ?_, ?_, ?_, hanswers⟩
    · rw [hphase, h.slot]
      exact hs.awaitAuthB
    · rw [hphase, h.slot, h.accepted]
      exact hs.awaitHello
    · rw [hphase, h.slot, h.identity]
      exact hs.awaitAuthA
    · rw [hphase, h.accepted]
      exact hs.past
  · refine ⟨fun _ h => ?_, fun h => ?_, fun _ h => ?_, fun h => ?_, hanswers⟩
    · cases hphase.symm.trans h
    · cases hphase.symm.trans h
    · cases hphase.symm.trans h
    · obtain h | ⟨stage, h⟩ := h
      · cases hphase.symm.trans h
      · cases hphase.symm.trans h
  · refine ⟨fun _ h => ?_, fun h => ?_, fun _ h => ?_, fun _ => ?_, hanswers⟩
    · cases hphase.symm.trans h
    · cases hphase.symm.trans h
    · cases hphase.symm.trans h
    · rw [h.accepted]
      exact hs.past (Or.inr hserving)

theorem Placed.accept (params : AePeerAuthParams) {phase : Phase}
    (hphase : phase = .rounds ∨ ∃ stage, phase = .serving stage) : Placed (s.accept params phase) where
  awaitAuthB := by
    intro nonceA h
    obtain rfl | ⟨stage, rfl⟩ := hphase
    · cases h
    · cases h
  awaitHello := by
    intro h
    obtain rfl | ⟨stage, rfl⟩ := hphase
    · cases h
    · cases h
  awaitAuthA := by
    intro params h
    obtain rfl | ⟨stage, rfl⟩ := hphase
    · cases h
    · cases h
  past := fun _ h => by cases h
  answers := fun _ h => by cases h

theorem Placed.greeted {nodeId peerId nonce timestamp : String} {sig : Bytes} (hs : Placed s)
    (hphase : s.phase = .awaitHello) (hself : params.nodeIdB = s.identity.nodeId) :
    Placed { s with
      sent := s.sent ++ [.authB nodeId peerId nonce timestamp sig], phase := .awaitAuthA params } where
  awaitAuthB := fun _ h => by cases h
  awaitHello := fun h => by cases h
  awaitAuthA := by
    intro params' h
    cases h
    exact ⟨(hs.awaitHello hphase).1, hself⟩
  past := by
    rintro (h | ⟨stage, h⟩)
    · cases h
    · cases h
  answers := hs.answers_append rfl

theorem Received.placed {r : Reaction α β μ} (hs : Placed s) (h : Received auth s env incoming r) :
    Placed r.session := by
  cases h with
  | plain h => exact hs.plain h
  | dialed hphase hchecked htbs h =>
    obtain ⟨how, rfl⟩ | ⟨sig, rfl⟩ := h
    · exact hs.ended how
    · exact Placed.accept _ (Or.inl rfl)
  | greeted hphase hself hnonce htbs h =>
    obtain ⟨how, rfl⟩ | ⟨nodeId, peerId, nonce, timestamp, sig, rfl⟩ := h
    · exact hs.ended how
    · exact hs.greeted hphase hself
  | answered hphase hchecked => exact Placed.accept _ (Or.inr ⟨_, rfl⟩)

theorem Placed.start (s : Session α β) (hsent : s.sent = []) (haccepted : s.accepted = none)
    (hphase : (∃ nonceA, s.phase = .awaitAuthB nonceA ∧ s.slot = .A) ∨
      s.phase = .awaitHello ∧ s.slot = .B) : Placed s where
  awaitAuthB := by
    intro nonceA h
    obtain ⟨nonceA', -, hslot⟩ | ⟨hphase, -⟩ := hphase
    · exact hslot
    · cases hphase.symm.trans h
  awaitHello := by
    intro h
    obtain ⟨nonceA, hphase, -⟩ | ⟨-, hslot⟩ := hphase
    · cases hphase.symm.trans h
    · exact ⟨hslot, haccepted⟩
  awaitAuthA := by
    intro params h
    obtain ⟨nonceA, hphase, -⟩ | ⟨hphase, -⟩ := hphase
    · cases hphase.symm.trans h
    · cases hphase.symm.trans h
  past := by
    rintro (h | ⟨stage, h⟩)
    · obtain ⟨nonceA, hphase, -⟩ | ⟨hphase, -⟩ := hphase
      · cases hphase.symm.trans h
      · cases hphase.symm.trans h
    · obtain ⟨nonceA, hphase, -⟩ | ⟨hphase, -⟩ := hphase
      · cases hphase.symm.trans h
      · cases hphase.symm.trans h
  answers := by
    rintro ⟨frame, hframe, -⟩
    rw [hsent] at hframe
    cases hframe

theorem openDialer_cases (identity : NodeIdentity) (manifest : ConsortiumManifest)
    (remoteNodeId actualRemotePeerId : String) (timeoutMs : ℕ) (env : Surroundings σ) :
    let s : Session α β := openDialer identity manifest remoteNodeId actualRemotePeerId timeoutMs env
    Placed s ∧ s.slot = .A ∧ s.identity = identity ∧ s.manifest = manifest ∧ s.accepted = none ∧
      (s.phase = .awaitAuthB env.nonce ∨ ∃ how, s.phase = .ended how) := by
  have hstart : Placed ({ slot := .A, identity, manifest, actualRemotePeerId, timeoutMs, remoteNodeId
                          phase := .awaitAuthB env.nonce, accepted := none, sent := [] } :
      Session α β) := Placed.start _ rfl rfl (Or.inl ⟨env.nonce, rfl, rfl⟩)
  unfold openDialer
  dsimp only
  split_ifs
  · exact ⟨hstart.ended _, rfl, rfl, rfl, rfl, Or.inr ⟨_, rfl⟩⟩
  · unfold Session.send
    split
    · exact ⟨hstart.ended _, rfl, rfl, rfl, rfl, Or.inr ⟨_, rfl⟩⟩
    · refine ⟨⟨hstart.awaitAuthB, ?_, ?_, hstart.past, hstart.answers_append rfl⟩, rfl, rfl, rfl, rfl,
        Or.inl rfl⟩
      · exact hstart.awaitHello
      · exact hstart.awaitAuthA

theorem openResponder_placed (identity : NodeIdentity) (manifest : ConsortiumManifest)
    (actualRemotePeerId : String) (timeoutMs : ℕ) :
    Placed (openResponder identity manifest actualRemotePeerId timeoutMs : Session α β) :=
  Placed.start _ rfl rfl (Or.inr ⟨rfl, rfl⟩)

end Cello.Directory.AntiEntropy
