import Cello.Directory.AntiEntropy.Connections

/-!
# Concurrent handshakes

What holds of every connection in a run that is allowed: what the end waits for has its nonce in it, no
text that was signed before has, and what the end has accepted was signed by the other role
(`Connection.Sound`).  One event keeps it for all connections together (`step_inv`), since a connection
that accepts looks at the signatures that the others have made.

`handshake_safe` says what it means, in such a run, that an end is past its handshake.
-/

namespace Cello.Directory.AntiEntropy

open Lib

section

variable {ι α β μ : Type} (auth : PeerAuth μ) (C : Consortium ι)

/-! ### What an end may rely on -/

/-- The live peer id is the one that is pinned for the claimed node, and the node's key has signed, in the
other role, a text with the nonce that was drawn for this connection. -/
structure Authenticated (n : Net ι α β μ) (c : Connection ι α β) (params : AePeerAuthParams) : Prop where
  dialed : c.session.slot = .A → params.nodeIdB = c.session.remoteNodeId
  nonce : params.nonceHex c.session.slot = c.nonce
  signature : ∃ pubkey,
    Pinned c.session.manifest (params.nodeId c.session.slot.opposite) c.session.actualRemotePeerId pubkey ∧
    ∃ e ∈ n.log.drop c.drawnAt, e.key = pubkey ∧ auth.buildAePeerAuthTbs params = .ok e.message ∧
      ∀ node, pubkey = C.pubkey node → ∃ j peer, e.madeFor = some j ∧ n.connections j = some peer ∧
        peer.session.slot = c.session.slot.opposite ∧
        peer.session.identity.nodeId = params.nodeId c.session.slot.opposite

/-- What holds of a connection. -/
structure Connection.Sound (n : Net ι α β μ) (c : Connection ι α β) : Prop where
  identity : c.session.identity = C.identity c.node
  pins : C.Pins c.session.manifest
  placed : Placed c.session
  drawn : c.drawnAt ≤ n.log.length
  awaitAuthB : ∀ nonceA, c.session.phase = .awaitAuthB nonceA → nonceA = c.nonce
  awaitAuthA : ∀ params, c.session.phase = .awaitAuthA params → params.nonceBHex = c.nonce
  fresh : c.session.phase ≠ .awaitHello → ∀ e ∈ n.log.take c.drawnAt, ∀ p,
    auth.buildAePeerAuthTbs p = .ok e.message → p.nonceAHex ≠ c.nonce ∧ p.nonceBHex ≠ c.nonce
  authenticated : ∀ params, c.session.accepted = some params → Authenticated auth C n c params

/-- What holds of all connections, and of the log. -/
structure Net.Inv (n : Net ι α β μ) : Prop where
  sound : ∀ i c, n.connections i = some c → c.Sound auth C n
  signed : ∀ e ∈ n.log, ∀ j, e.madeFor = some j → ∃ c, n.connections j = some c ∧
    e.key = C.pubkey c.node ∧ ∃ p, auth.buildAePeerAuthTbs p = .ok e.message ∧
      p.nodeId c.session.slot = c.session.identity.nodeId
  outside : ∀ e ∈ n.log, e.madeFor = none → ∀ node, e.key = C.pubkey node →
    ∀ p, auth.buildAePeerAuthTbs p ≠ .ok e.message

/-- A later state: the log has grown, and every connection is still that of its end. -/
structure Net.Extends (n n' : Net ι α β μ) : Prop where
  log : ∃ more, n'.log = n.log ++ more
  connections : ∀ j c, n.connections j = some c → ∃ c', n'.connections j = some c' ∧
    c'.node = c.node ∧ SameEnd c.session c'.session

end

section

variable {ι σ α β μ : Type} {auth : PeerAuth μ} {C : Consortium ι} {n n' : Net ι α β μ}
  {c : Connection ι α β} {params : AePeerAuthParams}

theorem Authenticated.mono (h : Authenticated auth C n c params) (hext : n.Extends n') :
    Authenticated auth C n' c params := by
  obtain ⟨pubkey, hpinned, e, he, hkey, hmessage, hpeer⟩ := h.signature
  obtain ⟨more, hlog⟩ := hext.log
  refine ⟨h.dialed, h.nonce, pubkey, hpinned, e, ?_, hkey, hmessage, fun node hnode => ?_⟩
  · rw [hlog, List.drop_append]
    exact List.mem_append_left _ he
  · obtain ⟨j, peer, hmade, hconnection, hslot, hnodeId⟩ := hpeer node hnode
    obtain ⟨peer', hconnection', -, hsame⟩ := hext.connections j peer hconnection
    refine ⟨j, peer', hmade, hconnection', ?_, ?_⟩
    · rw [hsame.slot, hslot]
    · rw [hsame.identity, hnodeId]

theorem Connection.Sound.mono (h : c.Sound auth C n) (hext : n.Extends n') : c.Sound auth C n' := by
  obtain ⟨more, hlog⟩ := hext.log
  refine ⟨h.identity, h.pins, h.placed, ?_, h.awaitAuthB, h.awaitAuthA, ?_,
    fun params haccepted => (h.authenticated params haccepted).mono hext⟩
  · rw [hlog, List.length_append]
    have := h.drawn
    omega
  · rw [hlog, List.take_append_of_le_length h.drawn]
    exact h.fresh

theorem Pinned.mem {manifest : ConsortiumManifest} {nodeId peerId pubkey : String}
    (h : Pinned manifest nodeId peerId pubkey) :
    ∃ entry ∈ manifest.nodes, entry.nodeId = nodeId ∧ entry.pubkey = some pubkey := by
  obtain ⟨entry, hfind, hpubkey, -⟩ := h.entry
  have hfound : manifest.nodes.find? (fun n => n.nodeId = nodeId) = some entry := hfind
  refine ⟨entry, List.mem_of_find?_eq_some hfound, ?_, hpubkey⟩
  simpa using List.find?_some hfound

theorem nodeId_ne (h : params.nodeIdA ≠ params.nodeIdB) (slot : Slot) :
    params.nodeId slot ≠ params.nodeId slot.opposite := by
  cases slot with
  | A => exact h
  | B => exact h.symm

theorem nonceHex_of_fresh {nonce : String} (h : params.nonceAHex ≠ nonce ∧ params.nonceBHex ≠ nonce)
    (slot : Slot) : params.nonceHex slot ≠ nonce := by
  cases slot with
  | A => exact h.1
  | B => exact h.2

theorem slot_cases (slot slot' : Slot) : slot' = slot ∨ slot' = slot.opposite := by
  cases slot with
  | A =>
    cases slot' with
    | A => exact Or.inl rfl
    | B => exact Or.inr rfl
  | B =>
    cases slot' with
    | A => exact Or.inr rfl
    | B => exact Or.inl rfl

/-- **An end whose check has passed is authenticated**: the signature was made after the nonce was drawn,
and if the key is an honest node's, its connection has the other role, since the text has two nodes. -/
theorem authenticated_of_checked (hinjective : ∀ p q message, auth.buildAePeerAuthTbs p = .ok message →
      auth.buildAePeerAuthTbs q = .ok message → p = q)
    (hinv : n.Inv auth C) (hsound : c.Sound auth C n) (hphase : c.session.phase ≠ .awaitHello)
    {incoming : Incoming} (hchecked : Checked auth c.session c.nonce params incoming)
    (hunforged : n.Unforged auth incoming) : Authenticated auth C n c params := by
  obtain ⟨pubkey, frame, sig, hframe, hsig, hpinned, hverify⟩ := hchecked.signature
  obtain ⟨e, he, hkey, hmessage⟩ := hunforged frame sig hframe hsig pubkey params hverify
  refine ⟨hchecked.dialed, hchecked.nonce, pubkey, hpinned, e, ?_, hkey, hmessage, fun node hnode => ?_⟩
  · rw [← List.take_append_drop c.drawnAt n.log, List.mem_append] at he
    refine he.resolve_left fun hbefore => ?_
    exact nonceHex_of_fresh (hsound.fresh hphase e hbefore params hmessage) _ hchecked.nonce
  · -- the entry that is pinned is the node's own
    obtain ⟨entry, hentry, hentryId, hentryKey⟩ := hpinned.mem
    rw [← hentryId]
    cases hmade : e.madeFor with
    | none =>
      rw [hnode] at hkey
      exact absurd hmessage (hinv.outside e he hmade node hkey params)
    | some j =>
      obtain ⟨peer, hpeer, hpeerKey, p, hp, hself⟩ := hinv.signed e he j hmade
      obtain rfl := hinjective p params e.message hp hmessage
      have hnodeId : entry.nodeId = peer.session.identity.nodeId := by
        rw [(hinv.sound j peer hpeer).identity]
        refine hsound.pins entry hentry peer.node ?_
        rw [hentryKey, ← hkey, hpeerKey]
      refine ⟨j, peer, rfl, hpeer, ?_, hnodeId.symm⟩
      refine (slot_cases c.session.slot peer.session.slot).resolve_left fun hslot => ?_
      refine nodeId_ne hchecked.notSelf c.session.slot ?_
      rw [← hentryId, hnodeId, ← hself, hslot]

/-! ### Steps -/

theorem connect_extends (i : ℕ) : n.Extends (n.connect i c) := by
  unfold Net.connect
  split
  · exact ⟨⟨[], (List.append_nil _).symm⟩, fun j c hc => ⟨c, hc, rfl, SameEnd.refl _⟩⟩
  · rename_i hnone
    refine ⟨⟨[], (List.append_nil _).symm⟩, fun j d hd => ⟨d, ?_, rfl, SameEnd.refl _⟩⟩
    dsimp only
    rw [Function.update_of_ne, hd]
    rintro rfl
    rw [hnone] at hd
    cases hd

theorem Net.Inv.connect (hinv : n.Inv auth C) (i : ℕ) (hc : c.Sound auth C n) :
    (n.connect i c).Inv auth C := by
  have hext : n.Extends (n.connect i c) := connect_extends i
  have hlog : (n.connect i c).log = n.log := by
    unfold Net.connect
    split
    · rfl
    · rfl
  refine ⟨fun j d hd => ?_, ?_, ?_⟩
  · have hcases : n.connections j = some d ∨ d = c := by
      unfold Net.connect at hd
      split at hd
      · exact Or.inl hd
      · dsimp only at hd
        by_cases hj : j = i
        · subst hj
          rw [Function.update_self] at hd
          exact Or.inr (Option.some.inj hd).symm
        · rw [Function.update_of_ne hj] at hd
          exact Or.inl hd
    obtain hd | rfl := hcases
    · exact (hinv.sound j d hd).mono hext
    · exact hc.mono hext
  · rw [hlog]
    intro e he j hmade
    obtain ⟨d, hd, hkey, p, hp, hself⟩ := hinv.signed e he j hmade
    obtain ⟨d', hd', hnode, hsame⟩ := hext.connections j d hd
    refine ⟨d', hd', ?_, p, hp, ?_⟩
    · rw [hnode, hkey]
    · rw [hsame.slot, hsame.identity, hself]
  · rw [hlog]
    exact hinv.outside

theorem dial_sound {node : ι} {manifest : ConsortiumManifest} (hpins : C.Pins manifest)
    {env : Surroundings σ} (hfresh : n.Fresh auth env.nonce) (remoteNodeId actualRemotePeerId : String)
    (timeoutMs : ℕ) :
    Connection.Sound auth C n ⟨node,
      (openDialer (C.identity node) manifest remoteNodeId actualRemotePeerId timeoutMs env :
        Session α β), env.nonce, n.log.length⟩ := by
  obtain ⟨hplaced, hslot, hidentity, hmanifest, haccepted, hphase⟩ :
      Placed (openDialer (C.identity node) manifest remoteNodeId actualRemotePeerId timeoutMs env :
        Session α β) ∧ _ :=
    openDialer_cases (C.identity node) manifest remoteNodeId actualRemotePeerId timeoutMs env
  refine ⟨hidentity, ?_, hplaced, le_refl _, fun nonceA h => ?_, fun params h => ?_, fun _ => ?_,
    fun params h => ?_⟩
  · rw [hmanifest]
    exact hpins
  · obtain hphase | ⟨how, hphase⟩ := hphase
    · cases hphase.symm.trans h
      rfl
    · cases hphase.symm.trans h
  · obtain hphase | ⟨how, hphase⟩ := hphase
    · cases hphase.symm.trans h
    · cases hphase.symm.trans h
  · intro e he
    exact hfresh e (List.mem_of_mem_take he)
  · cases haccepted.symm.trans h

theorem accept_sound {node : ι} {manifest : ConsortiumManifest} (hpins : C.Pins manifest)
    (actualRemotePeerId : String) (timeoutMs : ℕ) :
    Connection.Sound auth C n ⟨node,
      (openResponder (C.identity node) manifest actualRemotePeerId timeoutMs : Session α β), "",
      n.log.length⟩ := by
  refine ⟨rfl, hpins, openResponder_placed _ _ _ _, le_refl _, fun nonceA h => ?_, fun params h => ?_,
    fun h => absurd rfl h, fun params h => ?_⟩
  · cases h
  · cases h
  · cases h

theorem Net.Inv.sign (hinv : n.Inv auth C) {key : String} {message : μ}
    (houtside : ∀ node, key = C.pubkey node → ∀ p, auth.buildAePeerAuthTbs p ≠ .ok message) :
    Net.Inv auth C { n with log := n.log ++ [⟨key, message, none⟩] } := by
  have hext : n.Extends { n with log := n.log ++ [⟨key, message, none⟩] } :=
    ⟨⟨_, rfl⟩, fun j c hc => ⟨c, hc, rfl, SameEnd.refl _⟩⟩
  refine ⟨fun j d hd => (hinv.sound j d hd).mono hext, fun e he j hmade => ?_, fun e he hmade => ?_⟩
  · obtain he | he := List.mem_append.1 he
    · exact hinv.signed e he j hmade
    · rw [List.mem_singleton.1 he] at hmade
      cases hmade
  · obtain he | he := List.mem_append.1 he
    · exact hinv.outside e he hmade
    · rw [List.mem_singleton.1 he]
      exact houtside

theorem next_same {session : Session α β} (h : SameEnd c.session session) (nonce : String) (now : ℕ) :
    (c.next session nonce now).node = c.node ∧
      SameEnd c.session (c.next session nonce now).session := by
  unfold Connection.next
  split_ifs
  · exact ⟨rfl, h⟩
  · exact ⟨rfl, h⟩

def Net.advance (n : Net ι α β μ) (C : Consortium ι) (i : ℕ) (c c' : Connection ι α β)
    (signed : Option μ) : Net ι α β μ :=
  { connections := Function.update n.connections i (some c')
    log := n.log ++ signed.toList.map fun message => ⟨C.pubkey c.node, message, some i⟩ }

theorem advance_extends {i : ℕ} {c' : Connection ι α β} {signed : Option μ}
    (hc : n.connections i = some c) (hnode : c'.node = c.node)
    (hsame : SameEnd c.session c'.session) : n.Extends (n.advance C i c c' signed) := by
  refine ⟨⟨_, rfl⟩, fun j d hd => ?_⟩
  by_cases hj : j = i
  · subst hj
    obtain rfl := Option.some.inj (hc.symm.trans hd)
    exact ⟨c', Function.update_self .., hnode, hsame⟩
  · refine ⟨d, ?_, rfl, SameEnd.refl _⟩
    dsimp only [Net.advance]
    rw [Function.update_of_ne hj, hd]

/-- **A step of one connection keeps what holds of all**, if what it signs is its own. -/
theorem Net.Inv.advance (hinv : n.Inv auth C) {i : ℕ} {c' : Connection ι α β} {signed : Option μ}
    (hc : n.connections i = some c) (hnode : c'.node = c.node) (hsame : SameEnd c.session c'.session)
    (hsigned : ∀ message, signed = some message → ∃ p, auth.buildAePeerAuthTbs p = .ok message ∧
      p.nodeId c.session.slot = c.session.identity.nodeId)
    (hsound : c'.Sound auth C (n.advance C i c c' signed)) : (n.advance C i c c' signed).Inv auth C := by
  have hext : n.Extends (n.advance C i c c' signed) := advance_extends hc hnode hsame
  have hself : (n.advance C i c c' signed).connections i = some c' := Function.update_self ..
  have hmem : ∀ e ∈ (n.advance C i c c' signed).log, e ∈ n.log ∨
      ∃ message, signed = some message ∧ e = ⟨C.pubkey c.node, message, some i⟩ := by
    intro e he
    obtain he | he := List.mem_append.1 he
    · exact Or.inl he
    · obtain ⟨message, hmessage, rfl⟩ := List.mem_map.1 he
      exact Or.inr ⟨message, Option.mem_toList.1 hmessage, rfl⟩
  refine ⟨fun j d hd => ?_, fun e he j hmade => ?_, fun e he hmade => ?_⟩
  · by_cases hj : j = i
    · subst hj
      obtain rfl := Option.some.inj (hself.symm.trans hd)
      exact hsound
    · dsimp only [Net.advance] at hd
      rw [Function.update_of_ne hj] at hd
      exact (hinv.sound j d hd).mono hext
  · obtain he | ⟨message, hmessage, rfl⟩ := hmem e he
    · obtain ⟨d, hd, hkey, p, hp, hown⟩ := hinv.signed e he j hmade
      obtain ⟨d', hd', hnode', hsame'⟩ := hext.connections j d hd
      refine ⟨d', hd', ?_, p, hp, ?_⟩
      · rw [hnode', hkey]
      · rw [hsame'.slot, hsame'.identity, hown]
    · cases hmade
      obtain ⟨p, hp, hown⟩ := hsigned message hmessage
      refine ⟨c', hself, ?_, p, hp, ?_⟩
      · rw [hnode]
      · rw [hsame.slot, hsame.identity, hown]
  · obtain he | ⟨message, hmessage, rfl⟩ := hmem e he
    · exact hinv.outside e he hmade
    · cases hmade

theorem Received.signed {s : Session α β} {env : Surroundings σ} {incoming : Incoming}
    {r : Reaction α β μ} (hs : Placed s) (h : Received auth s env incoming r) {message : μ}
    (hmessage : r.signed = some message) :
    ∃ p, auth.buildAePeerAuthTbs p = .ok message ∧ p.nodeId s.slot = s.identity.nodeId := by
  cases h with
  | plain h => cases hmessage
  | dialed hphase hchecked htbs h =>
    cases hmessage
    exact ⟨_, htbs, hchecked.self⟩
  | greeted hphase hself hnonce htbs h =>
    cases hmessage
    refine ⟨_, htbs, ?_⟩
    rw [(hs.awaitHello hphase).1]
    exact hself
  | answered hphase hchecked => cases hmessage

theorem Received.of_awaitHello {s : Session α β} {env : Surroundings σ} {incoming : Incoming}
    {r : Reaction α β μ} (hphase : s.phase = .awaitHello) (h : Received auth s env incoming r) :
    r.session.accepted = s.accepted ∧ (∀ nonceA, r.session.phase ≠ .awaitAuthB nonceA) ∧
      ∀ p, r.session.phase = .awaitAuthA p → p.nonceBHex = env.nonce := by
  cases h with
  | plain h =>
    refine ⟨h.accepted, fun nonceA hB => ?_, fun p hA => ?_⟩
    · obtain hsame | ⟨how, hended⟩ | ⟨-, stage, hserving⟩ := h.phase
      · cases (hphase.symm.trans hsame.symm).trans hB
      · cases hended.symm.trans hB
      · cases hserving.symm.trans hB
    · obtain hsame | ⟨how, hended⟩ | ⟨-, stage, hserving⟩ := h.phase
      · cases (hphase.symm.trans hsame.symm).trans hA
      · cases hended.symm.trans hA
      · cases hserving.symm.trans hA
  | dialed hphase' => cases hphase.symm.trans hphase'
  | greeted hphase' hself hnonce htbs h =>
    obtain ⟨how, rfl⟩ | ⟨nodeId, peerId, nonce, timestamp, sig, rfl⟩ := h
    · exact ⟨rfl, fun nonceA hB => (by cases hB), fun p hA => (by cases hA)⟩
    · refine ⟨rfl, fun nonceA hB => (by cases hB), fun p hA => ?_⟩
      cases hA
      exact hnonce
  | answered hphase' => cases hphase.symm.trans hphase'

theorem Connection.Sound.next_of_awaitHello (hc : c.Sound auth C n) {env : Surroundings σ}
    {incoming : Incoming} {r : Reaction α β μ} (hphase : c.session.phase = .awaitHello)
    (hfresh : n.Fresh auth env.nonce) (h : Received auth c.session env incoming r) :
    (c.next r.session env.nonce n.log.length).Sound auth C n := by
  obtain ⟨haccepted, hB, hA⟩ := h.of_awaitHello hphase
  have hnone : r.session.accepted = none := haccepted.trans (hc.placed.awaitHello hphase).2
  rw [Connection.next, if_pos hphase]
  refine ⟨?_, ?_, h.placed hc.placed, le_refl _, fun nonceA h => absurd h (hB nonceA), hA,
    fun _ e he => hfresh e (List.mem_of_mem_take he), fun params h => ?_⟩
  · exact h.sameEnd.identity.trans hc.identity
  · dsimp only
    rw [h.sameEnd.manifest]
    exact hc.pins
  · cases hnone.symm.trans h

theorem Authenticated.sameEnd (h : Authenticated auth C n c params) {session : Session α β}
    (hsame : SameEnd c.session session) : Authenticated auth C n { c with session } params := by
  refine ⟨?_, ?_, ?_⟩
  · dsimp only
    rw [hsame.slot, hsame.remoteNodeId]
    exact h.dialed
  · dsimp only
    rw [hsame.slot]
    exact h.nonce
  · dsimp only
    rw [hsame.slot, hsame.manifest, hsame.actualRemotePeerId]
    exact h.signature

theorem Received.of_later {s : Session α β} {env : Surroundings σ} {incoming : Incoming}
    {r : Reaction α β μ} (hphase : s.phase ≠ .awaitHello) (h : Received auth s env incoming r) :
    r.session.phase ≠ .awaitHello ∧
      (∀ nonceA, r.session.phase = .awaitAuthB nonceA → s.phase = .awaitAuthB nonceA) ∧
      (∀ p, r.session.phase = .awaitAuthA p → s.phase = .awaitAuthA p) ∧
      ∀ p, r.session.accepted = some p → s.accepted = some p ∨
        ∃ nonce, Checked auth s nonce p incoming ∧
          (s.phase = .awaitAuthB nonce ∨ s.phase = .awaitAuthA p ∧ nonce = p.nonceBHex) := by
  cases h with
  | plain h =>
    refine ⟨fun hH => ?_, fun nonceA hB => ?_, fun p hA => ?_, fun p hp => Or.inl ?_⟩
    · obtain hsame | ⟨how, hended⟩ | ⟨-, stage, hserving⟩ := h.phase
      · exact hphase (hsame.symm.trans hH)
      · cases hended.symm.trans hH
      · cases hserving.symm.trans hH
    · obtain hsame | ⟨how, hended⟩ | ⟨-, stage, hserving⟩ := h.phase
      · exact hsame.symm.trans hB
      · cases hended.symm.trans hB
      · cases hserving.symm.trans hB
    · obtain hsame | ⟨how, hended⟩ | ⟨-, stage, hserving⟩ := h.phase
      · exact hsame.symm.trans hA
      · cases hended.symm.trans hA
      · cases hserving.symm.trans hA
    · exact h.accepted.symm.trans hp
  | @dialed nonceA params tbs s' hphase' hchecked htbs h =>
    obtain ⟨how, rfl⟩ | ⟨sig, rfl⟩ := h
    · exact ⟨fun h => (by cases h), fun nonceA h => (by cases h), fun p h => (by cases h),
        fun p hp => Or.inl hp⟩
    · refine ⟨fun h => (by cases h), fun nonceA h => (by cases h), fun p h => (by cases h),
        fun p hp => Or.inr ⟨nonceA, ?_, Or.inl hphase'⟩⟩
      cases hp
      exact hchecked
  | greeted hphase' => exact absurd hphase' hphase
  | answered hphase' hchecked =>
    refine ⟨fun h => (by cases h), fun nonceA h => (by cases h), fun p h => (by cases h), fun p hp => ?_⟩
    cases hp
    exact Or.inr ⟨_, hchecked, Or.inr ⟨hphase', rfl⟩⟩

theorem Connection.Sound.next_later (hinjective : ∀ p q message,
      auth.buildAePeerAuthTbs p = .ok message → auth.buildAePeerAuthTbs q = .ok message → p = q)
    (hinv : n.Inv auth C) (hc : c.Sound auth C n) {env : Surroundings σ} {incoming : Incoming}
    {r : Reaction α β μ} (hphase : c.session.phase ≠ .awaitHello) (hunforged : n.Unforged auth incoming)
    (h : Received auth c.session env incoming r) :
    (c.next r.session env.nonce n.log.length).Sound auth C n := by
  obtain ⟨-, hB, hA, haccepted⟩ := h.of_later hphase
  rw [Connection.next, if_neg hphase]
  refine ⟨?_, ?_, h.placed hc.placed, hc.drawn, fun nonceA h => hc.awaitAuthB nonceA (hB nonceA h),
    fun p h => hc.awaitAuthA p (hA p h), fun _ => hc.fresh hphase, fun p hp => ?_⟩
  · exact h.sameEnd.identity.trans hc.identity
  · dsimp only
    rw [h.sameEnd.manifest]
    exact hc.pins
  · refine Authenticated.sameEnd ?_ h.sameEnd
    obtain hbefore | ⟨nonce, hchecked, hwaits⟩ := haccepted p hp
    · exact hc.authenticated p hbefore
    · have hnonce : nonce = c.nonce := by
        obtain hwaits | ⟨hwaits, rfl⟩ := hwaits
        · exact hc.awaitAuthB nonce hwaits
        · exact hc.awaitAuthA p hwaits
      rw [hnonce] at hchecked
      exact authenticated_of_checked hinjective hinv hc hphase hchecked hunforged

/-! ### Runs -/

theorem start_inv : (Net.start : Net ι α β μ).Inv auth C where
  sound := fun i c h => by cases h
  signed := fun e he => by cases he
  outside := fun e he => by cases he

variable {sha : Sha256} {L : AeStoreView σ α β} {texts : List JsAny → List String}

theorem step_inv (hinjective : ∀ p q message, auth.buildAePeerAuthTbs p = .ok message →
      auth.buildAePeerAuthTbs q = .ok message → p = q)
    (hinv : n.Inv auth C) {event : NetEvent ι σ μ} (hallowed : n.Allowed auth C event) :
    (n.step auth C sha L texts event).Inv auth C := by
  cases event with
  | dial i node manifest remoteNodeId actualRemotePeerId timeoutMs env =>
    exact hinv.connect i (dial_sound hallowed.1 hallowed.2 _ _ _)
  | accept i node manifest actualRemotePeerId timeoutMs =>
    exact hinv.connect i (accept_sound hallowed _ _)
  | sign key message => exact hinv.sign hallowed
  | receive i incoming env =>
    rw [Net.step]
    cases hc : n.connections i with
    | none => exact hinv
    | some c =>
      have hsound := hinv.sound i c hc
      have hreceived : Received auth c.session env incoming
          (AntiEntropy.receive auth sha L texts c.session env incoming) :=
        receive_cases hsound.placed
      obtain ⟨hnode, hsame⟩ := next_same hreceived.sameEnd env.nonce n.log.length
      have hnext : (c.next (AntiEntropy.receive auth sha L texts c.session env incoming).session env.nonce
          n.log.length).Sound auth C n := by
        by_cases hphase : c.session.phase = .awaitHello
        · exact hsound.next_of_awaitHello hphase (hallowed.1 c hc hphase) hreceived
        · exact hsound.next_later hinjective hinv hphase hallowed.2 hreceived
      exact hinv.advance hc hnode hsame (fun _ => hreceived.signed hsound.placed)
        (hnext.mono (advance_extends hc hnode hsame))

/-- **An end that is past its handshake, or has answered a request, is authenticated**: the live peer id is
the one pinned for the claimed node, and the node's key has signed in the other role, since this connection
drew its nonce, a text with that nonce. -/
theorem handshake_safe (auth : PeerAuth μ) (hinjective : ∀ p q message,
      auth.buildAePeerAuthTbs p = .ok message → auth.buildAePeerAuthTbs q = .ok message → p = q)
    (C : Consortium ι) (sha : Sha256) (L : AeStoreView σ α β) (texts : List JsAny → List String)
    (events : List (NetEvent ι σ μ))
    (h : Guarded (Net.step auth C sha L texts) (Net.Allowed auth C) Net.start events) (m i : ℕ)
    (c : Connection ι α β)
    (hc : ((events.take m).foldl (Net.step auth C sha L texts) Net.start).connections i = some c)
    (hpast : c.session.phase = .rounds ∨ (∃ stage, c.session.phase = .serving stage) ∨
      ∃ frame ∈ c.session.sent, frame.isAnswer = true) :
    ∃ params, Authenticated auth C ((events.take m).foldl (Net.step auth C sha L texts) Net.start) c
      params := by
  have hstep : ∀ (n : Net ι α β μ) (event : NetEvent ι σ μ), n.Inv auth C → n.Allowed auth C event →
      (n.step auth C sha L texts event).Inv auth C :=
    fun n event hn hallowed => step_inv hinjective hn hallowed
  have hsound := (Guarded.invariant hstep start_inv h m).sound i c hc
  have haccepted : c.session.accepted ≠ none := by
    obtain hrounds | hserving | hanswered := hpast
    · exact hsound.placed.past (Or.inl hrounds)
    · exact hsound.placed.past (Or.inr hserving)
    · exact hsound.placed.answers hanswered
  obtain ⟨params, hparams⟩ := Option.ne_none_iff_exists'.1 haccepted
  exact ⟨params, hsound.authenticated params hparams⟩

end

/-! ### A handshake of two honest nodes -/

namespace HandshakeSample

def nonceA : String := "aaaaaaaaaaaaaaaaaaaaaaaaaaaaaaaaaaaaaaaaaaaaaaaaaaaaaaaaaaaaaaaa"

def nonceB : String := "bbbbbbbbbbbbbbbbbbbbbbbbbbbbbbbbbbbbbbbbbbbbbbbbbbbbbbbbbbbbbbbb"

def agreed : AePeerAuthParams where
  nodeIdA := "us-east-1"
  nodeIdB := "eu-west-1"
  peerIdA := "peer-a"
  peerIdB := "peer-b"
  nonceAHex := nonceA
  nonceBHex := nonceB
  timestamp := "1970-01-01T00:00:00.000Z"

/-- A text is the list of its lines.  Each node has signed one text. -/
def auth : PeerAuth (List String) where
  buildAePeerAuthTbs := fun p =>
    if p.nodeIdA = p.nodeIdB ∨ p.peerIdA = p.peerIdB then .error "A and B must differ"
    else .ok [p.nodeIdA, p.nodeIdB, p.peerIdA, p.peerIdB, p.nonceAHex, p.nonceBHex, p.timestamp]
  verifyAePeerAuth := fun key p sig =>
    decide (p = agreed ∧ (key = "key-a" ∧ sig = [1] ∨ key = "key-b" ∧ sig = [2]))
  dateParse := fun s => if s = agreed.timestamp then some 0 else none

/-- The dialer is `false`, the responder `true`. -/
def nodes : Consortium Bool where
  identity := fun b => if b then ⟨"eu-west-1", "peer-b"⟩ else ⟨"us-east-1", "peer-a"⟩
  pubkey := fun b => if b then "key-b" else "key-a"

def manifest : ConsortiumManifest where
  nodes := [⟨"us-east-1", some "key-a", some "peer-a"⟩, ⟨"eu-west-1", some "key-b", some "peer-b"⟩]

def sha : Sha256 := ⟨fun _ => nonceA, fun _ => by decide⟩

/-- A node without tables. -/
def view : AeStoreView Unit Unit Unit where
  tierATables := fun _ => []
  tierBTables := fun _ => []
  tierATableDigest := fun _ _ => .ok ""
  tierARecordHashes := fun _ _ => .ok []
  tierBTableDigest := fun _ _ => .ok ""
  tierBVersions := fun _ _ => .ok OrdMap.empty
  serveTierA := fun _ _ _ => .ok []
  serveTierB := fun _ _ _ => .ok []
  applyTierA := fun _ _ _ => ((), .ok 0)
  applyTierB := fun _ _ _ => ((), .ok ⟨0, 0, [], none⟩)

def env (nonce : String) (sig : Bytes) : Surroundings Unit := ⟨0, nonce, .ok sig, none, ()⟩

def hello : JsAny := .obj [("type", .str "ae_hello"), ("node_id", .str "us-east-1"),
  ("peer_id", .str "peer-a"), ("nonce", .str nonceA)]

def authB : JsAny := .obj [("type", .str "ae_auth_b"), ("node_id", .str "eu-west-1"),
  ("peer_id", .str "peer-b"), ("nonce", .str nonceB), ("timestamp", .str "1970-01-01T00:00:00.000Z"),
  ("sig", .bytes [2])]

def authA : JsAny := .obj [("type", .str "ae_auth_a"), ("sig", .bytes [1])]

def events : List (NetEvent Bool Unit (List String)) :=
  [.dial 0 false manifest "eu-west-1" "peer-b" 30000 (env nonceA [1]),
    .accept 1 true manifest "peer-a" 30000,
    .receive 1 (.frame hello) (env nonceB [2]),
    .receive 0 (.frame authB) (env "" [1]),
    .receive 1 (.frame authA) (env "" [2])]

abbrev step : Net Bool Unit Unit (List String) → NetEvent Bool Unit (List String) →
    Net Bool Unit Unit (List String) :=
  Net.step auth nodes sha view fun _ => []

theorem build_injective (p q : AePeerAuthParams) (message : List String)
    (hp : auth.buildAePeerAuthTbs p = .ok message) (hq : auth.buildAePeerAuthTbs q = .ok message) :
    p = q := by
  dsimp only [auth] at hp hq
  split_ifs at hp with hp'
  split_ifs at hq with hq'
  cases p
  cases q
  cases hp
  cases hq
  rfl

theorem pins : nodes.Pins manifest := Consortium.Pins.of_distinct (by decide) (by decide)

theorem unforged {n : Net Bool Unit Unit (List String)} {frame : JsAny} {key : String} {sig : Bytes}
    (hsig : frame.prop "sig" = .bytes sig)
    (hkey : ∀ key', key' = "key-a" ∧ sig = [1] ∨ key' = "key-b" ∧ sig = [2] → key' = key)
    (hlog : ∃ e ∈ n.log, e.key = key ∧ auth.buildAePeerAuthTbs agreed = .ok e.message) :
    n.Unforged auth (.frame frame) := by
  intro frame' sig' hframe hsig' key' p hverify
  cases hframe
  cases hsig.symm.trans hsig'
  obtain ⟨rfl, hmade⟩ := of_decide_eq_true hverify
  rw [hkey key' hmade]
  exact hlog

theorem phase_ne {n : Net Bool Unit Unit (List String)} {i : ℕ} {c : Connection Bool Unit Unit}
    (h : ((n.connections i).map fun c => decide (c.session.phase = .awaitHello)) = some false)
    (hc : n.connections i = some c) : c.session.phase ≠ .awaitHello := by
  rw [hc] at h
  exact of_decide_eq_false (Option.some.inj h)

theorem events_allowed : Guarded step (Net.Allowed auth nodes) Net.start events := by
  refine ⟨⟨pins, ?_⟩, pins, ⟨fun c _ _ => ?_, ?_⟩, ⟨fun c hc hphase => ?_, ?_⟩, ⟨fun c hc hphase => ?_, ?_⟩,
    trivial⟩
  · intro e he
    cases he
  · intro e he
    cases he
  · intro frame sig hframe hsig
    cases hframe
    cases hsig
  · exact absurd hphase (phase_ne (by decide) hc)
  · have hkey : ∀ key', key' = "key-a" ∧ ([2] : Bytes) = [1] ∨ key' = "key-b" ∧ ([2] : Bytes) = [2] →
        key' = "key-b" := by
      rintro key' (⟨-, h⟩ | ⟨h, -⟩)
      · cases h
      · exact h
    exact unforged rfl hkey ⟨⟨"key-b", _, some 1⟩, by decide, rfl, rfl⟩
  · exact absurd hphase (phase_ne (by decide) hc)
  · have hkey : ∀ key', key' = "key-a" ∧ ([1] : Bytes) = [1] ∨ key' = "key-b" ∧ ([1] : Bytes) = [2] →
        key' = "key-a" := by
      rintro key' (⟨h, -⟩ | ⟨-, h⟩)
      · exact h
      · cases h
    exact unforged rfl hkey ⟨⟨"key-a", _, some 0⟩, by decide, rfl, rfl⟩

theorem responder_serves :
    (((events.take 5).foldl step Net.start).connections 1).map (fun c => c.session.phase) =
      some (.serving "awaiting_first_request") := by
  decide

end HandshakeSample

open HandshakeSample in
/-- The responder of the sample serves, and is authenticated. -/
theorem handshake_safe_of_two_nodes : ∃ c, (((events.take 5).foldl step Net.start).connections 1) = some c ∧
    ∃ params, Authenticated auth nodes ((events.take 5).foldl step Net.start) c params := by
  obtain ⟨c, hc, hphase⟩ := Option.map_eq_some_iff.1 responder_serves
  exact ⟨c, hc, handshake_safe auth build_injective nodes sha view (fun _ => []) events events_allowed 5 1 c
    hc (Or.inr (Or.inl ⟨_, hphase⟩))⟩

end Cello.Directory.AntiEntropy
