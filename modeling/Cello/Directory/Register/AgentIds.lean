import Cello.Directory.Register.Network
import Cello.Lib.GuardedRun

/-!
# One key, one agent id

A registered agent is told an agent id, and its owner pauses or burns it under that id; the gates join the
suspensions with the row of the agent's key.  So the id that was told has to be the id of the row.  The id is drawn
for the cache, and the row is inserted or not: where a row of the key has come first, from a peer or from another
attempt, the id that was told is in no row, and nothing that is filed under it stops the key.

`AnswersNamed` is what the answers promise, and `answersNamed_run` the condition under which they keep it.
-/

namespace Cello.Directory.Register

open Lib
open Cello.Directory.AntiEntropy (SuspensionRecord)

def Answer.agentId? : Answer → Option String
  | .registerSuccess agentId _ => some agentId
  | .alreadyRegistered agentId _ _ => some agentId
  | _ => none

def Names (writes : List Write) (k agentId : String) : Prop :=
  ∃ p accountId, Write.profile p accountId ∈ writes ∧ p.kLocalPubkey = k ∧ p.agentId = agentId

/-- What is filed under the agent id stops the key, and the row of the key has no other id. -/
structure Tables.Stops (db : Tables) (k agentId : String) : Prop where
  holds : db.Holds k agentId
  only : ∀ p ∈ db.profiles, p.kLocalPubkey = k → p.agentId = some agentId
  paused : ∀ s ∈ db.suspensions, s.agentId = agentId → s.paused = true → db.isAgentSuspended k = true
  burned : ∀ s ∈ db.suspensions, s.agentId = agentId → s.burned = true → db.isAgentBurned k = true

/-- **Every answer names the agent id of the row of its key**, once the write it stands for has landed: it is under
way, or was cut off by a restart, or the row is there. -/
def Node.AnswersNamed (node : Node) : Prop :=
  ∀ k a agentId, (k, a) ∈ node.answers → a.agentId? = some agentId →
    Names node.mem.writes k agentId ∨ Names node.lost k agentId ∨ node.db.Stops k agentId

/-- A profile that lands finds no row of its key, its group key or its agent id, and a request is answered from a
profile of its own key. -/
def Node.TakesEffect (node : Node) : Event → Prop
  | .land i => ∀ p accountId, node.mem.writes[i]? = some (.profile p accountId) →
      node.db.admits (p.row accountId) = true
  | .registerRequest frame _ => ∀ p, node.mem.getProfile frame.kLocalPubkey = some p →
      p.kLocalPubkey = frame.kLocalPubkey
  | _ => True

/-! ### What every step keeps -/

def Node.Backs (node : Node) (k agentId : String) : Prop :=
  Names node.mem.writes k agentId ∨ node.db.Holds k agentId

/-- Keys are unique and agent ids there; the account of a write is there; and what the caches and the answers say is
backed. -/
structure Node.Sound (node : Node) : Prop where
  keys : (node.db.profiles.map ProfileRow.kLocalPubkey).Nodup
  ids : ∀ p ∈ node.db.profiles, ∃ agentId, p.agentId = some agentId
  accounts : ∀ p accountId, Write.profile p (some accountId) ∈ node.mem.writes →
    node.db.hasAccount accountId = true
  byLocalKey : ∀ k p, node.mem.profilesByLocalKey k = some p →
    p.kLocalPubkey = k ∧ node.Backs p.kLocalPubkey p.agentId
  byPrimaryKey : ∀ k p, node.mem.profilesByPrimaryKey k = some p → node.Backs p.kLocalPubkey p.agentId
  answers : ∀ k a agentId, (k, a) ∈ node.answers → a.agentId? = some agentId →
    Names node.lost k agentId ∨ node.Backs k agentId

theorem Names.mono {writes writes' : List Write} {k agentId : String} (h : Names writes k agentId)
    (hsub : ∀ w ∈ writes, w ∈ writes') : Names writes' k agentId := by
  obtain ⟨p, accountId, hp, hk, hid⟩ := h
  exact ⟨p, accountId, hsub _ hp, hk, hid⟩

theorem Tables.Holds.mono {db db' : Tables} {k agentId : String} (h : db.Holds k agentId)
    (hsub : ∀ p ∈ db.profiles, p ∈ db'.profiles) : db'.Holds k agentId := by
  obtain ⟨p, hp, hk, hid⟩ := h
  exact ⟨p, hsub p hp, hk, hid⟩

variable {cfg : Config} {node node' : Node} {k agentId : String}

theorem Tables.Holds.stops {db : Tables} (h : db.Holds k agentId)
    (hkeys : (db.profiles.map ProfileRow.kLocalPubkey).Nodup) : db.Stops k agentId := by
  refine ⟨h, fun p hp hk => ?_, fun s hs hid hpaused => isAgentSuspended_of_holds h hid hs hpaused,
    fun s hs hid hburned => isAgentBurned_of_holds h hid hs hburned⟩
  obtain ⟨q, hq, hqk, hqid⟩ := h
  obtain rfl : p = q := List.inj_on_of_nodup_map hkeys hp hq (hk.trans hqk.symm)
  exact hqid

theorem Node.Sound.answersNamed (h : node.Sound) : node.AnswersNamed := by
  intro k a agentId ha hid
  rcases h.answers k a agentId ha hid with hlost | hwrite | hholds
  · exact .inr (.inl hlost)
  · exact .inl hwrite
  · exact .inr (.inr (hholds.stops h.keys))

theorem Node.Sound.transfer (h : node.Sound)
    (hkeys : (node'.db.profiles.map ProfileRow.kLocalPubkey).Nodup)
    (hids : ∀ p ∈ node'.db.profiles, ∃ agentId, p.agentId = some agentId)
    (haccounts : ∀ p accountId, Write.profile p (some accountId) ∈ node'.mem.writes →
      node'.db.hasAccount accountId = true)
    (hbacks : ∀ k agentId, node.Backs k agentId → node'.Backs k agentId)
    (hlocal : node'.mem.profilesByLocalKey = node.mem.profilesByLocalKey)
    (hprimary : node'.mem.profilesByPrimaryKey = node.mem.profilesByPrimaryKey) (hlost : node'.lost = node.lost)
    (hanswers : ∀ k a, (k, a) ∈ node'.answers → (k, a) ∈ node.answers ∨
      ∀ agentId, a.agentId? = some agentId → node.Backs k agentId) : node'.Sound := by
  refine ⟨hkeys, hids, haccounts, fun k p hp => ?_, fun k p hp => ?_, fun k a agentId ha hid => ?_⟩
  · obtain ⟨hk, hback⟩ := h.byLocalKey k p (hlocal ▸ hp)
    exact ⟨hk, hbacks _ _ hback⟩
  · exact hbacks _ _ (h.byPrimaryKey k p (hprimary ▸ hp))
  · rcases hanswers k a ha with ha | hnamed
    · exact (h.answers k a agentId ha hid).imp (hlost ▸ ·) (hbacks k agentId)
    · exact .inr (hbacks k agentId (hnamed agentId hid))

theorem Node.Sound.quiet (h : node.Sound) (hprofiles : node'.db.profiles = node.db.profiles)
    (haccounts : ∀ a, node.db.hasAccount a = true → node'.db.hasAccount a = true)
    (hlocal : node'.mem.profilesByLocalKey = node.mem.profilesByLocalKey)
    (hprimary : node'.mem.profilesByPrimaryKey = node.mem.profilesByPrimaryKey)
    (hwrites : node'.mem.writes = node.mem.writes) (hlost : node'.lost = node.lost)
    (hanswers : ∀ k a, (k, a) ∈ node'.answers → (k, a) ∈ node.answers ∨
      ∀ agentId, a.agentId? = some agentId → node.Backs k agentId) : node'.Sound := by
  refine h.transfer (hprofiles ▸ h.keys) (fun p hp => h.ids p (hprofiles ▸ hp))
    (fun p accountId hp => haccounts _ (h.accounts p accountId (hwrites ▸ hp))) ?_ hlocal hprimary hlost hanswers
  rintro k agentId (hwrite | hholds)
  · exact .inl (hwrites ▸ hwrite)
  · exact .inr (hholds.mono fun p hp => hprofiles ▸ hp)

/-! ### The caches -/

theorem Node.Sound.cache (h : node.Sound) {p : Profile} (hp : node.Backs p.kLocalPubkey p.agentId) :
    ({ node with mem := node.mem.cache p } : Node).Sound := by
  refine ⟨h.keys, h.ids, h.accounts, fun k q hq => ?_, fun k q hq => ?_, h.answers⟩
  · by_cases hk : k = p.kLocalPubkey
    · subst hk
      rw [show (node.mem.cache p).profilesByLocalKey p.kLocalPubkey = some p from Function.update_self ..] at hq
      obtain rfl := Option.some.inj hq
      exact ⟨rfl, hp⟩
    · rw [show (node.mem.cache p).profilesByLocalKey k = node.mem.profilesByLocalKey k from
        Function.update_of_ne hk ..] at hq
      exact h.byLocalKey k q hq
  · by_cases hk : k = p.primaryPubkey
    · subst hk
      rw [show (node.mem.cache p).profilesByPrimaryKey p.primaryPubkey = some p from Function.update_self ..] at hq
      obtain rfl := Option.some.inj hq
      exact hp
    · rw [show (node.mem.cache p).profilesByPrimaryKey k = node.mem.profilesByPrimaryKey k from
        Function.update_of_ne hk ..] at hq
      exact h.byPrimaryKey k q hq

theorem holds_ofRow {db : Tables} {row : ProfileRow} (hrow : row ∈ db.profiles)
    (hid : ∃ agentId, row.agentId = some agentId) :
    db.Holds (Profile.ofRow cfg row).kLocalPubkey (Profile.ofRow cfg row).agentId := by
  obtain ⟨agentId, hid⟩ := hid
  refine ⟨row, hrow, rfl, ?_⟩
  show row.agentId = some (row.agentId.getD _)
  rw [hid, Option.getD_some]

section

variable (h : node.Sound)

include h

theorem Node.Sound.restart : (node.restart cfg).Sound := by
  -- the caches are filled row by row, on a node that has lost its writes
  have hfill : ∀ rows : List ProfileRow, (∀ row ∈ rows, row ∈ node.db.profiles) → ∀ mem : Memory, mem.writes = [] →
      ({ node with mem := mem, lost := node.lost ++ node.mem.writes } : Node).Sound →
      ({ node with
        mem := { Memory.cacheRows cfg mem rows with
          revokedPubkeys := node.db.revokedKeys
          revocationsByAgentId := node.db.revocations.map Revocation.agentId }
        lost := node.lost ++ node.mem.writes } : Node).Sound := by
    intro rows
    induction rows with
    | nil => exact fun _ mem _ hmem => hmem.quiet rfl (fun _ ha => ha) rfl rfl rfl rfl fun _ _ ha => .inl ha
    | cons row rest ih =>
      intro hrows mem hwrites hmem
      have hrow := hrows row List.mem_cons_self
      exact ih (fun row hr => hrows row (List.mem_cons_of_mem _ hr)) _ hwrites
        (hmem.cache (.inr (holds_ofRow hrow (h.ids row hrow))))
  refine hfill node.db.profiles (fun _ hr => hr) {} rfl ⟨h.keys, h.ids, fun p accountId hp => ?_, fun k p hp => ?_,
    fun k p hp => ?_, fun k a agentId ha hid => ?_⟩
  · cases hp
  · cases hp
  · cases hp
  · rcases h.answers k a agentId ha hid with hlost | hwrite | hholds
    · exact .inl (hlost.mono fun w hw => List.mem_append_left _ hw)
    · exact .inl (hwrite.mono fun w hw => List.mem_append_right _ hw)
    · exact .inr (.inr hholds)

theorem Node.Sound.readThrough (pubkey : String) : (node.readThrough cfg pubkey).Sound := by
  unfold Node.readThrough
  split
  · exact h
  · cases hrow : node.db.profiles.find? fun p => decide (p.kLocalPubkey = pubkey) with
    | none => exact h
    | some row =>
      have hmem := List.mem_of_find?_eq_some hrow
      exact h.cache (.inr (holds_ofRow hmem (h.ids row hmem)))

/-! ### The attempts -/

theorem Node.Sound.finish (i : ℕ) (frame : RegisterRequest) (answer : Answer)
    (hanswer : ∀ agentId, answer.agentId? = some agentId → node.Backs frame.kLocalPubkey agentId) :
    (node.finish i frame answer).Sound := by
  refine h.quiet rfl (fun _ ha => ha) rfl rfl rfl rfl fun k a ha => ?_
  rcases List.mem_append.1 ha with ha | ha
  · exact .inl ha
  · obtain ⟨rfl, rfl⟩ := Prod.mk.inj (List.mem_singleton.1 ha)
    exact .inr hanswer

theorem Node.Sound.refuse (i : ℕ) (frame : RegisterRequest) (answer : Answer)
    (hanswer : ∀ agentId, answer.agentId? = some agentId → node.Backs frame.kLocalPubkey agentId) :
    (node.refuse i frame answer).Sound := by
  have hdropped : ({ node with mem := node.mem.dropPreAuth frame.kLocalPubkey } : Node).Sound :=
    h.quiet rfl (fun _ ha => ha) rfl rfl rfl rfl fun _ _ ha => .inl ha
  exact hdropped.finish i frame answer hanswer

theorem Node.Sound.registerRequest {frame : RegisterRequest} {topologyOk : Bool}
    (hown : ∀ p, node.mem.getProfile frame.kLocalPubkey = some p → p.kLocalPubkey = frame.kLocalPubkey) :
    (node.registerRequest cfg frame topologyOk).Sound := by
  have hopened : ({ node with mem := { node.mem with attempts := node.mem.attempts ++ [⟨frame, .waiting⟩] } } :
      Node).Sound := h.quiet rfl (fun _ ha => ha) rfl rfl rfl rfl fun _ _ ha => .inl ha
  unfold Node.registerRequest
  dsimp only
  split
  · exact hopened.refuse _ frame .invalidVerification fun _ hid => by cases hid
  · cases hcached : node.mem.getProfile frame.kLocalPubkey with
    | none =>
      dsimp only
      split
      · exact h.quiet rfl (fun _ ha => ha) rfl rfl rfl rfl fun _ _ ha => .inl ha
      · exact hopened.refuse _ frame .dkgFailed fun _ hid => by cases hid
    | some p =>
      refine hopened.refuse _ frame (.alreadyRegistered ..) fun agentId hid => ?_
      obtain rfl : p.agentId = agentId := Option.some.inj hid
      have hback : node.Backs p.kLocalPubkey p.agentId := by
        rcases Option.or_eq_some_iff.1 hcached with hlocal | ⟨-, hprimary⟩
        · exact (h.byLocalKey _ p hlocal).2
        · exact h.byPrimaryKey _ p hprimary
      exact hown p hcached ▸ hback

theorem Node.Sound.register (i : ℕ) (frame : RegisterRequest) (dkg : DkgComplete)
    (agentId phone : String) {accountId : Option String} (now : ℤ)
    (haccount : ∀ a, accountId = some a → node.db.hasAccount a = true) :
    (node.register i frame dkg agentId phone accountId now).Sound := by
  have hwritten : ∀ p : Profile,
      ({ node with mem := { node.mem with writes := node.mem.writes ++ [.profile p accountId] } } : Node).Sound := by
    intro p
    refine h.transfer h.keys h.ids (fun q a hq => ?_) ?_ rfl rfl rfl fun _ _ ha => .inl ha
    · rcases List.mem_append.1 hq with hq | hq
      · exact h.accounts q a hq
      · obtain ⟨-, rfl⟩ := Write.profile.inj (List.mem_singleton.1 hq)
        exact haccount a rfl
    · rintro k agentId (hwrite | hholds)
      · exact .inl (hwrite.mono fun w hw => List.mem_append_left _ hw)
      · exact .inr hholds
  refine ((hwritten _).cache (.inl ⟨_, accountId, List.mem_append_right _ List.mem_cons_self, rfl, rfl⟩)).finish
    i frame (.registerSuccess ..) fun _ hid => ?_
  obtain rfl := Option.some.inj hid
  exact .inl ⟨_, accountId, List.mem_append_right _ List.mem_cons_self, rfl, rfl⟩

theorem Node.Sound.resume (i : ℕ) (frame : RegisterRequest) (dkg : DkgComplete) (agentId : String)
    (now : ℤ) : (node.resume cfg i frame dkg agentId now).Sound := by
  have hdropped : ({ node with mem := node.mem.dropCommitment frame.kLocalPubkey } : Node).Sound :=
    h.quiet rfl (fun _ ha => ha) rfl rfl rfl rfl fun _ _ ha => .inl ha
  unfold Node.resume
  dsimp only
  split
  · exact hdropped.refuse i frame .dkgVerificationFailed fun _ hid => by cases hid
  · cases node.mem.pendingPreAuthData frame.kLocalPubkey with
    | some preAuth => exact hdropped.quiet rfl (fun _ ha => ha) rfl rfl rfl rfl fun _ _ ha => .inl ha
    | none =>
      dsimp only
      split
      · exact hdropped.refuse i frame .invalidVerification fun _ hid => by cases hid
      · have hconsumed : ({ node with mem :=
            (node.mem.dropCommitment frame.kLocalPubkey).dropPreAuth frame.kLocalPubkey } : Node).Sound :=
          h.quiet rfl (fun _ ha => ha) rfl rfl rfl rfl fun _ _ ha => .inl ha
        exact hconsumed.register i frame dkg agentId (cfg.sha256 frame.phoneStub) now fun _ ha => nomatch ha

theorem Node.Sound.dkgComplete (authedPubkey : String) (dkg : DkgComplete) (agentId : String) (now : ℤ) :
    (node.dkgComplete cfg authedPubkey dkg agentId now).Sound := by
  have htaken : ({ node with mem := { node.mem with
      pendingDkgComplete := Function.update node.mem.pendingDkgComplete authedPubkey none } } : Node).Sound :=
    h.quiet rfl (fun _ ha => ha) rfl rfl rfl rfl fun _ _ ha => .inl ha
  unfold Node.dkgComplete
  cases node.mem.pendingDkgComplete authedPubkey with
  | none => exact h
  | some i =>
    dsimp only
    split
    next frame _ => exact htaken.resume i frame dkg agentId now
    · exact htaken

theorem Node.Sound.linked (i : ℕ) (drawn : Option String) (now : ℤ) :
    (node.linked i drawn now).Sound := by
  unfold Node.linked
  split
  next frame agentId dkg preAuth _ =>
    cases hresolved : drawn.bind (node.db.resolveOrCreateAccount preAuth.phoneStubHash preAuth.emailStubHash) with
    | none => exact h.register i frame dkg agentId _ now fun _ ha => nomatch ha
    | some found =>
      obtain ⟨db, accountId⟩ := found
      obtain ⟨id, -, hresolve⟩ := Option.bind_eq_some_iff.1 hresolved
      obtain ⟨⟨b, hb, hbid, -⟩, -, hprofiles, -, -⟩ := resolveOrCreateAccount_some hresolve
      have hfound : ({ node with db := db } : Node).Sound :=
        h.quiet hprofiles (fun a ha => hasAccount_resolveOrCreateAccount hresolve ha) rfl rfl rfl rfl
          fun _ _ ha => .inl ha
      refine hfound.register i frame dkg agentId _ now fun a ha => ?_
      obtain rfl := Option.some.inj ha
      exact List.any_eq_true.2 ⟨b, hb, decide_eq_true hbid⟩
  · exact h

end

/-! ### The rows -/

theorem backs_land {i : ℕ} {p : Profile} {accountId : Option String} {writes : List Write} {db : Tables}
    (hi : node.mem.writes[i]? = some (.profile p accountId)) (hsub : ∀ w ∈ node.mem.writes.eraseIdx i, w ∈ writes)
    (hrows : ∀ q ∈ node.db.profiles, q ∈ db.profiles) (hrow : p.row accountId ∈ db.profiles) :
    node.Backs k agentId → Names writes k agentId ∨ db.Holds k agentId := by
  rintro (⟨q, a, hq, hqk, hqid⟩ | hholds)
  · obtain ⟨j, hj⟩ := List.getElem?_of_mem hq
    by_cases hji : j = i
    · obtain ⟨rfl, -⟩ := Write.profile.inj (Option.some.inj (hi.symm.trans (hji ▸ hj)))
      exact .inr ⟨p.row accountId, hrow, hqk, congrArg some hqid⟩
    · exact .inl ⟨q, a, hsub _ (List.mem_eraseIdx_iff_getElem?.2 ⟨j, hji, hj⟩), hqk, hqid⟩
  · exact .inr (hholds.mono hrows)

theorem Node.Sound.ids_insertProfile (h : node.Sound) {p : ProfileRow} (hp : ∃ agentId, p.agentId = some agentId) :
    ∀ q ∈ (node.db.insertProfile p).profiles, ∃ agentId, q.agentId = some agentId := by
  intro q hq
  rcases mem_insertProfile.1 hq with hq | ⟨-, rfl⟩
  · exact h.ids q hq
  · exact hp

theorem Node.Sound.insertLink (h : node.Sound) {i : ℕ} {l : AccountLink} (hi : node.mem.writes[i]? = some (.link l)) :
    ({ node with db := node.db.insertLink l, mem := { node.mem with writes := node.mem.writes.eraseIdx i } } :
      Node).Sound := by
  have hprofiles := insertLink_profiles node.db l
  refine h.transfer (hprofiles ▸ h.keys) (fun p hp => h.ids p (hprofiles ▸ hp)) (fun p a hp => ?_) ?_ rfl rfl rfl
    fun _ _ ha => .inl ha
  · rw [hasAccount_congr (insertLink_accounts node.db l)]
    exact h.accounts p a (List.mem_of_mem_eraseIdx hp)
  · rintro k agentId (⟨q, a, hq, hqk, hqid⟩ | hholds)
    · obtain ⟨j, hj⟩ := List.getElem?_of_mem hq
      have hji : j ≠ i := by
        rintro rfl
        cases Option.some.inj (hi.symm.trans hj)
      exact .inl ⟨q, a, List.mem_eraseIdx_iff_getElem?.2 ⟨j, hji, hj⟩, hqk, hqid⟩
    · exact .inr (hholds.mono fun p hp => hprofiles ▸ hp)

theorem Node.Sound.landProfile (h : node.Sound) {i : ℕ} {p : Profile} {accountId : Option String}
    (hi : node.mem.writes[i]? = some (.profile p accountId)) (hadmits : node.db.admits (p.row accountId) = true)
    (links : List AccountLink) :
    ({ node with
      db := node.db.insertProfile (p.row accountId)
      mem := { node.mem with writes := node.mem.writes.eraseIdx i ++ links.map .link } } : Node).Sound := by
  refine h.transfer (nodup_insertProfile h.keys) (h.ids_insertProfile ⟨p.agentId, rfl⟩) (fun q a hq => ?_)
    (fun k agentId => backs_land hi (fun w hw => List.mem_append_left _ hw) (fun q hq => mem_insertProfile.2 (.inl hq))
      (mem_insertProfile.2 (.inr ⟨hadmits, rfl⟩))) rfl rfl rfl fun _ _ ha => .inl ha
  rw [hasAccount_congr (insertProfile_accounts node.db _)]
  rcases List.mem_append.1 hq with hq | hq
  · exact h.accounts q a (List.mem_of_mem_eraseIdx hq)
  · obtain ⟨l, -, hl⟩ := List.mem_map.1 hq
    cases hl

theorem Node.Sound.land (h : node.Sound) {i : ℕ} (htakes : node.TakesEffect (.land i)) : (node.land i).Sound := by
  unfold Node.land
  cases hi : node.mem.writes[i]? with
  | none => exact h
  | some w =>
    cases w with
    | link l => exact h.insertLink hi
    | profile p accountId =>
      have hadmits := htakes p accountId hi
      cases accountId with
      | none =>
        have hlanded := h.landProfile hi hadmits []
        rw [List.map_nil, List.append_nil] at hlanded
        exact hlanded
      | some accountId =>
        have hfree : ¬ (node.db.profiles.any fun q => decide (q.kLocalPubkey = p.kLocalPubkey)) = true := by
          intro hany
          obtain ⟨q, hq, hsame⟩ := List.any_eq_true.1 hany
          exact ne_of_admits hadmits hq (of_decide_eq_true hsame)
        have haccount := h.accounts p accountId (List.mem_of_getElem? hi)
        dsimp only [Node.execute]
        rw [if_neg hfree, hadmits, haccount, Bool.and_self, if_pos rfl]
        exact h.landProfile hi hadmits [⟨p.agentId, accountId⟩]

theorem Node.Sound.apply (h : node.Sound) (row : Row) : (node.apply row).Sound := by
  cases row with
  | profile p =>
    dsimp only [Node.apply]
    split
    next hid =>
      refine h.transfer (nodup_insertProfile h.keys) (h.ids_insertProfile (Option.isSome_iff_exists.1 hid))
        (fun q a hq => ?_) ?_ rfl rfl rfl fun _ _ ha => .inl ha
      · rw [hasAccount_congr (insertProfile_accounts node.db _)]
        exact h.accounts q a hq
      · rintro k agentId (hwrite | hholds)
        · exact .inl hwrite
        · exact .inr (hholds.mono fun q hq => mem_insertProfile.2 (.inl hq))
    · exact h
  | revocation r =>
    exact h.quiet (insertRevocation_profiles ..)
      (fun a ha => (hasAccount_congr (insertRevocation_accounts ..) a).trans ha)
      rfl rfl rfl rfl fun _ _ ha => .inl ha
  | account a =>
    dsimp only [Node.apply]
    cases hinsert : node.db.insertAccount { a with emailStubHash := none } with
    | none => exact h
    | some db =>
      have hdb := (insertAccount_some hinsert).1
      have hprofiles : db.profiles = node.db.profiles := by rw [hdb]
      have hinserted : ({ node with db := db } : Node).Sound :=
        h.quiet hprofiles (fun _ ha => hasAccount_insertAccount hinsert ha) rfl rfl rfl rfl
          fun _ _ ha => .inl ha
      exact hinserted
  | link l =>
    exact h.quiet (insertLink_profiles ..) (fun a ha => (hasAccount_congr (insertLink_accounts ..) a).trans ha)
      rfl rfl rfl rfl fun _ _ ha => .inl ha
  | emailStub s =>
    exact h.quiet (insertEmailStub_profiles ..)
      (fun a ha => (hasAccount_congr (insertEmailStub_accounts ..) a).trans ha)
      rfl rfl rfl rfl fun _ _ ha => .inl ha

/-- **One step.** -/
theorem Node.Sound.step (h : node.Sound) {e : Event} (htakes : node.TakesEffect e) : (node.step cfg e).Sound := by
  cases e with
  | round1 agentPubkey c =>
    show (node.round1 agentPubkey c).Sound
    unfold Node.round1
    cases hbind : node.db.bindNonce c.nonce agentPubkey with
    | mk db bound =>
      cases bound with
      | false => exact h
      | true =>
        have hprofiles := hbind ▸ bindNonce_profiles node.db c.nonce agentPubkey
        have haccounts := hbind ▸ bindNonce_accounts node.db c.nonce agentPubkey
        exact h.quiet hprofiles (fun a ha => (hasAccount_congr haccounts a).trans ha) rfl rfl rfl rfl
          fun _ _ ha => .inl ha
  | stash i =>
    show (node.stash i).Sound
    unfold Node.stash
    cases node.mem.bound[i]? with
    | none => exact h
    | some b => exact h.quiet rfl (fun _ ha => ha) rfl rfl rfl rfl fun _ _ ha => .inl ha
  | round3 agentPubkey c => exact h.quiet rfl (fun _ ha => ha) rfl rfl rfl rfl fun _ _ ha => .inl ha
  | registerRequest frame topologyOk => exact h.registerRequest htakes
  | timeout i =>
    show (node.timeout i).Sound
    unfold Node.timeout
    split
    next frame _ =>
      have htaken : ({ node with mem := { node.mem with
          pendingDkgComplete := Function.update node.mem.pendingDkgComplete frame.kLocalPubkey none } } : Node).Sound :=
        h.quiet rfl (fun _ ha => ha) rfl rfl rfl rfl fun _ _ ha => .inl ha
      exact htaken.refuse i frame .dkgFailed fun _ hid => by cases hid
    · exact h
  | dkgComplete authedPubkey dkg agentId now => exact h.dkgComplete authedPubkey dkg agentId now
  | linked i drawn now => exact h.linked i drawn now
  | land i => exact h.land htakes
  | apply row => exact h.apply row
  | readThrough pubkey => exact h.readThrough pubkey
  | revoke authedPubkey r =>
    show (node.revoke authedPubkey r).Sound
    unfold Node.revoke
    cases node.mem.getProfile authedPubkey with
    | none => exact h
    | some p =>
      dsimp only
      split
      · exact h
      · exact h.quiet (insertRevocation_profiles ..)
          (fun a ha => (hasAccount_congr (insertRevocation_accounts ..) a).trans ha)
          rfl rfl rfl rfl fun _ _ ha => .inl ha
  | suspend s => exact h.quiet rfl (fun _ ha => ha) rfl rfl rfl rfl fun _ _ ha => .inl ha
  | restart => exact h.restart

/-! ### Runs -/

/-- What happens at a node by itself meets the condition there; a round of anti-entropy has none. -/
def Network.TakesEffect (net : Network) : NetworkEvent → Prop
  | .within n e => (net n).TakesEffect e
  | .sync .. => True

theorem Node.sound_start : ({} : Node).Sound :=
  ⟨List.nodup_nil, fun _ hp => absurd hp List.not_mem_nil, fun _ _ hp => absurd hp List.not_mem_nil,
    fun _ _ hp => (by cases hp), fun _ _ hp => (by cases hp), fun _ _ _ ha => absurd ha List.not_mem_nil⟩

/-! ### A key at one node, and at two -/

def plainConfig : String → Config := fun _ => ⟨true, id⟩

def registersAt (n primaryPubkey agentId : String) : List NetworkEvent :=
  [.within n (.registerRequest ⟨"K", "phone", "ml-dsa"⟩ true),
    .within n (.dkgComplete "K" ⟨primaryPubkey, "binding"⟩ agentId 0), .within n (.land 0)]

def registeredRow (primaryPubkey agentId : String) : ProfileRow :=
  ⟨"K", primaryPubkey, "ml-dsa", "phone", 0, none, some agentId, some "binding"⟩

def pausedAgent (agentId : String) : SuspensionRecord :=
  ⟨agentId, true, false, none, some "account", Double.number 1, "A"⟩

def registeredOnce : List NetworkEvent :=
  registersAt "B" "P" "b" ++ [.sync "B" "A" (.profile (registeredRow "P" "b")),
    .within "B" (.registerRequest ⟨"K", "phone", "ml-dsa"⟩ true)]

/-- The row of the key is replicated behind the cache of the other node, and the key registers there too. -/
def registeredTwice : List NetworkEvent :=
  registersAt "B" "P" "b" ++ [.sync "B" "A" (.profile (registeredRow "P" "b"))] ++ registersAt "A" "Q" "a"

end Cello.Directory.Register
