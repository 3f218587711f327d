import Cello.Directory.Register.Gate

/-!
# One capability across the nodes

Every node binds the nonces it sees, and nothing of it replicates.  That a capability registers one agent only is
argued from majorities: a registration goes through the gates of more than half of the validators, and two such sets
share a node.  But a node that answers a registration has seen its own part: the quorum is what the client says it
can reach, and a `dkg_complete` is taken without a commitment of this node.

`oneAgent_run` is the argument, for runs in which registrations go through a majority of the gates.  Any two quorums
that are accepted share a validator (`accepted_quorums_agree`).
-/

namespace Cello.Directory.Register

open Lib

/-! ### The topology of a key generation -/

structure DkgTopology where
  hasManifest : Bool
  replicaOnly : Bool
  consortiumNodeCount : ℕ
  quorumNodeIds : List String
  dkgThreshold : ℕ
  dkgParticipants : ℕ
  belowQuorum : Bool
  duplicateNodeIds : List String
deriving DecidableEq, Repr

def duplicates (seen dupes : List String) : List String → List String
  | [] => dupes
  | id :: rest => duplicates (id :: seen) (if id ∈ seen ∧ id ∉ dupes then dupes ++ [id] else dupes) rest

section

-- `validatorNodes` is imported from outside the repository
variable {Entry : Type} (nodeId : Entry → String) (validatorNodes : List Entry → List Entry)
  (allManifestNodes : List Entry)

/-- The validators by their ids, each once. -/
def validatorIds : List String := ((validatorNodes allManifestNodes).map nodeId).eraseDups

/-- `computeDkgTopology`. -/
def computeDkgTopology (reachableNodeIds : Option (List String)) : DkgTopology :=
  let validators := validatorNodes allManifestNodes
  let hasManifest := decide (0 < allManifestNodes.length)
  let validatorNodeIds := validatorIds nodeId validatorNodes allManifestNodes
  let consortiumNodeCount := if validatorNodeIds.length = 0 then 1 else validatorNodeIds.length
  let quorumNodeIds := match reachableNodeIds with
    | some reachable => validatorNodeIds.filter fun id => decide (id ∈ reachable)
    | none => validatorNodeIds
  let dkgThreshold := if consortiumNodeCount = 1 then 2 else consortiumNodeCount / 2 + 1
  let dkgParticipants := if 0 < validatorNodeIds.length then quorumNodeIds.length else 1
  { hasManifest
    replicaOnly := hasManifest && decide (validators.length = 0)
    consortiumNodeCount
    quorumNodeIds
    dkgThreshold
    dkgParticipants
    belowQuorum := decide (1 < consortiumNodeCount) && decide (dkgParticipants < dkgThreshold)
    duplicateNodeIds := duplicates [] [] (validators.map nodeId) }

end

def DkgTopology.accepted (t : DkgTopology) : Bool :=
  decide (t.duplicateNodeIds = []) && !t.replicaOnly && !t.belowQuorum

variable {Entry : Type} {nodeId : Entry → String} {validatorNodes : List Entry → List Entry} {nodes : List Entry}
  {reachable : Option (List String)}

theorem length_quorum_le {p : String → Bool}
    (h : ∀ n ∈ (computeDkgTopology nodeId validatorNodes nodes reachable).quorumNodeIds, p n = true) :
    (computeDkgTopology nodeId validatorNodes nodes reachable).quorumNodeIds.length ≤
      (validatorIds nodeId validatorNodes nodes).countP p := by
  unfold computeDkgTopology at h ⊢
  dsimp only at h ⊢
  cases reachable with
  | none => exact (List.countP_eq_length.2 h).ge
  | some reachable =>
    dsimp only at h ⊢
    rw [← List.countP_eq_length_filter]
    exact List.countP_mono_left fun n hn hreachable => h n (List.mem_filter.2 ⟨hn, hreachable⟩)

theorem majority_of_accepted (h : (computeDkgTopology nodeId validatorNodes nodes reachable).accepted = true)
    (hmany : 1 < (validatorIds nodeId validatorNodes nodes).length) :
    (validatorIds nodeId validatorNodes nodes).length <
      2 * (computeDkgTopology nodeId validatorNodes nodes reachable).quorumNodeIds.length := by
  unfold DkgTopology.accepted at h
  have hbelow : (computeDkgTopology nodeId validatorNodes nodes reachable).belowQuorum = false := by
    simpa using (Bool.and_eq_true_iff.1 h).2
  unfold computeDkgTopology at hbelow ⊢
  dsimp only at hbelow ⊢
  rw [if_neg (by omega : (validatorIds nodeId validatorNodes nodes).length ≠ 0), decide_eq_true hmany,
    Bool.true_and] at hbelow
  have hthreshold := of_decide_eq_false hbelow
  rw [if_neg (by omega : (validatorIds nodeId validatorNodes nodes).length ≠ 1), if_pos (by omega)] at hthreshold
  omega

/-! ### Runs of the nodes -/

/-- A request says which nodes its client can reach; everything else is as before. -/
inductive ConsortiumEvent where
  | request (n : String) (frame : RegisterRequest) (reachable : Option (List String))
  | other (e : NetworkEvent)

def NetworkEvent.isRequest : NetworkEvent → Bool
  | .within _ (.registerRequest _ _) => true
  | _ => false

namespace Network

def consortiumStep (topology : Option (List String) → DkgTopology) (cfg : String → Config) (net : Network) :
    ConsortiumEvent → Network
  | .request n frame reachable => net.step cfg (.within n (.registerRequest frame (topology reachable).accepted))
  | .other e => if e.isRequest then net else net.step cfg e

def MajorityBound (net : Network) (ids : List String) (nonce k : String) : Prop :=
  ids.length < 2 * ids.countP fun n => decide ((nonce, k) ∈ (net n).db.nonces)

/-- **A `dkg_complete` that finds its attempt waiting** is of a key whose nonce a majority has bound. -/
def ThroughMajority (ids : List String) (net : Network) : ConsortiumEvent → Prop
  | .other (.within n e) => ∀ frame, (net n).desk.Finds e frame →
      ∃ nonce, net.MajorityBound ids nonce frame.kLocalPubkey
  | _ => True

/-- The key was answered `register_success` by some node. -/
def Registered (net : Network) (k : String) : Prop := ∃ n, Answered (net n).answers k

/-- The capability is the only one that the event presents for the keys. -/
def PresentsOnly (nonce : String) (keys : List String) : ConsortiumEvent → Prop
  | .other (.within _ (.round1 k c)) => k ∈ keys → c.nonce = nonce
  | _ => True

/-! ### What every step keeps -/

end Network

/-- Each nonce is bound to one agent, to an agent of the keys only if it is the one, and whoever was or will be
answered has a property. -/
structure Desk.OneEach (d : Desk) (A : String → Prop) (nonce : String) (keys : List String) : Prop where
  unique : (d.nonces.map Prod.fst).Nodup
  only : ∀ b ∈ d.nonces, b.2 ∈ keys → b.1 = nonce
  linking : d.LinksOf A
  answered : ∀ k, Answered d.answers k → A k

variable {d d' : Desk} {e : Event} {A B : String → Prop} {nonce k : String} {keys : List String}

theorem Desk.OneEach.mono (h : d.OneEach A nonce keys) (hAB : ∀ k, A k → B k) : d.OneEach B nonce keys :=
  ⟨h.unique, h.only, fun i frame agentId dkg preAuth hi => hAB _ (h.linking i frame agentId dkg preAuth hi),
    fun k hk => hAB k (h.answered k hk)⟩

theorem oneEach_start : ({} : Node).desk.OneEach A nonce keys := by
  refine ⟨List.nodup_nil, fun _ hb => absurd hb List.not_mem_nil, nofun, fun k hk => ?_⟩
  obtain ⟨agentId, primaryPubkey, hk⟩ := hk
  exact absurd hk List.not_mem_nil

theorem not_finds (h : ∀ authedPubkey dkg agentId now, e ≠ .dkgComplete authedPubkey dkg agentId now)
    (frame : RegisterRequest) : ¬ d.Finds e frame := by
  rintro ⟨authedPubkey, dkg, agentId, now, he, -⟩
  exact h authedPubkey dkg agentId now he

theorem Desk.OneEach.moves (h : d.OneEach A nonce keys) (hmoves : d.Moves e d')
    (honly : ∀ k c, e = .round1 k c → k ∈ keys → c.nonce = nonce)
    (hfinds : ∀ frame, d.Finds e frame → A frame.kLocalPubkey) : d'.OneEach A nonce keys := by
  have hlinking := h.linking.moves hmoves fun frame _ hframe _ => hfinds frame hframe
  have hanswered : ∀ k, Answered d'.answers k → A k := by
    intro k hk
    rcases answered_moves h.linking hmoves hk with hk | hk | ⟨frame, hframe, rfl⟩
    · exact h.answered k hk
    · exact hk
    · exact hfinds frame hframe
  cases hmoves with
  | bound k c hfree =>
    refine ⟨?_, fun b hb => ?_, hlinking, hanswered⟩
    · rw [List.map_append, List.nodup_append]
      refine ⟨h.unique, List.nodup_singleton _, fun n hn n' hn' => ?_⟩
      obtain ⟨b, hb, rfl⟩ := List.mem_map.1 hn
      obtain rfl := List.mem_singleton.1 hn'
      exact hfree b hb
    · rcases List.mem_append.1 hb with hb | hb
      · exact h.only b hb
      · obtain rfl := List.mem_singleton.1 hb
        exact honly k c rfl
  | _ => exact ⟨h.unique, h.only, hlinking, hanswered⟩

namespace Network

variable {ids : List String} {topology : Option (List String) → DkgTopology} {cfg : String → Config}
  {net net' : Network}

def Through (ids : List String) (net : Network) (k : String) : Prop :=
  ∃ nonce, net.MajorityBound ids nonce k

theorem MajorityBound.mono (h : net.MajorityBound ids nonce k)
    (hnonces : ∀ n, ∀ b ∈ (net n).db.nonces, b ∈ (net' n).db.nonces) : net'.MajorityBound ids nonce k := by
  have hcount := List.countP_mono_left (l := ids)
    (p := fun n => decide ((nonce, k) ∈ (net n).db.nonces)) (q := fun n => decide ((nonce, k) ∈ (net' n).db.nonces))
    fun n _ hn => decide_eq_true (hnonces n _ (of_decide_eq_true hn))
  exact lt_of_lt_of_le h (Nat.mul_le_mul_left 2 hcount)

theorem mem_nonces_step (e : NetworkEvent) (n : String) :
    ∀ b ∈ (net n).db.nonces, b ∈ (net.step cfg e n).db.nonces := by
  rcases step_cases net e n with hsame | ⟨e', -, -, hstep⟩ | ⟨source, row, -, -, happly⟩
  · rw [hsame]
    exact fun _ hb => hb
  · rw [hstep]
    exact mem_nonces_moves (step_moves e')
  · rw [happly]
    exact mem_nonces_moves (moves_apply row)

theorem oneEach_step {e : NetworkEvent} (h : ∀ n, (net n).desk.OneEach (net.Through ids) nonce keys)
    (honly : PresentsOnly nonce keys (.other e)) (hthrough : ThroughMajority ids net (.other e)) (n : String) :
    (net.step cfg e n).desk.OneEach (Through ids (net.step cfg e)) nonce keys := by
  have hmono : ∀ k, net.Through ids k → Through ids (net.step cfg e) k := by
    rintro k ⟨nonce, hnonce⟩
    exact ⟨nonce, hnonce.mono (mem_nonces_step e)⟩
  refine step_preserves (P := fun node => node.desk.OneEach (Through ids (net.step cfg e)) nonce keys)
    (fun n => (h n).mono hmono) (fun m e' he _ => ?_) (fun source target row he _ => ?_) n
  · subst he
    refine ((h m).mono hmono).moves (step_moves e') (fun k c he' => ?_) fun frame hframe => hmono _ ?_
    · subst he'
      exact honly
    · exact hthrough frame hframe
  · exact ((h target).mono hmono).moves (moves_apply row) (by nofun) fun frame hframe =>
      absurd hframe (not_finds (by nofun) frame)

theorem exists_of_majorities {l : List String} {p q : String → Bool} (hp : l.length < 2 * l.countP p)
    (hq : l.length < 2 * l.countP q) : ∃ n ∈ l, p n = true ∧ q n = true := by
  by_contra hno
  have hapart : l.countP p + l.countP q ≤ l.length := by
    clear hp hq
    induction l with
    | nil => exact le_rfl
    | cons n rest ih =>
      have hrest := ih fun ⟨m, hm, hpq⟩ => hno ⟨m, List.mem_cons_of_mem _ hm, hpq⟩
      rw [List.countP_cons, List.countP_cons, List.length_cons]
      by_cases hpn : p n = true
      · have hqn : ¬ q n = true := fun hqn => hno ⟨n, List.mem_cons_self, hpn, hqn⟩
        rw [if_pos hpn, if_neg hqn]
        omega
      · rw [if_neg hpn]
        split <;> omega
  omega

theorem oneEach_consortiumStep {e : ConsortiumEvent}
    (h : ∀ n, (net n).desk.OneEach (net.Through ids) nonce keys) (honly : PresentsOnly nonce keys e)
    (hthrough : ThroughMajority ids net e) (n : String) :
    (net.consortiumStep topology cfg e n).desk.OneEach
      (Through ids (net.consortiumStep topology cfg e)) nonce keys := by
  cases e with
  | request m frame reachable =>
    exact oneEach_step (e := .within m (.registerRequest frame (topology reachable).accepted)) h
      trivial (fun frame' hframe => absurd hframe (not_finds (by nofun) frame')) n
  | other e =>
    unfold consortiumStep
    dsimp only
    split
    · exact h n
    · exact oneEach_step h honly hthrough n

/-- **One capability, one agent.**  On any number of nodes, whatever its clients report and in whatever order its
frames come: if a `dkg_complete` finds its attempt waiting only once more than half of the validators have bound a
nonce to the key, then no two keys are ever registered for which one capability is the only one presented. -/
theorem oneAgent_run {Entry : Type} (nodeId : Entry → String) (validatorNodes : List Entry → List Entry)
    (nodes : List Entry) (cfg : String → Config) (events : List ConsortiumEvent)
    (hguard : Guarded (consortiumStep (computeDkgTopology nodeId validatorNodes nodes) cfg)
      (ThroughMajority (validatorIds nodeId validatorNodes nodes)) (fun _ => {}) events)
    (nonce k₁ k₂ : String) (honly : ∀ e ∈ events, PresentsOnly nonce [k₁, k₂] e)
    (h₁ : Registered (events.foldl (consortiumStep (computeDkgTopology nodeId validatorNodes nodes) cfg)
      fun _ => {}) k₁)
    (h₂ : Registered (events.foldl (consortiumStep (computeDkgTopology nodeId validatorNodes nodes) cfg)
      fun _ => {}) k₂) : k₁ = k₂ := by
  generalize computeDkgTopology nodeId validatorNodes nodes = topology at hguard h₁ h₂
  generalize validatorIds nodeId validatorNodes nodes = ids at hguard
  have hboth : Guarded (consortiumStep topology cfg)
      (fun net e => ThroughMajority ids net e ∧ PresentsOnly nonce [k₁, k₂] e) (fun _ => {}) events :=
    .of_forall fun j e hj => ⟨hguard.at hj, honly e (List.mem_of_getElem? hj)⟩
  have hone := Guarded.invariant
    (P := fun net : Network => ∀ n, (net n).desk.OneEach (net.Through ids) nonce [k₁, k₂])
    (fun net e h hthrough => oneEach_consortiumStep h hthrough.2 hthrough.1)
    (fun _ => oneEach_start) hboth events.length
  rw [List.take_length] at hone
  -- the nonce that a majority has bound to a key of the two is the one
  have hmajority : ∀ k ∈ [k₁, k₂], Registered (events.foldl (consortiumStep topology cfg) fun _ => {}) k →
      (events.foldl (consortiumStep topology cfg) fun _ => {}).MajorityBound ids nonce k := by
    rintro k hk ⟨n, hn⟩
    obtain ⟨nonce', hnonce'⟩ := (hone n).answered k hn
    obtain ⟨v, -, hv, -⟩ := exists_of_majorities hnonce' hnonce'
    obtain rfl := (hone v).only (nonce', k) (of_decide_eq_true hv) hk
    exact hnonce'
  obtain ⟨v, -, hv₁, hv₂⟩ := exists_of_majorities (hmajority k₁ List.mem_cons_self h₁)
    (hmajority k₂ (List.mem_cons_of_mem _ List.mem_cons_self) h₂)
  have hsame := List.inj_on_of_nodup_map (hone v).unique (of_decide_eq_true hv₁) (of_decide_eq_true hv₂) rfl
  exact (Prod.mk.inj hsame).2

theorem nonces_unique (topology : Option (List String) → DkgTopology) (cfg : String → Config)
    (events : List ConsortiumEvent) (n : String) :
    ((events.foldl (consortiumStep topology cfg) (fun _ => {}) n).db.nonces.map Prod.fst).Nodup := by
  have hstep : ∀ (net : Network) (e : NetworkEvent), (∀ n, (net n).desk.OneEach (fun _ => True) "" []) →
      ∀ n, (net.step cfg e n).desk.OneEach (fun _ => True) "" [] := by
    intro net e h
    refine step_preserves (P := fun node => node.desk.OneEach (fun _ => True) "" []) h (fun m e' _ _ => ?_)
      fun source target row _ _ => ?_
    · exact (h m).moves (step_moves e') (fun k c _ hk => absurd hk List.not_mem_nil) fun _ _ => trivial
    · exact (h target).moves (moves_apply row) (by nofun) fun _ _ => trivial
  have hrun : ∀ (events : List ConsortiumEvent) (net : Network),
      (∀ n, (net n).desk.OneEach (fun _ => True) "" []) →
        ∀ n, (events.foldl (consortiumStep topology cfg) net n).desk.OneEach (fun _ => True) "" [] := by
    intro events
    induction events with
    | nil => exact fun net h => h
    | cons e rest ih =>
      refine fun net h => ih _ ?_
      cases e with
      | request m frame reachable => exact hstep net _ h
      | other e =>
        unfold consortiumStep
        dsimp only
        split
        · exact h
        · exact hstep net e h
  exact (hrun events _ (fun _ => oneEach_start) n).unique

theorem accepted_quorums_agree {Entry : Type} (nodeId : Entry → String) (validatorNodes : List Entry → List Entry)
    (nodes : List Entry) (cfg : String → Config) (events : List ConsortiumEvent)
    (hmany : 1 < (validatorIds nodeId validatorNodes nodes).length) (reachable₁ reachable₂ : Option (List String))
    (haccepted₁ : (computeDkgTopology nodeId validatorNodes nodes reachable₁).accepted = true)
    (haccepted₂ : (computeDkgTopology nodeId validatorNodes nodes reachable₂).accepted = true) (nonce k₁ k₂ : String)
    (hbound₁ : ∀ n ∈ (computeDkgTopology nodeId validatorNodes nodes reachable₁).quorumNodeIds, (nonce, k₁) ∈
      (events.foldl (consortiumStep (computeDkgTopology nodeId validatorNodes nodes) cfg) (fun _ => {}) n).db.nonces)
    (hbound₂ : ∀ n ∈ (computeDkgTopology nodeId validatorNodes nodes reachable₂).quorumNodeIds, (nonce, k₂) ∈
      (events.foldl (consortiumStep (computeDkgTopology nodeId validatorNodes nodes) cfg) (fun _ => {}) n).db.nonces) :
    k₁ = k₂ := by
  generalize hnet : events.foldl (consortiumStep (computeDkgTopology nodeId validatorNodes nodes) cfg)
    (fun _ => {}) = net at hbound₁ hbound₂
  have hmajority : ∀ reachable k, (computeDkgTopology nodeId validatorNodes nodes reachable).accepted = true →
      (∀ n ∈ (computeDkgTopology nodeId validatorNodes nodes reachable).quorumNodeIds,
        (nonce, k) ∈ (net n).db.nonces) →
      net.MajorityBound (validatorIds nodeId validatorNodes nodes) nonce k := by
    intro reachable k haccepted hbound
    exact lt_of_lt_of_le (majority_of_accepted haccepted hmany)
      (Nat.mul_le_mul_left 2 (length_quorum_le fun n hn => decide_eq_true (hbound n hn)))
  obtain ⟨n, -, h₁, h₂⟩ := exists_of_majorities (hmajority _ k₁ haccepted₁ hbound₁) (hmajority _ k₂ haccepted₂ hbound₂)
  have hunique : ((net n).db.nonces.map Prod.fst).Nodup := hnet ▸ nonces_unique _ cfg events n
  have hsame := List.inj_on_of_nodup_map hunique (of_decide_eq_true h₁) (of_decide_eq_true h₂) rfl
  exact (Prod.mk.inj hsame).2

/-! ### Two agents with one capability -/

/-- A manifest of three nodes, all of them validators. -/
def threeNodes : Option (List String) → DkgTopology := computeDkgTopology id id ["A", "B", "C"]

def consortiumConfig : String → Config := fun _ => ⟨true, id⟩

def presentedAt (n k : String) : List ConsortiumEvent :=
  [.other (.within n (.round1 k ⟨"nonce", "phone", none⟩)), .other (.within n (.stash 0))]

def registersWith (n k : String) (rounds : List ConsortiumEvent) : List ConsortiumEvent :=
  .request n ⟨k, "", "ml-dsa"⟩ none :: rounds ++
    [.other (.within n (.dkgComplete k ⟨"P" ++ k, "binding"⟩ ("a" ++ k) 0)),
      .other (.within n (.linked 0 (some "account") 0))]

def throughTwo : List ConsortiumEvent := registersWith "A" "K" (presentedAt "A" "K" ++ presentedAt "B" "K")

/-- Two keys with the same capability, each at a node of its own. -/
def twice : List ConsortiumEvent :=
  registersWith "A" "K" (presentedAt "A" "K") ++ registersWith "B" "L" (presentedAt "B" "L")

theorem presentsOnly_registersWith {n k : String} {rounds : List ConsortiumEvent}
    (h : ∀ e ∈ rounds, PresentsOnly nonce keys e) : ∀ e ∈ registersWith n k rounds, PresentsOnly nonce keys e := by
  intro e he
  rcases List.mem_cons.1 he with rfl | he
  · trivial
  · rcases List.mem_append.1 he with he | he
    · exact h e he
    · rcases List.mem_cons.1 he with rfl | he
      · trivial
      · obtain rfl := List.mem_singleton.1 he
        trivial

theorem presentsOnly_presentedAt (n k : String) (keys : List String) :
    ∀ e ∈ presentedAt n k, PresentsOnly "nonce" keys e := by
  intro e he
  rcases List.mem_cons.1 he with rfl | he
  · exact fun _ => rfl
  · obtain rfl := List.mem_singleton.1 he
    trivial

/-- After two of three gates one key is registered, and no other. -/
theorem oneAgent_throughTwo :
    Registered (throughTwo.foldl (consortiumStep threeNodes consortiumConfig) fun _ => {}) "K" ∧
    ∀ k, Registered (throughTwo.foldl (consortiumStep threeNodes consortiumConfig) fun _ => {}) k → "K" = k := by
  have hregistered : Registered (throughTwo.foldl (consortiumStep threeNodes consortiumConfig) fun _ => {}) "K" :=
    ⟨"A", "aK", "PK", by decide⟩
  have hguard : Guarded (consortiumStep threeNodes consortiumConfig)
      (ThroughMajority (validatorIds id id ["A", "B", "C"])) (fun _ => {}) throughTwo := by
    refine ⟨trivial, fun frame h => ?_, fun frame h => ?_, fun frame h => ?_, fun frame h => ?_,
      fun frame h => ?_, fun frame h => ?_, trivial⟩
    · exact absurd h (not_finds (by nofun) frame)
    · exact absurd h (not_finds (by nofun) frame)
    · exact absurd h (not_finds (by nofun) frame)
    · exact absurd h (not_finds (by nofun) frame)
    · obtain ⟨authedPubkey, dkg, agentId, now, he, i, hi, hframe⟩ := h
      obtain ⟨rfl, -⟩ := Event.dkgComplete.inj he
      obtain rfl := Option.some.inj hi
      obtain ⟨rfl, -⟩ := Attempt.mk.inj (Option.some.inj hframe)
      exact ⟨"nonce", by unfold MajorityBound; decide⟩
    · exact absurd h (not_finds (by nofun) frame)
  refine ⟨hregistered, fun k hk => ?_⟩
  refine oneAgent_run id id ["A", "B", "C"] consortiumConfig throughTwo hguard "nonce" "K" k
    (presentsOnly_registersWith fun e he => ?_) hregistered hk
  rcases List.mem_append.1 he with he | he
  · exact presentsOnly_presentedAt "A" "K" _ e he
  · exact presentsOnly_presentedAt "B" "K" _ e he

def throughThree : List ConsortiumEvent :=
  registersWith "A" "K" (presentedAt "A" "K" ++ presentedAt "B" "K" ++ presentedAt "C" "K")

theorem accepted_quorums_agree_throughThree :
    (threeNodes (some ["A", "B"])).quorumNodeIds = ["A", "B"] ∧
    (threeNodes (some ["C", "B"])).quorumNodeIds = ["B", "C"] ∧
    (∀ n ∈ (threeNodes (some ["C", "B"])).quorumNodeIds,
      ("nonce", "K") ∈ (throughThree.foldl (consortiumStep threeNodes consortiumConfig) (fun _ => {}) n).db.nonces) ∧
    ∀ k, (∀ n ∈ (threeNodes (some ["C", "B"])).quorumNodeIds,
      ("nonce", k) ∈ (throughThree.foldl (consortiumStep threeNodes consortiumConfig) (fun _ => {}) n).db.nonces) →
        "K" = k :=
  ⟨by decide, by decide, by decide, fun k hbound =>
    accepted_quorums_agree id id ["A", "B", "C"] consortiumConfig throughThree (by decide) (some ["A", "B"])
      (some ["C", "B"]) (by decide) (by decide) "nonce" "K" k (by decide) hbound⟩

/-- **The same capability registers two agents.** -/
theorem twoAgents_twice : Registered (twice.foldl (consortiumStep threeNodes consortiumConfig) fun _ => {}) "K" ∧
    Registered (twice.foldl (consortiumStep threeNodes consortiumConfig) fun _ => {}) "L" ∧
    ∀ e ∈ twice, PresentsOnly "nonce" ["K", "L"] e := by
  refine ⟨⟨"A", "aK", "PK", by decide⟩, ⟨"B", "aL", "PL", by decide⟩, fun e he => ?_⟩
  rcases List.mem_append.1 he with he | he
  · exact presentsOnly_registersWith (presentsOnly_presentedAt "A" "K" _) e he
  · exact presentsOnly_registersWith (presentsOnly_presentedAt "B" "L" _) e he

end Network

end Cello.Directory.Register
