import Mathlib.Data.List.Induction
import Cello.Directory.AntiEntropy.RoundReport

/-!
# The fork alarm

After each round with a peer, `syncPeer` counts for every table in how many rounds on end it has shown
records that conflict with the peer's, and raises `antientropy.round.fork_suspected` from the second
one on.  A round in which any table failed, or which was served less than it planned, leaves all the
counters as they are.

So the trouble of one table keeps another's fork quiet: a round that is informative for a table is not
counted for it when another table fails, nor when the `ae_done` after it cannot be sent, which throws the whole
result away.  `fork_alarm_per_table` is about the rounds in which this does not happen: there the alarm of a table
follows that table alone.
-/

namespace Cello.Directory.AntiEntropy

open Lib

/-! ### `syncPeer` after the round -/

/-- `antientropy.round.fork_suspected`. -/
structure ForkSuspected where
  key : TableKey
  consecutive : ℕ
  reason : String
  divergentKeys : List String
deriving DecidableEq, Repr

/-- Two entries of one table. -/
def Unconverged.merge (prev u : Unconverged) : Unconverged :=
  { prev with
    planned := prev.planned + u.planned
    pulled := prev.pulled + u.pulled
    applied := prev.applied + u.applied
    divergent := prev.divergent + u.divergent
    verdict := if prev.verdict = .contentFork ∨ u.verdict = .contentFork then .contentFork
      else .peerBehind
    divergentKeys := (prev.divergentKeys ++ u.divergentKeys).take 5 }

def mergeUnconverged (unconverged : List Unconverged) : OrdMap TableKey Unconverged :=
  unconverged.foldl (fun m u =>
    m.set (u.tier, u.table) (((m.get (u.tier, u.table)).map fun prev => prev.merge u).getD u))
    OrdMap.empty

def forkReason (tier : Tier) (verdict : Verdict) : String :=
  if verdict = .peerBehind then
    "nothing applied — our copy already dominates the peer's, which is ordinary replication lag, " ++
      "NOT a fork. If it persists, the PEER is not pulling from us: check its own rounds."
  else
    match tier with
    | .A => "a Tier-A table fetched records that did not insert — same natural key, different content"
    | .B => "a Tier-B column no merge reconciles disagrees — a real fork that will not resolve on its own"

def forkEntries (unconverged : List Unconverged) : List (TableKey × Unconverged) :=
  (mergeUnconverged unconverged).entries.filter fun e => decide (0 < e.2.divergent)

/-- One table of the loop over `forkKeys`. -/
def countFork (out : OrdMap TableKey ℕ × List ForkSuspected) (e : TableKey × Unconverged) :
    OrdMap TableKey ℕ × List ForkSuspected :=
  let streak := (out.1.get e.1).getD 0 + 1
  (out.1.set e.1 streak,
    if 2 ≤ streak then
      out.2 ++ [{ key := e.1, consecutive := streak, reason := forkReason e.1.1 e.2.verdict
                  divergentKeys := e.2.divergentKeys }]
    else out.2)

def countForks (perTable : OrdMap TableKey ℕ) (unconverged : List Unconverged) :
    OrdMap TableKey ℕ × List ForkSuspected :=
  (forkEntries unconverged).foldl countFork
    (perTable.filter fun key _ => decide (key ∈ (forkEntries unconverged).map Prod.fst), [])

/-- `#forkStreak`, by peer, after an attempt that came to this result or to none. -/
def syncPeer (forkStreak : OrdMap String (OrdMap TableKey ℕ)) (peerNodeId : String)
    (result : Option RoundResult) : OrdMap String (OrdMap TableKey ℕ) × List ForkSuspected :=
  match result with
  | none => (forkStreak, [])
  | some r =>
    if r.pulled < r.planned ∨ r.failures ≠ [] then (forkStreak, [])
    else
      let out := countForks ((forkStreak.get peerNodeId).getD OrdMap.empty) r.unconverged
      (forkStreak.set peerNodeId out.1, out.2)

/-! ### What a count comes to -/

theorem mergeUnconverged_spec (key : TableKey) : ∀ (unconverged : List Unconverged)
    (m : OrdMap TableKey Unconverged),
    (((unconverged.foldl (fun m u =>
        m.set (u.tier, u.table) (((m.get (u.tier, u.table)).map fun prev => prev.merge u).getD u))
        m).get key).map Unconverged.divergent).getD 0 =
      ((m.get key).map Unconverged.divergent).getD 0 + divergentOf key unconverged := by
  intro unconverged
  induction unconverged with
  | nil => simp [divergentOf]
  | cons u rest ih =>
    intro m
    have hcons : divergentOf key (u :: rest) =
        (if (u.tier, u.table) = key then u.divergent else 0) + divergentOf key rest := by
      by_cases h : (u.tier, u.table) = key <;> simp [divergentOf, h]
    rw [List.foldl_cons, ih, hcons, OrdMap.get_set]
    by_cases h : (u.tier, u.table) = key
    · subst h
      cases hprev : m.get (u.tier, u.table) with
      | none => simp
      | some prev => simp [Unconverged.merge, Nat.add_assoc]
    · simp [h, Ne.symm h]

theorem mem_forkEntries {key : TableKey} {unconverged : List Unconverged} :
    key ∈ (forkEntries unconverged).map Prod.fst ↔ 0 < divergentOf key unconverged := by
  have hspec := mergeUnconverged_spec key unconverged OrdMap.empty
  rw [OrdMap.get_empty, Option.map_none, Option.getD_none, Nat.zero_add] at hspec
  rw [← hspec]
  change _ ↔ 0 < (((mergeUnconverged unconverged).get key).map Unconverged.divergent).getD 0
  constructor
  · intro h
    obtain ⟨e, he, rfl⟩ := List.mem_map.1 h
    obtain ⟨hmem, hpos⟩ := List.mem_filter.1 he
    rw [(OrdMap.get_eq_some_iff _ e.1 e.2).2 hmem]
    simpa using hpos
  · intro h
    cases hget : (mergeUnconverged unconverged).get key with
    | none =>
      rw [hget] at h
      cases h
    | some u =>
      rw [hget] at h
      exact List.mem_map.2 ⟨(key, u), List.mem_filter.2
        ⟨(OrdMap.get_eq_some_iff _ _ _).1 hget, decide_eq_true h⟩, rfl⟩

theorem nodup_forkEntries (unconverged : List Unconverged) :
    ((forkEntries unconverged).map Prod.fst).Nodup :=
  (List.filter_sublist.map Prod.fst).nodup (mergeUnconverged unconverged).nodup

theorem foldl_countFork (key : TableKey) : ∀ (entries : List (TableKey × Unconverged))
    (out : OrdMap TableKey ℕ × List ForkSuspected), (entries.map Prod.fst).Nodup →
    (((entries.foldl countFork out).1.get key).getD 0 =
        (out.1.get key).getD 0 + if key ∈ entries.map Prod.fst then 1 else 0) ∧
      (key ∈ (entries.foldl countFork out).2.map ForkSuspected.key ↔
        key ∈ out.2.map ForkSuspected.key ∨
          key ∈ entries.map Prod.fst ∧ 1 ≤ (out.1.get key).getD 0) := by
  intro entries
  induction entries with
  | nil => intro out _; simp
  | cons e rest ih =>
    intro out hnodup
    rw [List.map_cons, List.nodup_cons] at hnodup
    obtain ⟨hstreak, halarm⟩ := ih (countFork out e) hnodup.2
    rw [List.foldl_cons, hstreak, halarm]
    by_cases hkey : key = e.1
    · subst hkey
      by_cases hpos : 1 ≤ (out.1.get e.1).getD 0
      · simp [countFork, hnodup.1, hpos]
      · simp [countFork, hnodup.1, hpos]
    · have hget : (countFork out e).1.get key = out.1.get key := OrdMap.get_set_of_ne _ _ hkey
      have hlist : key ∈ (countFork out e).2.map ForkSuspected.key ↔
          key ∈ out.2.map ForkSuspected.key := by
        unfold countFork
        simp only
        split_ifs <;> simp [hkey]
      have hmem : key ∈ (e :: rest).map Prod.fst ↔ key ∈ rest.map Prod.fst := by
        rw [List.map_cons, List.mem_cons, or_iff_right hkey]
      rw [hget, hlist]
      simp only [hmem]
      exact ⟨trivial, trivial⟩

/-- **The counter of a table after a round that proves something, and its alarm.** -/
theorem countForks_spec (perTable : OrdMap TableKey ℕ) (unconverged : List Unconverged)
    (key : TableKey) :
    (((countForks perTable unconverged).1.get key).getD 0 =
        if 0 < divergentOf key unconverged then (perTable.get key).getD 0 + 1 else 0) ∧
      (key ∈ (countForks perTable unconverged).2.map ForkSuspected.key ↔
        0 < divergentOf key unconverged ∧ 1 ≤ (perTable.get key).getD 0) := by
  obtain ⟨hstreak, halarm⟩ := foldl_countFork key (forkEntries unconverged)
    (perTable.filter fun key _ => decide (key ∈ (forkEntries unconverged).map Prod.fst), [])
    (nodup_forkEntries unconverged)
  have hkept : ((perTable.filter fun key _ =>
      decide (key ∈ (forkEntries unconverged).map Prod.fst)).get key).getD 0 =
        if 0 < divergentOf key unconverged then (perTable.get key).getD 0 else 0 := by
    by_cases hfork : 0 < divergentOf key unconverged
    · have hget : (perTable.filter fun key _ =>
          decide (key ∈ (forkEntries unconverged).map Prod.fst)).get key = perTable.get key := by
        ext n
        rw [OrdMap.get_filter]
        exact and_iff_left (decide_eq_true (mem_forkEntries.2 hfork))
      rw [hget, if_pos hfork]
    · have hget : (perTable.filter fun key _ =>
          decide (key ∈ (forkEntries unconverged).map Prod.fst)).get key = none := by
        rw [Option.eq_none_iff_forall_ne_some]
        intro n hn
        exact hfork (mem_forkEntries.1 (of_decide_eq_true (OrdMap.get_filter _ _ |>.1 hn).2))
      rw [hget, if_neg hfork, Option.getD_none]
  rw [hkept] at hstreak halarm
  rw [countForks]
  refine ⟨?_, ?_⟩
  · rw [hstreak]
    by_cases hfork : 0 < divergentOf key unconverged
    · rw [if_pos hfork, if_pos (mem_forkEntries.2 hfork), if_pos hfork]
    · rw [if_neg hfork, if_neg (mt mem_forkEntries.1 hfork), if_neg hfork]
  · rw [halarm, mem_forkEntries]
    simp only [List.map_nil, List.not_mem_nil, false_or]
    refine and_congr_right fun hfork => ?_
    rw [if_pos hfork]

/-! ### Rounds with a peer -/

section

variable {σ τ α β : Type} (sha : Sha256) (L : AeStoreView σ α β) (P : AeStoreView τ α β)
  (cleanA : σ → String → List (TierARecord α) → Bool)
  (cleanB : σ → String → List (TierBRecord β) → Bool)

/-- An attempt to sync with a peer: it does not come to a round, or one is run between these stores, and after it
the `ae_done` is sent or its `send` throws. -/
inductive Attempt (σ τ : Type) where
  | unreached
  | round (store : σ) (peer : τ) (doneSent : Bool)

/-- What `syncPeer` is left with. -/
def Attempt.result : Attempt σ τ → Option RoundResult
  | .unreached => none
  | .round store peer doneSent => if doneSent then (runAntiEntropyRound sha L P store peer).2.toOption else none

/-- Its round is run and its `ae_done` is not sent. -/
def Attempt.unclosed : Attempt σ τ → Bool
  | .unreached => false
  | .round _ _ doneSent => !doneSent

def Attempt.reports : Attempt σ τ → List (TableKey × TableReport)
  | .unreached => []
  | .round store peer _ => roundReports sha L P cleanA cleanB store peer

/-- The attempt says something about the table. -/
def Attempt.Informative (key : TableKey) (a : Attempt σ τ) : Prop :=
  (∃ x ∈ a.reports sha L P cleanA cleanB, x.1 = key) ∧
    ∀ x ∈ a.reports sha L P cleanA cleanB, x.1 = key → x.2.informative = true

/-- How many records of the table are still in conflict. -/
def Attempt.divergent (key : TableKey) (a : Attempt σ τ) : ℕ :=
  (((a.reports sha L P cleanA cleanB).filter fun x => x.1 = key).map fun x => x.2.divergent).sum

def Attempt.Masked (a : Attempt σ τ) : Prop :=
  a.unclosed = true ∨ ¬NoneFails (a.reports sha L P cleanA cleanB) ∨
    ((a.reports sha L P cleanA cleanB).map fun x => x.2.pulled).sum <
      ((a.reports sha L P cleanA cleanB).map fun x => x.2.planned).sum

/-- **The other tables leave this one alone**: what the attempt says about it is not masked, and what
it does not say is not counted. -/
def Attempt.Undisturbed (key : TableKey) (a : Attempt σ τ) : Prop :=
  (a.Informative sha L P cleanA cleanB key → ¬a.Masked sha L P cleanA cleanB) ∧
    (¬a.Informative sha L P cleanA cleanB key →
      a.Masked sha L P cleanA cleanB ∨ a.divergent sha L P cleanA cleanB key = 0)

def streakOf (peerNodeId : String) (key : TableKey)
    (forkStreak : OrdMap String (OrdMap TableKey ℕ)) : ℕ :=
  (((forkStreak.get peerNodeId).getD OrdMap.empty).get key).getD 0

/-- The service after these attempts, each with its peer. -/
def serviceAfter (events : List (String × Attempt σ τ)) : OrdMap String (OrdMap TableKey ℕ) :=
  events.foldl (fun s e => (syncPeer s e.1 (e.2.result sha L P)).1) OrdMap.empty

/-- The attempts with one peer. -/
def attemptsWith (peerNodeId : String) (events : List (String × Attempt σ τ)) : List (Attempt σ τ) :=
  (events.filter fun e => e.1 = peerNodeId).map Prod.snd

variable {sha L P cleanA cleanB}

variable (cleanA cleanB) in
theorem masked_iff {a : Attempt σ τ} {r : RoundResult} (h : a.result sha L P = some r) :
    (r.pulled < r.planned ∨ r.failures ≠ [] ↔ a.Masked sha L P cleanA cleanB) ∧
      ∀ key, divergentOf key r.unconverged = a.divergent sha L P cleanA cleanB key := by
  cases a with
  | unreached => cases h
  | round store peer doneSent =>
    obtain rfl : doneSent = true := by
      by_contra hsent
      rw [Attempt.result, if_neg hsent] at h
      cases h
    have hok : (runAntiEntropyRound sha L P store peer).2 = .ok r := by
      rw [Attempt.result, if_pos rfl] at h
      cases hrun : (runAntiEntropyRound sha L P store peer).2 with
      | error e =>
        rw [hrun] at h
        cases h
      | ok r' =>
        rw [hrun] at h
        exact congrArg Except.ok (Option.some.inj h)
    obtain ⟨hfailures, hplanned, hpulled, hdivergent⟩ := totals_of_ok cleanA cleanB hok
    refine ⟨?_, hdivergent⟩
    rw [Attempt.Masked, or_iff_right (show ¬(Attempt.round store peer true).unclosed = true by simp [Attempt.unclosed]),
      Attempt.reports, ← hfailures, ← hplanned]
    by_cases hnone : r.failures = []
    · rw [← hpulled hnone]
      simp [hnone]
    · simp [hnone]

theorem syncPeer_of_masked (peerNodeId : String) (forkStreak : OrdMap String (OrdMap TableKey ℕ))
    {a : Attempt σ τ} (h : a.result sha L P = none ∨ a.Masked sha L P cleanA cleanB) :
    syncPeer forkStreak peerNodeId (a.result sha L P) = (forkStreak, []) := by
  cases hresult : a.result sha L P with
  | none => rfl
  | some r =>
    have hmasked := (masked_iff cleanA cleanB hresult).1.2 (h.resolve_left (by simp [hresult]))
    exact if_pos hmasked

theorem syncPeer_of_not_masked (peerNodeId : String) (key : TableKey)
    (forkStreak : OrdMap String (OrdMap TableKey ℕ)) {a : Attempt σ τ}
    (hresult : a.result sha L P ≠ none) (hmasked : ¬a.Masked sha L P cleanA cleanB) :
    (streakOf peerNodeId key (syncPeer forkStreak peerNodeId (a.result sha L P)).1 =
        if 0 < a.divergent sha L P cleanA cleanB key then streakOf peerNodeId key forkStreak + 1
        else 0) ∧
      (key ∈ (syncPeer forkStreak peerNodeId (a.result sha L P)).2.map ForkSuspected.key ↔
        0 < a.divergent sha L P cleanA cleanB key ∧ 1 ≤ streakOf peerNodeId key forkStreak) := by
  obtain ⟨r, hr⟩ := Option.ne_none_iff_exists'.1 hresult
  obtain ⟨hiff, hdivergent⟩ := masked_iff cleanA cleanB hr
  obtain ⟨hstreak, halarm⟩ := countForks_spec ((forkStreak.get peerNodeId).getD OrdMap.empty)
    r.unconverged key
  rw [hdivergent] at hstreak halarm
  have hsync : syncPeer forkStreak peerNodeId (a.result sha L P) =
      (forkStreak.set peerNodeId (countForks ((forkStreak.get peerNodeId).getD OrdMap.empty)
          r.unconverged).1,
        (countForks ((forkStreak.get peerNodeId).getD OrdMap.empty) r.unconverged).2) := by
    rw [hr]
    exact if_neg (mt hiff.1 hmasked)
  rw [hsync]
  refine ⟨?_, halarm⟩
  rw [streakOf, OrdMap.get_set_self, Option.getD_some]
  exact hstreak

theorem streakOf_syncPeer_of_ne {peerNodeId other : String} (h : other ≠ peerNodeId) (key : TableKey)
    (forkStreak : OrdMap String (OrdMap TableKey ℕ)) (result : Option RoundResult) :
    streakOf peerNodeId key (syncPeer forkStreak other result).1 = streakOf peerNodeId key forkStreak := by
  unfold syncPeer
  cases result with
  | none => rfl
  | some r =>
    simp only
    split_ifs
    · rfl
    · rw [streakOf, streakOf, OrdMap.get_set_of_ne _ _ (Ne.symm h)]

/-! ### The alarm of a table -/

/-- Before these attempts ended the table was in conflict, and nothing has been learnt of it since. -/
def LastSeenDivergent (sha : Sha256) (L : AeStoreView σ α β) (P : AeStoreView τ α β)
    (cleanA : σ → String → List (TierARecord α) → Bool)
    (cleanB : σ → String → List (TierBRecord β) → Bool) (key : TableKey)
    (attempts : List (Attempt σ τ)) : Prop :=
  ∃ before prev since, attempts = before ++ prev :: since ∧
    prev.Informative sha L P cleanA cleanB key ∧ 0 < prev.divergent sha L P cleanA cleanB key ∧
      ∀ a ∈ since, ¬a.Informative sha L P cleanA cleanB key

/-- The last round that came to a result was informative, and the table was in conflict. -/
def JustSeenDivergent (sha : Sha256) (L : AeStoreView σ α β) (P : AeStoreView τ α β)
    (cleanA : σ → String → List (TierARecord α) → Bool)
    (cleanB : σ → String → List (TierBRecord β) → Bool) (key : TableKey)
    (attempts : List (Attempt σ τ)) : Prop :=
  ∃ before prev since, attempts = before ++ prev :: since ∧
    prev.Informative sha L P cleanA cleanB key ∧ 0 < prev.divergent sha L P cleanA cleanB key ∧
      ∀ a ∈ since, a.result sha L P = none

theorem masked_of_informative {a : Attempt σ τ} {key : TableKey} (hresult : a.result sha L P = none)
    (h : a.Informative sha L P cleanA cleanB key) : a.Masked sha L P cleanA cleanB := by
  obtain ⟨⟨x, hx, _⟩, _⟩ := h
  cases a with
  | unreached => cases hx
  | round store peer doneSent =>
    cases doneSent with
    | false => exact Or.inl rfl
    | true =>
      rw [Attempt.result, if_pos rfl] at hresult
      cases hrun : (runAntiEntropyRound sha L P store peer).2 with
      | ok r =>
        rw [hrun] at hresult
        cases hresult
      | error e =>
        rcases failed_of_error cleanA cleanB hrun with hnil | hfails
        · rw [Attempt.reports, hnil] at hx
          cases hx
        · exact Or.inr (Or.inl hfails)

theorem attemptsWith_concat (peerNodeId : String) (events : List (String × Attempt σ τ))
    (e : String × Attempt σ τ) : attemptsWith peerNodeId (events ++ [e]) =
      if e.1 = peerNodeId then attemptsWith peerNodeId events ++ [e.2] else attemptsWith peerNodeId events := by
  unfold attemptsWith
  split_ifs with h <;> simp [List.filter_append, h]

/-- **The counter of a table knows the last round that said something about it.** -/
theorem streak_spec (peerNodeId : String) (key : TableKey) (events : List (String × Attempt σ τ)) :
    (∀ a ∈ attemptsWith peerNodeId events, a.Undisturbed sha L P cleanA cleanB key) →
      (1 ≤ streakOf peerNodeId key (serviceAfter sha L P events) →
        LastSeenDivergent sha L P cleanA cleanB key (attemptsWith peerNodeId events)) ∧
      (JustSeenDivergent sha L P cleanA cleanB key (attemptsWith peerNodeId events) →
        1 ≤ streakOf peerNodeId key (serviceAfter sha L P events)) := by
  induction events using List.reverseRecOn with
  | nil =>
    intro _
    refine ⟨fun h => by simp [serviceAfter, streakOf] at h, ?_⟩
    rintro ⟨before, prev, since, hnil, -⟩
    simp [attemptsWith] at hnil
  | append_singleton events e ih =>
    obtain ⟨other, a⟩ := e
    have hservice : serviceAfter sha L P (events ++ [(other, a)]) =
        (syncPeer (serviceAfter sha L P events) other (a.result sha L P)).1 := by
      rw [serviceAfter, List.foldl_append]
      rfl
    rw [attemptsWith_concat, hservice]
    by_cases hpeer : other = peerNodeId
    · subst hpeer
      rw [if_pos rfl]
      intro h
      obtain ⟨hlast, hjust⟩ := ih fun x hx => h x (List.mem_append_left _ hx)
      have hhere : a.Undisturbed sha L P cleanA cleanB key := h a (by simp)
      by_cases hidle : a.result sha L P = none ∨ a.Masked sha L P cleanA cleanB
      · -- the counter stays, and so does what is known
        have hnot : ¬a.Informative sha L P cleanA cleanB key := by
          intro hinf
          rcases hidle with hnone | hmasked
          · exact hhere.1 hinf (masked_of_informative hnone hinf)
          · exact hhere.1 hinf hmasked
        rw [syncPeer_of_masked other _ hidle]
        constructor
        · intro hstreak
          obtain ⟨before, prev, since, heq, hinf, hdiv, hsince⟩ := hlast hstreak
          refine ⟨before, prev, since ++ [a], by simp [heq], hinf, hdiv, ?_⟩
          intro x hx
          rcases List.mem_append.1 hx with hx | hx
          · exact hsince x hx
          · rw [List.mem_singleton] at hx
            exact hx ▸ hnot
        · rintro ⟨before, prev, since, heq, hinf, hdiv, hsince⟩
          refine hjust ?_
          rcases List.eq_nil_or_concat since with rfl | ⟨since', x, rfl⟩
          · obtain ⟨_, hprev⟩ := List.append_inj' heq rfl
            cases hprev
            exact absurd hinf hnot
          · rw [List.concat_eq_append, ← List.cons_append, ← List.append_assoc] at heq
            obtain ⟨hold, _⟩ := List.append_inj' heq rfl
            exact ⟨before, prev, since', hold, hinf, hdiv,
              fun y hy => hsince y (by simp [hy])⟩
      · rw [not_or] at hidle
        obtain ⟨hstreak, _⟩ := syncPeer_of_not_masked other key (serviceAfter sha L P events)
          hidle.1 hidle.2
        rw [hstreak]
        by_cases hdiv : 0 < a.divergent sha L P cleanA cleanB key
        · rw [if_pos hdiv]
          refine ⟨fun _ => ?_, fun _ => by omega⟩
          have hinf : a.Informative sha L P cleanA cleanB key := by
            by_contra hnot
            rcases hhere.2 hnot with hmasked | hzero
            · exact hidle.2 hmasked
            · omega
          exact ⟨_, a, [], rfl, hinf, hdiv, by simp⟩
        · rw [if_neg hdiv]
          refine ⟨fun hone => absurd hone (by decide), ?_⟩
          rintro ⟨before, prev, since, heq, hinf, hprev, hsince⟩
          rcases List.eq_nil_or_concat since with rfl | ⟨since', x, rfl⟩
          · obtain ⟨_, hsame⟩ := List.append_inj' heq rfl
            cases hsame
            exact absurd hprev hdiv
          · rw [List.concat_eq_append, ← List.cons_append, ← List.append_assoc] at heq
            obtain ⟨_, hsame⟩ := List.append_inj' heq rfl
            cases hsame
            exact absurd (hsince a (by simp)) hidle.1
    · rw [if_neg hpeer, streakOf_syncPeer_of_ne hpeer]
      exact ih

/-- **The alarm of a table follows that table**, in every run with a peer, among others, in which the
other tables leave it alone.  Two rounds running that are informative and in conflict raise it; and it
is raised only over a conflict that was there in the last round that was informative, too. -/
theorem fork_alarm_per_table (sha : Sha256) (L : AeStoreView σ α β) (P : AeStoreView τ α β)
    (cleanA : σ → String → List (TierARecord α) → Bool)
    (cleanB : σ → String → List (TierBRecord β) → Bool) (peerNodeId : String) (key : TableKey)
    (events : List (String × Attempt σ τ)) (a : Attempt σ τ)
    (h : ∀ x ∈ attemptsWith peerNodeId events ++ [a], x.Undisturbed sha L P cleanA cleanB key) :
    (a.Informative sha L P cleanA cleanB key → 0 < a.divergent sha L P cleanA cleanB key →
        JustSeenDivergent sha L P cleanA cleanB key (attemptsWith peerNodeId events) →
        key ∈ (syncPeer (serviceAfter sha L P events) peerNodeId (a.result sha L P)).2.map
          ForkSuspected.key) ∧
      (key ∈ (syncPeer (serviceAfter sha L P events) peerNodeId (a.result sha L P)).2.map
          ForkSuspected.key →
        0 < a.divergent sha L P cleanA cleanB key ∧
          LastSeenDivergent sha L P cleanA cleanB key (attemptsWith peerNodeId events)) := by
  obtain ⟨hlast, hjust⟩ := streak_spec peerNodeId key events
    fun x hx => h x (List.mem_append_left _ hx)
  have hhere : a.Undisturbed sha L P cleanA cleanB key := h a (by simp)
  constructor
  · intro hinf hdiv hseen
    have hresult : a.result sha L P ≠ none := fun hnone =>
      hhere.1 hinf (masked_of_informative hnone hinf)
    exact (syncPeer_of_not_masked peerNodeId key _ hresult (hhere.1 hinf)).2.2 ⟨hdiv, hjust hseen⟩
  · intro halarm
    by_cases hidle : a.result sha L P = none ∨ a.Masked sha L P cleanA cleanB
    · rw [syncPeer_of_masked peerNodeId _ hidle] at halarm
      cases halarm
    · rw [not_or] at hidle
      obtain ⟨hdiv, hstreak⟩ :=
        (syncPeer_of_not_masked peerNodeId key _ hidle.1 hidle.2).2.1 halarm
      exact ⟨hdiv, hlast hstreak⟩

end

/-! ### A fork that another table hides -/

section

variable {σ τ α β : Type} (sha : Sha256) (L : AeStoreView σ α β) (P : AeStoreView τ α β)
  (cleanA : σ → String → List (TierARecord α) → Bool)
  (cleanB : σ → String → List (TierBRecord β) → Bool)

instance (key : TableKey) (a : Attempt σ τ) : Decidable (a.Informative sha L P cleanA cleanB key) := by
  unfold Attempt.Informative
  infer_instance

instance (a : Attempt σ τ) : Decidable (a.Masked sha L P cleanA cleanB) := by
  unfold Attempt.Masked NoneFails
  infer_instance

instance (key : TableKey) (a : Attempt σ τ) : Decidable (a.Undisturbed sha L P cleanA cleanB key) := by
  unfold Attempt.Undisturbed
  infer_instance

end

namespace ForkAlarm.Sample

def digest : String := "aaaaaaaaaaaaaaaaaaaaaaaaaaaaaaaaaaaaaaaaaaaaaaaaaaaaaaaaaaaaaaaa"

/-- A hash that tells nothing apart: what differs here is what the two nodes list and advertise. -/
def sha : Sha256 := ⟨fun _ => digest, fun _ => by decide⟩

def conflicting : String := "bbbbbbbbbbbbbbbbbbbbbbbbbbbbbbbbbbbbbbbbbbbbbbbbbbbbbbbbbbbbbbbb"

def own : String := "cccccccccccccccccccccccccccccccccccccccccccccccccccccccccccccccc"

/-- This node syncs two tables, and holds another row than the peer under a key of `agents`.  Its state
is whether it can read `accounts`. -/
def mine : AeStoreView Bool Unit Unit where
  tierATables := fun _ => ["agents", "accounts"]
  tierBTables := fun _ => []
  tierATableDigest := fun _ _ => .ok digest
  tierARecordHashes := fun readable table =>
    if table = "accounts" ∧ readable = false then .error (.store "canceling statement due to timeout")
    else .ok (if table = "agents" then [own] else [])
  tierBTableDigest := fun _ _ => .ok digest
  tierBVersions := fun _ _ => .ok OrdMap.empty
  serveTierA := fun _ _ _ => .ok []
  serveTierB := fun _ _ _ => .ok []
  applyTierA := fun readable _ _ => (readable, .ok 0)
  applyTierB := fun readable _ _ => (readable, .ok ⟨0, 0, [], none⟩)

def theirs : AeStoreView Unit Unit Unit where
  tierATables := fun _ => ["agents", "accounts"]
  tierBTables := fun _ => []
  tierATableDigest := fun _ table => .ok (if table = "agents" then conflicting else digest)
  tierARecordHashes := fun _ table => .ok (if table = "agents" then [conflicting] else [])
  tierBTableDigest := fun _ _ => .ok digest
  tierBVersions := fun _ _ => .ok OrdMap.empty
  serveTierA := fun _ _ hashes => .ok (hashes.map fun hash => ⟨hash, ()⟩)
  serveTierB := fun _ _ _ => .ok []
  applyTierA := fun _ _ _ => ((), .ok 0)
  applyTierB := fun _ _ _ => ((), .ok ⟨0, 0, [], none⟩)

/-- No record of this store meets an error. -/
def noErrors {γ : Type} : Bool → String → List γ → Bool := fun _ _ _ => true

end ForkAlarm.Sample

open ForkAlarm.Sample in
/-- With both tables readable, the second round in conflict raises the alarm. -/
theorem fork_alarm_per_table_in_the_second_round :
    (.A, "agents") ∈ (syncPeer (serviceAfter sha mine theirs [("node-b", .round true () true)]) "node-b"
      ((Attempt.round true () true).result sha mine theirs)).2.map ForkSuspected.key := by
  have hone : ∀ x ∈ attemptsWith "node-b" [("node-b", (Attempt.round true () true : Attempt Bool Unit))] ++
      [.round true () true], x.Undisturbed sha mine theirs noErrors noErrors (.A, "agents") := by
    decide
  refine (fork_alarm_per_table sha mine theirs noErrors noErrors "node-b" (.A, "agents")
    [("node-b", .round true () true)] (.round true () true) hone).1 (by decide) (by decide) ?_
  exact ⟨[], .round true () true, [], rfl, by decide, by decide, by simp⟩

open ForkAlarm.Sample in
/-- **A table that cannot be read hides the fork of another**: two rounds running are informative for
`agents` and in conflict, and no alarm is raised. -/
theorem fork_alarm_masked :
    (Attempt.round false () true).Informative sha mine theirs noErrors noErrors (.A, "agents") ∧
      0 < (Attempt.round false () true).divergent sha mine theirs noErrors noErrors (.A, "agents") ∧
      (syncPeer (serviceAfter sha mine theirs [("node-b", .round false () true)]) "node-b"
        ((Attempt.round false () true).result sha mine theirs)).2 = [] := by
  decide

end Cello.Directory.AntiEntropy
