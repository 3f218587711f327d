import Cello.Lib.JsValue
import Cello.Lib.OrdMap
import Cello.Lib.Text
import Mathlib.Data.List.DropRight
import Mathlib.Data.List.Infix

/-!
# The handler of the FROST ceremonies

A directory node holds a share of every agent whose key it helped to generate, one for each epoch.
To sign, a coordinator asks for the commitment of a fresh nonce pair and then for the partial
signature made with it; in between, the nonces wait in a cache under the agent and the epoch, next to
the share that they were drawn for.

A share is only looked at by the crypto library, so it is any value, and what the library does in a
call is given to the call: whether a function throws, and what it returns.  A nonce pair, and the
commitments that are sent of it, are known by the number of the pair.
-/

namespace Cello.Directory.Frost

open Lib

/-! ### Keys -/

/-- Values that stand for an agent, with what a template literal makes of them. -/
class Named (K : Type) where
  text : K → String

/-- The public key of an agent in hex. -/
structure AgentKey where
  text : String
  noColon : ':' ∉ text.toList
deriving DecidableEq

instance : Named AgentKey := ⟨AgentKey.text⟩

section Keys

variable {K : Type} [Named K]

/-- `${agentPubkey}:`. -/
def keyPrefix (agent : K) : List Char := (Named.text agent).toList ++ [':']

/-- `${agentPubkey}:${epochId}`. -/
def storeKey (agent : K) (epochId : String) : String :=
  String.ofList (keyPrefix agent ++ epochId.toList)

/-- `key.startsWith(prefix)`. -/
def isKeyOf (agent : K) (key : String) : Bool := (keyPrefix agent).isPrefixOf key.toList

@[simp] theorem toList_storeKey (agent : K) (epochId : String) :
    (storeKey agent epochId).toList = keyPrefix agent ++ epochId.toList :=
  String.toList_ofList

end Keys

theorem storeKey_inj {agent agent' : AgentKey} {epochId epochId' : String} :
    storeKey agent epochId = storeKey agent' epochId' ↔ agent = agent' ∧ epochId = epochId' := by
  constructor
  · intro h
    have hl := congrArg String.toList h
    simp only [toList_storeKey, keyPrefix, List.append_assoc, List.singleton_append] at hl
    obtain ⟨htext, hepoch⟩ := Lib.Text.split_at_sep agent.noColon agent'.noColon hl
    refine ⟨?_, String.toList_inj.1 hepoch⟩
    cases agent
    cases agent'
    simpa [String.toList_inj] using htext
  · rintro ⟨rfl, rfl⟩
    rfl

theorem isKeyOf_storeKey {agent agent' : AgentKey} {epochId : String} :
    isKeyOf agent (storeKey agent' epochId) = true ↔ agent = agent' := by
  rw [isKeyOf, List.isPrefixOf_iff_prefix, toList_storeKey]
  constructor
  · rintro ⟨rest, hrest⟩
    have heq : storeKey agent (String.ofList rest) = storeKey agent' epochId := by
      rw [← String.toList_inj]
      simpa using hrest
    exact (storeKey_inj.1 heq).1
  · rintro rfl
    exact List.prefix_append _ _

/-! ### Epochs -/

abbrev EpochNumber := WithTop ℕ

/-- `parseInt(digits, 10)`. -/
def parseInt (digits : List Char) : EpochNumber :=
  let n := Double.ofNat (Nat.ofDigitChars 10 digits 0)
  if n < 2 ^ 1024 then (n : EpochNumber) else ⊤

def epochMark : List Char := ":epoch:".toList

/-- `/:epoch:(\d+)$/`: the text before the mark and the digits behind it. -/
def epochMatch (s : List Char) : Option (List Char × List Char) :=
  let digits := s.rtakeWhile Char.isDigit
  let rest := s.rdropWhile Char.isDigit
  if digits ≠ [] ∧ epochMark.isSuffixOf rest then
    some (rest.rdrop epochMark.length, digits)
  else none

/-- What `.` matches. -/
def isLineChar (c : Char) : Bool :=
  decide (c ≠ '\n' ∧ c ≠ '\r' ∧ c ≠ '\u2028' ∧ c ≠ '\u2029')

/-- `parseEpochN`. -/
def parseEpochN (epochId : String) : Option EpochNumber :=
  (epochMatch epochId.toList).bind fun found =>
    if found.1.all isLineChar then some (parseInt found.2) else none

/-- The number that `getMaxEpoch` reads in a key. -/
def keyEpoch (key : String) : Option EpochNumber :=
  (epochMatch key.toList).map fun found => parseInt found.2

theorem digits_of_append (before : List Char) {digits : List Char} (h : digits.all Char.isDigit = true) :
    (before ++ epochMark ++ digits).rtakeWhile Char.isDigit = digits ∧
      (before ++ epochMark ++ digits).rdropWhile Char.isDigit = before ++ epochMark := by
  have hdigits : ∀ c ∈ digits.reverse, c.isDigit = true := fun c hc =>
    List.all_eq_true.1 h c (List.mem_reverse.1 hc)
  have hmark : (before ++ epochMark).reverse = ':' :: ("hcope:".toList ++ before.reverse) := by
    rw [List.reverse_append]
    rfl
  rw [List.rtakeWhile, List.rdropWhile, List.reverse_append, hmark,
    List.takeWhile_append_of_pos hdigits, List.dropWhile_append_of_pos hdigits,
    List.takeWhile_cons_of_neg (by decide), List.dropWhile_cons_of_neg (by decide), ← hmark]
  simp

theorem epochMatch_eq_some {s before digits : List Char} :
    epochMatch s = some (before, digits) ↔
      s = before ++ epochMark ++ digits ∧ digits ≠ [] ∧ digits.all Char.isDigit = true := by
  constructor
  · intro h
    simp only [epochMatch] at h
    split_ifs at h with hmatch
    obtain ⟨hdigits, hmark⟩ := hmatch
    obtain ⟨rfl, rfl⟩ := Prod.mk.inj (Option.some.inj h)
    obtain ⟨before, hbefore⟩ := List.isSuffixOf_iff_suffix.1 hmark
    refine ⟨?_, hdigits, List.all_eq_true.2 fun c hc => List.mem_rtakeWhile_imp hc⟩
    rw [← hbefore, List.rdrop_append_length, hbefore, List.rdropWhile_append_rtakeWhile]
  · rintro ⟨rfl, hne, hall⟩
    obtain ⟨htake, hdrop⟩ := digits_of_append before hall
    have hsuffix : epochMark.isSuffixOf (before ++ epochMark) = true :=
      List.isSuffixOf_iff_suffix.2 (List.suffix_append _ _)
    simp only [epochMatch, htake, hdrop]
    rw [if_pos ⟨hne, hsuffix⟩, List.rdrop_append_length]

theorem keyEpoch_storeKey {K : Type} [Named K] {agent : K} {epochId : String} {n : EpochNumber}
    (h : parseEpochN epochId = some n) : keyEpoch (storeKey agent epochId) = some n := by
  obtain ⟨found, hfound, hn⟩ := Option.bind_eq_some_iff.1 h
  obtain ⟨before, digits⟩ := found
  obtain ⟨hs, hne, hall⟩ := epochMatch_eq_some.1 hfound
  split_ifs at hn
  have hkey : epochMatch (storeKey agent epochId).toList =
      some (keyPrefix agent ++ before, digits) := by
    refine epochMatch_eq_some.2 ⟨?_, hne, hall⟩
    rw [toList_storeKey, hs]
    simp only [List.append_assoc]
  rw [keyEpoch, hkey, ← hn]
  rfl

/-! ### The shares in memory -/

section Shares

variable {K Share : Type} [Named K]

def getShare (agent : K) (epochId : String) (shares : OrdMap String Share) : Option Share :=
  shares.get (storeKey agent epochId)

def storeShare (agent : K) (epochId : String) (share : Share)
    (shares : OrdMap String Share) : OrdMap String Share :=
  shares.set (storeKey agent epochId) share

/-- One key of the loop of `getMaxEpoch`. -/
def maxEpochStep (agent : K) (max : Option EpochNumber) (key : String) :
    Option EpochNumber :=
  if isKeyOf agent key then
    match keyEpoch key, max with
    | none, max => max
    | some n, none => some n
    | some n, some m => if m < n then some n else some m
  else max

def getMaxEpoch (agent : K) (shares : OrdMap String Share) : Option EpochNumber :=
  shares.keys.foldl (maxEpochStep agent) none

/-- The entries of `InMemoryShareStore` that `destroyShares` leaves. -/
def dropShares (agent : K) (shares : OrdMap String Share) : OrdMap String Share :=
  shares.filter fun key _ => !isKeyOf agent key

@[simp] theorem getShare_storeShare (agent : K) (epochId : String) (share : Share)
    (shares : OrdMap String Share) :
    getShare agent epochId (storeShare agent epochId share shares) = some share := by
  rw [getShare, storeShare, OrdMap.get_set, if_pos rfl]

theorem getShare_storeShare_of_ne {agent agent' : AgentKey} {epochId epochId' : String}
    (share : Share) (shares : OrdMap String Share) (h : ¬ (agent' = agent ∧ epochId' = epochId)) :
    getShare agent' epochId' (storeShare agent epochId share shares) =
      getShare agent' epochId' shares := by
  rw [getShare, storeShare, OrdMap.get_set_of_ne _ _ (fun heq => h (storeKey_inj.1 heq)), getShare]

theorem getShare_dropShares (agent agent' : AgentKey) (epochId : String)
    (shares : OrdMap String Share) :
    getShare agent' epochId (dropShares agent shares) =
      if agent = agent' then none else getShare agent' epochId shares := by
  ext share
  rw [getShare, dropShares, OrdMap.get_filter]
  simp only [Bool.not_eq_true', ← Bool.not_eq_true, isKeyOf_storeKey]
  split_ifs with h <;> simp [h, getShare]

theorem maxEpochStep_some {agent : K} {max : Option EpochNumber} {key : String}
    {n : EpochNumber} (hkey : isKeyOf agent key = true) (hn : keyEpoch key = some n) :
    maxEpochStep agent max key = some (max.elim n fun m => if m < n then n else m) := by
  unfold maxEpochStep
  rw [if_pos hkey, hn]
  cases max with
  | none => rfl
  | some m => exact (apply_ite some _ _ _).symm

/-- A number that `getMaxEpoch` reads. -/
def Holds (agent : K) (keys : List String) (n : EpochNumber) : Prop :=
  ∃ key ∈ keys, isKeyOf agent key = true ∧ keyEpoch key = some n

theorem holds_cons {agent : K} {key : String} {keys : List String} {n : EpochNumber} :
    Holds agent (key :: keys) n ↔
      (isKeyOf agent key = true ∧ keyEpoch key = some n) ∨ Holds agent keys n := by
  simp only [Holds, List.mem_cons, exists_eq_or_imp]

section Greatest

variable {agent : K} {P : EpochNumber → Prop} (hP : ∀ {m k}, P m → m ≤ k → P k)

include hP

theorem exists_maxEpochStep {max : Option EpochNumber} {key : String} :
    (∃ m, maxEpochStep agent max key = some m ∧ P m) ↔
      (∃ m, max = some m ∧ P m) ∨
        ∃ m, (isKeyOf agent key = true ∧ keyEpoch key = some m) ∧ P m := by
  cases hkey : isKeyOf agent key with
  | false => simp [maxEpochStep, hkey]
  | true =>
    cases hn : keyEpoch key with
    | none => simp [maxEpochStep, hkey, hn]
    | some k =>
      rw [maxEpochStep_some hkey hn]
      simp only [Option.some.injEq, exists_eq_left', true_and]
      cases max with
      | none => simp
      | some m =>
        simp only [Option.elim_some, Option.some.injEq, exists_eq_left']
        split_ifs with hmk
        · exact ⟨Or.inr, fun h => h.elim (fun hm => hP hm hmk.le) id⟩
        · exact ⟨Or.inl, fun h => h.elim id fun hk => hP hk (not_lt.1 hmk)⟩

theorem exists_getMaxEpoch {shares : OrdMap String Share} :
    (∃ m, getMaxEpoch agent shares = some m ∧ P m) ↔ ∃ m, Holds agent shares.keys m ∧ P m := by
  have hfold : ∀ (keys : List String) (max : Option EpochNumber),
      (∃ m, keys.foldl (maxEpochStep agent) max = some m ∧ P m) ↔
        (∃ m, max = some m ∧ P m) ∨ ∃ m, Holds agent keys m ∧ P m := by
    intro keys
    induction keys with
    | nil => simp [Holds]
    | cons key keys ih =>
      intro max
      rw [List.foldl_cons, ih, exists_maxEpochStep hP, or_assoc]
      simp only [holds_cons, or_and_right, exists_or]
  rw [getMaxEpoch, hfold]
  simp

end Greatest

theorem holds_storeShare {agent agent' : AgentKey} {epochId : String} {share : Share}
    {shares : OrdMap String Share} {n : EpochNumber} :
    Holds agent (storeShare agent' epochId share shares).keys n ↔
      (agent = agent' ∧ keyEpoch (storeKey agent' epochId) = some n) ∨ Holds agent shares.keys n := by
  rw [Holds, Holds]
  simp only [OrdMap.keys, storeShare, OrdMap.set, OrdMap.mem_keys_setList, or_and_right, exists_or,
    exists_eq_left, isKeyOf_storeKey]

theorem holds_of_getShare {agent : AgentKey} {epochId : String} {share : Share}
    {shares : OrdMap String Share} {n : EpochNumber}
    (hshare : getShare agent epochId shares = some share)
    (hn : keyEpoch (storeKey agent epochId) = some n) : Holds agent shares.keys n := by
  refine ⟨storeKey agent epochId, ?_, isKeyOf_storeKey.2 rfl, hn⟩
  rw [OrdMap.mem_keys_iff]
  exact Option.isSome_iff_exists.2 ⟨share, hshare⟩

end Shares

/-! ### The handler -/

/-- The reasons of the answers that are not `ok`. -/
inductive Reason where
  | agentNotBootstrapped
  | epochExpired
  | nonceAlreadyPending
  | ceremonyConflict
  | alreadyInProgress
  | notInRound1
  | notInRound2
  | shareVerificationFailed
  | sourceEpochNotHeld
  | vssCheckFailed
  | incompleteRoster
  | internalError
deriving DecidableEq, Repr

/-- An entry of the cache of nonces. -/
structure PendingNonce (Share : Type) where
  nonce : ℕ
  share : Share
  expiresAt : ℤ

inductive DkgStep where
  | round1Complete
  | round2Complete
deriving DecidableEq, Repr

/-- What the process holds in memory; the maps of `FrostDirectoryHandler`, and the one of its store.
Only `currentEpoch` is keyed by what the call has for the agent, the others by the text. -/
structure Maps (K Share : Type) where
  shares : OrdMap String Share
  currentEpoch : OrdMap K EpochNumber
  pendingNonces : OrdMap String (PendingNonce Share)
  inFlight : OrdMap String String
  dkgStates : OrdMap String DkgStep

/-- The handler as it meets the keys of agents. -/
abbrev Handler (Share : Type) := Maps AgentKey Share

section Calls

variable {K Share : Type} [Named K] {agent : K} {epochId : String}

/-- `#PENDING_NONCE_TTL_MS`. -/
def pendingNonceTtlMs : ℤ := 60000

def currentN [DecidableEq K] (agent : K) (h : Maps K Share) : Option EpochNumber :=
  (h.currentEpoch.get agent).orElse fun _ => getMaxEpoch agent h.shares

/-- `#isExpiredEpoch`. -/
def isExpiredEpoch [DecidableEq K] (agent : K) (epochId : String) (h : Maps K Share) : Bool :=
  match parseEpochN epochId, currentN agent h with
  | some requestedN, some currentN => decide (requestedN < currentN)
  | _, _ => false

theorem isExpiredEpoch_iff [DecidableEq K] {h : Maps K Share} :
    isExpiredEpoch agent epochId h = true ↔
      ∃ n, parseEpochN epochId = some n ∧ ∃ m, currentN agent h = some m ∧ n < m := by
  rw [isExpiredEpoch]
  cases parseEpochN epochId with
  | none => simp
  | some n =>
    cases currentN agent h with
    | none => simp
    | some m => simp

theorem isExpiredEpoch_iff_holds [DecidableEq K] {h : Maps K Share} (hcounter : h.currentEpoch.get agent = none) :
    isExpiredEpoch agent epochId h = true ↔
      ∃ n, parseEpochN epochId = some n ∧ ∃ m, Holds agent h.shares.keys m ∧ n < m := by
  rw [isExpiredEpoch_iff, currentN, hcounter]
  simp only [Option.orElse_none, exists_getMaxEpoch fun {_ _} => lt_of_lt_of_le]

/-- A different peer has a ceremony in flight. -/
def conflicts (agent : K) (epochId peerIdString : String) (h : Maps K Share) : Bool :=
  (h.inFlight.get (storeKey agent epochId)).any fun inFlight => decide (inFlight ≠ peerIdString)

/-- `generateCommitment` up to the call of `commit`: the share that nonces are drawn for. -/
def shareToCommit [DecidableEq K] (agent : K) (epochId : String) (h : Maps K Share) : Except Reason Share :=
  if isExpiredEpoch agent epochId h then .error .epochExpired
  else
    match getShare agent epochId h.shares with
    | none => .error .agentNotBootstrapped
    | some share => .ok share

theorem shareToCommit_eq_ok [DecidableEq K] {h : Maps K Share} {share : Share} :
    shareToCommit agent epochId h = .ok share ↔
      isExpiredEpoch agent epochId h = false ∧ getShare agent epochId h.shares = some share := by
  rw [shareToCommit]
  cases isExpiredEpoch agent epochId h with
  | true => simp
  | false => cases getShare agent epochId h.shares <;> simp

def sweepNonces (now : ℤ) (agent : K) (epochId : String) (h : Maps K Share) :
    OrdMap String (PendingNonce Share) :=
  (h.pendingNonces.filter fun _ entry => !decide (entry.expiresAt < now)).erase
    (storeKey agent epochId)

/-- `generateCommitment`; `commit` is what the library draws for a share, `none` where it throws. -/
def generateCommitment [DecidableEq K] (commit : Share → Option ℕ) (now : ℤ) (agent : K) (epochId : String)
    (h : Maps K Share) : Except Reason ℕ × Maps K Share :=
  match shareToCommit agent epochId h with
  | .error reason => (.error reason, h)
  | .ok share =>
    match commit share with
    | none => (.error .agentNotBootstrapped,
        { h with pendingNonces := sweepNonces now agent epochId h })
    | some nonce =>
      (.ok nonce, { h with
        pendingNonces := (sweepNonces now agent epochId h).set (storeKey agent epochId)
          ⟨nonce, share, now + pendingNonceTtlMs⟩ })

theorem get_sweepNonces {now : ℤ} {epochId key : String} {h : Maps K Share}
    {pending : PendingNonce Share} (hget : (sweepNonces now agent epochId h).get key = some pending) :
    key ≠ storeKey agent epochId ∧ h.pendingNonces.get key = some pending := by
  rw [sweepNonces, OrdMap.get_erase] at hget
  split_ifs at hget with hkey
  exact ⟨hkey, (OrdMap.get_filter _ _).1 hget |>.1⟩

theorem generateCommitment_frame [DecidableEq K] (commit : Share → Option ℕ) (now : ℤ) (agent : K)
    (epochId : String) (h : Maps K Share) :
    ∃ pendingNonces, (generateCommitment commit now agent epochId h).2 =
      { h with pendingNonces := pendingNonces } := by
  rw [generateCommitment]
  cases shareToCommit agent epochId h with
  | error reason => exact ⟨h.pendingNonces, rfl⟩
  | ok share =>
    dsimp only
    cases commit share with
    | none => exact ⟨_, rfl⟩
    | some nonce => exact ⟨_, rfl⟩

section

variable [DecidableEq K] (commit : Share → Option ℕ) (now : ℤ) (agent : K) (epochId : String) (h : Maps K Share)

@[simp] theorem generateCommitment_shares :
    (generateCommitment commit now agent epochId h).2.shares = h.shares := by
  obtain ⟨_, hframe⟩ := generateCommitment_frame commit now agent epochId h
  rw [hframe]

@[simp] theorem generateCommitment_currentEpoch :
    (generateCommitment commit now agent epochId h).2.currentEpoch = h.currentEpoch := by
  obtain ⟨_, hframe⟩ := generateCommitment_frame commit now agent epochId h
  rw [hframe]

@[simp] theorem generateCommitment_dkgStates :
    (generateCommitment commit now agent epochId h).2.dkgStates = h.dkgStates := by
  obtain ⟨_, hframe⟩ := generateCommitment_frame commit now agent epochId h
  rw [hframe]

end

theorem get_generateCommitment [DecidableEq K] {commit : Share → Option ℕ} {now : ℤ} {epochId key : String}
    {h : Maps K Share} {pending : PendingNonce Share}
    (hget : (generateCommitment commit now agent epochId h).2.pendingNonces.get key = some pending) :
    h.pendingNonces.get key = some pending ∨
      (key = storeKey agent epochId ∧ ∃ share, getShare agent epochId h.shares = some share) := by
  rw [generateCommitment] at hget
  cases hshare : shareToCommit agent epochId h with
  | error reason =>
    rw [hshare] at hget
    exact Or.inl hget
  | ok share =>
    rw [hshare] at hget
    dsimp only at hget
    cases hcommit : commit share with
    | none =>
      rw [hcommit] at hget
      exact Or.inl (get_sweepNonces hget).2
    | some nonce =>
      rw [hcommit] at hget
      dsimp only at hget
      rw [OrdMap.get_set] at hget
      split_ifs at hget with hkey
      · exact Or.inr ⟨hkey, share, (shareToCommit_eq_ok.1 hshare).2⟩
      · exact Or.inl (get_sweepNonces hget).2

/-- `signRawMessage` up to the call of `signShare`: the nonces, if they are not too old, leave the
cache. -/
def takeNonce (now : ℤ) (agent : K) (epochId peerIdString : String) (h : Maps K Share) :
    Except Reason (PendingNonce Share) × Maps K Share :=
  if conflicts agent epochId peerIdString h then (.error .ceremonyConflict, h)
  else
    match h.pendingNonces.get (storeKey agent epochId) with
    | none => (.error .agentNotBootstrapped, h)
    | some pending =>
      let h' := { h with pendingNonces := h.pendingNonces.erase (storeKey agent epochId) }
      if pending.expiresAt < now then (.error .agentNotBootstrapped, h') else (.ok pending, h')

theorem takeNonce_cases (now : ℤ) (agent : K) (epochId peerIdString : String)
    (h : Maps K Share) :
    (∃ reason pendingNonces, takeNonce now agent epochId peerIdString h =
        (.error reason, { h with pendingNonces := pendingNonces }) ∧
        ∀ key pending, pendingNonces.get key = some pending →
          h.pendingNonces.get key = some pending) ∨
      ∃ pending, h.pendingNonces.get (storeKey agent epochId) = some pending ∧
        now ≤ pending.expiresAt ∧ takeNonce now agent epochId peerIdString h =
          (.ok pending,
            { h with pendingNonces := h.pendingNonces.erase (storeKey agent epochId) }) := by
  rw [takeNonce]
  split_ifs
  · exact Or.inl ⟨_, h.pendingNonces, rfl, fun _ _ => id⟩
  · cases hget : h.pendingNonces.get (storeKey agent epochId) with
    | none => exact Or.inl ⟨_, h.pendingNonces, rfl, fun _ _ => id⟩
    | some pending =>
      by_cases hold : pending.expiresAt < now
      · refine Or.inl ⟨.agentNotBootstrapped, h.pendingNonces.erase (storeKey agent epochId),
          by simp only [if_pos hold], fun key p hp => ?_⟩
        rw [OrdMap.get_erase] at hp
        split_ifs at hp
        exact hp
      · exact Or.inr ⟨pending, rfl, not_lt.1 hold, by simp only [if_neg hold]⟩

/-- The end of `signRawMessage`; `signShare` is `none` where the library throws. -/
def signPending (signShare : Share → ℕ → Option Bytes) (pending : PendingNonce Share) :
    Except Reason Bytes :=
  match signShare pending.share pending.nonce with
  | some partialSignature => .ok partialSignature
  | none => .error .agentNotBootstrapped

def signRawMessage (signShare : Share → ℕ → Option Bytes) (now : ℤ) (agent : K)
    (epochId peerIdString : String) (h : Maps K Share) : Except Reason Bytes × Maps K Share :=
  let taken := takeNonce now agent epochId peerIdString h
  (taken.1.bind (signPending signShare), taken.2)

theorem signRawMessage_frame (signShare : Share → ℕ → Option Bytes) (now : ℤ) (agent : K)
    (epochId peerIdString : String) (h : Maps K Share) :
    ∃ pendingNonces, (signRawMessage signShare now agent epochId peerIdString h).2 =
      { h with pendingNonces := pendingNonces } := by
  rw [signRawMessage]
  rcases takeNonce_cases now agent epochId peerIdString h with
    ⟨_, pendingNonces, htake, -⟩ | ⟨_, -, -, htake⟩
  · exact ⟨pendingNonces, by rw [htake]⟩
  · exact ⟨_, by rw [htake]⟩

section

variable (signShare : Share → ℕ → Option Bytes) (now : ℤ) (agent : K)
  (epochId peerIdString : String) (h : Maps K Share)

@[simp] theorem signRawMessage_shares :
    (signRawMessage signShare now agent epochId peerIdString h).2.shares = h.shares := by
  obtain ⟨_, hframe⟩ := signRawMessage_frame signShare now agent epochId peerIdString h
  rw [hframe]

@[simp] theorem signRawMessage_currentEpoch :
    (signRawMessage signShare now agent epochId peerIdString h).2.currentEpoch = h.currentEpoch := by
  obtain ⟨_, hframe⟩ := signRawMessage_frame signShare now agent epochId peerIdString h
  rw [hframe]

@[simp] theorem signRawMessage_dkgStates :
    (signRawMessage signShare now agent epochId peerIdString h).2.dkgStates = h.dkgStates := by
  obtain ⟨_, hframe⟩ := signRawMessage_frame signShare now agent epochId peerIdString h
  rw [hframe]

end

theorem get_signRawMessage (signShare : Share → ℕ → Option Bytes) {now : ℤ}
    {epochId peerIdString key : String} {h : Maps K Share} {pending : PendingNonce Share}
    (hget : (signRawMessage signShare now agent epochId peerIdString h).2.pendingNonces.get key =
      some pending) : h.pendingNonces.get key = some pending := by
  rw [signRawMessage] at hget
  rcases takeNonce_cases now agent epochId peerIdString h with
    ⟨_, pendingNonces, htake, hpending⟩ | ⟨_, -, -, htake⟩
  · rw [htake] at hget
    exact hpending key pending hget
  · rw [htake] at hget
    dsimp only at hget
    rw [OrdMap.get_erase] at hget
    split_ifs at hget
    exact hget

/-- `handleCeremonyRound`, which draws its nonces itself; `none` where `commit` throws. -/
def handleCeremonyRound [DecidableEq K] (commit : Share → Option ℕ) (signShare : Share → ℕ → Option Bytes)
    (agent : K) (epochId peerIdString : String) (h : Maps K Share) :
    Option (Except Reason Bytes) :=
  if conflicts agent epochId peerIdString h then some (.error .ceremonyConflict)
  else
    match getShare agent epochId h.shares with
    | none =>
      some (.error (if isExpiredEpoch agent epochId h then .epochExpired else .agentNotBootstrapped))
    | some share =>
      -- `#signWithShare`
      (commit share).map fun nonce =>
        match signShare share nonce with
        | some partialSignature => .ok partialSignature
        | none => .error .agentNotBootstrapped

def markInFlight (agent : K) (epochId peerIdString : String) (h : Maps K Share) :
    Maps K Share :=
  { h with inFlight := h.inFlight.set (storeKey agent epochId) peerIdString }

def clearInFlight (agent : K) (epochId : String) (h : Maps K Share) : Maps K Share :=
  { h with inFlight := h.inFlight.erase (storeKey agent epochId) }

/-! ### The rounds of a key generation -/

/-- `dkgRound1`; `none` where the library throws. -/
def dkgRound1 (round1 : Bool) (agent : K) (epochId : String) (h : Maps K Share) :
    Option (Except Reason Unit) × Maps K Share :=
  if h.dkgStates.has (storeKey agent epochId) then (some (.error .alreadyInProgress), h)
  else if round1 then
    (some (.ok ()),
      { h with dkgStates := h.dkgStates.set (storeKey agent epochId) .round1Complete })
  else (none, h)

/-- `dkgRound2`; `none` where the library throws. -/
def dkgRound2 (round2 : Bool) (agent : K) (epochId : String) (h : Maps K Share) :
    Option (Except Reason Unit) × Maps K Share :=
  if h.dkgStates.get (storeKey agent epochId) = some .round1Complete then
    if round2 then
      (some (.ok ()),
        { h with dkgStates := h.dkgStates.set (storeKey agent epochId) .round2Complete })
    else (none, h)
  else (some (.error .notInRound1), h)

theorem dkgRound1_cases (round1 : Bool) (agent : K) (epochId : String) (h : Maps K Share) :
    (dkgRound1 round1 agent epochId h).2 = h ∨ (dkgRound1 round1 agent epochId h).2 =
      { h with dkgStates := h.dkgStates.set (storeKey agent epochId) .round1Complete } := by
  rw [dkgRound1]
  split_ifs
  · exact Or.inl rfl
  · exact Or.inr rfl
  · exact Or.inl rfl

theorem dkgRound2_cases (round2 : Bool) (agent : K) (epochId : String) (h : Maps K Share) :
    (dkgRound2 round2 agent epochId h).2 = h ∨
      (h.dkgStates.get (storeKey agent epochId) = some .round1Complete ∧
        (dkgRound2 round2 agent epochId h).2 =
          { h with dkgStates := h.dkgStates.set (storeKey agent epochId) .round2Complete }) := by
  rw [dkgRound2]
  split_ifs with hstep
  · exact Or.inr ⟨hstep, rfl⟩
  · exact Or.inl rfl
  · exact Or.inl rfl

section

variable (round1 : Bool) (agent : K) (epochId : String) (h : Maps K Share)

@[simp] theorem dkgRound1_shares :
    (dkgRound1 round1 agent epochId h).2.shares = h.shares := by
  rcases dkgRound1_cases round1 agent epochId h with hc | hc <;> rw [hc]

@[simp] theorem dkgRound1_currentEpoch :
    (dkgRound1 round1 agent epochId h).2.currentEpoch = h.currentEpoch := by
  rcases dkgRound1_cases round1 agent epochId h with hc | hc <;> rw [hc]

@[simp] theorem dkgRound1_pendingNonces :
    (dkgRound1 round1 agent epochId h).2.pendingNonces = h.pendingNonces := by
  rcases dkgRound1_cases round1 agent epochId h with hc | hc <;> rw [hc]

end

section

variable (round2 : Bool) (agent : K) (epochId : String) (h : Maps K Share)

@[simp] theorem dkgRound2_shares :
    (dkgRound2 round2 agent epochId h).2.shares = h.shares := by
  rcases dkgRound2_cases round2 agent epochId h with hc | ⟨-, hc⟩ <;> rw [hc]

@[simp] theorem dkgRound2_currentEpoch :
    (dkgRound2 round2 agent epochId h).2.currentEpoch = h.currentEpoch := by
  rcases dkgRound2_cases round2 agent epochId h with hc | ⟨-, hc⟩ <;> rw [hc]

@[simp] theorem dkgRound2_pendingNonces :
    (dkgRound2 round2 agent epochId h).2.pendingNonces = h.pendingNonces := by
  rcases dkgRound2_cases round2 agent epochId h with hc | ⟨-, hc⟩ <;> rw [hc]

end

def endDkg (agent : K) (epochId : String) (h : Maps K Share) : Maps K Share :=
  { h with dkgStates := h.dkgStates.erase (storeKey agent epochId) }

/-- `dkgRound3` up to the durable write of the share that it returns. -/
def dkgRound3 (round3 : Option Share) (agent : K) (epochId : String) (h : Maps K Share) :
    Except Reason Share × Maps K Share :=
  if h.dkgStates.get (storeKey agent epochId) = some .round2Complete then
    match round3 with
    | none => (.error .shareVerificationFailed, endDkg agent epochId h)
    | some share => (.ok share, { h with shares := storeShare agent epochId share h.shares })
  else (.error .notInRound2, h)

theorem dkgRound3_cases (round3 : Option Share) (agent : K) (epochId : String)
    (h : Maps K Share) :
    (∃ reason, dkgRound3 round3 agent epochId h = (.error reason, h) ∨
        dkgRound3 round3 agent epochId h = (.error reason, endDkg agent epochId h)) ∨
      ∃ share, h.dkgStates.get (storeKey agent epochId) = some .round2Complete ∧
        dkgRound3 round3 agent epochId h =
          (.ok share, { h with shares := storeShare agent epochId share h.shares }) := by
  unfold dkgRound3
  split_ifs with hstep
  · cases round3 with
    | none => exact Or.inl ⟨_, Or.inr rfl⟩
    | some share => exact Or.inr ⟨share, hstep, rfl⟩
  · exact Or.inl ⟨_, Or.inl rfl⟩

/-- The end of `dkgRound3` when the share is durable. -/
def dkgStored [DecidableEq K] (agent : K) (epochId : String) (h : Maps K Share) : Maps K Share :=
  endDkg agent epochId
    { h with currentEpoch := h.currentEpoch.set agent ((parseEpochN epochId).getD 1) }

/-! ### The rounds of a refresh -/

/-- `refreshRound1`; `contribution` is `false` where the library throws. -/
def refreshRound1 (contribution : Share → Bool) (agent : K) (fromEpochId : String)
    (h : Maps K Share) : Except Reason Unit :=
  match getShare agent fromEpochId h.shares with
  | none => .error .sourceEpochNotHeld
  | some share => if contribution share then .ok () else .error .internalError

/-- The reason that is sent of what the library throws. -/
def refreshReason (message : String) : Reason :=
  let mentions := fun word : String => decide (word.toList <:+: message.toList)
  if ["incomplete", "missing", "roster", "duplicate", "unexpected"].any mentions then
    .incompleteRoster
  else if ["VSS", "identity", "commitment", "zero polynomial"].any mentions then .vssCheckFailed
  else .internalError

/-- `refreshRound2` up to the durable write of the share that it returns. -/
def refreshRound2 (applyRefresh : Share → Except String Share) (agent : K)
    (fromEpochId toEpochId : String) (h : Maps K Share) : Except Reason Share × Maps K Share :=
  match getShare agent fromEpochId h.shares with
  | none => (.error .sourceEpochNotHeld, h)
  | some share =>
    match applyRefresh share with
    | .error message => (.error (refreshReason message), h)
    | .ok newShare =>
      (.ok newShare, { h with shares := storeShare agent toEpochId newShare h.shares })

theorem refreshRound2_cases (applyRefresh : Share → Except String Share) (agent : K)
    (fromEpochId toEpochId : String) (h : Maps K Share) :
    (∃ reason, refreshRound2 applyRefresh agent fromEpochId toEpochId h = (.error reason, h)) ∨
      ∃ share newShare, getShare agent fromEpochId h.shares = some share ∧
        refreshRound2 applyRefresh agent fromEpochId toEpochId h =
          (.ok newShare, { h with shares := storeShare agent toEpochId newShare h.shares }) := by
  rw [refreshRound2]
  cases hshare : getShare agent fromEpochId h.shares with
  | none => exact Or.inl ⟨_, rfl⟩
  | some share =>
    cases happly : applyRefresh share with
    | error message => exact Or.inl ⟨refreshReason message, by simp only [happly]⟩
    | ok newShare => exact Or.inr ⟨share, newShare, rfl, by simp only [happly]⟩

/-- The end of `refreshRound2` when the share is durable. -/
def refreshStored [DecidableEq K] (agent : K) (toEpochId : String) (h : Maps K Share) : Maps K Share :=
  { h with
    currentEpoch := h.currentEpoch.set agent
      (((parseEpochN toEpochId).orElse fun _ => h.currentEpoch.get agent).getD 1) }

end Calls

end Cello.Directory.Frost
