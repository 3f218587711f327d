import Cello.Directory.ChainStore.Columns

/-!
# Updates from Telegram

`packages/operations-agent/src/telegram-adapter.ts`: what the handler of messages is called with for an
update.  A contact that its sender owns arrives as a text, `CONTACT:<sender>:<phone>`, on the channel that
carries what the sender typed.  `contactMatch` is the expression with which the state machine takes such a
text apart again.
-/

namespace Cello.OperationsAgent

open Cello.Directory.ChainStore (isSpace)

/-! ### Updates -/

structure TelegramContact where
  phoneNumber : String
  userId : Option ℤ
deriving DecidableEq, Repr

structure TelegramMessage where
  fromId : Option ℤ
  text : Option String
  contact : Option TelegramContact
deriving DecidableEq, Repr

structure TelegramUpdate where
  message : Option TelegramMessage
deriving DecidableEq, Repr

/-- The last contact of a sender, with the sender's own id. -/
structure StoredContact where
  phoneNumber : String
  userId : Option ℤ
  fromId : ℤ
deriving DecidableEq, Repr

/-- `String(id)`. -/
def senderText (id : ℤ) : String := toString id

def contactText (sender phone : String) : String := "CONTACT:" ++ sender ++ ":" ++ phone

def contactMismatch : String := "__contact_mismatch__"

/-- `processUpdate`: the contacts that are remembered, and what the handler is called with. -/
def processUpdate (contacts : String → Option StoredContact) (update : TelegramUpdate) :
    (String → Option StoredContact) × Option (String × String) :=
  match update.message with
  | none => (contacts, none)
  | some msg =>
    match msg.fromId with
    | none => (contacts, none)
    | some id =>
      match msg.contact with
      | some contact =>
        let contacts' := Function.update contacts (senderText id)
          (some ⟨contact.phoneNumber, contact.userId, id⟩)
        if contact.userId = some id then
          (contacts', some (senderText id, contactText (senderText id) contact.phoneNumber))
        else (contacts', some (senderText id, contactMismatch))
      | none =>
        match msg.text with
        | none => (contacts, none)
        | some text => if text = "" then (contacts, none) else (contacts, some (senderText id, text))

/-- `resolveIdentity`: the phone number, where the last contact was the sender's own. -/
def resolveIdentity (contacts : String → Option StoredContact) (sender : String) : Option String :=
  (contacts sender).bind fun stored =>
    if stored.userId = some stored.fromId then some stored.phoneNumber else none

/-! ### The text of a contact -/

/-- `(\S+):(\S+)` over a text without white space: the last colon with a character on either side. -/
def splitContact (l : List Char) : Option (List Char × List Char) :=
  match l.reverse with
  | [] => none
  | last :: front =>
    match front.span fun c => decide (c ≠ ':') with
    | (group, _ :: sender) =>
      if sender = [] then none else some (sender.reverse, (last :: group).reverse)
    | (_, []) => none

def contactGroups (rest : List Char) : Option (String × String) :=
  if rest.any isSpace then none
  else (splitContact rest).map fun g => (String.ofList g.1, String.ofList g.2)

/-- `message.match(/^CONTACT:(\S+):(\S+)$/)`: the two groups. -/
def contactMatch (message : String) : Option (String × String) :=
  if "CONTACT:".toList <+: message.toList then contactGroups (message.toList.drop 8) else none

theorem splitContact_some {l a b : List Char} (h : splitContact l = some (a, b)) :
    l = a ++ ':' :: b := by
  unfold splitContact at h
  cases hl : l.reverse with
  | nil =>
    rw [hl] at h
    cases h
  | cons last front =>
    rw [hl] at h
    dsimp only at h
    rw [List.span_eq_takeWhile_dropWhile] at h
    cases hdrop : front.dropWhile (fun c => decide (c ≠ ':')) with
    | nil =>
      rw [hdrop] at h
      cases h
    | cons colon sender =>
      rw [hdrop] at h
      dsimp only at h
      have hcolon : colon = ':' := by
        have hnot := List.head_dropWhile_not (fun c : Char => decide (c ≠ ':')) (l := front)
          (by rw [hdrop]; exact List.cons_ne_nil _ _)
        simp only [hdrop, List.head_cons] at hnot
        simpa using hnot
      split at h
      · cases h
      · obtain ⟨rfl, rfl⟩ := Prod.mk.inj (Option.some.inj h)
        have hfront : front = front.takeWhile (fun c => decide (c ≠ ':')) ++ ':' :: sender := by
          conv_lhs => rw [← List.takeWhile_append_dropWhile (p := fun c => decide (c ≠ ':')) (l := front)]
          rw [hdrop, hcolon]
        have hrev : l.reverse =
            last :: (front.takeWhile (fun c => decide (c ≠ ':')) ++ ':' :: sender) := by
          rw [hl, ← hfront]
        rw [← List.reverse_reverse l, hrev]
        simp

theorem contactMatch_some {message sender phone : String}
    (h : contactMatch message = some (sender, phone)) : message = contactText sender phone := by
  unfold contactMatch at h
  split at h
  next hprefix =>
    obtain ⟨rest, hrest⟩ := hprefix
    rw [← hrest, List.drop_left' (by simp), contactGroups] at h
    split at h
    · cases h
    · obtain ⟨⟨a, b⟩, hsplit, hab⟩ := Option.map_eq_some_iff.1 h
      obtain ⟨rfl, rfl⟩ := Prod.mk.inj hab
      rw [← String.toList_inj, ← hrest, splitContact_some hsplit]
      simp [contactText]
  · cases h

theorem contactMatch_contactText {sender phone phone' : String}
    (h : contactMatch (contactText sender phone) = some (sender, phone')) : phone' = phone := by
  have hsame := contactMatch_some h
  rw [← String.toList_inj] at hsame ⊢
  simpa [contactText] using hsame.symm

theorem splitContact_append {sender phone : List Char} (hsender : sender ≠ []) (hphone : phone ≠ [])
    (hcolon : ':' ∉ phone) : splitContact (sender ++ ':' :: phone) = some (sender, phone) := by
  unfold splitContact
  rw [List.reverse_append, List.reverse_cons, List.append_assoc, List.singleton_append]
  cases hrev : phone.reverse with
  | nil => exact absurd (List.reverse_eq_nil_iff.1 hrev) hphone
  | cons last group =>
    have hgroup : ∀ c ∈ group, decide (c ≠ ':') = true := by
      intro c hc
      refine decide_eq_true fun hthis => hcolon ?_
      rw [← List.mem_reverse, hrev, ← hthis]
      exact List.mem_cons_of_mem _ hc
    rw [List.cons_append]
    dsimp only
    rw [List.span_eq_takeWhile_dropWhile, List.takeWhile_append_of_pos hgroup, List.dropWhile_append_of_pos hgroup,
      List.takeWhile_cons_of_neg (by decide), List.dropWhile_cons_of_neg (by decide), List.append_nil]
    dsimp only
    rw [if_neg (List.reverse_eq_nil_iff.not.2 hsender), List.reverse_reverse, ← hrev, List.reverse_reverse]

def Unspaced (s : String) : Prop := s ≠ "" ∧ ∀ c ∈ s.toList, isSpace c = false

/-- A phone number as a contact has it: no white space and no colon. -/
def IsPhone (phone : String) : Prop := Unspaced phone ∧ ':' ∉ phone.toList

theorem Unspaced.toList_ne {s : String} (h : Unspaced s) : s.toList ≠ [] :=
  fun hnil => h.1 (String.toList_eq_nil_iff.1 hnil)

theorem contactMatch_own {sender phone : String} (hsender : Unspaced sender) (hphone : IsPhone phone) :
    contactMatch (contactText sender phone) = some (sender, phone) := by
  have htext : (contactText sender phone).toList =
      "CONTACT:".toList ++ (sender.toList ++ ':' :: phone.toList) := by
    simp [contactText]
  have hunspaced : (sender.toList ++ ':' :: phone.toList).any isSpace = false := by
    rw [List.any_append, List.any_cons, List.any_eq_false.2 fun c hc => by rw [hsender.2 c hc]; decide,
      List.any_eq_false.2 fun c hc => by rw [hphone.1.2 c hc]; decide]
    decide
  unfold contactMatch
  rw [htext, if_pos (List.prefix_append _ _), List.drop_left' (by simp), contactGroups,
    if_neg (by rw [hunspaced]; decide), splitContact_append hsender.toList_ne hphone.1.toList_ne hphone.2,
    Option.map_some, String.ofList_toList, String.ofList_toList]

theorem isSpace_of_isDigit {c : Char} (h : c.isDigit = true) : isSpace c = false := by
  have hrange : 48 ≤ c.toNat ∧ c.toNat ≤ 57 := by
    simpa [Char.isDigit, UInt32.le_iff_toNat_le] using h
  have hnot : c.toNat ∉ [9, 10, 11, 12, 13, 32, 160, 0x1680, 0x2028, 0x2029, 0x202F, 0x205F, 0x3000, 0xFEFF] := by
    simp only [List.mem_cons, List.not_mem_nil, or_false]
    omega
  unfold isSpace
  rw [decide_eq_false hnot, Bool.false_or, Bool.and_eq_false_iff]
  exact .inl (decide_eq_false (by omega))

theorem unspaced_senderText (id : ℤ) : Unspaced (senderText id) := by
  have hnat : ∀ n : ℕ, Unspaced (Nat.repr n) := by
    intro n
    refine ⟨fun hnil => ?_, fun c hc => ?_⟩
    · have hempty : (Nat.repr n).toList = [] := by
        rw [hnil]
        rfl
      rw [Nat.toList_repr] at hempty
      exact Nat.toDigits_ne_nil hempty
    · rw [Nat.toList_repr] at hc
      exact isSpace_of_isDigit (Nat.isDigit_of_mem_toDigits (by decide) (by decide) hc)
  cases id with
  | ofNat n => exact hnat n
  | negSucc n =>
    have htext : (senderText (.negSucc n)).toList = '-' :: (Nat.repr (n + 1)).toList := by
      show ("-" ++ Nat.repr (n + 1)).toList = _
      simp
    refine ⟨fun hnil => ?_, fun c hc => ?_⟩
    · rw [hnil] at htext
      cases htext
    · rw [htext] at hc
      rcases List.mem_cons.1 hc with rfl | hc
      · decide
      · exact (hnat (n + 1)).2 c hc

theorem contactMatch_mismatch : contactMatch contactMismatch = none := by
  decide

example : contactMatch "CONTACT:42:a:b" = some ("42:a", "b") := by decide

end Cello.OperationsAgent
