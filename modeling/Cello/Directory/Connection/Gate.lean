import Mathlib.Data.List.Pairwise
import Cello.Lib.GuardedRun
import Cello.Directory.Connection.Ledger

/-!
# Announced connections and the connection gate

`hasConnection` returns one of the rows of a pair, and the gate compares its id with the one that the
session request names.  An announced id opens sessions for ever when its row is the only one of the
pair, so the question is how a pair gets a second row: the check for an existing connection is made when
a request arrives, and no check is made when it is accepted.

`announced_connection_opens` is about the runs in which no accept is taken for a pair that has a
connection, or for which another request is being accepted.  In them every pair has one row at most,
and every announced id passes the gate in both directions.  With two requests between the same agents,
both accepted, the second id is refused (`announced_connection_refused`).
-/

namespace Cello.Directory.Connection

open Lib

/-! ### Pairs -/

theorem SamePair.symm {a b c d : String} (h : SamePair a b c d) : SamePair c d a b := by
  rcases h with ⟨rfl, rfl⟩ | ⟨rfl, rfl⟩
  · exact Or.inl ⟨rfl, rfl⟩
  · exact Or.inr ⟨rfl, rfl⟩

theorem SamePair.trans {a b c d e f : String} (h : SamePair a b c d) (h' : SamePair c d e f) :
    SamePair a b e f := by
  rcases h with ⟨rfl, rfl⟩ | ⟨rfl, rfl⟩
  · exact h'
  · rcases h' with ⟨rfl, rfl⟩ | ⟨rfl, rfl⟩
    · exact Or.inr ⟨rfl, rfl⟩
    · exact Or.inl ⟨rfl, rfl⟩

theorem SamePair.swap {a b c d : String} (h : SamePair a b c d) : SamePair a b d c :=
  h.trans (Or.inr ⟨rfl, rfl⟩)

/-- Two rows of one pair. -/
def ConnectionRow.SamePair (r s : ConnectionRow) : Prop :=
  Connection.SamePair r.participantA r.participantB s.participantA s.participantB

def Accept.IsFor (a : Accept) (p : PendingRequest) : Prop :=
  SamePair a.pending.senderHex a.pending.targetHex p.senderHex p.targetHex

def ConnectionRow.IsFor (r : ConnectionRow) (p : PendingRequest) : Prop :=
  Connection.SamePair r.participantA r.participantB p.senderHex p.targetHex

/-! ### One row for each pair -/

def Ledger.Live (l : Ledger) (a : Accept) : Prop :=
  a.phase = .record → a.pending.requestId ∉ l.recorded

def Ledger.Apart (l : Ledger) (a b : Accept) : Prop :=
  l.Live a → l.Live b → a.IsFor b.pending →
    a.phase = .record ∧ b.phase = .record ∧ a.pending.requestId = b.pending.requestId

theorem Ledger.Apart.symm {l : Ledger} {a b : Accept} (h : l.Apart a b) : l.Apart b a := by
  intro hb ha hpair
  obtain ⟨harec, hbrec, hsame⟩ := h ha hb (SamePair.symm hpair)
  exact ⟨hbrec, harec, hsame.symm⟩

/-- Each pair has one row at most, and no accept is about to insert another. -/
structure Ledger.OneEach (l : Ledger) : Prop where
  rows : l.connections.Pairwise fun r s => ¬ r.SamePair s
  past : ∀ x ∈ l.accepts, x.2.phase ≠ .record → x.2.pending.requestId ∈ l.recorded
  apart : l.accepts.Pairwise fun x y => l.Apart x.2 y.2
  /-- A row of the pair is one that the accept has inserted itself. -/
  own : ∀ x ∈ l.accepts, l.Live x.2 → ∀ r ∈ l.connections, r.IsFor x.2.pending →
    (∃ now, x.2.phase = .second now) ∧ r.connectionId = x.2.connectionId.text
  told : ∀ o ∈ l.announced, o.connectionId ≠ "" ∧ ∃ r ∈ l.connections,
    r.connectionId = o.connectionId ∧
      SamePair r.participantA r.participantB o.recipient o.counterparty

def Ledger.Clear (l : Ledger) (p : PendingRequest) : Prop :=
  p.requestId ∈ l.recorded ∨
    (∀ r ∈ l.connections, ¬ r.IsFor p) ∧
      ∀ x ∈ l.accepts, l.Live x.2 → x.2.IsFor p → x.2.pending.requestId = p.requestId

namespace Ledger.OneEach

variable {l : Ledger}

theorem drop (h : l.OneEach) {accepts : List (ℕ × Accept)} (hsub : accepts.Sublist l.accepts) :
    OneEach { l with accepts } where
  rows := h.rows
  past x hx := h.past x (hsub.subset hx)
  apart := h.apart.sublist hsub
  own x hx := h.own x (hsub.subset hx)
  told := h.told

theorem apart_of_others (h : l.OneEach) {id : ℕ} {a : Accept} (ha : (id, a) ∈ l.accepts)
    (hlive : l.Live a) {x : ℕ × Accept} (hx : x ∈ l.others id) (hxlive : l.Live x.2)
    (hpair : x.2.IsFor a.pending) :
    x.2.phase = .record ∧ a.phase = .record ∧ x.2.pending.requestId = a.pending.requestId := by
  obtain ⟨hxmem, hid⟩ := List.mem_filter.1 hx
  have hne : x ≠ (id, a) := by
    rintro rfl
    simp at hid
  have : Std.Symm fun x y : ℕ × Accept => l.Apart x.2 y.2 := ⟨fun _ _ => Ledger.Apart.symm⟩
  exact h.apart.forall hxmem ha hne hxlive hlive hpair

/-- **An accept that goes on.**  It keeps its request and its connection id, it is past the recording,
and the ledger has recorded its request; the rows may have grown by its own. -/
theorem advance (h : l.OneEach) {id : ℕ} (next : ℕ) {a : Accept} (b : Accept) {recorded : List String}
    {connections : List ConnectionRow} {announced : List Announcement}
    (ha : (id, a) ∈ l.accepts) (hlive : l.Live a) (hpending : b.pending = a.pending)
    (hrecorded : recorded = l.recorded ∧ a.phase ≠ .record ∨
      recorded = l.recorded ++ [a.pending.requestId])
    (hrows : connections = l.connections ∨ ∃ now, connections = l.connections ++ [a.row now])
    (hpairwise : connections.Pairwise fun r s => ¬ r.SamePair s)
    (hown : ∀ r ∈ connections, r.IsFor a.pending →
      (∃ now, b.phase = .second now) ∧ r.connectionId = b.connectionId.text)
    (htold : ∀ o ∈ announced, o.connectionId ≠ "" ∧ ∃ r ∈ connections,
      r.connectionId = o.connectionId ∧
        SamePair r.participantA r.participantB o.recipient o.counterparty) :
    OneEach { connections, recorded, accepts := l.others id ++ [(next, b)], announced } := by
  have hmono : ∀ requestId ∈ l.recorded, requestId ∈ recorded := by
    intro requestId hmem
    rcases hrecorded with ⟨rfl, _⟩ | rfl
    · exact hmem
    · exact List.mem_append_left _ hmem
  have hmem : a.pending.requestId ∈ recorded := by
    rcases hrecorded with ⟨rfl, hne⟩ | rfl
    · exact h.past _ ha hne
    · simp
  -- an accept that can still insert could do so before
  have hbefore : ∀ x : Accept, (x.phase = .record → x.pending.requestId ∉ recorded) → l.Live x :=
    fun x hx hrec hin => hx hrec (hmono _ hin)
  have halone : ∀ x ∈ l.others id, (x.2.phase = .record → x.2.pending.requestId ∉ recorded) →
      ¬ x.2.IsFor a.pending := by
    intro x hx hxlive hpair
    obtain ⟨hrec, _, hsame⟩ := h.apart_of_others ha hlive hx (hbefore _ hxlive) hpair
    exact hxlive hrec (hsame ▸ hmem)
  have hothers : ∀ x ∈ l.others id, x ∈ l.accepts := fun x hx => List.mem_of_mem_filter hx
  refine ⟨hpairwise, ?_, ?_, ?_, htold⟩
  · intro x hx hne
    rcases List.mem_append.1 hx with hx | hx
    · exact hmono _ (h.past x (hothers x hx) hne)
    · rw [List.mem_singleton] at hx
      subst hx
      exact hpending ▸ hmem
  · rw [List.pairwise_append]
    refine ⟨?_, List.pairwise_singleton _ _, ?_⟩
    · refine (h.apart.sublist List.filter_sublist).imp ?_
      intro x y hxy hx hy
      exact hxy (hbefore _ hx) (hbefore _ hy)
    · intro x hx y hy hxlive _ hpair
      rw [List.mem_singleton] at hy
      subst hy
      rw [hpending] at hpair
      exact absurd hpair (halone x hx hxlive)
  · intro x hx hxlive r hr hrx
    rcases List.mem_append.1 hx with hmem | hx
    · have hold := h.own x (hothers x hmem) (hbefore _ hxlive)
      rcases hrows with rfl | ⟨now, rfl⟩
      · exact hold r hr hrx
      · rcases List.mem_append.1 hr with hr | hr
        · exact hold r hr hrx
        · rw [List.mem_singleton] at hr
          subst hr
          exact absurd (SamePair.symm hrx) (halone x hmem hxlive)
    · rw [List.mem_singleton] at hx
      subst hx
      exact hown r hr (hpending ▸ hrx)

/-- **A step that takes no accept.** -/
theorem moves (h : l.OneEach) {l' : Ledger} (hmove : l.Moves l') : l'.OneEach := by
  cases hmove with
  | drop hsub => exact h.drop hsub
  | @record id next a now accepts ha hphase hnew hsub =>
    have hlive : l.Live a := fun _ => hnew
    refine (h.advance next { a with phase := .check now } ha hlive rfl
      (Or.inr rfl) (Or.inl rfl) h.rows ?_ h.told).drop hsub
    intro r hr hra
    obtain ⟨⟨t, ht⟩, _⟩ := h.own _ ha hlive r hr hra
    rw [hphase] at ht
    cases ht
  | @count id next a now ha hphase =>
    have hne : a.phase ≠ .record := by simp [hphase]
    refine h.advance next { a with phase := .first now } ha (fun hrec => absurd hrec hne)
      rfl (Or.inl ⟨rfl, hne⟩) (Or.inl rfl) h.rows ?_ h.told
    intro r hr hra
    obtain ⟨⟨t, ht⟩, _⟩ := h.own _ ha (fun hrec => absurd hrec hne) r hr hra
    rw [hphase] at ht
    cases ht
  | @retry id next a now ha hphase =>
    have hne : a.phase ≠ .record := by simp [hphase]
    refine h.advance next { a with phase := .second now } ha (fun hrec => absurd hrec hne)
      rfl (Or.inl ⟨rfl, hne⟩) (Or.inl rfl) h.rows ?_ h.told
    intro r hr hra
    exact ⟨⟨now, rfl⟩, (h.own _ ha (fun hrec => absurd hrec hne) r hr hra).2⟩
  | @insert id next a now accepts announced ha hphase hnew hsub hannounced =>
    have hne : a.phase ≠ .record := by rcases hphase with hphase | hphase <;> simp [hphase]
    have hlive : l.Live a := fun hrec => absurd hrec hne
    have hnone : ∀ r ∈ l.connections, ¬ r.IsFor a.pending := by
      intro r hr hra
      refine hnew (List.mem_map.2 ⟨r, hr, (h.own _ ha hlive r hr hra).2⟩)
    refine (h.advance next { a with phase := .second now } ha hlive rfl
      (Or.inl ⟨rfl, hne⟩) (Or.inr ⟨now, rfl⟩) ?_ ?_ ?_).drop hsub
    · rw [List.pairwise_append]
      refine ⟨h.rows, List.pairwise_singleton _ _, ?_⟩
      intro r hr s hs
      rw [List.mem_singleton] at hs
      subst hs
      exact hnone r hr
    · intro r hr hra
      rcases List.mem_append.1 hr with hr | hr
      · exact absurd hra (hnone r hr)
      · rw [List.mem_singleton] at hr
        subst hr
        exact ⟨⟨now, rfl⟩, rfl⟩
    · intro o ho
      rcases List.mem_append.1 ho with ho | ho
      · obtain ⟨hid, r, hr, hro⟩ := h.told o ho
        exact ⟨hid, r, List.mem_append_left _ hr, hro⟩
      · obtain ⟨hid, hpair⟩ := hannounced o ho
        refine ⟨hid ▸ a.connectionId.text_ne_empty, a.row now, by simp, hid.symm, hpair.symm⟩

theorem take (h : l.OneEach) {id : ℕ} {p : PendingRequest} {senderStream : Option ℕ}
    {connectionId : RandomId} (hclear : l.Clear p) : (l.take id p senderStream connectionId).OneEach where
  rows := h.rows
  past x hx hne := by
    rcases List.mem_append.1 hx with hx | hx
    · exact h.past x hx hne
    · rw [List.mem_singleton] at hx
      subst hx
      exact absurd rfl hne
  apart := by
    refine List.pairwise_append.2 ⟨h.apart, List.pairwise_singleton _ _, ?_⟩
    intro x hx y hy hxlive hylive hpair
    rw [List.mem_singleton] at hy
    subst hy
    have hnew : p.requestId ∉ l.recorded := hylive rfl
    have hsame := (hclear.resolve_left hnew).2 x hx hxlive hpair
    refine ⟨?_, rfl, hsame⟩
    by_contra hne
    exact hnew (hsame ▸ h.past x hx hne)
  own x hx hxlive r hr hrx := by
    rcases List.mem_append.1 hx with hx | hx
    · exact h.own x hx hxlive r hr hrx
    · rw [List.mem_singleton] at hx
      subst hx
      exact absurd hrx ((hclear.resolve_left (hxlive rfl)).1 r hr)
  told := h.told

end Ledger.OneEach

/-! ### Runs -/

/-- An accept is taken only for a request that is clear. -/
def AcceptsClear (n : Node) (e : Event) : Prop := ∀ p, n.accepted e = some p → n.ledger.Clear p

theorem step_oneEach (cfg : Config) (n : Node) (e : Event) (h : n.ledger.OneEach)
    (hclear : AcceptsClear n e) : (step cfg n e).ledger.OneEach := by
  rcases step_ledger cfg n e with ⟨p, senderStream, connectionId, hp, heq⟩ | hmove
  · rw [heq]
    exact h.take (hclear p hp)
  · exact h.moves hmove

theorem initial_oneEach : initial.ledger.OneEach where
  rows := List.Pairwise.nil
  past := by simp [initial, Node.ledger]
  apart := List.Pairwise.nil
  own := by simp [initial, Node.ledger]
  told := by simp [initial, Node.ledger]

theorem filter_eq_singleton {ρ : Type} {R : ρ → ρ → Prop} {p : ρ → Bool} : ∀ {rows : List ρ},
    rows.Pairwise (fun r s => ¬ R r s) → (∀ r s, p r = true → p s = true → R r s) →
      ∀ {r : ρ}, r ∈ rows → p r = true → rows.filter p = [r] := by
  intro rows
  induction rows with
  | nil => intro _ _ r hr; cases hr
  | cons s rest ih =>
    intro hrows hR r hr hp
    rw [List.pairwise_cons] at hrows
    rcases List.mem_cons.1 hr with rfl | hr
    · rw [List.filter_cons_of_pos hp, List.filter_eq_nil_iff.2]
      intro s hs hps
      exact hrows.1 s hs (hR r s hp hps)
    · have hs : ¬ p s = true := fun hps => hrows.1 r hr (hR s r hps hp)
      rw [List.filter_cons_of_neg hs]
      exact ih hrows.2 hR hr hp

theorem connectionGate_of_row {rows : List ConnectionRow}
    (hrows : rows.Pairwise fun r s => ¬ r.SamePair s) {r : ConnectionRow} (hr : r ∈ rows)
    (hid : r.connectionId ≠ "") {initiator target : String}
    (hpair : SamePair r.participantA r.participantB initiator target) (cfg : Config) (pick : ℕ) :
    connectionGate cfg pick initiator target (some r.connectionId) rows = .ok () := by
  have hfilter : rows.filter (matchesPair initiator target) = [r] := by
    refine filter_eq_singleton hrows ?_ hr (decide_eq_true hpair)
    intro s t hs ht
    exact (of_decide_eq_true hs).trans (of_decide_eq_true ht).symm
  have hfound : hasConnection pick initiator target rows = some r.connectionId := by
    simp [hasConnection, hfilter, Nat.mod_one]
  unfold connectionGate
  rw [hfound, Option.getD_some]
  split_ifs <;> simp_all

/-- **Every announced connection opens sessions**, in every run in which accepts are taken only for
requests that are clear: no two rows are for one pair, and whatever has been announced to either party
passes the gate, whoever asks and whichever row the lookup returns. -/
theorem announced_connection_opens (cfg : Config) {events : List Event}
    (h : Guarded (step cfg) AcceptsClear initial events) (m : ℕ) :
    ((run cfg initial (events.take m)).db.connections.Pairwise fun r s => ¬ r.SamePair s) ∧
      ∀ o ∈ (run cfg initial (events.take m)).ledger.announced, ∀ pick,
        connectionGate cfg pick o.recipient o.counterparty (some o.connectionId)
            (run cfg initial (events.take m)).db.connections = .ok () ∧
          connectionGate cfg pick o.counterparty o.recipient (some o.connectionId)
            (run cfg initial (events.take m)).db.connections = .ok () := by
  have hinv : (run cfg initial (events.take m)).ledger.OneEach :=
    Guarded.invariant (fun n e => step_oneEach cfg n e) initial_oneEach h m
  refine ⟨hinv.rows, ?_⟩
  intro o ho pick
  obtain ⟨hid, r, hr, hro, hpair⟩ := hinv.told o ho
  rw [← hro] at hid ⊢
  exact ⟨connectionGate_of_row hinv.rows hr hid hpair cfg pick,
    connectionGate_of_row hinv.rows hr hid hpair.swap cfg pick⟩

def requestDelivered (sender target : String) (task : ℕ) (requestId : RandomId) : List Event :=
  [.request 0 sender target [], .resume task (.profile (some ⟨0, true⟩) true),
    .resume (task + 1) (.rows 0 requestId 0 fun _ => true)]

def acceptWritten (responder : String) (requestId connectionId : RandomId) (task : ℕ) : List Event :=
  [.response responder requestId.text .accept connectionId, .resume task (.recorded .none 0),
    .resume (task + 1) .counted, .resume (task + 2) (.inserted .none fun _ => true)]

/-- Sixteen times the byte. -/
def repeatedId (b : UInt8) : RandomId := ⟨List.replicate 16 b, rfl⟩

def oneRequest : List Event :=
  [.connect "alice" 1, .connect "bob" 2] ++ requestDelivered "alice" "bob" 0 (repeatedId 1) ++
    acceptWritten "bob" (repeatedId 1) (repeatedId 3) 2

theorem announced_connection_opens_after_one_request :
    (⟨"bob", "alice", (repeatedId 3).text⟩ : Announcement) ∈
        (run ⟨true, true⟩ initial oneRequest).ledger.announced ∧
      connectionGate ⟨true, true⟩ 0 "bob" "alice" (some (repeatedId 3).text)
        (run ⟨true, true⟩ initial oneRequest).db.connections = .ok () := by
  have hguarded : Guarded (step ⟨true, true⟩) AcceptsClear initial oneRequest := by
    refine ⟨?_, ?_, ?_, ?_, ?_, ?_, ?_, ?_, ?_, trivial⟩
    case refine_6 =>
      intro p _
      refine Or.inr ⟨fun r hr => ?_, fun x hx => ?_⟩
      · cases hr
      · cases hx
    all_goals
      intro p hp
      cases hp
  have hmem : (⟨"bob", "alice", (repeatedId 3).text⟩ : Announcement) ∈
      (run ⟨true, true⟩ initial oneRequest).ledger.announced := by decide
  exact ⟨hmem, ((announced_connection_opens ⟨true, true⟩ hguarded 9).2 _ hmem 0).1⟩

/-- Alice and Bob ask each other, and both accept. -/
def crossedRequests : List Event :=
  [.connect "alice" 1, .connect "bob" 2] ++ requestDelivered "alice" "bob" 0 (repeatedId 1) ++
    requestDelivered "bob" "alice" 2 (repeatedId 2) ++
    acceptWritten "bob" (repeatedId 1) (repeatedId 3) 4 ++
    acceptWritten "alice" (repeatedId 2) (repeatedId 4) 7

/-- **Two accepts for one pair are two connections**, and the gate refuses the second. -/
theorem announced_connection_refused :
    (run ⟨true, true⟩ initial crossedRequests).db.connections.map
          (fun r => (r.connectionId, r.participantA, r.participantB)) =
        [((repeatedId 3).text, "alice", "bob"), ((repeatedId 4).text, "bob", "alice")] ∧
      ∃ o ∈ (run ⟨true, true⟩ initial crossedRequests).ledger.announced,
        connectionGate ⟨true, true⟩ 0 o.recipient o.counterparty (some o.connectionId)
          (run ⟨true, true⟩ initial crossedRequests).db.connections = .error .noConnection := by
  refine ⟨by decide, ⟨"bob", "alice", (repeatedId 4).text⟩, by decide, by rfl⟩

end Cello.Directory.Connection
