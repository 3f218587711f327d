import Cello.Directory.Connection.Requests

/-!
# What becomes of an accept

Of a node, the ledger keeps the connections, the requests that are recorded as accepted, the accepts
that are being processed, and what has been announced.  Taking an accept begins one (`Ledger.take`);
every other step leaves the ledger as it is, drops accepts, or moves one of them on
(`step_ledger`).  The invariants of the connections are proved from these moves.
-/

namespace Cello.Directory.Connection

open Lib

/-! ### The ledger of a node -/

/-- A `connection_established`, on a stream or queued. -/
structure Announcement where
  recipient : String
  counterparty : String
  connectionId : String
deriving DecidableEq

def Output.announcement : Output → Option Announcement
  | .established recipient counterparty connectionId => some ⟨recipient, counterparty, connectionId⟩
  | .notice recipient counterparty connectionId => some ⟨recipient, counterparty, connectionId⟩
  | _ => none

def Task.asAccept : Task → Option Accept
  | .accept a => some a
  | _ => none

@[ext]
structure Ledger where
  connections : List ConnectionRow
  recorded : List String
  accepts : List (ℕ × Accept)
  announced : List Announcement

def Node.ledger (n : Node) : Ledger where
  connections := n.db.connections
  recorded := n.db.connectionRequests.map AcceptedRow.requestId
  accepts := n.tasks.filterMap fun t => t.2.asAccept.map fun a => (t.1, a)
  announced := n.outputs.filterMap Output.announcement

def Ledger.others (l : Ledger) (id : ℕ) : List (ℕ × Accept) := l.accepts.filter fun x => x.1 ≠ id

/-- An accept is taken. -/
def Ledger.take (l : Ledger) (id : ℕ) (p : PendingRequest) (senderStream : Option ℕ)
    (connectionId : RandomId) : Ledger :=
  { l with accepts := l.accepts ++ [(id, ⟨.record, p, senderStream, connectionId⟩)] }

/-- The row that an accept inserts. -/
def Accept.row (a : Accept) (establishedAt : ℤ) : ConnectionRow where
  connectionId := a.connectionId.text
  participantA := a.pending.senderHex
  participantB := a.pending.targetHex
  establishedAt := establishedAt

def Accept.Announces (a : Accept) (o : Announcement) : Prop :=
  o.connectionId = a.connectionId.text ∧
    SamePair o.recipient o.counterparty a.pending.senderHex a.pending.targetHex

/-- A step of the ledger that takes no accept.  An accept that goes on may be dropped. -/
inductive Ledger.Moves : Ledger → Ledger → Prop where
  | drop {l : Ledger} {accepts : List (ℕ × Accept)} : accepts.Sublist l.accepts →
      Moves l { l with accepts }
  | record {l : Ledger} {id next : ℕ} {a : Accept} {now : ℤ} {accepts : List (ℕ × Accept)} :
      (id, a) ∈ l.accepts → a.phase = .record → a.pending.requestId ∉ l.recorded →
      accepts.Sublist (l.others id ++ [(next, { a with phase := .check now })]) →
      Moves l { l with recorded := l.recorded ++ [a.pending.requestId], accepts }
  | count {l : Ledger} {id next : ℕ} {a : Accept} {now : ℤ} : (id, a) ∈ l.accepts →
      a.phase = .check now →
      Moves l { l with accepts := l.others id ++ [(next, { a with phase := .first now })] }
  | retry {l : Ledger} {id next : ℕ} {a : Accept} {now : ℤ} : (id, a) ∈ l.accepts →
      a.phase = .first now →
      Moves l { l with accepts := l.others id ++ [(next, { a with phase := .second now })] }
  | insert {l : Ledger} {id next : ℕ} {a : Accept} {now : ℤ} {accepts : List (ℕ × Accept)}
      {announced : List Announcement} : (id, a) ∈ l.accepts →
      a.phase = .first now ∨ a.phase = .second now →
      a.connectionId.text ∉ l.connections.map ConnectionRow.connectionId →
      accepts.Sublist (l.others id ++ [(next, { a with phase := .second now })]) →
      (∀ o ∈ announced, a.Announces o) →
      Moves l { connections := l.connections ++ [a.row now], recorded := l.recorded, accepts
                announced := l.announced ++ announced }

/-! ### Building blocks -/

theorem ledger_start (task : Task) (n : Node) : (n.start task).ledger =
    { n.ledger with
      accepts := n.ledger.accepts ++ (task.asAccept.map fun a => (n.nextTask, a)).toList } := by
  cases task <;> simp [Node.start, Node.ledger, Task.asAccept, List.filterMap_append]

theorem ledger_start_of_none {task : Task} (h : task.asAccept = none) (n : Node) :
    (n.start task).ledger = n.ledger := by
  rw [ledger_start, h]
  simp

theorem ledger_emit (outputs : List Output) (n : Node) : (n.emit outputs).ledger =
    { n.ledger with announced := n.ledger.announced ++ outputs.filterMap Output.announcement } := by
  simp [Node.emit, Node.ledger, List.filterMap_append]

theorem ledger_emit_of_none {outputs : List Output} (h : ∀ o ∈ outputs, o.announcement = none)
    (n : Node) : (n.emit outputs).ledger = n.ledger := by
  rw [ledger_emit, List.filterMap_eq_nil_iff.2 h, List.append_nil]

theorem ledger_remove (id : ℕ) (n : Node) :
    (n.remove id).ledger = { n.ledger with accepts := n.ledger.others id } := by
  have hfilter : ∀ tasks : List (ℕ × Task),
      ((tasks.filter fun t => t.1 ≠ id).filterMap fun t => t.2.asAccept.map fun a => (t.1, a)) =
        (tasks.filterMap fun t => t.2.asAccept.map fun a => (t.1, a)).filter fun x => x.1 ≠ id := by
    intro tasks
    induction tasks with
    | nil => rfl
    | cons t rest ih =>
      by_cases ht : t.1 = id <;> cases hacc : t.2.asAccept <;> simp_all
  simp only [Node.remove, Node.ledger, Ledger.others, hfilter]

theorem mem_accepts {n : Node} {id : ℕ} {a : Accept} (h : (id, Task.accept a) ∈ n.tasks) :
    (id, a) ∈ n.ledger.accepts :=
  List.mem_filterMap.2 ⟨_, h, rfl⟩

/-! ### Handlers that leave the ledger alone -/

theorem ledger_checkProfiles (cfg : Config) (stream : ℕ) (sender target : String) (package : Bytes)
    (found : Option SenderProfile) (targetHasProfile : Bool) (n : Node) :
    (checkProfiles cfg stream sender target package found targetHasProfile n).ledger = n.ledger := by
  unfold checkProfiles
  split_ifs
  · exact ledger_emit_of_none (by simp [Output.announcement]) n
  · exact ledger_emit_of_none (by simp [Output.announcement]) n
  · exact ledger_start_of_none rfl n

theorem ledger_relayRequest (stream : ℕ) (sender target : String) (package : Bytes)
    (profile : Option SenderProfile) (existing : Option String) (requestId : RandomId) (now : ℤ)
    (takes : ℕ → Bool) (n : Node) :
    (relayRequest stream sender target package profile existing requestId now takes n).ledger =
      n.ledger := by
  unfold relayRequest
  cases existing with
  | some connectionId => exact ledger_emit_of_none (by simp [Output.announcement]) n
  | none =>
    cases hstream : n.streams.get target with
    | none => rfl
    | some targetStream =>
      simp only
      split_ifs
      · exact ledger_emit_of_none (by simp [Output.announcement]) _
      · rfl

theorem ledger_processDisclosureRequest (requester requestId : String) (n : Node) :
    (processDisclosureRequest requester requestId n).ledger = n.ledger := by
  unfold processDisclosureRequest
  cases n.pending.get requestId with
  | none => rfl
  | some p =>
    simp only
    split_ifs <;> rfl

theorem ledger_dequeue (agent : String) (stream : ℕ) (recent : QueuedRow → Bool) (taken : ℕ) (now : ℤ)
    (n : Node) : (dequeue agent stream recent taken now n).ledger = n.ledger := by
  have hrows : ∀ (rows : List QueuedRow) (m : Node),
      (rows.foldl (redeliver agent stream now) m).ledger = m.ledger := by
    intro rows
    induction rows with
    | nil => exact fun _ => rfl
    | cons row rest ih =>
      intro m
      rw [List.foldl_cons, ih]
      exact ledger_emit_of_none (by simp [Output.announcement]) _
  exact hrows _ _

theorem ledger_settle (index : ℕ) (fault : Fault) (n : Node) :
    (settle index fault n).ledger = n.ledger := by
  unfold settle
  cases n.background[index]? with
  | none => rfl
  | some statement =>
    simp only [Node.ledger]
    split_ifs
    · rfl
    · cases statement <;> rfl

/-! ### An accept goes on -/

def Node.recorded (n : Node) (p : PendingRequest) : Node :=
  { n with db := { n.db with
      connectionRequests := n.db.connectionRequests ++ [⟨p.requestId, p.senderHex, p.targetHex⟩] } }

theorem ledger_recorded (p : PendingRequest) (n : Node) : (n.recorded p).ledger =
    { n.ledger with recorded := n.ledger.recorded ++ [p.requestId] } := by
  simp [Node.recorded, Node.ledger]

theorem recordAcceptedConnectionRequest_eq (p : PendingRequest) (fault : Fault) (n : Node) :
    recordAcceptedConnectionRequest p fault n.db =
      if fault = .unsent ∨ p.requestId ∈ n.ledger.recorded then (false, n.db)
      else (decide (fault = .none), (n.recorded p).db) := by
  unfold recordAcceptedConnectionRequest insertUnique
  by_cases h : fault = .unsent ∨ p.requestId ∈ n.ledger.recorded
  · rw [if_pos h]
    exact congrArg (fun out : Bool × List AcceptedRow =>
      (out.1, { n.db with connectionRequests := out.2 })) (if_pos h)
  · rw [if_neg h]
    exact congrArg (fun out : Bool × List AcceptedRow =>
      (out.1, { n.db with connectionRequests := out.2 })) (if_neg h)

def Node.inserted (n : Node) (a : Accept) (establishedAt : ℤ) : Node :=
  { n with db := { n.db with connections := n.db.connections ++ [a.row establishedAt] } }

theorem attemptInsert_eq (a : Accept) (now : ℤ) (fault : Fault) (takes : ℕ → Bool)
    (failed : Node → Node) (n : Node) : attemptInsert a now fault takes failed n =
      if fault = .unsent ∨ a.connectionId.text ∈ n.db.connections.map ConnectionRow.connectionId then
        failed n
      else if fault = .none then
        announce a.pending a.senderStream a.connectionId.text takes (n.inserted a now)
      else failed (n.inserted a now) := by
  unfold attemptInsert insertConnection insertUnique
  split_ifs with hrefused hnone <;> simp_all [Node.inserted, Accept.row]

theorem ledger_announce (a : Accept) (takes : ℕ → Bool) (n : Node) :
    ∃ announced, (∀ o ∈ announced, a.Announces o) ∧
      (announce a.pending a.senderStream a.connectionId.text takes n).ledger =
        { n.ledger with announced := n.ledger.announced ++ announced } := by
  refine ⟨_, ?_, ledger_emit _ n⟩
  intro o ho
  obtain ⟨out, hout, ho⟩ := List.mem_filterMap.1 ho
  simp only [List.mem_cons, List.mem_append] at hout
  rcases hout with rfl | hsender | htarget
  · cases ho
    exact ⟨rfl, Or.inl ⟨rfl, rfl⟩⟩
  · split_ifs at hsender
    · rw [List.mem_singleton] at hsender
      subst hsender
      cases ho
      exact ⟨rfl, Or.inl ⟨rfl, rfl⟩⟩
    · cases hsender
  · split_ifs at htarget
    · rw [List.mem_singleton] at htarget
      subst htarget
      cases ho
      exact ⟨rfl, Or.inr ⟨rfl, rfl⟩⟩
    · cases htarget

theorem moves_attemptInsert {n : Node} {id next : ℕ} {a : Accept} {now : ℤ} (fault : Fault)
    (takes : ℕ → Bool) {failed : Node → Node} {accepts : List (ℕ × Accept)}
    (ha : (id, a) ∈ n.ledger.accepts) (hphase : a.phase = .first now ∨ a.phase = .second now)
    (hsub : accepts.Sublist (n.ledger.others id ++ [(next, { a with phase := .second now })]))
    (hfailed : ∀ m : Node, m.nextTask = n.nextTask → m.ledger.accepts = n.ledger.others id →
      (failed m).ledger = { m.ledger with accepts })
    (hrefused : n.ledger.Moves { n.ledger with accepts }) :
    n.ledger.Moves (attemptInsert a now fault takes failed (n.remove id)).ledger := by
  have hremove := ledger_remove id n
  have hinserted : ((n.remove id).inserted a now).ledger =
      { (n.remove id).ledger with connections := n.ledger.connections ++ [a.row now] } := rfl
  rw [attemptInsert_eq]
  split_ifs with hno hnone
  · rw [hfailed (n.remove id) rfl (by rw [hremove]), hremove]
    exact hrefused
  · rw [not_or] at hno
    obtain ⟨announced, hall, heq⟩ := ledger_announce a takes ((n.remove id).inserted a now)
    rw [heq, hinserted, hremove]
    exact Ledger.Moves.insert ha hphase hno.2 (List.sublist_append_left _ [(next, _)]) hall
  · rw [not_or] at hno
    rw [hfailed ((n.remove id).inserted a now) rfl (by rw [hinserted, hremove]), hinserted, hremove]
    have hnone : ∀ o ∈ ([] : List Announcement), a.Announces o := by simp
    have hmove := Ledger.Moves.insert ha hphase hno.2 hsub hnone
    rwa [List.append_nil] at hmove

/-- **Every answer to an accept is a move.** -/
theorem moves_resumeAccept {n m : Node} {id : ℕ} {a : Accept} {answer : Answer}
    (ha : (id, a) ∈ n.ledger.accepts)
    (h : resumeAccept a answer (n.remove id) = some m) :
    n.ledger.Moves m.ledger := by
  have hremove := ledger_remove id n
  have hdrop : n.ledger.Moves { n.ledger with accepts := n.ledger.others id } :=
    Ledger.Moves.drop List.filter_sublist
  unfold resumeAccept at h
  split at h
  · rename_i fault now hphase
    cases h
    simp only [recordAcceptedConnectionRequest_eq]
    split_ifs with hno hnone
    · cases hnone
    · exact hremove ▸ hdrop
    · rw [not_or] at hno
      show n.ledger.Moves (((n.remove id).recorded a.pending).start _).ledger
      rw [ledger_start, ledger_recorded, hremove]
      exact Ledger.Moves.record ha hphase hno.2 (List.Sublist.refl _)
    · rw [not_or] at hno
      show n.ledger.Moves ((n.remove id).recorded a.pending).ledger
      rw [ledger_recorded, hremove]
      have hnone : (n.ledger.others id).Sublist
          (n.ledger.others id ++ [(0, { a with phase := .check now })]) :=
        List.sublist_append_left _ _
      exact Ledger.Moves.record ha hphase hno.2 hnone
  · cases h
    exact hremove ▸ hdrop
  · rename_i now hphase
    cases h
    split_ifs
    · rw [ledger_start, hremove]
      exact Ledger.Moves.count ha hphase
    · exact hremove ▸ hdrop
  · rename_i now fault takes hphase
    cases h
    have hretry : n.ledger.Moves { n.ledger with
        accepts := n.ledger.others id ++ [(n.nextTask, { a with phase := .second now })] } :=
      Ledger.Moves.retry ha hphase
    refine moves_attemptInsert fault takes ha (Or.inl hphase) (List.Sublist.refl _) ?_ hretry
    intro m hnext haccepts
    rw [ledger_start, haccepts, hnext]
    rfl
  · rename_i now fault takes hphase
    cases h
    refine moves_attemptInsert fault takes ha (Or.inr hphase)
      (List.sublist_append_left _ [(0, { a with phase := .second now })]) ?_ hdrop
    intro m hnext haccepts
    rw [← haccepts]
    rfl
  · cases h

theorem moves_resume (cfg : Config) (id : ℕ) (answer : Answer) (n : Node) :
    n.ledger.Moves (resume cfg id answer n).ledger := by
  have hstay : n.ledger.Moves n.ledger := Ledger.Moves.drop (List.Sublist.refl _)
  have hdrop : n.ledger.Moves (n.remove id).ledger := by
    rw [ledger_remove]
    exact Ledger.Moves.drop List.filter_sublist
  unfold resume
  cases hfind : n.tasks.find? (fun t => t.1 = id) with
  | none => exact hstay
  | some t =>
    have hid : t.1 = id := by simpa using List.find?_some hfind
    obtain ⟨id', task⟩ := t
    subst hid
    have hmem := List.mem_of_find?_eq_some hfind
    simp only
    cases hanswered : resumeTask cfg task answer (n.remove id') with
    | none => exact hstay
    | some m =>
      unfold resumeTask at hanswered
      split at hanswered
      · cases hanswered
        exact hdrop
      · cases hanswered
        exact (ledger_checkProfiles ..).symm ▸ hdrop
      · cases hanswered
        exact hdrop
      · cases hanswered
        exact (ledger_relayRequest ..).symm ▸ hdrop
      · exact moves_resumeAccept (mem_accepts hmem) hanswered
      · cases hanswered

/-! ### Steps -/

def Node.accepted (n : Node) : Event → Option PendingRequest
  | .response responder requestId .accept _ =>
    (n.pending.get requestId).filter fun p => p.targetHex = responder
  | _ => none

/-- **What a step does to the ledger**: it takes an accept, or it is a move. -/
theorem step_ledger (cfg : Config) (n : Node) (e : Event) :
    (∃ p senderStream connectionId, n.accepted e = some p ∧
      (step cfg n e).ledger = n.ledger.take n.nextTask p senderStream connectionId) ∨
    n.ledger.Moves (step cfg n e).ledger := by
  have hstay : n.ledger.Moves n.ledger := Ledger.Moves.drop (List.Sublist.refl _)
  cases e with
  | connect agent stream => exact Or.inr hstay
  | disconnect agent => exact Or.inr hstay
  | request stream sender target package =>
    have hnone : (Task.profile stream sender target package).asAccept = none := rfl
    have hledger := ledger_start_of_none hnone n
    exact Or.inr (hledger.symm ▸ hstay)
  | response responder requestId verdict connectionId =>
    show (∃ p senderStream connectionId', _ ∧
      (processConnectionResponse responder requestId verdict connectionId n).ledger = _) ∨
        n.ledger.Moves (processConnectionResponse responder requestId verdict connectionId n).ledger
    unfold processConnectionResponse
    cases hp : n.pending.get requestId with
    | none => exact Or.inr hstay
    | some p =>
      simp only
      split_ifs with hresponder
      · exact Or.inr hstay
      · rw [ne_eq, not_not] at hresponder
        cases verdict with
        | accept =>
          refine Or.inl ⟨p, n.streams.get p.senderHex, connectionId, ?_, ledger_start _ _⟩
          simp [Node.accepted, hp, Option.filter, hresponder]
        | reject reason =>
          refine Or.inr ((ledger_emit_of_none ?_ _).symm ▸ hstay)
          simp [Output.announcement]
        | insufficient unmet =>
          refine Or.inr ((ledger_emit_of_none ?_ _).symm ▸ hstay)
          simp [Output.announcement]
  | disclosureRequest requester requestId =>
    exact Or.inr ((ledger_processDisclosureRequest requester requestId n).symm ▸ hstay)
  | resume id answer => exact Or.inr (moves_resume cfg id answer n)
  | dequeue agent stream recent taken now =>
    exact Or.inr ((ledger_dequeue agent stream recent taken now n).symm ▸ hstay)
  | background index fault => exact Or.inr ((ledger_settle index fault n).symm ▸ hstay)
  | restart now => exact Or.inr (Ledger.Moves.drop (List.nil_sublist _))

end Cello.Directory.Connection
