import Cello.Directory.Connection.Ledger

/-!
# An accept whose writes fail

`#processConnectionResponse` takes the request out of `#pendingConnectionRequests` before anything is
written, and then waits for `recordAcceptedConnectionRequest` and for `createConnection`.  Where one of
them throws, the handler is over: nobody is told, and a second accept finds no request.

`accept_settled_iff` says when an accept comes to a connection of which both parties are told.  The only
failure that the processing outlives is a first attempt at the insert that does not reach the database.
-/

namespace Cello.Directory.Connection

open Lib

/-! ### Task numbers -/

def Node.TasksBelow (n : Node) : Prop := ∀ t ∈ n.tasks, t.1 < n.nextTask

def Node.bump (n : Node) : Node := { n with nextTask := n.nextTask + 1 }

variable {n : Node}

theorem Node.TasksBelow.bump (h : n.TasksBelow) : n.bump.TasksBelow :=
  fun t ht => Nat.lt_succ_of_lt (h t ht)

theorem Node.TasksBelow.start (h : n.TasksBelow) (task : Task) :
    (n.start task).TasksBelow := by
  intro t ht
  rcases List.mem_append.1 ht with ht | ht
  · exact Nat.lt_succ_of_lt (h t ht)
  · rw [List.mem_singleton] at ht
    subst ht
    exact Nat.lt_succ_self _

theorem Node.TasksBelow.remove (h : n.TasksBelow) (id : ℕ) : (n.remove id).TasksBelow :=
  fun t ht => h t (List.mem_of_mem_filter ht)

theorem remove_start (h : n.TasksBelow) (task : Task) :
    (n.start task).remove n.nextTask = n.bump := by
  have hrest : n.tasks.filter (fun t => t.1 ≠ n.nextTask) = n.tasks := by
    refine List.filter_eq_self.2 ?_
    intro t ht
    simpa using (h t ht).ne
  simp only [Node.start, Node.remove, Node.bump, List.filter_append, hrest]
  simp

theorem resume_start (cfg : Config) (h : n.TasksBelow) (task : Task) (answer : Answer) :
    resume cfg n.nextTask answer (n.start task) =
      (resumeTask cfg task answer n.bump).getD (n.start task) := by
  have hfind : (n.start task).tasks.find? (fun t => t.1 = n.nextTask) = some (n.nextTask, task) := by
    have hrest : n.tasks.find? (fun t => t.1 = n.nextTask) = none := by
      rw [List.find?_eq_none]
      intro t ht
      simpa using (h t ht).ne
    simp [Node.start, List.find?_append, hrest]
  unfold resume
  rw [hfind]
  simp only [remove_start h]

theorem resume_of_le (cfg : Config) (h : n.TasksBelow) {id : ℕ} (hid : n.nextTask ≤ id)
    (answer : Answer) : resume cfg id answer n = n := by
  have hfind : n.tasks.find? (fun t => t.1 = id) = none := by
    rw [List.find?_eq_none]
    intro t ht
    simpa using ((h t ht).trans_le hid).ne
  unfold resume
  rw [hfind]

/-! ### The numbers of a run -/

theorem tasksBelow_checkProfiles (h : n.TasksBelow) (cfg : Config) (stream : ℕ)
    (sender target : String) (package : Bytes) (found : Option SenderProfile)
    (targetHasProfile : Bool) :
    (checkProfiles cfg stream sender target package found targetHasProfile n).TasksBelow := by
  unfold checkProfiles
  split_ifs
  · exact h
  · exact h
  · exact h.start _

theorem tasksBelow_relayRequest (h : n.TasksBelow) (stream : ℕ) (sender target : String)
    (package : Bytes) (profile : Option SenderProfile) (existing : Option String)
    (requestId : RandomId) (now : ℤ) (takes : ℕ → Bool) :
    (relayRequest stream sender target package profile existing requestId now takes n).TasksBelow := by
  unfold relayRequest
  cases existing with
  | some connectionId => exact h
  | none =>
    cases n.streams.get target with
    | none => exact h
    | some targetStream =>
      simp only
      split_ifs <;> exact h

theorem tasksBelow_attemptInsert (h : n.TasksBelow) (a : Accept) (now : ℤ) (fault : Fault)
    (takes : ℕ → Bool) {failed : Node → Node}
    (hfailed : ∀ m : Node, m.TasksBelow → (failed m).TasksBelow) :
    (attemptInsert a now fault takes failed n).TasksBelow := by
  rw [attemptInsert_eq]
  split_ifs
  · exact hfailed n h
  · exact h
  · exact hfailed _ h

theorem tasksBelow_resumeAccept {n m : Node} (h : n.TasksBelow) {a : Accept} {answer : Answer}
    (hm : resumeAccept a answer n = some m) : m.TasksBelow := by
  unfold resumeAccept at hm
  split at hm
  · cases hm
    have hrecorded : ∀ db : Tables, ({ n with db } : Node).TasksBelow := fun _ => h
    split_ifs
    · exact (hrecorded _).start _
    · exact hrecorded _
  · cases hm
    exact h
  · cases hm
    split_ifs
    · exact h.start _
    · exact h
  · cases hm
    exact tasksBelow_attemptInsert h _ _ _ _ fun m hm => hm.start _
  · cases hm
    exact tasksBelow_attemptInsert h _ _ _ _ fun m hm => hm
  · cases hm

theorem tasksBelow_resume (h : n.TasksBelow) (cfg : Config) (id : ℕ) (answer : Answer) :
    (resume cfg id answer n).TasksBelow := by
  unfold resume
  cases n.tasks.find? (fun t => t.1 = id) with
  | none => exact h
  | some t =>
    simp only
    cases hanswered : resumeTask cfg t.2 answer (n.remove id) with
    | none => exact h
    | some m =>
      unfold resumeTask at hanswered
      split at hanswered
      · cases hanswered
        exact h.remove id
      · cases hanswered
        have hbelow := tasksBelow_checkProfiles (h.remove id)
        exact hbelow _ _ _ _ _ _ _
      · cases hanswered
        exact h.remove id
      · cases hanswered
        have hbelow := tasksBelow_relayRequest (h.remove id)
        exact hbelow _ _ _ _ _ _ _ _ _
      · exact tasksBelow_resumeAccept (h.remove id) hanswered
      · cases hanswered

theorem step_tasksBelow (cfg : Config) (h : n.TasksBelow) (e : Event) :
    (step cfg n e).TasksBelow := by
  cases e with
  | connect agent stream => exact h
  | disconnect agent => exact h
  | request stream sender target package => exact h.start _
  | response responder requestId verdict connectionId =>
    show (processConnectionResponse responder requestId verdict connectionId n).TasksBelow
    unfold processConnectionResponse
    cases n.pending.get requestId with
    | none => exact h
    | some p =>
      simp only
      split_ifs
      · exact h
      · cases verdict with
        | accept =>
          have hpopped : (({ n with pending := n.pending.erase requestId } : Node).send
            (.deleteActive requestId)).TasksBelow := h
          exact hpopped.start _
        | reject reason => exact h
        | insufficient unmet => exact h
  | disclosureRequest requester requestId =>
    show (processDisclosureRequest requester requestId n).TasksBelow
    unfold processDisclosureRequest
    cases n.pending.get requestId with
    | none => exact h
    | some p =>
      simp only
      split_ifs <;> exact h
  | resume id answer => exact tasksBelow_resume h cfg id answer
  | dequeue agent stream recent taken now =>
    have hrows : ∀ (rows : List QueuedRow) (m : Node), m.TasksBelow →
        (rows.foldl (redeliver agent stream now) m).TasksBelow := by
      intro rows
      induction rows with
      | nil => exact fun _ hm => hm
      | cons row rest ih => exact fun m hm => ih _ hm
    exact hrows _ _ h
  | background index fault =>
    show (settle index fault n).TasksBelow
    unfold settle
    cases n.background[index]? <;> exact h
  | restart now =>
    intro t ht
    cases ht

theorem run_tasksBelow (cfg : Config) : ∀ (events : List Event) {n : Node}, n.TasksBelow →
    (run cfg n events).TasksBelow := by
  intro events
  induction events with
  | nil => exact fun h => h
  | cons e rest ih => exact fun h => ih (step_tasksBelow cfg h e)

/-! ### The processing of an accept -/

/-- What the database answers while an accept is processed, and what its streams take. -/
structure Answers where
  record : Fault
  now : ℤ
  counted : Bool
  first : Fault
  second : Fault
  takes : ℕ → Bool

/-- The target accepts, and the handler runs to its end. -/
def processAccept (cfg : Config) (responder requestId : String) (connectionId : RandomId)
    (answers : Answers) (n : Node) : Node :=
  run cfg n [.response responder requestId .accept connectionId,
    .resume n.nextTask (.recorded answers.record answers.now),
    .resume (n.nextTask + 1) (if answers.counted then .counted else .failed),
    .resume (n.nextTask + 2) (.inserted answers.first answers.takes),
    .resume (n.nextTask + 3) (.inserted answers.second answers.takes)]

/-- The writes of an accept succeed. -/
def Written (p : PendingRequest) (connectionId : RandomId) (answers : Answers) (n : Node) : Prop :=
  answers.record = .none ∧ p.requestId ∉ n.ledger.recorded ∧ answers.counted = true ∧
    connectionId.text ∉ n.db.connections.map ConnectionRow.connectionId ∧
    (answers.first = .none ∨ answers.first = .unsent ∧ answers.second = .none)

def Node.popped (n : Node) (requestId : String) : Node :=
  { n with pending := n.pending.erase requestId }.send (.deleteActive requestId)

theorem processConnectionResponse_accept {requestId : String} {p : PendingRequest}
    (hp : n.pending.get requestId = some p) (connectionId : RandomId) :
    processConnectionResponse p.targetHex requestId .accept connectionId n =
      (n.popped requestId).start (.accept ⟨.record, p, n.streams.get p.senderHex, connectionId⟩) := by
  unfold processConnectionResponse
  rw [hp]
  simp [Node.popped, Node.send]

theorem resume_record (cfg : Config) (h : n.TasksBelow) (a : Accept) (fault : Fault) (now : ℤ) :
    resume cfg n.nextTask (.recorded fault now) (n.start (.accept { a with phase := .record })) =
      if fault = .unsent ∨ a.pending.requestId ∈ n.ledger.recorded then n.bump
      else if fault = .none then
        (n.bump.recorded a.pending).start (.accept { a with phase := .check now })
      else n.bump.recorded a.pending := by
  have hrecord := recordAcceptedConnectionRequest_eq a.pending fault n.bump
  rw [resume_start cfg h]
  simp only [resumeTask, resumeAccept, hrecord, Option.getD_some]
  have hsame : n.bump.ledger.recorded = n.ledger.recorded := rfl
  rw [hsame]
  cases fault <;> split_ifs <;> simp_all <;> rfl

theorem resume_check (cfg : Config) (h : n.TasksBelow) {a : Accept}
    (hrecorded : a.pending.requestId ∈ n.ledger.recorded) (now : ℤ) (counted : Bool) :
    resume cfg n.nextTask (if counted then .counted else .failed)
        (n.start (.accept { a with phase := .check now })) =
      if counted then n.bump.start (.accept { a with phase := .first now }) else n.bump := by
  rw [resume_start cfg h]
  cases counted with
  | false => rfl
  | true =>
    have hfound : a.pending.requestId ∈ n.bump.db.connectionRequests.map AcceptedRow.requestId :=
      hrecorded
    simp [resumeTask, resumeAccept, hfound]

theorem resume_first (cfg : Config) (h : n.TasksBelow) (a : Accept) (now : ℤ) (fault : Fault)
    (takes : ℕ → Bool) :
    resume cfg n.nextTask (.inserted fault takes) (n.start (.accept { a with phase := .first now })) =
      if fault = .unsent ∨ a.connectionId.text ∈ n.db.connections.map ConnectionRow.connectionId then
        n.bump.start (.accept { a with phase := .second now })
      else if fault = .none then
        announce a.pending a.senderStream a.connectionId.text takes (n.bump.inserted a now)
      else (n.bump.inserted a now).start (.accept { a with phase := .second now }) := by
  rw [resume_start cfg h]
  exact attemptInsert_eq { a with phase := .first now } now fault takes
    (fun m => m.start (.accept { a with phase := .second now })) n.bump

theorem resume_second (cfg : Config) (h : n.TasksBelow) (a : Accept) (now : ℤ) (fault : Fault)
    (takes : ℕ → Bool) :
    resume cfg n.nextTask (.inserted fault takes) (n.start (.accept { a with phase := .second now })) =
      if fault = .unsent ∨ a.connectionId.text ∈ n.db.connections.map ConnectionRow.connectionId then
        n.bump
      else if fault = .none then
        announce a.pending a.senderStream a.connectionId.text takes (n.bump.inserted a now)
      else n.bump.inserted a now := by
  rw [resume_start cfg h]
  exact attemptInsert_eq { a with phase := .second now } now fault takes id n.bump

/-- **What has come of the two attempts, when the handler has ended.** -/
theorem inserts_cases (cfg : Config) (h : n.TasksBelow) (a : Accept) (now : ℤ)
    (first second : Fault) (takes : ℕ → Bool) {last : Node}
    (hlast : last = resume cfg (n.nextTask + 1) (.inserted second takes)
      (resume cfg n.nextTask (.inserted first takes)
        (n.start (.accept { a with phase := .first now })))) :
    if a.connectionId.text ∉ n.db.connections.map ConnectionRow.connectionId ∧
        (first = .none ∨ first = .unsent ∧ second = .none) then
      ∃ m : Node, last = announce a.pending a.senderStream a.connectionId.text takes m ∧
        m.pending = n.pending ∧ m.streams = n.streams ∧ m.outputs = n.outputs ∧
        a.row now ∈ m.db.connections
    else last.pending = n.pending ∧ last.outputs = n.outputs := by
  have hrow : ∀ m : Node, a.row now ∈ (m.inserted a now).db.connections := by
    intro m
    simp [Node.inserted]
  rw [resume_first cfg h] at hlast
  by_cases hid : a.connectionId.text ∈ n.db.connections.map ConnectionRow.connectionId
  · -- both attempts are refused
    have hsecond := resume_second cfg h.bump a now second takes
    have hid' : a.connectionId.text ∈ n.bump.db.connections.map ConnectionRow.connectionId := hid
    rw [if_pos (Or.inr hid)] at hlast
    rw [if_pos (Or.inr hid')] at hsecond
    rw [if_neg fun hc => hc.1 hid, hlast.trans hsecond]
    exact ⟨rfl, rfl⟩
  · have hid' : a.connectionId.text ∉ n.bump.db.connections.map ConnectionRow.connectionId := hid
    cases first with
    | none =>
      rw [if_neg (by simpa using hid), if_pos rfl] at hlast
      rw [if_pos ⟨hid, Or.inl rfl⟩]
      refine ⟨n.bump.inserted a now, hlast.trans ?_, rfl, rfl, rfl, hrow _⟩
      have hbelow : (n.bump.inserted a now).TasksBelow := h.bump
      exact resume_of_le cfg (n := announce _ _ _ _ (n.bump.inserted a now)) hbelow le_rfl _
    | unsent =>
      have hsecond := resume_second cfg h.bump a now second takes
      rw [if_pos (Or.inl rfl)] at hlast
      cases second with
      | none =>
        rw [if_neg (by simpa using hid'), if_pos rfl] at hsecond
        rw [if_pos ⟨hid, Or.inr ⟨rfl, rfl⟩⟩]
        exact ⟨n.bump.bump.inserted a now, hlast.trans hsecond, rfl, rfl, rfl, hrow _⟩
      | unsent =>
        rw [if_pos (Or.inl rfl)] at hsecond
        rw [if_neg (by simp), hlast.trans hsecond]
        exact ⟨rfl, rfl⟩
      | unconfirmed =>
        rw [if_neg (by simpa using hid'), if_neg (by simp)] at hsecond
        rw [if_neg (by simp), hlast.trans hsecond]
        exact ⟨rfl, rfl⟩
    | unconfirmed =>
      -- the second attempt meets the row of the first
      have hbelow : (n.bump.inserted a now).TasksBelow := h.bump
      have hown : a.connectionId.text ∈
          (n.bump.inserted a now).db.connections.map ConnectionRow.connectionId :=
        List.mem_map.2 ⟨_, hrow _, rfl⟩
      have hsecond := resume_second cfg hbelow a now second takes
      rw [if_pos (Or.inr hown)] at hsecond
      rw [if_neg (by simpa using hid), if_neg (by simp)] at hlast
      rw [if_neg (by simp), hlast.trans hsecond]
      exact ⟨rfl, rfl⟩

/-- **What has come of an accept, when the handler has ended**: an announcement of the row it has
inserted, or nothing. -/
theorem processAccept_cases (cfg : Config) (h : n.TasksBelow) {requestId : String}
    {p : PendingRequest} (hp : n.pending.get requestId = some p) (connectionId : RandomId)
    (answers : Answers) {last : Node}
    (hlast : last = processAccept cfg p.targetHex requestId connectionId answers n) :
    (Written p connectionId answers n →
      ∃ m : Node, last = announce p (n.streams.get p.senderHex) connectionId.text answers.takes m ∧
        m.pending = n.pending.erase requestId ∧ m.streams = n.streams ∧ m.outputs = n.outputs ∧
        ∃ row ∈ m.db.connections, row.connectionId = connectionId.text ∧
          row.participantA = p.senderHex ∧ row.participantB = p.targetHex) ∧
    (¬ Written p connectionId answers n →
      last.pending = n.pending.erase requestId ∧ last.outputs = n.outputs) := by
  set b := n.popped requestId with hb
  have hbelow : b.TasksBelow := h
  set a : Accept := ⟨.record, p, n.streams.get p.senderHex, connectionId⟩ with ha
  have hrun : last = resume cfg (b.nextTask + 3) (.inserted answers.second answers.takes)
      (resume cfg (b.nextTask + 2) (.inserted answers.first answers.takes)
        (resume cfg (b.nextTask + 1) (if answers.counted then .counted else .failed)
          (resume cfg b.nextTask (.recorded answers.record answers.now)
            (b.start (.accept { a with phase := .record }))))) := by
    rw [hlast, ha, hb, ← processConnectionResponse_accept hp]
    rfl
  rw [resume_record cfg hbelow] at hrun
  have hended : ∀ m : Node, m.TasksBelow → m.nextTask ≤ b.nextTask + 1 → last =
      resume cfg (b.nextTask + 3) (.inserted answers.second answers.takes)
        (resume cfg (b.nextTask + 2) (.inserted answers.first answers.takes)
          (resume cfg (b.nextTask + 1) (if answers.counted then .counted else .failed) m)) →
      last = m := by
    intro m hm hle heq
    rwa [resume_of_le cfg hm hle, resume_of_le cfg hm (hle.trans (by omega)),
      resume_of_le cfg hm (hle.trans (by omega))] at heq
  by_cases hrefused : answers.record = .unsent ∨ a.pending.requestId ∈ b.ledger.recorded
  · -- nothing is recorded
    rw [if_pos hrefused] at hrun
    have hlast := hended b.bump hbelow.bump le_rfl hrun
    refine ⟨fun hwritten => ?_, fun _ => by rw [hlast]; exact ⟨rfl, rfl⟩⟩
    rcases hrefused with hunsent | hold
    · rw [hwritten.1] at hunsent
      cases hunsent
    · exact absurd hold hwritten.2.1
  · rw [if_neg hrefused] at hrun
    have hrecordedBelow : (b.bump.recorded a.pending).TasksBelow := hbelow.bump
    by_cases hnone : answers.record = .none
    · rw [if_pos hnone] at hrun
      have hmem : a.pending.requestId ∈ (b.bump.recorded a.pending).ledger.recorded := by
        rw [ledger_recorded]
        simp
      have hcheck := resume_check cfg hrecordedBelow hmem answers.now answers.counted
      rw [show b.nextTask + 1 = (b.bump.recorded a.pending).nextTask from rfl, hcheck] at hrun
      by_cases hcounted : answers.counted = true
      · rw [if_pos hcounted] at hrun
        have hinserts := inserts_cases cfg hrecordedBelow.bump a answers.now answers.first
          answers.second answers.takes hrun
        have hrefused' := not_or.1 hrefused
        by_cases hinserted : connectionId.text ∉ n.db.connections.map ConnectionRow.connectionId ∧
            (answers.first = .none ∨ answers.first = .unsent ∧ answers.second = .none)
        · obtain ⟨m, hm, hpending, hstreams, houtputs, hrow⟩ := (if_pos hinserted).mp hinserts
          refine ⟨fun _ => ⟨m, hm, hpending, hstreams, houtputs, _, hrow, rfl, rfl, rfl⟩, ?_⟩
          exact fun hno => absurd ⟨hnone, hrefused'.2, hcounted, hinserted⟩ hno
        · have hnothing := (if_neg hinserted).mp hinserts
          exact ⟨fun hwritten => absurd hwritten.2.2.2 hinserted, fun _ => hnothing⟩
      · -- the count has thrown
        rw [if_neg hcounted, resume_of_le cfg hrecordedBelow.bump (by simp [Node.bump, Node.recorded]),
          resume_of_le cfg hrecordedBelow.bump (by simp [Node.bump, Node.recorded])] at hrun
        exact ⟨fun hwritten => absurd hwritten.2.2.1 hcounted, fun _ => by rw [hrun]; exact ⟨rfl, rfl⟩⟩
    · -- the row is there, and the handler does not know
      rw [if_neg hnone] at hrun
      have hlast := hended (b.bump.recorded a.pending) hrecordedBelow le_rfl hrun
      exact ⟨fun hwritten => absurd hwritten.1 hnone, fun _ => by rw [hlast]; exact ⟨rfl, rfl⟩⟩

/-! ### What an accept comes to -/

def Told (recipient counterparty : String) (connectionId : RandomId) (outputs : List Output) : Prop :=
  .established recipient counterparty connectionId.text ∈ outputs ∨
    .notice recipient counterparty connectionId.text ∈ outputs

/-- The connection exists and both parties are told in what has been sent since, or the request is
still pending. -/
def Settled (requestId : String) (p : PendingRequest) (connectionId : RandomId) (before after : Node) :
    Prop :=
  ((∃ row ∈ after.db.connections, row.connectionId = connectionId.text ∧
        row.participantA = p.senderHex ∧ row.participantB = p.targetHex) ∧
      Told p.senderHex p.targetHex connectionId (after.outputs.drop before.outputs.length) ∧
      Told p.targetHex p.senderHex connectionId (after.outputs.drop before.outputs.length)) ∨
    after.pending.get requestId = some p

theorem told_announce (p : PendingRequest) (senderStream : Option ℕ) (connectionId : RandomId)
    (takes : ℕ → Bool) (n : Node) (before : List Output) (houtputs : n.outputs = before) :
    let after := (announce p senderStream connectionId.text takes n).outputs.drop before.length
    Told p.senderHex p.targetHex connectionId after ∧
      (Told p.targetHex p.senderHex connectionId after ↔
        (n.streams.get p.targetHex).any takes = true ∨ p.senderHex = p.targetHex) := by
  subst houtputs
  simp only [announce, Node.emit, List.drop_left]
  refine ⟨Or.inr (by simp), ?_⟩
  constructor
  · rintro (hsent | hqueued)
    · simp only [List.mem_cons, List.mem_append, reduceCtorEq, false_or] at hsent
      rcases hsent with hsender | htarget
      · split_ifs at hsender
        · rw [List.mem_singleton, Output.established.injEq] at hsender
          exact Or.inr hsender.2.1
        · cases hsender
      · split_ifs at htarget with htakes
        · exact Or.inl htakes
        · cases htarget
    · simp only [List.mem_cons, List.mem_append, Output.notice.injEq] at hqueued
      rcases hqueued with hsame | hsender | htarget
      · exact Or.inr hsame.2.1
      · split_ifs at hsender <;> simp at hsender
      · split_ifs at htarget <;> simp at htarget
  · rintro (htakes | hself)
    · exact Or.inl (by simp [htakes])
    · exact Or.inr (by simp [hself])

/-- **When an accept comes to a connection of which both parties are told.**  In every state that a run
reaches, for every request that is pending there: the writes succeed, and the target is there to be
told. -/
theorem accept_settled_iff (cfg : Config) (events : List Event) {requestId : String}
    {p : PendingRequest} (hp : (run cfg initial events).pending.get requestId = some p)
    (connectionId : RandomId) (answers : Answers) :
    Settled requestId p connectionId (run cfg initial events)
        (processAccept cfg p.targetHex requestId connectionId answers (run cfg initial events)) ↔
      Written p connectionId answers (run cfg initial events) ∧
        (((run cfg initial events).streams.get p.targetHex).any answers.takes = true ∨
          p.senderHex = p.targetHex) := by
  have hbelow : (run cfg initial events).TasksBelow :=
    run_tasksBelow cfg events (by intro t ht; cases ht)
  set n := run cfg initial events
  obtain ⟨hyes, hno⟩ := processAccept_cases cfg hbelow hp connectionId answers rfl
  by_cases hwritten : Written p connectionId answers n
  · obtain ⟨m, hlast, hpending, hstreams, houtputs, row, hrow, hid, hsender, htarget⟩ := hyes hwritten
    obtain ⟨htoldSender, htoldTarget⟩ := told_announce p (n.streams.get p.senderHex) connectionId
      answers.takes m n.outputs houtputs
    have hpopped : (announce p (n.streams.get p.senderHex) connectionId.text answers.takes m).pending =
        n.pending.erase requestId := hpending
    rw [Settled, hlast, hpopped, OrdMap.get_erase_self, htoldTarget, hstreams]
    constructor
    · rintro (⟨_, _, hthere⟩ | hpending)
      · exact ⟨hwritten, hthere⟩
      · cases hpending
    · rintro ⟨_, hthere⟩
      exact Or.inl ⟨⟨row, hrow, hid, hsender, htarget⟩, htoldSender, hthere⟩
  · obtain ⟨hpending, houtputs⟩ := hno hwritten
    rw [Settled, hpending, houtputs, OrdMap.get_erase_self, List.drop_length]
    constructor
    · rintro (⟨_, htold, _⟩ | hpending)
      · rcases htold with htold | htold <;> cases htold
      · cases hpending
    · exact fun h => absurd h.1 hwritten

/-- Alice has asked Bob, and Bob is there. -/
def askedAndThere : List Event :=
  [.connect "bob" 2, .request 0 "alice" "bob" [], .resume 0 (.profile (some ⟨0, true⟩) true),
    .resume 1 (.rows 0 ⟨List.replicate 16 1, rfl⟩ 0 fun _ => true)]

/-- The request that is then pending. -/
def askedRequest : PendingRequest where
  senderHex := "alice"
  targetHex := "bob"
  packageCbor := []
  requestId := "01010101010101010101010101010101"
  disclosureRound := 1

theorem accept_settled_iff_when_the_first_insert_fails :
    Settled askedRequest.requestId askedRequest ⟨List.replicate 16 2, rfl⟩
      (run ⟨true, true⟩ initial askedAndThere)
      (processAccept ⟨true, true⟩ "bob" askedRequest.requestId ⟨List.replicate 16 2, rfl⟩
        ⟨.none, 0, true, .unsent, .none, fun _ => true⟩ (run ⟨true, true⟩ initial askedAndThere)) :=
  (accept_settled_iff ⟨true, true⟩ askedAndThere (p := askedRequest) rfl _ _).2
    ⟨⟨rfl, by decide, rfl, by decide, Or.inr ⟨rfl, rfl⟩⟩, Or.inl rfl⟩

/-- **A lost accept**: the request is not recorded, nobody is told, and nothing is pending. -/
theorem accept_lost :
    (run ⟨true, true⟩ initial askedAndThere).pending.get askedRequest.requestId = some askedRequest ∧
      ¬ Settled askedRequest.requestId askedRequest ⟨List.replicate 16 2, rfl⟩
        (run ⟨true, true⟩ initial askedAndThere)
        (processAccept ⟨true, true⟩ "bob" askedRequest.requestId ⟨List.replicate 16 2, rfl⟩
          ⟨.unsent, 0, true, .none, .none, fun _ => true⟩
          (run ⟨true, true⟩ initial askedAndThere)) := by
  refine ⟨rfl, ?_⟩
  rintro (⟨⟨row, hrow, _⟩, _⟩ | hpending)
  · cases hrow
  · cases hpending

end Cello.Directory.Connection
