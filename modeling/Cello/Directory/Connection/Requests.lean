import Cello.Lib.JsValue
import Cello.Lib.OrdMap

/-!
# Connection requests

An agent asks for a connection, the directory relays the request to the target, and the target
answers it.  `#processConnectionRequest` lets a request through when the pair has no connection yet,
and `#processConnectionResponse` writes the connection when the target accepts.  A request waits in
`#pendingConnectionRequests` from the one to the other; a target that is offline finds it in a queue,
and a restart reads it from `active_connection_requests`.

Both handlers wait for the database, so what one of them has read may be old when it goes on.  A step
is a frame, an answer of the database to a handler that waits, a statement that nobody waits for, or a
restart.  A statement whose answer is lost may have been executed.
-/

namespace Cello.Directory.Connection

open Lib

/-! ### Identifiers -/

/-- Sixteen random bytes, written in hex. -/
structure RandomId where
  bytes : Bytes
  length : bytes.length = 16

def RandomId.text (id : RandomId) : String := id.bytes.toHex

theorem RandomId.text_ne_empty (id : RandomId) : id.text ≠ "" := by
  obtain ⟨bytes, hlength⟩ := id
  cases bytes with
  | nil => simp at hlength
  | cons b rest =>
    intro h
    have hlist := congrArg String.toList h
    simp [RandomId.text, Bytes.toHex] at hlist

/-! ### The tables -/

/-- A row of `connections`, without its place in the hash chain. -/
structure ConnectionRow where
  connectionId : String
  participantA : String
  participantB : String
  establishedAt : ℤ
  status : String := "active"
deriving DecidableEq

/-- A row of `connection_requests`; every outcome that is written is `ACCEPTED`. -/
structure AcceptedRow where
  requestId : String
  requesterPseudonym : String
  targetPseudonym : String
deriving DecidableEq

/-- A row of `active_connection_requests`. -/
structure ActiveRow where
  connectionRequestId : String
  senderPubkeyHex : String
  targetPubkeyHex : String
  packageCbor : Bytes
  disclosureRound : ℕ
  expiresAt : ℤ
deriving DecidableEq

/-- A frame `connection_request_inbound`. -/
structure Inbound where
  fromPubkey : String
  connectionRequestId : String
  packageCbor : Bytes
  senderRegisteredAt : ℤ
  senderIsProvisional : Bool
deriving DecidableEq

/-- A row of `pending_connection_requests`. -/
structure QueuedRow where
  targetPubkey : String
  senderPubkey : String
  frame : Inbound
  queuedAt : ℤ
deriving DecidableEq

structure Tables where
  connections : List ConnectionRow
  connectionRequests : List AcceptedRow
  active : List ActiveRow
  queued : List QueuedRow

/-- What goes wrong with a statement. -/
inductive Fault where
  | none
  /-- It does not reach the database. -/
  | unsent
  /-- It is executed, and the answer is lost. -/
  | unconfirmed
deriving DecidableEq, Repr

def insertUnique {ρ : Type} (key : ρ → String) (row : ρ) (fault : Fault) (rows : List ρ) :
    Bool × List ρ :=
  if fault = .unsent ∨ key row ∈ rows.map key then (false, rows)
  else (decide (fault = .none), rows ++ [row])

/-! ### The node -/

/-- An entry of `#pendingConnectionRequests`. -/
structure PendingRequest where
  senderHex : String
  targetHex : String
  packageCbor : Bytes
  requestId : String
  disclosureRound : ℕ
deriving DecidableEq

/-- What the read-through of a profile finds. -/
structure SenderProfile where
  registeredAt : ℤ
  active : Bool

inductive ErrorReason where
  | notRegistered
  | targetNotFound
  | alreadyConnected (connectionId : String)
deriving DecidableEq, Repr

inductive Verdict where
  | accept
  | reject (reason : Option String)
  | insufficient (unmet : List String)
deriving DecidableEq, Repr

/-- A frame on a stream, or a row of the notification queue. -/
inductive Output where
  | requestError (stream : ℕ) (reason : ErrorReason)
  | inbound (stream : ℕ) (frame : Inbound)
  /-- `connection_established`, on a stream that takes it. -/
  | established (recipient counterparty connectionId : String)
  /-- `connection_established`, for the next time that the recipient authenticates. -/
  | notice (recipient counterparty connectionId : String)
  | rejected (stream : ℕ) (target reason : String)
  | insufficient (stream : ℕ) (target : String) (unmet : List String)
deriving DecidableEq

/-- Where the processing of an accept waits: for `recordAcceptedConnectionRequest`, and then in
`createConnection` for the count and for the two attempts at the insert. -/
inductive AcceptPhase where
  | record
  | check (establishedAt : ℤ)
  | first (establishedAt : ℤ)
  | second (establishedAt : ℤ)
deriving DecidableEq, Repr

/-- An accept that is being processed. -/
structure Accept where
  phase : AcceptPhase
  pending : PendingRequest
  senderStream : Option ℕ
  connectionId : RandomId

/-- A handler that waits. -/
inductive Task where
  | profile (stream : ℕ) (sender target : String) (package : Bytes)
  | lookup (stream : ℕ) (sender target : String) (package : Bytes) (profile : Option SenderProfile)
  | accept (a : Accept)

/-- A statement that nobody waits for. -/
inductive Statement where
  | saveActive (row : ActiveRow)
  | deleteActive (requestId : String)
  | queue (row : QueuedRow)

structure Node where
  pending : OrdMap String PendingRequest
  streams : OrdMap String ℕ
  db : Tables
  tasks : List (ℕ × Task)
  nextTask : ℕ
  background : List Statement
  outputs : List Output

structure Config where
  requireRegistration : Bool
  requireConnectionGate : Bool

/-- What the database, or what is around it, answers to a handler that waits. -/
inductive Answer where
  /-- The query has thrown. -/
  | failed
  | profile (found : Option SenderProfile) (targetHasProfile : Bool)
  /-- Which of the rows that match is returned, and what the handler then draws, reads and sends. -/
  | rows (pick : ℕ) (requestId : RandomId) (now : ℤ) (takes : ℕ → Bool)
  | recorded (fault : Fault) (now : ℤ)
  | counted
  /-- What came of an insert, and which streams take a frame now. -/
  | inserted (fault : Fault) (takes : ℕ → Bool)

inductive Event where
  | connect (agent : String) (stream : ℕ)
  | disconnect (agent : String)
  | request (stream : ℕ) (sender target : String) (package : Bytes)
  | response (responder requestId : String) (verdict : Verdict) (connectionId : RandomId)
  | disclosureRequest (requester requestId : String)
  | resume (task : ℕ) (answer : Answer)
  /-- The queue of an agent that authenticates: which rows are not too old, and how many of them its
  stream takes. -/
  | dequeue (agent : String) (stream : ℕ) (recent : QueuedRow → Bool) (taken : ℕ) (now : ℤ)
  | background (index : ℕ) (fault : Fault)
  | restart (now : ℤ)

def dayMs : ℤ := 24 * 60 * 60 * 1000

/-! ### A request -/

/-- The same two agents, either way round. -/
def SamePair (a b c d : String) : Prop := a = c ∧ b = d ∨ a = d ∧ b = c

instance (a b c d : String) : Decidable (SamePair a b c d) := by unfold SamePair; infer_instance

def matchesPair (a b : String) (row : ConnectionRow) : Bool :=
  decide (SamePair row.participantA row.participantB a b)

/-- `hasConnection`: one of the rows of the pair, in no order that the statement asks for. -/
def hasConnection (pick : ℕ) (a b : String) (rows : List ConnectionRow) : Option String :=
  let found := rows.filter (matchesPair a b)
  (found[pick % found.length]?).map ConnectionRow.connectionId

def Node.emit (n : Node) (outputs : List Output) : Node := { n with outputs := n.outputs ++ outputs }

def Node.start (n : Node) (task : Task) : Node :=
  { n with tasks := n.tasks ++ [(n.nextTask, task)], nextTask := n.nextTask + 1 }

def Node.remove (n : Node) (id : ℕ) : Node := { n with tasks := n.tasks.filter fun t => t.1 ≠ id }

def Node.send (n : Node) (statement : Statement) : Node :=
  { n with background := n.background ++ [statement] }

/-- `#processConnectionRequest` between the read-through and `hasConnection`. -/
def checkProfiles (cfg : Config) (stream : ℕ) (sender target : String) (package : Bytes)
    (found : Option SenderProfile) (targetHasProfile : Bool) (n : Node) : Node :=
  if cfg.requireRegistration ∧ found.isNone then n.emit [.requestError stream .notRegistered]
  else if !targetHasProfile then n.emit [.requestError stream .targetNotFound]
  else n.start (.lookup stream sender target package found)

/-- `#processConnectionRequest` after `hasConnection`. -/
def relayRequest (stream : ℕ) (sender target : String) (package : Bytes)
    (profile : Option SenderProfile) (existing : Option String) (requestId : RandomId) (now : ℤ)
    (takes : ℕ → Bool) (n : Node) : Node :=
  match existing with
  | some connectionId => n.emit [.requestError stream (.alreadyConnected connectionId)]
  | none =>
    let frame : Inbound :=
      { fromPubkey := sender
        connectionRequestId := requestId.text
        packageCbor := package
        senderRegisteredAt := (profile.map SenderProfile.registeredAt).getD now
        senderIsProvisional := !(profile.any SenderProfile.active) }
    let queue := Statement.queue ⟨target, sender, frame, now⟩
    let save := Statement.saveActive ⟨requestId.text, sender, target, package, 1, now + dayMs⟩
    match n.streams.get target with
    | some targetStream =>
      if takes targetStream then
        (({ n with pending := n.pending.set requestId.text ⟨sender, target, package, requestId.text, 1⟩ }
          ).send save).emit [.inbound targetStream frame]
      else
        -- the entry is made and taken back, and so is its row
        (({ n with pending := n.pending.erase requestId.text }.send save).send
          (.deleteActive requestId.text)).send queue
    | none => n.send queue

/-! ### An answer -/

/-- The `connection_established` of an accept: the sender's is queued, and each is sent on a stream
that takes it. -/
def announce (p : PendingRequest) (senderStream : Option ℕ) (connectionId : String)
    (takes : ℕ → Bool) (n : Node) : Node :=
  n.emit (.notice p.senderHex p.targetHex connectionId ::
    ((if senderStream.any takes then [.established p.senderHex p.targetHex connectionId] else []) ++
      (if (n.streams.get p.targetHex).any takes then
        [.established p.targetHex p.senderHex connectionId] else [])))

/-- `#processConnectionResponse` up to the first `await`. -/
def processConnectionResponse (responder requestId : String) (verdict : Verdict)
    (connectionId : RandomId) (n : Node) : Node :=
  match n.pending.get requestId with
  | none => n
  | some p =>
    if p.targetHex ≠ responder then n
    else
      let n := { n with pending := n.pending.erase requestId }.send (.deleteActive requestId)
      let senderStream := n.streams.get p.senderHex
      match verdict with
      | .accept => n.start (.accept ⟨.record, p, senderStream, connectionId⟩)
      | .reject reason =>
        n.emit (senderStream.toList.map fun s => .rejected s p.targetHex (reason.getD "rejected"))
      | .insufficient unmet =>
        n.emit (senderStream.toList.map fun s => .insufficient s p.targetHex unmet)

/-- `recordAcceptedConnectionRequest`. -/
def recordAcceptedConnectionRequest (p : PendingRequest) (fault : Fault) (db : Tables) :
    Bool × Tables :=
  let out := insertUnique AcceptedRow.requestId ⟨p.requestId, p.senderHex, p.targetHex⟩ fault
    db.connectionRequests
  (out.1, { db with connectionRequests := out.2 })

/-- The insert of `createConnection`. -/
def insertConnection (p : PendingRequest) (connectionId : String) (establishedAt : ℤ) (fault : Fault)
    (db : Tables) : Bool × Tables :=
  let out := insertUnique ConnectionRow.connectionId
    { connectionId, participantA := p.senderHex, participantB := p.targetHex, establishedAt } fault
    db.connections
  (out.1, { db with connections := out.2 })

/-- The insert of `createConnection` is tried, and either the parties are told or `failed` follows. -/
def attemptInsert (a : Accept) (establishedAt : ℤ) (fault : Fault) (takes : ℕ → Bool)
    (failed : Node → Node) (n : Node) : Node :=
  let out := insertConnection a.pending a.connectionId.text establishedAt fault n.db
  let n := { n with db := out.2 }
  if out.1 then announce a.pending a.senderStream a.connectionId.text takes n else failed n

/-- The processing of an accept goes on; where it throws, nothing more comes of it. -/
def resumeAccept (a : Accept) (answer : Answer) (n : Node) : Option Node :=
  match a.phase, answer with
  | .record, .recorded fault now =>
    let out := recordAcceptedConnectionRequest a.pending fault n.db
    let n := { n with db := out.2 }
    some (if out.1 then n.start (.accept { a with phase := .check now }) else n)
  | .check _, .failed => some n
  | .check now, .counted =>
    some (if a.pending.requestId ∈ n.db.connectionRequests.map AcceptedRow.requestId then
      n.start (.accept { a with phase := .first now }) else n)
  | .first now, .inserted fault takes =>
    some (attemptInsert a now fault takes
      (fun n => n.start (.accept { a with phase := .second now })) n)
  | .second now, .inserted fault takes => some (attemptInsert a now fault takes id n)
  | _, _ => none

/-! ### Steps -/

/-- A handler goes on, if this answers what it waits for. -/
def resumeTask (cfg : Config) (task : Task) (answer : Answer) (n : Node) : Option Node :=
  match task, answer with
  | .profile _ _ _ _, .failed => some n
  | .profile stream sender target package, .profile found targetHasProfile =>
    some (checkProfiles cfg stream sender target package found targetHasProfile n)
  | .lookup _ _ _ _ _, .failed => some n
  | .lookup stream sender target package profile, .rows pick requestId now takes =>
    some (relayRequest stream sender target package profile
      (hasConnection pick sender target n.db.connections) requestId now takes n)
  | .accept a, answer => resumeAccept a answer n
  | _, _ => none

/-- A handler that waits is answered. -/
def resume (cfg : Config) (id : ℕ) (answer : Answer) (n : Node) : Node :=
  match n.tasks.find? fun t => t.1 = id with
  | none => n
  | some t => (resumeTask cfg t.2 answer (n.remove id)).getD n

/-- `#processDisclosureRequest`, without the frame it relays. -/
def processDisclosureRequest (requester requestId : String) (n : Node) : Node :=
  match n.pending.get requestId with
  | none => n
  | some p =>
    if p.targetHex ≠ requester then n
    else { n with pending := n.pending.set requestId { p with disclosureRound := 2 } }

def redeliver (agent : String) (stream : ℕ) (now : ℤ) (n : Node) (row : QueuedRow) : Node :=
  let id := row.frame.connectionRequestId
  (({ n with pending := n.pending.set id ⟨row.senderPubkey, agent, row.frame.packageCbor, id, 1⟩ }
    ).send (.saveActive ⟨id, row.senderPubkey, agent, row.frame.packageCbor, 1, now + dayMs⟩)
    ).emit [.inbound stream row.frame]

/-- `dequeuePendingConnectionRequests` and the loop over what it returns: the loop ends with the first
frame that the stream does not take. -/
def dequeue (agent : String) (stream : ℕ) (recent : QueuedRow → Bool) (taken : ℕ) (now : ℤ)
    (n : Node) : Node :=
  let drained := n.db.queued.filter fun row => decide (row.targetPubkey = agent) && recent row
  let kept := n.db.queued.filter fun row => !(decide (row.targetPubkey = agent) && recent row)
  (drained.take taken).foldl (redeliver agent stream now) { n with db := { n.db with queued := kept } }

/-- A statement that nobody waits for is executed. -/
def execute (statement : Statement) (db : Tables) : Tables :=
  match statement with
  | .saveActive row =>
    { db with active := (insertUnique ActiveRow.connectionRequestId row .none db.active).2 }
  | .deleteActive requestId =>
    { db with active := db.active.filter fun row => row.connectionRequestId ≠ requestId }
  | .queue row => { db with queued := db.queued ++ [row] }

/-- One of the statements that nobody waits for has come to its end. -/
def settle (index : ℕ) (fault : Fault) (n : Node) : Node :=
  match n.background[index]? with
  | none => n
  | some statement =>
    { n with
      background := n.background.eraseIdx index
      db := if fault = .unsent then n.db else execute statement n.db }

/-- `loadActiveConnectionRequests` and `restorePendingConnectionRequests`. -/
def restorePendingConnectionRequests (now : ℤ) (rows : List ActiveRow) :
    OrdMap String PendingRequest :=
  OrdMap.ofList ((rows.filter fun row => now < row.expiresAt).map fun row =>
    (row.connectionRequestId,
      ⟨row.senderPubkeyHex, row.targetPubkeyHex, row.packageCbor, row.connectionRequestId,
        row.disclosureRound⟩))

def step (cfg : Config) (n : Node) : Event → Node
  | .connect agent stream => { n with streams := n.streams.set agent stream }
  | .disconnect agent => { n with streams := n.streams.erase agent }
  | .request stream sender target package => n.start (.profile stream sender target package)
  | .response responder requestId verdict connectionId =>
    processConnectionResponse responder requestId verdict connectionId n
  | .disclosureRequest requester requestId => processDisclosureRequest requester requestId n
  | .resume id answer => resume cfg id answer n
  | .dequeue agent stream recent taken now => dequeue agent stream recent taken now n
  | .background index fault => settle index fault n
  | .restart now =>
    { n with
      pending := restorePendingConnectionRequests now n.db.active
      streams := OrdMap.empty
      tasks := []
      background := [] }

def run (cfg : Config) (n : Node) (events : List Event) : Node := events.foldl (step cfg) n

/-- A node with an empty database. -/
def initial : Node where
  pending := OrdMap.empty
  streams := OrdMap.empty
  db := ⟨[], [], [], []⟩
  tasks := []
  nextTask := 0
  background := []
  outputs := []

/-! ### The connection gate -/

inductive GateReason where
  | connectionIdRequired
  | noConnection
deriving DecidableEq, Repr

/-- The connection gate of `#processSessionRequest`; an empty id is no id. -/
def connectionGate (cfg : Config) (pick : ℕ) (initiator target : String)
    (connectionId : Option String) (rows : List ConnectionRow) : Except GateReason Unit :=
  if !cfg.requireConnectionGate then .ok ()
  else if connectionId.getD "" = "" then .error .connectionIdRequired
  else if hasConnection pick initiator target rows ≠ connectionId then .error .noConnection
  else .ok ()

end Cello.Directory.Connection
