import Mathlib.Data.List.TakeWhile
import Cello.Lib.OrdMap

/-!
# The flush of a reconnecting agent

When an agent authenticates, the directory empties that agent's queues onto the new stream.  Five
queues are flushed one after the other, and they do not treat a failed send alike.  The durable
notification queue and the queue of pending connection requests are read by a statement that
deletes the rows it returns, and only then is each row sent; the Postgres queue of seal notices
removes a row once it has been sent, and the trust-signal pickups are not removed here at all.

`flush_loses_nothing_iff` says for which streams the first two lose nothing: those that take every
row that was drained.  The queue that acknowledges loses nothing whatever the streams do
(`queued_until_settled`).
-/

namespace Cello.Directory.Signaling

open Lib

/-! ### What is queued -/

/-- The members of the union `DirectoryNotification`. -/
inductive NotificationType where
  | sessionAbandoned
  | sessionSealed
  | sealVerified
  | connectionEstablished
  | sessionSealRejected
  deriving DecidableEq, Repr

variable {β : Type*}

/-- A notification: its `type` and the rest of the frame. -/
structure DirectoryNotification (β : Type*) where
  type : NotificationType
  body : β
  deriving DecidableEq

/-- A row of `notification_queue`. -/
structure NotificationRow (β : Type*) where
  id : ℕ
  pubkeyHex : String
  payload : DirectoryNotification β
  deriving DecidableEq

/-- A queued connection request: what the registration after the send reads, and the frame. -/
structure PendingConnectionRequest (β : Type*) where
  connectionRequestId : String
  senderPubkey : String
  frame : β
  deriving DecidableEq

/-- A row of `pending_connection_requests`; `createdAt` in milliseconds. -/
structure RequestRow (β : Type*) where
  id : ℕ
  targetPubkey : String
  createdAt : ℤ
  payload : PendingConnectionRequest β
  deriving DecidableEq

/-- A unilateral seal notice held in memory. -/
structure SealNotice (β : Type*) where
  sessionIdHex : String
  frame : β
  deriving DecidableEq

/-- A row of `pending_notifications`.  The two texts are what the flush itself reads from the
payload. -/
structure QueuedNotification (β : Type*) where
  notificationId : ℕ
  notificationType : String
  sessionIdHex : Option String
  sealedRootHex : Option String
  payload : β
  deriving DecidableEq

/-- A sealed trust signal that waits for its agent. -/
structure PickupItem (β : Type*) where
  id : ℕ
  signalKind : Option String
  signalHash : Option String
  ciphertext : β
  deriving DecidableEq

/-- A connection request whose response can be routed. -/
structure RoutedRequest (β : Type*) where
  senderHex : String
  targetHex : String
  frame : β
  disclosureRound : ℕ
  deriving DecidableEq

/-- Everything the flush reads or writes.  `undelivered` is `none` where no notification queue is
configured, and `pickups` is `none` where the key belongs to no registered agent. -/
structure Mailbox (β : Type*) where
  notificationQueue : List (NotificationRow β)
  pendingNotifications : List (SealNotice β)
  undelivered : Option (List (QueuedNotification β))
  pickups : Option (List (PickupItem β))
  pendingRequests : List (RequestRow β)
  routed : OrdMap String (RoutedRequest β)

/-! ### The stream and the store -/

/-- What a frame on the stream was made from. -/
inductive Item (β : Type*) where
  | notification (row : NotificationRow β)
  | notice (notice : SealNotice β)
  | queued (row : QueuedNotification β)
  | pickup (item : PickupItem β)
  | request (row : RequestRow β)
  deriving DecidableEq

/-- The encoders of the frames; `none` where one throws.  The last two read a stored payload back
into a frame and give `none` where it does not hold one. -/
structure Encoders (β : Type*) where
  encodeSessionAbandoned : β → Option (List UInt8)
  encodeSessionSealed : β → Option (List UInt8)
  encodeSealVerified : β → Option (List UInt8)
  encodeConnectionEstablished : β → Option (List UInt8)
  encodeSessionSealRejected : β → Option (List UInt8)
  encodeSealUnilateralNotification : β → Option (List UInt8)
  encodeSealUpgradeConfirmed : β → Option (List UInt8)
  encodeTrustSignalPickup : PickupItem β → Option (List UInt8)
  encodeConnectionRequestInbound : β → Option (List UInt8)
  upgradeConfirmedFromPayload : β → Option β
  unilateralNotificationFromPayload : β → Option β

/-- Which calls on the store and on the notification queue come back without throwing. -/
structure StoreAnswers where
  drainNotifications : Bool
  drainUndelivered : Bool
  drainPickup : Bool
  dequeuePendingConnectionRequests : Bool
  acknowledge : ℕ → Bool

/-- One reconnect: who reconnects and when, the encoders, the store's answers, and what the stream
does at each send.  A row is sent at most once in a flush, so `takes` names every point at which a
send can fail. -/
structure Reconnect (β : Type*) where
  pubkeyHex : String
  now : ℤ
  encoders : Encoders β
  store : StoreAnswers
  takes : Item β → List UInt8 → Bool

/-- `#sendFrame(stream, encode…(…))`: the encoding or the send may throw. -/
def sendFrame (r : Reconnect β) (item : Item β) (encoded : Option (List UInt8)) : Bool :=
  match encoded with
  | none => false
  | some bytes => r.takes item bytes

/-! ### The two queues that are drained first -/

/-- `DELETE … RETURNING … ORDER BY id` of `drainNotifications`: the rows it returns. -/
def drainNotifications (pubkeyHex : String) (queue : List (NotificationRow β)) :
    List (NotificationRow β) :=
  (queue.filter (fun row => row.pubkeyHex = pubkeyHex)).mergeSort (fun a b => a.id ≤ b.id)

/-- The rows `drainNotifications` leaves. -/
def notificationsLeft (pubkeyHex : String) (queue : List (NotificationRow β)) :
    List (NotificationRow β) :=
  queue.filter (fun row => row.pubkeyHex ≠ pubkeyHex)

def requestTtlMs : ℤ := 24 * 60 * 60 * 1000

/-- The `WHERE` of `dequeuePendingConnectionRequests`. -/
def RequestRow.Due (pubkeyHex : String) (now : ℤ) (row : RequestRow β) : Prop :=
  row.targetPubkey = pubkeyHex ∧ row.createdAt > now - requestTtlMs

instance (pubkeyHex : String) (now : ℤ) (row : RequestRow β) : Decidable (row.Due pubkeyHex now) :=
  inferInstanceAs (Decidable (_ ∧ _))

/-- The rows `dequeuePendingConnectionRequests` returns. -/
def dequeuePendingConnectionRequests (pubkeyHex : String) (now : ℤ) (queue : List (RequestRow β)) :
    List (RequestRow β) :=
  (queue.filter (fun row => row.Due pubkeyHex now)).mergeSort (fun a b => a.id ≤ b.id)

def requestsLeft (pubkeyHex : String) (now : ℤ) (queue : List (RequestRow β)) :
    List (RequestRow β) :=
  queue.filter (fun row => ¬row.Due pubkeyHex now)

/-- The encoder the notification loop picks. -/
def encodeNotification (e : Encoders β) (n : DirectoryNotification β) : Option (List UInt8) :=
  match n.type with
  | .sessionAbandoned => e.encodeSessionAbandoned n.body
  | .sessionSealed => e.encodeSessionSealed n.body
  | .sealVerified => e.encodeSealVerified n.body
  | .connectionEstablished => e.encodeConnectionEstablished n.body
  | .sessionSealRejected => e.encodeSessionSealRejected n.body

def sendsNotification (r : Reconnect β) (row : NotificationRow β) : Bool :=
  sendFrame r (.notification row) (encodeNotification r.encoders row.payload)

def sendsRequest (r : Reconnect β) (row : RequestRow β) : Bool :=
  sendFrame r (.request row) (r.encoders.encodeConnectionRequestInbound row.payload.frame)

def routeRequest (r : Reconnect β) (row : RequestRow β) : RoutedRequest β :=
  { senderHex := row.payload.senderPubkey
    targetHex := r.pubkeyHex
    frame := row.payload.frame
    disclosureRound := 1 }

/-! ### The stages of the flush -/

/-- Where the flush stands: the queues, and what is on the stream. -/
structure FlushState (β : Type*) where
  box : Mailbox β
  sent : List (Item β)

/-- The durable notifications.  The loop breaks at the first send that throws, and `takeWhile` is
what was sent before it. -/
def flushNotifications (r : Reconnect β) (s : FlushState β) : FlushState β :=
  { box := { s.box with notificationQueue := notificationsLeft r.pubkeyHex s.box.notificationQueue }
    sent := s.sent ++ ((drainNotifications r.pubkeyHex s.box.notificationQueue).takeWhile
      (sendsNotification r)).map .notification }

def sendsNotice (r : Reconnect β) (n : SealNotice β) : Bool :=
  sendFrame r (.notice n) (r.encoders.encodeSealUnilateralNotification n.frame)

def deliveredInMemory (r : Reconnect β) (box : Mailbox β) : List (SealNotice β) :=
  box.pendingNotifications.takeWhile (sendsNotice r)

def flushNotices (r : Reconnect β) (s : FlushState β) : FlushState β :=
  { box := { s.box with pendingNotifications := [] }
    sent := s.sent ++ (deliveredInMemory r s.box).map .notice }

/-- What the loop over the Postgres notices does with a row: `none` acknowledges it unsent, `some`
sends what the encoder gives. -/
def queuedFrame (r : Reconnect β) (deliveredIds : List String) (row : QueuedNotification β) :
    Option (Option (List UInt8)) :=
  match row.sessionIdHex, row.sealedRootHex with
  | some sessionIdHex, some sealedRootHex =>
    -- an empty text is as good as none to `!p.session_id_hex`
    if sessionIdHex = "" ∨ sealedRootHex = "" then none
    else if row.notificationType = "seal_upgrade" then
      (r.encoders.upgradeConfirmedFromPayload row.payload).map r.encoders.encodeSealUpgradeConfirmed
    else if row.notificationType ≠ "seal_unilateral" then none
    else if sessionIdHex ∈ deliveredIds then none
    else
      (r.encoders.unilateralNotificationFromPayload row.payload).map
        r.encoders.encodeSealUnilateralNotification
  | _, _ => none

/-- The loop over the Postgres notices: what is sent and which rows are acknowledged. -/
def deliverQueued (r : Reconnect β) (deliveredIds : List String) :
    List (QueuedNotification β) → List (Item β) × List ℕ
  | [] => ([], [])
  | row :: rest =>
    match queuedFrame r deliveredIds row with
    | none =>
      let (sent, acks) := deliverQueued r deliveredIds rest
      (sent, row.notificationId :: acks)
    | some encoded =>
      if sendFrame r (.queued row) encoded then
        let (sent, acks) := deliverQueued r deliveredIds rest
        (.queued row :: sent, row.notificationId :: acks)
      else ([], [])

/-- The Postgres notices: a row goes when its acknowledgement comes through. -/
def flushQueued (r : Reconnect β) (deliveredIds : List String) (s : FlushState β) : FlushState β :=
  match s.box.undelivered with
  | none => s
  | some rows =>
    if r.store.drainUndelivered then
      let (sent, acks) := deliverQueued r deliveredIds rows
      { box := { s.box with undelivered := some (rows.filter (fun row =>
          ¬(row.notificationId ∈ acks ∧ r.store.acknowledge row.notificationId))) }
        sent := s.sent ++ sent }
    -- the failure is caught, and the flush goes on without these rows
    else s

def PickupItem.anchored (item : PickupItem β) : Bool :=
  item.signalKind.getD "" ≠ "" && item.signalHash.getD "" ≠ ""

/-- The pickups: sent here, deleted when the daemon acknowledges them. -/
def flushPickups (r : Reconnect β) (s : FlushState β) : FlushState β :=
  match s.box.pickups with
  | none => s
  | some items =>
    if r.store.drainPickup then
      { s with sent := s.sent ++ ((items.filter PickupItem.anchored).takeWhile (fun item =>
          sendFrame r (.pickup item) (r.encoders.encodeTrustSignalPickup item))).map .pickup }
    else s

/-- The pending connection requests; a delivered one is registered for its response. -/
def flushRequests (r : Reconnect β) (s : FlushState β) : FlushState β :=
  let delivered :=
    (dequeuePendingConnectionRequests r.pubkeyHex r.now s.box.pendingRequests).takeWhile
      (sendsRequest r)
  { box := { s.box with
      pendingRequests := requestsLeft r.pubkeyHex r.now s.box.pendingRequests
      routed := delivered.foldl (fun routed row =>
        routed.set row.payload.connectionRequestId (routeRequest r row)) s.box.routed }
    sent := s.sent ++ delivered.map .request }

/-- The flush after authentication.  A store call that throws ends the handler, except where the
source catches it. -/
def flush (r : Reconnect β) (box : Mailbox β) : FlushState β :=
  let s : FlushState β := { box := box, sent := [] }
  if r.store.drainNotifications then
    let s₁ := flushNotifications r s
    let s₂ := flushNotices r s₁
    let s₃ := flushQueued r ((deliveredInMemory r s₁.box).map SealNotice.sessionIdHex) s₂
    let s₄ := flushPickups r s₃
    if r.store.dequeuePendingConnectionRequests then flushRequests r s₄ else s₄
  else s

/-! ### What each stage leaves alone -/

section Frames

variable (r : Reconnect β) (s : FlushState β)

@[simp] theorem flushRequests_notificationQueue :
    (flushRequests r s).box.notificationQueue = s.box.notificationQueue := rfl

@[simp] theorem flushNotices_notificationQueue :
    (flushNotices r s).box.notificationQueue = s.box.notificationQueue := rfl

@[simp] theorem flushNotices_pendingRequests :
    (flushNotices r s).box.pendingRequests = s.box.pendingRequests := rfl

theorem flushQueued_box (ids : List String) :
    (flushQueued r ids s).box.notificationQueue = s.box.notificationQueue ∧
      (flushQueued r ids s).box.pendingRequests = s.box.pendingRequests := by
  unfold flushQueued
  split
  · exact ⟨rfl, rfl⟩
  · split
    · exact ⟨rfl, rfl⟩
    · exact ⟨rfl, rfl⟩

@[simp] theorem flushPickups_box : (flushPickups r s).box = s.box := by
  unfold flushPickups
  split
  · rfl
  · split
    · rfl
    · rfl

theorem mem_flushQueued_sent (ids : List String) {item : Item β}
    (hitem : ∀ row, item ≠ .queued row) :
    item ∈ (flushQueued r ids s).sent ↔ item ∈ s.sent := by
  have hloop : ∀ rows, item ∉ (deliverQueued r ids rows).1 := by
    intro rows
    induction rows with
    | nil => simp [deliverQueued]
    | cons row rest ih =>
      unfold deliverQueued
      split
      · exact ih
      · split
        · simp [ih, hitem row]
        · simp
  unfold flushQueued
  split
  · rfl
  · split
    · simp [hloop]
    · rfl

theorem mem_flushPickups_sent {item : Item β} (hitem : ∀ x, item ≠ .pickup x) :
    item ∈ (flushPickups r s).sent ↔ item ∈ s.sent := by
  unfold flushPickups
  split
  · rfl
  · split
    · simp only [List.mem_append, List.mem_map, or_iff_left_iff_imp]
      rintro ⟨x, -, hx⟩
      exact absurd hx.symm (hitem x)
    · rfl

theorem mem_flushNotices_sent {item : Item β} (hitem : ∀ n, item ≠ .notice n) :
    item ∈ (flushNotices r s).sent ↔ item ∈ s.sent := by
  simp only [flushNotices, List.mem_append, List.mem_map, or_iff_left_iff_imp]
  rintro ⟨n, -, hn⟩
  exact absurd hn.symm (hitem n)

theorem mem_flushRequests_sent {item : Item β} (hitem : ∀ row, item ≠ .request row) :
    item ∈ (flushRequests r s).sent ↔ item ∈ s.sent := by
  simp only [flushRequests, List.mem_append, List.mem_map, or_iff_left_iff_imp]
  rintro ⟨row, -, hrow⟩
  exact absurd hrow.symm (hitem row)

end Frames

/-! ### The queues after a flush -/

theorem forall_mem_takeWhile_iff {α : Type*} {p : α → Bool} {l : List α} :
    (∀ x ∈ l, x ∈ l.takeWhile p) ↔ ∀ x ∈ l, p x = true := by
  constructor
  · intro h x hx
    exact List.mem_takeWhile_imp (h x hx)
  · intro h x hx
    rw [List.takeWhile_eq_self_iff.2 h]
    exact hx

theorem mem_drainNotifications {pubkeyHex : String} {queue : List (NotificationRow β)}
    {row : NotificationRow β} :
    row ∈ drainNotifications pubkeyHex queue ↔ row ∈ queue ∧ row.pubkeyHex = pubkeyHex := by
  simp [drainNotifications, List.mem_mergeSort]

theorem mem_dequeuePendingConnectionRequests {pubkeyHex : String} {now : ℤ}
    {queue : List (RequestRow β)} {row : RequestRow β} :
    row ∈ dequeuePendingConnectionRequests pubkeyHex now queue ↔
      row ∈ queue ∧ row.Due pubkeyHex now := by
  simp [dequeuePendingConnectionRequests, List.mem_mergeSort]

variable {r : Reconnect β} {box : Mailbox β}

theorem mem_flush_notificationQueue (h : r.store.drainNotifications = true)
    {row : NotificationRow β} :
    row ∈ (flush r box).box.notificationQueue ↔
      row ∈ box.notificationQueue ∧ row.pubkeyHex ≠ r.pubkeyHex := by
  simp only [flush, h, if_true]
  split
  · simp [flushQueued_box, flushNotifications, notificationsLeft]
  · simp [flushQueued_box, flushNotifications, notificationsLeft]

theorem mem_flush_notification (h : r.store.drainNotifications = true) {row : NotificationRow β} :
    Item.notification row ∈ (flush r box).sent ↔
      row ∈ (drainNotifications r.pubkeyHex box.notificationQueue).takeWhile
        (sendsNotification r) := by
  have hbefore : Item.notification row ∈ (flushPickups r (flushQueued r
      ((deliveredInMemory r (flushNotifications r ⟨box, []⟩).box).map SealNotice.sessionIdHex)
      (flushNotices r (flushNotifications r ⟨box, []⟩)))).sent ↔
      row ∈ (drainNotifications r.pubkeyHex box.notificationQueue).takeWhile
        (sendsNotification r) := by
    rw [mem_flushPickups_sent _ _ (by simp), mem_flushQueued_sent _ _ _ (by simp),
      mem_flushNotices_sent _ _ (by simp)]
    simp [flushNotifications]
  simp only [flush, h, if_true]
  split
  · rw [mem_flushRequests_sent _ _ (by simp)]
    exact hbefore
  · exact hbefore

theorem mem_flush_pendingRequests (h : r.store.drainNotifications = true)
    (hd : r.store.dequeuePendingConnectionRequests = true) {row : RequestRow β} :
    row ∈ (flush r box).box.pendingRequests ↔
      row ∈ box.pendingRequests ∧ ¬row.Due r.pubkeyHex r.now := by
  simp only [flush, h, hd, if_true, flushRequests, flushPickups_box, flushQueued_box,
    flushNotices_pendingRequests]
  simp [flushNotifications, requestsLeft]

theorem mem_flush_request (h : r.store.drainNotifications = true)
    (hd : r.store.dequeuePendingConnectionRequests = true) {row : RequestRow β} :
    Item.request row ∈ (flush r box).sent ↔
      row ∈ (dequeuePendingConnectionRequests r.pubkeyHex r.now box.pendingRequests).takeWhile
        (sendsRequest r) := by
  have hbefore : Item.request row ∉ (flushPickups r (flushQueued r
      ((deliveredInMemory r (flushNotifications r ⟨box, []⟩).box).map SealNotice.sessionIdHex)
      (flushNotices r (flushNotifications r ⟨box, []⟩)))).sent := by
    rw [mem_flushPickups_sent _ _ (by simp), mem_flushQueued_sent _ _ _ (by simp),
      mem_flushNotices_sent _ _ (by simp)]
    simp [flushNotifications]
  simp only [flush, h, hd, if_true]
  rw [flushRequests]
  simp only [List.mem_append, hbefore, false_or, flushPickups_box, flushQueued_box,
    flushNotices_pendingRequests]
  simp [flushNotifications]

theorem flush_pendingRequests_of_throw
    (h : ¬(r.store.drainNotifications = true ∧ r.store.dequeuePendingConnectionRequests = true)) :
    (flush r box).box.pendingRequests = box.pendingRequests := by
  unfold flush
  split
  next hn =>
    have hd : ¬r.store.dequeuePendingConnectionRequests = true := fun hd => h ⟨hn, hd⟩
    simp only [hd, Bool.false_eq_true, if_false, flushPickups_box, flushQueued_box,
      flushNotices_pendingRequests]
    rfl
  next => rfl

/-! ### Nothing is lost -/

/-- Every notification and every connection request queued for the agent is on the stream or still
in its queue. -/
def LosesNothing (pubkeyHex : String) (box : Mailbox β) (s : FlushState β) : Prop :=
  (∀ row ∈ box.notificationQueue, row.pubkeyHex = pubkeyHex →
    Item.notification row ∈ s.sent ∨ row ∈ s.box.notificationQueue) ∧
  (∀ row ∈ box.pendingRequests, row.targetPubkey = pubkeyHex →
    Item.request row ∈ s.sent ∨ row ∈ s.box.pendingRequests)

/-- The stream takes every row that the store deletes. -/
def TakesEveryDrained (r : Reconnect β) (box : Mailbox β) : Prop :=
  (r.store.drainNotifications = true →
    ∀ row ∈ box.notificationQueue, row.pubkeyHex = r.pubkeyHex → sendsNotification r row = true) ∧
  (r.store.drainNotifications = true ∧ r.store.dequeuePendingConnectionRequests = true →
    ∀ row ∈ box.pendingRequests, row.Due r.pubkeyHex r.now → sendsRequest r row = true)

theorem notifications_kept_iff :
    (∀ row ∈ box.notificationQueue, row.pubkeyHex = r.pubkeyHex →
      Item.notification row ∈ (flush r box).sent ∨ row ∈ (flush r box).box.notificationQueue) ↔
    (r.store.drainNotifications = true →
      ∀ row ∈ box.notificationQueue, row.pubkeyHex = r.pubkeyHex →
        sendsNotification r row = true) := by
  by_cases h : r.store.drainNotifications = true
  · have hdrained := forall_mem_takeWhile_iff (p := sendsNotification r)
      (l := drainNotifications r.pubkeyHex box.notificationQueue)
    simp only [mem_drainNotifications, and_imp] at hdrained
    simp only [h, true_imp_iff, mem_flush_notification h, mem_flush_notificationQueue h]
    rw [← hdrained]
    constructor
    · intro hkept row hrow hkey
      rcases hkept row hrow hkey with hsent | ⟨-, hother⟩
      · exact hsent
      · exact absurd hkey hother
    · intro hsent row hrow hkey
      exact Or.inl (hsent row hrow hkey)
  · simp only [h, Bool.false_eq_true, false_imp_iff, iff_true]
    intro row hrow _
    refine Or.inr ?_
    rw [flush, if_neg h]
    exact hrow

theorem requests_kept_iff :
    (∀ row ∈ box.pendingRequests, row.targetPubkey = r.pubkeyHex →
      Item.request row ∈ (flush r box).sent ∨ row ∈ (flush r box).box.pendingRequests) ↔
    (r.store.drainNotifications = true ∧ r.store.dequeuePendingConnectionRequests = true →
      ∀ row ∈ box.pendingRequests, row.Due r.pubkeyHex r.now → sendsRequest r row = true) := by
  by_cases h : r.store.drainNotifications = true ∧ r.store.dequeuePendingConnectionRequests = true
  · have hdrained := forall_mem_takeWhile_iff (p := sendsRequest r)
      (l := dequeuePendingConnectionRequests r.pubkeyHex r.now box.pendingRequests)
    simp only [mem_dequeuePendingConnectionRequests, and_imp] at hdrained
    simp only [h, true_imp_iff, and_self, mem_flush_request h.1 h.2,
      mem_flush_pendingRequests h.1 h.2]
    rw [← hdrained]
    constructor
    · intro hkept row hrow hdue
      rcases hkept row hrow hdue.1 with hsent | ⟨-, hstale⟩
      · exact hsent
      · exact absurd hdue hstale
    · intro hsent row hrow _
      by_cases hdue : row.Due r.pubkeyHex r.now
      · exact Or.inl (hsent row hrow hdue)
      · exact Or.inr ⟨hrow, hdue⟩
  · simp only [h, false_imp_iff, iff_true]
    intro row hrow _
    refine Or.inr ?_
    rw [flush_pendingRequests_of_throw h]
    exact hrow

/-- **When the flush loses nothing.**  The rows are gone from the store before the first of them is
sent, so each of them has to arrive: one failed send loses its row and all the rows behind it. -/
theorem flush_loses_nothing_iff (r : Reconnect β) (box : Mailbox β) :
    LosesNothing r.pubkeyHex box (flush r box) ↔ TakesEveryDrained r box := by
  unfold LosesNothing TakesEveryDrained
  rw [notifications_kept_iff, requests_kept_iff]

namespace Sample

/-- Encoders that give the body itself. -/
def plain : Encoders (List UInt8) where
  encodeSessionAbandoned := some
  encodeSessionSealed := some
  encodeSealVerified := some
  encodeConnectionEstablished := some
  encodeSessionSealRejected := some
  encodeSealUnilateralNotification := some
  encodeSealUpgradeConfirmed := some
  encodeTrustSignalPickup := fun item => some item.ciphertext
  encodeConnectionRequestInbound := some
  upgradeConfirmedFromPayload := some
  unilateralNotificationFromPayload := some

/-- The agent `aa` reconnects, the store answers, and the stream breaks at once. -/
def brokenStream : Reconnect (List UInt8) where
  pubkeyHex := "aa"
  now := 0
  encoders := plain
  store := ⟨true, true, true, true, fun _ => true⟩
  takes := fun _ _ => false

/-- One sealed certificate waits for `aa`. -/
def sealedRow : NotificationRow (List UInt8) := ⟨1, "aa", ⟨.sessionSealed, [1]⟩⟩

def waiting : Mailbox (List UInt8) where
  notificationQueue := [sealedRow]
  pendingNotifications := []
  undelivered := some []
  pickups := none
  pendingRequests := []
  routed := OrdMap.empty

end Sample

/-- A stream that breaks at the first send costs the agent its certificate. -/
theorem flush_loses_certificate :
    ¬LosesNothing "aa" Sample.waiting (flush Sample.brokenStream Sample.waiting) := by
  intro h
  have hrow := h.1 Sample.sealedRow (by decide) rfl
  revert hrow
  simp [flush, flushNotifications, flushNotices, flushQueued, flushPickups, flushRequests,
    deliverQueued, deliveredInMemory, drainNotifications, notificationsLeft, sendsNotification,
    dequeuePendingConnectionRequests, Sample.brokenStream, Sample.waiting, Sample.sealedRow,
    sendFrame, encodeNotification, Sample.plain]

/-! ### The queue that acknowledges -/

theorem acknowledged {ids : List String} : ∀ {rows : List (QueuedNotification β)} {n : ℕ},
    n ∈ (deliverQueued r ids rows).2 → ∃ row ∈ rows, row.notificationId = n ∧
      (queuedFrame r ids row = none ∨ Item.queued row ∈ (deliverQueued r ids rows).1) := by
  intro rows
  induction rows with
  | nil =>
    intro n h
    simp [deliverQueued] at h
  | cons row rest ih =>
    intro n h
    cases hframe : queuedFrame r ids row with
    | none =>
      simp only [deliverQueued, hframe, List.mem_cons] at h ⊢
      rcases h with rfl | h
      · exact ⟨row, Or.inl rfl, rfl, Or.inl hframe⟩
      · obtain ⟨x, hx, hn, hsent⟩ := ih h
        exact ⟨x, Or.inr hx, hn, hsent⟩
    | some encoded =>
      simp only [deliverQueued, hframe] at h ⊢
      split at h
      next hsend =>
        rw [if_pos hsend]
        rcases List.mem_cons.1 h with rfl | h
        · exact ⟨row, List.mem_cons_self, rfl, Or.inr List.mem_cons_self⟩
        · obtain ⟨x, hx, hn, hsent⟩ := ih h
          refine ⟨x, List.mem_cons_of_mem _ hx, hn, ?_⟩
          exact hsent.imp_right (List.mem_cons_of_mem _)
      next => simp at h

theorem undelivered_removed (ids : List String) (s : FlushState β)
    {rows : List (QueuedNotification β)} (hrows : s.box.undelivered = some rows)
    (hids : (rows.map QueuedNotification.notificationId).Nodup)
    {row : QueuedNotification β} (hrow : row ∈ rows) :
    (∃ left, (flushQueued r ids s).box.undelivered = some left ∧ row ∈ left) ∨
      queuedFrame r ids row = none ∨ Item.queued row ∈ (flushQueued r ids s).sent := by
  by_cases hdrain : r.store.drainUndelivered = true
  · by_cases hack : row.notificationId ∈ (deliverQueued r ids rows).2
    · refine Or.inr ?_
      obtain ⟨x, hx, hn, hsent⟩ := acknowledged hack
      -- ids are primary keys, so the acknowledged row is the row itself
      have hsame : x = row := List.inj_on_of_nodup_map hids hx hrow hn
      subst hsame
      refine hsent.imp_right fun hsent => ?_
      simp only [flushQueued, hrows, hdrain, if_true, List.mem_append]
      exact Or.inr hsent
    · refine Or.inl ⟨_, by simp only [flushQueued, hrows, hdrain, if_true]; rfl, ?_⟩
      simp [hrow, hack]
  · refine Or.inl ⟨rows, ?_, hrow⟩
    simp only [flushQueued, hrows, hdrain, if_false, Bool.false_eq_true]

/-- A row was sent, or a notice of its session was, or there is nothing in it to send. -/
def Settled (r : Reconnect β) (sent : List (Item β)) (row : QueuedNotification β) : Prop :=
  Item.queued row ∈ sent ∨ (∃ n, Item.notice n ∈ sent ∧ row.sessionIdHex = some n.sessionIdHex) ∨
    queuedFrame r [] row = none

theorem queuedFrame_nil {ids : List String} {row : QueuedNotification β} (h : queuedFrame r ids row = none) :
    queuedFrame r [] row = none ∨ ∃ id ∈ ids, row.sessionIdHex = some id := by
  cases hsession : row.sessionIdHex with
  | none => exact Or.inl (by simp only [queuedFrame, hsession])
  | some id =>
    by_cases hmem : id ∈ ids
    · exact Or.inr ⟨id, hmem, rfl⟩
    · refine Or.inl ?_
      cases hroot : row.sealedRootHex with
      | none => simp only [queuedFrame, hsession, hroot]
      | some root =>
        simp only [queuedFrame, hsession, hroot, hmem, List.not_mem_nil, if_false] at h ⊢
        exact h

/-- **One flush of the sibling queue**, whatever stands in the others. -/
theorem flush_undelivered (r : Reconnect β) (box : Mailbox β) {rows : List (QueuedNotification β)}
    (hrows : box.undelivered = some rows) (hids : (rows.map QueuedNotification.notificationId).Nodup) :
    ∃ left, (flush r box).box.undelivered = some left ∧ left.Sublist rows ∧
      ∀ row ∈ rows, row ∈ left ∨ Settled r (flush r box).sent row := by
  by_cases hdrain : r.store.drainNotifications = true
  · set s₂ := flushNotices r (flushNotifications r ⟨box, []⟩) with hs₂
    set ids := (deliveredInMemory r (flushNotifications r ⟨box, []⟩).box).map SealNotice.sessionIdHex with hids'
    have hqueue : (flush r box).box.undelivered = (flushQueued r ids s₂).box.undelivered := by
      simp only [flush, hdrain, if_true]
      have hpickups := congrArg Mailbox.undelivered (flushPickups_box r (flushQueued r ids s₂))
      split
      · exact hpickups
      · exact hpickups
    have hsent : ∀ item ∈ (flushQueued r ids s₂).sent, (∀ x, item ≠ .pickup x) → (∀ row, item ≠ .request row) →
        item ∈ (flush r box).sent := by
      intro item hitem hpickup hrequest
      simp only [flush, hdrain, if_true]
      split
      · exact (mem_flushRequests_sent r _ hrequest).2 ((mem_flushPickups_sent r _ hpickup).2 hitem)
      · exact (mem_flushPickups_sent r _ hpickup).2 hitem
    have hrows₂ : s₂.box.undelivered = some rows := hrows
    have hsub : ∃ left, (flushQueued r ids s₂).box.undelivered = some left ∧ left.Sublist rows := by
      unfold flushQueued
      rw [hrows₂]
      dsimp only
      split
      · exact ⟨_, rfl, List.filter_sublist⟩
      · exact ⟨rows, hrows₂, List.Sublist.refl rows⟩
    obtain ⟨left, hleft, hsub⟩ := hsub
    refine ⟨left, hqueue.trans hleft, hsub, fun row hrow => ?_⟩
    rcases undelivered_removed ids s₂ hrows₂ hids hrow with ⟨left', hleft', hmem⟩ | hnone | hmem
    · obtain rfl := Option.some.inj (hleft.symm.trans hleft')
      exact Or.inl hmem
    · refine Or.inr (Or.inr ((queuedFrame_nil hnone).symm.imp_left ?_))
      -- the notice that has the session went before
      rintro ⟨id, hid, hsession⟩
      obtain ⟨n, hn, rfl⟩ := List.mem_map.1 hid
      refine ⟨n, hsent _ ((mem_flushQueued_sent r s₂ ids (by nofun)).2 ?_) (by nofun) (by nofun), hsession⟩
      exact List.mem_append_right _ (List.mem_map_of_mem hn)
    · exact Or.inr (Or.inl (hsent _ hmem (by nofun) (by nofun)))
  · refine ⟨rows, ?_, List.Sublist.refl rows, fun row hrow => Or.inl hrow⟩
    simp only [flush, hdrain, if_false, Bool.false_eq_true]
    exact hrows

/-- What happens to the rows of one recipient in `pending_notifications`: an insert whose id no other recipient has,
and a reconnect, with what stands in the other queues by then. -/
inductive QueueEvent (β : Type*) where
  | enqueue (row : QueuedNotification β)
  | flush (r : Reconnect β) (others : Mailbox β)

def flushRows (r : Reconnect β) (others : Mailbox β) (rows : List (QueuedNotification β)) : FlushState β :=
  flush r { others with undelivered := some rows }

/-- `enqueue` does nothing on a conflict of ids. -/
def queueStep (rows : List (QueuedNotification β)) : QueueEvent β → List (QueuedNotification β)
  | .enqueue row =>
    if row.notificationId ∈ rows.map QueuedNotification.notificationId then rows else rows ++ [row]
  | .flush r others => (flushRows r others rows).box.undelivered.getD []

theorem queueStep_nodup {rows : List (QueuedNotification β)} (e : QueueEvent β)
    (h : (rows.map QueuedNotification.notificationId).Nodup) :
    ((queueStep rows e).map QueuedNotification.notificationId).Nodup := by
  cases e with
  | enqueue row =>
    rw [queueStep]
    split
    next => exact h
    next hfree =>
      rw [List.map_append, List.nodup_append]
      refine ⟨h, List.nodup_singleton _, fun n hn n' hn' hsame => hfree ?_⟩
      rw [← List.mem_singleton.1 hn', ← hsame]
      exact hn
  | flush r others =>
    obtain ⟨left, hleft, hsub, -⟩ := flush_undelivered r { others with undelivered := some rows } rfl h
    rw [queueStep, flushRows, hleft]
    exact (hsub.map _).nodup h

/-- **The sibling queue loses nothing over any run**: a row that is queued at some moment is there at every later one,
or a reconnect in between has settled it, whatever fails on the way. -/
theorem queued_until_settled (before after : List (QueueEvent β)) (row : QueuedNotification β)
    (hrow : row ∈ before.foldl queueStep []) :
    row ∈ (before ++ after).foldl queueStep [] ∨
      ∃ m r others, after[m]? = some (.flush r others) ∧
        Settled r (flushRows r others ((before ++ after.take m).foldl queueStep [])).sent row := by
  have hnodup : ∀ (events : List (QueueEvent β)) (rows : List (QueuedNotification β)),
      (rows.map QueuedNotification.notificationId).Nodup →
        ((events.foldl queueStep rows).map QueuedNotification.notificationId).Nodup := by
    intro events
    induction events with
    | nil => exact fun rows h => h
    | cons e rest ih => exact fun rows h => ih _ (queueStep_nodup e h)
  have hstart := hnodup before [] List.nodup_nil
  simp only [List.foldl_append]
  generalize before.foldl queueStep [] = rows at hrow hstart ⊢
  induction after generalizing rows with
  | nil => exact Or.inl hrow
  | cons e rest ih =>
    have hnext : row ∈ queueStep rows e ∨
        ∃ r others, e = .flush r others ∧ Settled r (flushRows r others rows).sent row := by
      cases e with
      | enqueue row' =>
        rw [queueStep]
        split
        · exact Or.inl hrow
        · exact Or.inl (List.mem_append_left _ hrow)
      | flush r others =>
        obtain ⟨left, hleft, -, hall⟩ := flush_undelivered r { others with undelivered := some rows } rfl hstart
        refine (hall row hrow).imp (fun hmem => ?_) fun hsettled => ⟨r, others, rfl, hsettled⟩
        rw [queueStep, flushRows, hleft]
        exact hmem
    rcases hnext with hmem | ⟨r, others, rfl, hsettled⟩
    · refine (ih _ hmem (queueStep_nodup e hstart)).imp_right ?_
      rintro ⟨m, r, others, hm, hsettled⟩
      exact ⟨m + 1, r, others, hm, hsettled⟩
    · exact Or.inr ⟨0, r, others, rfl, hsettled⟩

namespace Sample

def upgradeRow : QueuedNotification (List UInt8) := ⟨1, "seal_upgrade", some "s", some "r", [1]⟩

def before : List (QueueEvent (List UInt8)) := [.enqueue upgradeRow]

def after : List (QueueEvent (List UInt8)) := [.flush brokenStream waiting]

end Sample

open Sample in
theorem queued_until_settled_broken :
    upgradeRow ∈ (before ++ after).foldl queueStep [] ∨
      ∃ m r others, after[m]? = some (.flush r others) ∧
        Settled r (flushRows r others ((before ++ after.take m).foldl queueStep [])).sent upgradeRow :=
  queued_until_settled before after upgradeRow (by simp [before, queueStep])

end Cello.Directory.Signaling
