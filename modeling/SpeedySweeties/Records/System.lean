import SpeedySweeties.Library.Transition
import SpeedySweeties.Order.EditPause
import SpeedySweeties.Records.Writes

/-! Orders with the rows that reference them under concurrent writers: order handlers,
receipt saves, edits with their geocoding call, check-ins and help requests, edit
pauses, best-effort dispatch events, and one erasure at a time. Transactions read
what is committed, statement by statement; a step of one that must wait for a row
lock is not enabled. Other writers' commits are visible to the erasure's later
statements, its own writes to nobody before its commit. -/
namespace SpeedySweeties

inductive LockHolder where
  | erasure
  | process (process : RequestId)
  deriving DecidableEq, Repr

structure OrderLock where
  holder : LockHolder
  mode : LockMode
  deriving DecidableEq, Repr

/-- An erasure transaction, which holds the privacy lock. -/
structure Erasure where
  now : Time
  retainUntil : Time
  ids : List OrderId
  /-- The receipts as `candidateScope` has read them, after the orders. -/
  read : Option (OrderId → Option DigitalReceipt)
  todo : OrderId → List ErasureStatement
  /-- The tables as the transaction sees them. -/
  working : Table OrderRows OrderRows.id

structure PendingEdit where
  id : OrderId
  existingOrder : Order
  body : UpdateOrderDetailsBody
  /-- `none` until it is known whether and where the address is. -/
  location : Option (Option OrderLocation)

structure RecordSystem where
  rows : Table OrderRows OrderRows.id
  locks : OrderId → Option OrderLock
  erasure : Option Erasure
  decided : RequestId → Option (OrderId × GuardedUpdate)
  edits : RequestId → Option PendingEdit
  /-- Requests whose tracking token was valid when it was checked. -/
  checkIns : RequestId → Option OrderId
  /-- Events of committed assignments whose insert is still to run. -/
  unrecorded : List DispatchEvent

/-! ### orderEditPause.service.ts -/

/-- The earliest assignment on record, else the column. -/
def OrderRows.firstDispatchedAt (r : OrderRows) : Option Time :=
  ((r.dispatchEvents.filter (·.eventType = .assigned)).filterMap (·.occurredAt)).min? <|> r.order.dispatchedAt

def OrderRows.pauseEligible (r : OrderRows) : Bool :=
  r.order.orderStatus = .placed ∧ r.firstDispatchedAt = none

/-- The row the call writes, if any; `session` is the stored one with its order. -/
def updateEditPause (session : Option (OrderId × OrderEditPause)) (r : OrderRows) (input : EditPauseInput)
    (now : Time) : Except Reply (Option RowWrite) :=
  match session with
  | some (orderId,session) =>
    if orderId ≠ input.orderId ∨ session.actorUserId ≠ input.actorUserId then
      .error ⟨403,none,"This edit session belongs to another editor"⟩
    else if input.action = .stop ∨ r.pauseEligible = false then
      if session.endedAt = none then
        .ok (some (.updatePause
          { session with endedAt := some (max session.startedAt (min now session.expiresAt)) }))
      else .ok none
    else if session.endedAt = none ∧ now < session.expiresAt then
      .ok (some (.updatePause { session with expiresAt := max session.expiresAt (now + editPauseLeaseMs) }))
    else if session.endedAt = none ∨ input.action = .heartbeat then
      .error ⟨409,none,"Edit pause expired; start a new session"⟩
    else .ok none
  | none =>
    if input.action = .stop then
      .ok (some (.createPause ⟨input.sessionId,input.actorUserId,now,now,some now⟩))
    else if r.pauseEligible = false then .ok none
    else if input.action ≠ .start then .error ⟨409,none,"Start a new edit pause session"⟩
    else .ok (some (.createPause ⟨input.sessionId,input.actorUserId,now,now + editPauseLeaseMs,none⟩))

def findPause (rows : Table OrderRows OrderRows.id) (sessionId : String) : Option (OrderId × OrderEditPause) :=
  rows.rows.findSome? fun r => (r.editPauses.find? (·.id = sessionId)).map (r.id,·)

/-! ### Steps -/

inductive RecordAction where
  | createOrder (id : OrderId) (input : NewOrder) (address : DeliveryAddressInput) (answer : GeocodeAnswer)
      (items : List OrderItem) (now : Time)
  | lock (process : RequestId) (id : OrderId)
  | rollback (process : RequestId) (id : OrderId)
  | decide (request : RequestId) (id : OrderId) (handler : Handler) (driver : Option DriverView) (receipt : Bool)
      (now : Time)
  | write (request : RequestId) (assignable : Bool) (now : Time)
  | allocate (process : RequestId) (id : OrderId) (selected : Option UserId) (now : Time)
  | saveReceipt (process : RequestId) (id : OrderId) (receiptId : String) (user : UserId) (role : UserRole)
      (body : ReceiptBody) (now : Time)
  | readEdit (request : RequestId) (id : OrderId) (body : UpdateOrderDetailsBody)
  | geocode (request : RequestId) (answer : GeocodeAnswer)
  | edit (request : RequestId) (customerId : CustomerId) (keys : List (String × String × Time))
  | findCheckInOrder (request : RequestId) (id : OrderId) (tokenHash : String) (now : Time)
  | help (request : RequestId) (helpId : String) (message : String) (now : Time)
  | handleHelp (id : OrderId) (user : UserId) (resolutionNote : String) (now : Time)
  | checkIn (request : RequestId) (eventId : String) (type : DeliveryCheckInEventType) (now : Time)
  | recordEvent (index : Nat)
  | loseEvent (index : Nat)
  | updateEditPause (process : RequestId) (input : EditPauseInput) (now : Time)
  | clearPickupStops (id : OrderId)
  | beginErasure (customer : CustomerId) (now : Time) (retainUntil : Time)
  | readReceipts
  | erase (id : OrderId)
  | commitErasure
  | abortErasure
  | abandon (request : RequestId)

namespace RecordSystem

def initial (rows : Table OrderRows OrderRows.id) : RecordSystem :=
  ⟨rows,fun _ => none,none,fun _ => none,fun _ => none,fun _ => none,[]⟩

def onOrder (id : OrderId) (write : RowWrite) (r : OrderRows) : OrderRows :=
  if r.id = id then write.apply r else r

theorem onOrderId (id : OrderId) (write : RowWrite) (r : OrderRows) : (onOrder id write r).id = r.id := by
  unfold onOrder
  split
  · exact write.applyId r
  · rfl

def writeRows (rows : Table OrderRows OrderRows.id) (id : OrderId) (write : RowWrite) :
    Table OrderRows OrderRows.id := rows.update (onOrder id write) (onOrderId id write)

/-- A committed write, which the erasure's later statements see as well. -/
def write (s : RecordSystem) (id : OrderId) (write : RowWrite) : RecordSystem :=
  { s with
    rows := writeRows s.rows id write
    erasure := s.erasure.map fun e => { e with working := writeRows e.working id write } }

/-- The triggers raise an exception when the record is retained. -/
def guardedWrite (s : RecordSystem) (id : OrderId) (w : RowWrite) : RecordSystem :=
  match s.rows.find id with
  | none => s
  | some r => if r.order.privacyErasedAt = none then s.write id w else s

def free (s : RecordSystem) (id : OrderId) : Bool := (s.locks id).isNone

def holds (s : RecordSystem) (process : RequestId) (id : OrderId) : Bool :=
  s.locks id = some ⟨.process process,.forUpdate⟩

/-- The key-share lock of a foreign key is compatible with an update of other columns. -/
def insertable (s : RecordSystem) (id : OrderId) : Bool := (s.locks id).all (·.mode = .forNoKeyUpdate)

def unlock (s : RecordSystem) (id : OrderId) : RecordSystem :=
  { s with locks := Function.update s.locks id none }

def announce (s : RecordSystem) (id : OrderId) (now : Time) (event : Option RecordDispatchEventInput) :
    RecordSystem :=
  { s with unrecorded := s.unrecorded ++ (event.map (recordedEvent id now)).toList }

def close (s : RecordSystem) (request : RequestId) : RecordSystem :=
  { s with
    decided := Function.update s.decided request none
    edits := Function.update s.edits request none
    checkIns := Function.update s.checkIns request none }

def endErasure (s : RecordSystem) : RecordSystem :=
  { s with
    locks := fun id => (s.locks id).filter (·.holder ≠ .erasure)
    erasure := none }

variable (T : TextService)

def createdRows (id : OrderId) (input : NewOrder) (address : DeliveryAddressInput) (location : OrderLocation)
    (items : List OrderItem) (now : Time) : OrderRows where
  order := createdOrder id
    { input with
      location
      contact := { input.contact with
        addressLine1 := address.trimmed.addressLine1, city := address.trimmed.city
        province := address.trimmed.province } } now
  items := items
  digitalReceipt := none
  helpRequest := none
  dispatchEvents := []
  editPauses := []
  pickupStops := []
  checkIns := []

def saveReceipt (s : RecordSystem) (process : RequestId) (r : OrderRows) (receiptId : String) (user : UserId)
    (role : UserRole) (body : ReceiptBody) (now : Time) : Option RecordSystem :=
  let receipt := upsertReceipt r.digitalReceipt receiptId r.order user body now
  if role ≠ .driver then
    if s.free r.id then some (s.guardedWrite r.id (.receipt receipt {})) else none
  else if ¬ s.holds process r.id then none
  else if r.order.assignedDriverId ≠ some user then some (s.unlock r.id)
  else match receiptUpdate r.order now with
    | none => some (s.unlock r.id)
    | some data => some ((s.guardedWrite r.id (.receipt receipt data)).unlock r.id)

def allocate (s : RecordSystem) (r : OrderRows) (selected : Option UserId) (now : Time) : RecordSystem :=
  match autoDispatchTransaction r.order selected now,selected with
  | .ok data,some driver =>
    if Updatable { orderStatus := some .placed, assignedDriverId := some none } r.order then
      (s.write r.id (.order data)).announce r.id now (some (autoDispatchEvent driver))
    else s
  | _,_ => s

def startErasure (s : RecordSystem) (customer : CustomerId) (now retainUntil : Time) : Option RecordSystem :=
  let orders := s.rows.rows.filter (·.order.customerId = some customer)
  if s.erasure.isSome ∨ orders.any (¬ ·.order.orderStatus.final) then none
  else some { s with erasure := some {
    now, retainUntil, ids := orders.map (·.id), read := none
    todo := fun _ => erasureStatements, working := s.rows } }

/-- One statement of the erasure reaches the rows of one order; the statement before it
has reached all orders. -/
def erase (s : RecordSystem) (id : OrderId) : Option RecordSystem := do
  let e ← s.erasure
  let read ← e.read
  let r ← e.working.find id
  match e.todo id with
  | [] => none
  | statement::rest =>
    if id ∉ e.ids ∨ e.ids.any (fun other => (e.todo id).length < (e.todo other).length) then none
    else
      let erased := { s with erasure := some { e with
        todo := Function.update e.todo id rest
        working := e.working.put (statement.apply e.now e.retainUntil (read id) r) } }
      match statement.lock (read id) r,s.locks id with
      | none,_ => some erased
      | some mode,none => some { erased with locks := Function.update s.locks id (some ⟨.erasure,mode⟩) }
      | some _,some lock => if lock.holder = .erasure then some erased else none

def step (s : RecordSystem) : RecordAction → Option RecordSystem
  | .createOrder id input address answer items now =>
    if s.erasure.isSome ∨ (s.rows.find id).isSome then none
    else do
      let location ← geocodeDeliveryAddress T address answer
      some { s with rows := s.rows.put (createdRows id input address location items now) }
  | .lock process id =>
    if s.free id ∧ (s.rows.find id).isSome then
      some { s with locks := Function.update s.locks id (some ⟨.process process,.forUpdate⟩) }
    else none
  | .rollback process id => if s.holds process id then some (s.unlock id) else none
  | .decide request id handler driver receipt now =>
    match handler.decide ((s.rows.find id).map (·.order)) driver receipt now with
    | some (.update u) => some { s with decided := Function.update s.decided request (some (id,u)) }
    | _ => none
  | .write request assignable now => do
    let (id,u) ← s.decided request
    let r ← s.rows.find id
    if ¬ s.free id then none
    else if (u.locksDriver.isSome → assignable = true) ∧ Updatable u.guard r.order then
      some (((s.write id (.order u.data)).announce id now u.event).close request)
    else some (s.close request)
  | .allocate process id selected now => do
    let r ← s.rows.find id
    if s.holds process id then some ((s.allocate r selected now).unlock id) else none
  | .saveReceipt process id receiptId user role body now => do
    let r ← s.rows.find id
    s.saveReceipt process r receiptId user role body now
  | .readEdit request id body =>
    match updateOrderDetails ((s.rows.find id).map (·.order)) with
    | .error _ => none
    | .ok existingOrder =>
      if (s.edits request).isSome then none
      else some { s with edits := Function.update s.edits request (some ⟨id,existingOrder,body,none⟩) }
  | .geocode request answer => do
    let p ← s.edits request
    if p.location.isSome then none
    else match replacementLocation T p.existingOrder p.body answer with
      | .error _ => some (s.close request)
      | .ok location => some { s with
          edits := Function.update s.edits request (some { p with location := some location }) }
  | .edit request customerId keys => do
    let p ← s.edits request
    let location ← p.location
    if s.erasure.isSome ∨ ¬ s.free p.id then none
    else some ((s.guardedWrite p.id (.details p.existingOrder (p.body.details T customerId location)
      (editedItems p.body.items keys))).close request)
  | .findCheckInOrder request id tokenHash now => do
    let r ← s.rows.find id
    if r.order.trackingTokenHash = some tokenHash ∧ r.order.trackingTokenExpiresAt.any (now < ·) ∧
        r.order.orderStatus = .delivered then
      some { s with checkIns := Function.update s.checkIns request (some id) }
    else none
  | .help request helpId message now => do
    let id ← s.checkIns request
    if s.free id then some (s.guardedWrite id (.help ⟨helpId,message,.open,now,none,none,none⟩)) else none
  | .handleHelp id user resolutionNote now =>
    if s.free id then some (s.guardedWrite id (.handled now user resolutionNote)) else none
  | .checkIn request eventId type now => do
    let id ← s.checkIns request
    let _ ← s.rows.find id
    if s.insertable id then some (s.write id (.checkIn ⟨eventId,type,now⟩)) else none
  | .recordEvent index => do
    let event ← s.unrecorded[index]?
    let _ ← s.rows.find event.orderId
    if s.insertable event.orderId then
      some { s.write event.orderId (.dispatchEvent event) with unrecorded := s.unrecorded.eraseIdx index }
    else none
  | .loseEvent index => some { s with unrecorded := s.unrecorded.eraseIdx index }
  | .updateEditPause process input now => do
    let r ← s.rows.find input.orderId
    if ¬ s.holds process input.orderId then none
    else match SpeedySweeties.updateEditPause (findPause s.rows input.sessionId) r input now with
      | .ok (some session) => some ((s.write input.orderId session).unlock input.orderId)
      | _ => some (s.unlock input.orderId)
  | .clearPickupStops id => do
    let _ ← s.rows.find id
    some (s.write id .clearPickupStops)
  | .beginErasure customer now retainUntil => s.startErasure customer now retainUntil
  | .readReceipts => do
    let e ← s.erasure
    if e.read.isSome then none
    else some { s with erasure := some { e with
      read := some fun id => (e.working.find id).bind (·.digitalReceipt) } }
  | .erase id => s.erase id
  | .commitErasure => do
    let e ← s.erasure
    if e.ids.all (fun id => e.todo id = []) then some { s.endErasure with rows := e.working } else none
  | .abortErasure => if s.erasure.isSome then some s.endErasure else none
  | .abandon request => some (s.close request)

abbrev Reachable (rows : Table OrderRows OrderRows.id) : RecordSystem → Prop :=
  Transition.Reachable (step T) (initial rows)

end RecordSystem
end SpeedySweeties
