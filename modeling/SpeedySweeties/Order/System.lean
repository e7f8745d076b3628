import Mathlib.Logic.Function.Basic
import SpeedySweeties.Library.Transition
import SpeedySweeties.Order.Handlers
import SpeedySweeties.Privacy.ErasedRows

/-! Concurrent order requests over one database and one clock. A request reads its
order without a lock, decides later at the clock of that moment, and later still
runs its guarded update; any other step may come in between. An update statement is
one step. Auto-dispatch and receipt saves lock the order row, read the clock under the
lock and commit later; whoever else writes the row waits for them. -/
namespace SpeedySweeties

abbrev RequestId := Nat

structure NewOrder where
  orderNumber : Nat
  contact : OrderContact
  content : OrderContent
  location : OrderLocation
  campaign : OrderCampaign
  deriving DecidableEq, Repr

def createdOrder (id : OrderId) (input : NewOrder) (now : Time) : Order where
  toOrderDispatch := {
    assignedAt := none, dispatchedAt := none, acceptedAt := none, outForDeliveryAt := none
    deliveredAt := none, orderStatus := initialOrderStatus, priority := .normal
    assignedDriverId := none, dispatchedByUserId := none, dispatchSource := none
    cancelledAt := none, cancelledFromStatus := none, cancellationReason := none }
  toOrderContact := input.contact
  toOrderContent := input.content
  toOrderLocation := input.location
  toOrderCampaign := input.campaign
  id := id
  orderNumber := input.orderNumber
  createdAt := now
  privacyErasedAt := none
  privacyRetainUntil := none
  undispatchedAlertClaimedAt := none
  undispatchedAlertSentAt := none

def syntheticCancellationReason : String :=
  "Synthetic test order: no purchase or delivery; automatically cancelled."

def finishSyntheticOrder (order : Order) (now : Time) : Order :=
  { order with
    orderStatus := .cancelled, cancelledAt := some now, cancelledFromStatus := some .placed
    cancellationReason := some syntheticCancellationReason
    assignedDriverId := none, assignedAt := none, fcmToken := none }

/-- A receipt body that passed the controller's checks. -/
structure ReceiptBody extends ReceiptAmounts where
  notes : Option String
  positive : 0 < grandTotal
  sums : grandTotal = itemTotal + deliveryCharge + taxOrFees
  bounded : grandTotal ≤ 50000*100
  deriving DecidableEq, Repr

def upsertReceipt (receipt : Option DigitalReceipt) (receiptId : String) (order : Order)
    (user : UserId) (body : ReceiptBody) (now : Time) : DigitalReceipt :=
  match receipt with
  | some receipt => { receipt with toReceiptAmounts := body.toReceiptAmounts, notes := body.notes }
  | none => { toReceiptAmounts := body.toReceiptAmounts, id := receiptId
              receiptNumber := "SS-" ++ toString order.orderNumber
              createdByDriverId := some user, notes := body.notes
              retainedChargeEvidence := none, createdAt := now }

inductive Handler where
  | assign (body : AssignDriverBody) (authUser : Option (UserId × UserRole))
  | driverAction (user : Option UserId) (action : DriverActionName)
  | cancel (role : Option UserRole) (orderStatus : OrderStatus) (reason : Option String)
  | autoDispatch
  | edit (details : OrderDetails)
  deriving DecidableEq, Repr

/-- `none` where the handler decides inside its transaction. -/
def Handler.decide (handler : Handler) (order : Option Order) (driver : Option DriverView)
    (receipt : Bool) (now : Time) : Option Decision :=
  match handler with
  | .assign body authUser => some (assignDriverToOrder order body authUser driver now)
  | .driverAction user action => some (SpeedySweeties.driverAction order user action receipt now)
  | .cancel role orderStatus reason => some (updateOrderStatus order role orderStatus reason now)
  | .autoDispatch | .edit _ => none

/-- Ghost: how often two columns of an order row have changed. -/
structure Changes where
  driver : Nat
  customer : Nat

def Changes.count (c : Changes) (before after : Order) : Changes where
  driver := if after.assignedDriverId = before.assignedDriverId then c.driver else c.driver + 1
  customer := if after.customerId = before.customerId then c.customer else c.customer + 1

structure Pending where
  id : OrderId
  handler : Handler
  order : Option Order
  receipt : Option Bool
  update : Option GuardedUpdate
  /-- Ghost: the order's changes when the request read it. -/
  changes : Changes

structure DispatchEvent extends RecordDispatchEventInput where
  orderId : OrderId
  deriving DecidableEq, Repr

def recordedEvent (id : OrderId) (now : Time) (event : RecordDispatchEventInput) : DispatchEvent :=
  { event with orderId := id, occurredAt := event.occurredAt <|> some now }

structure System where
  now : Time
  orders : OrderId → Option Order
  synthetic : OrderId → Bool
  receipts : OrderId → Option DigitalReceipt
  /-- The clock as the transaction holding the order's row lock has read it. -/
  locked : OrderId → Option Time
  pending : RequestId → Option Pending
  /-- The events of the committed writes, in the order of the commits. -/
  events : List DispatchEvent
  changes : OrderId → Changes

inductive Action where
  | tick (elapsed : Time)
  | createOrder (id : OrderId) (input : NewOrder) (synthetic : Bool)
  | read (request : RequestId) (id : OrderId) (handler : Handler)
  | readReceipt (request : RequestId)
  | decide (request : RequestId) (driver : Option DriverView)
  | write (request : RequestId) (assignable : Bool)
  | lock (id : OrderId)
  | allocate (request : RequestId) (selected : Option UserId)
  | saveReceipt (id : OrderId) (receiptId : String) (user : UserId) (role : UserRole) (body : ReceiptBody)
  | rollback (id : OrderId)
  | edit (request : RequestId)
  | setPriority (id : OrderId) (priority : OrderPriority)
  | erase (id : OrderId) (retainUntil : Time)
  | abandon (request : RequestId)

def System.initial (now : Time) : System where
  now := now
  orders := fun _ => none
  synthetic := fun _ => false
  receipts := fun _ => none
  locked := fun _ => none
  pending := fun _ => none
  events := []
  changes := fun _ => ⟨0,0⟩

def System.close (s : System) (request : RequestId) : System :=
  { s with pending := Function.update s.pending request none }

def System.await (s : System) (request : RequestId) (p : Pending) : System :=
  { s with pending := Function.update s.pending request (some p) }

def System.release (s : System) (id : OrderId) : System :=
  { s with locked := Function.update s.locked id none }

/-- Commits a new version of an order row with the event its request records. -/
def System.store (s : System) (id : OrderId) (before after : Order)
    (event : Option RecordDispatchEventInput) : System :=
  { s with
    orders := Function.update s.orders id (some after)
    events := s.events ++ (event.map (recordedEvent id s.now)).toList
    changes := Function.update s.changes id ((s.changes id).count before after) }

/-- The row a guarded update acts on: present, matching and not behind the
read-only guard of retained records. -/
def Updatable (guard : OrderWhere) (o : Order) : Prop := guard.Matches o ∧ o.privacyErasedAt = none
instance (guard o) : Decidable (Updatable guard o) := by unfold Updatable; infer_instance

def System.writeUpdate (s : System) (id : OrderId) (u : GuardedUpdate) (assignable : Bool) : System :=
  match s.orders id with
  | none => s
  | some o =>
    if (u.locksDriver.isSome → assignable = true) ∧ Updatable u.guard o then
      s.store id o (u.data.apply o) u.event
    else s

def System.allocateOrder (s : System) (id : OrderId) (selected : Option UserId) (allocationTime : Time) :
    System :=
  match s.orders id,selected with
  | some o,some driver =>
    match autoDispatchTransaction o selected allocationTime with
    | .error _ => s
    | .ok data =>
      if Updatable { orderStatus := some .placed, assignedDriverId := some none } o then
        s.store id o (data.apply o) (some (autoDispatchEvent driver))
      else s
  | _,_ => s

def System.saveReceipt (s : System) (id : OrderId) (receiptId : String) (user : UserId)
    (role : UserRole) (body : ReceiptBody) (now : Time) : Option System := do
  let o ← s.orders id
  if s.synthetic id ∨ o.privacyErasedAt.isSome then none
  else
    let receipt := upsertReceipt (s.receipts id) receiptId o user body s.now
    let saved := { s with receipts := Function.update s.receipts id (some receipt) }
    if role ≠ .driver then some saved
    else if o.assignedDriverId ≠ some user then none
    else do
      let data ← receiptUpdate o now
      some (saved.store id o (data.apply o) none)

def System.editOrder (s : System) (id : OrderId) (existingOrder : Order) (details : OrderDetails) : System :=
  match s.orders id with
  | none => s
  | some o =>
    if o.privacyErasedAt = none then s.store id o (details.apply existingOrder o) none else s

def System.eraseOrder (s : System) (id : OrderId) (retainUntil : Time) : Option System := do
  let o ← s.orders id
  if o.orderStatus.final ∧ o.privacyErasedAt = none then
    let stored := s.store id o (SpeedySweeties.eraseOrder s.now retainUntil o) none
    some { stored with
      receipts := Function.update s.receipts id ((s.receipts id).map fun r => eraseReceipt r.notes r)
      events := s.events.filter (·.orderId ≠ id) }
  else none

def System.step (s : System) : Action → Option System
  | .tick elapsed => some { s with now := s.now + elapsed }
  | .createOrder id input synthetic =>
    if (s.orders id).isSome then none
    else
      let order := createdOrder id input s.now
      some { s with
        orders := Function.update s.orders id
          (some (if synthetic then finishSyntheticOrder order s.now else order))
        synthetic := Function.update s.synthetic id synthetic }
  | .read request id handler =>
    if (s.pending request).isSome then none
    else some (s.await request ⟨id,handler,s.orders id,none,none,s.changes id⟩)
  | .readReceipt request => do
    let p ← s.pending request
    if p.update.isSome then none
    else some (s.await request { p with receipt := some (s.receipts p.id).isSome })
  | .decide request driver => do
    let p ← s.pending request
    if p.update.isSome then none
    else match p.handler.decide p.order driver (p.receipt.getD false) s.now with
      | none => none
      | some (.reply _) => some (s.close request)
      | some (.update u) => some (s.await request { p with update := some u })
  | .write request assignable => do
    let p ← s.pending request
    let u ← p.update
    if (s.locked p.id).isSome then none
    else some ((s.writeUpdate p.id u assignable).close request)
  | .lock id =>
    if (s.orders id).isNone ∨ (s.locked id).isSome then none
    else some { s with locked := Function.update s.locked id (some s.now) }
  | .allocate request selected => do
    let p ← s.pending request
    let allocationTime ← s.locked p.id
    if p.handler ≠ .autoDispatch then none
    else some (((s.allocateOrder p.id selected allocationTime).release p.id).close request)
  | .saveReceipt id receiptId user role body => do
    let now ← s.locked id
    let saved ← s.saveReceipt id receiptId user role body now
    some (saved.release id)
  | .rollback id => some (s.release id)
  | .edit request => do
    let p ← s.pending request
    match p.handler with
    | .edit details =>
      match updateOrderDetails p.order with
      | .error _ => some (s.close request)
      | .ok existingOrder =>
        if (s.locked p.id).isSome then none
        else some ((s.editOrder p.id existingOrder details).close request)
    | _ => none
  | .setPriority id priority => do
    let o ← s.orders id
    if o.privacyErasedAt.isSome ∨ (s.locked id).isSome then none
    else some (s.store id o { o with priority := priority } none)
  | .erase id retainUntil => if (s.locked id).isSome then none else s.eraseOrder id retainUntil
  | .abandon request => some (s.close request)

abbrev System.Reachable (start : Time) : System → Prop :=
  Transition.Reachable System.step (System.initial start)

end SpeedySweeties
