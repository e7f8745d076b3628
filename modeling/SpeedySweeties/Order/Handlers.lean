import SpeedySweeties.Library.JsText
import SpeedySweeties.Order.StateTransition

/-! The order controllers between their reads and their write: each is a function
of the rows it read, the request and the clock, and ends in a reply or in one
guarded update of the order row. -/
namespace SpeedySweeties

structure Reply where
  status : Nat
  code : Option String := none
  message : String
  deriving DecidableEq, Repr

structure RecordDispatchEventInput where
  eventType : DispatchEventType
  dispatchSource : DispatchSource
  actorUserId : Option UserId
  fromDriverId : Option UserId
  toDriverId : Option UserId
  occurredAt : Option Time
  deriving DecidableEq, Repr

/-- One `updateMany`. `locksDriver` names the account whose row the surrounding
transaction must lock as assignable before the update runs. -/
structure GuardedUpdate where
  guard : OrderWhere
  data : OrderData
  locksDriver : Option UserId := none
  event : Option RecordDispatchEventInput := none
  updated : Reply
  missed : Option Order → Reply

inductive Decision where
  | reply (reply : Reply)
  | update (update : GuardedUpdate)

def unauthorized : Reply := ⟨401,none,"Unauthorized"⟩
def forbidden : Reply := ⟨403,none,"Forbidden"⟩
def orderNotFound : Reply := ⟨404,none,"Order not found"⟩
def refusal (code : OrderTransitionFailureCode) (message : String) : Reply :=
  ⟨409,some code.text,message⟩

/-! ### orderAssignment.controller.ts -/

structure AssignDriverBody where
  driverId : Option UserId
  priority : Option OrderPriority
  deriving DecidableEq, Repr

/-- What the handler reads of an active, visible driver. -/
structure DriverView where
  id : UserId
  isOnline : Bool
  lastSeenAt : Option Time
  deriving DecidableEq, Repr

def driverFreshnessThresholdMs : Time := 60*60*1000

def getDriverFreshnessCutoff (now : Time) : Time := now - driverFreshnessThresholdMs

def isDriverFresh (lastSeenAt : Option Time) (now : Time) : Bool :=
  match lastSeenAt with
  | none => false
  | some seen => getDriverFreshnessCutoff now ≤ seen

def cannotAssignFinal : Reply := ⟨400,none,"Cannot assign a driver to a delivered or cancelled order"⟩
def driverAssigned : Reply := ⟨200,none,"Driver assigned successfully"⟩

def assignmentMissed (message : String) (currentOrder : Option Order) : Reply :=
  match currentOrder with
  | some order => if order.orderStatus.final then cannotAssignFinal else ⟨409,none,message⟩
  | none => ⟨409,none,message⟩

def unassignmentUpdate (existingOrder : Order) (priority : Option OrderPriority)
    (userId : UserId) : GuardedUpdate where
  guard := { orderStatus := some existingOrder.orderStatus }
  data :=
    (({ assignedDriverId := some none, assignedAt := some none } : OrderData).spread
      (if existingOrder.orderStatus = .dispatched then
        { orderStatus := some .placed, dispatchedAt := some none,
          dispatchedByUserId := some none, dispatchSource := some none }
      else {})).spread { priority := priority }
  event := existingOrder.assignedDriverId.map fun driver =>
    { eventType := .unassigned, dispatchSource := .manual, actorUserId := some userId,
      fromDriverId := some driver, toDriverId := none, occurredAt := none }
  updated := ⟨200,none,"Driver unassigned successfully"⟩
  missed := assignmentMissed "Order changed before driver assignment could be completed"

def unassignDriver (existingOrder : Order) (priority : Option OrderPriority)
    (userId : UserId) : Decision :=
  let targetStatus :=
    if existingOrder.orderStatus = .dispatched then .placed else existingOrder.orderStatus
  if targetStatus = existingOrder.orderStatus then
    .update (unassignmentUpdate existingOrder priority userId)
  else match evaluateOrderStatusTransition .manualUnassignment existingOrder.orderStatus targetStatus false with
    | .refused code message => .reply (refusal code message)
    | .allowed => .update (unassignmentUpdate existingOrder priority userId)

def shouldMarkDispatched (existingOrder : Order) : Bool :=
  existingOrder.orderStatus = .placed ∨ existingOrder.orderStatus = .dispatched

def assignmentUpdate (existingOrder : Order) (driver : UserId) (priority : Option OrderPriority)
    (userId : UserId) (role : UserRole) (now : Time) : GuardedUpdate :=
  let wasAssignedToDifferentDriver : Bool := existingOrder.assignedDriverId ≠ some driver
  { guard := { orderStatus := some existingOrder.orderStatus }
    data :=
      (({ assignedDriverId := some (some driver),
          assignedAt := some (if wasAssignedToDifferentDriver then some now
            else existingOrder.assignedAt <|> some now) } : OrderData).spread
        (if shouldMarkDispatched existingOrder then
          (({ orderStatus := some .dispatched } : OrderData).spread
            (buildOrderTransitionTimestampData existingOrder.toOrderLifecycleSnapshot .dispatched now)).spread
            (getFirstDispatchAttribution existingOrder.dispatchedAt ⟨some userId,some role⟩)
        else {})).spread { priority := priority }
    locksDriver := some driver
    event := if wasAssignedToDifferentDriver then
        some { eventType := if existingOrder.assignedDriverId.isSome then .reassigned else .assigned,
               dispatchSource := .manual, actorUserId := some userId,
               fromDriverId := existingOrder.assignedDriverId, toDriverId := some driver,
               occurredAt := some now }
      else none
    updated := driverAssigned
    missed := assignmentMissed
      "Order or driver availability changed before assignment. Refresh and try again." }

def assignDriverToOrder (existingOrder : Option Order) (body : AssignDriverBody)
    (authUser : Option (UserId × UserRole)) (driver : Option DriverView) (now : Time) : Decision :=
  match authUser with
  | none => .reply unauthorized
  | some (userId,role) =>
  match existingOrder with
  | none => .reply orderNotFound
  | some existingOrder =>
    if existingOrder.orderStatus.final then .reply cannotAssignFinal
    else match body.driverId with
    | none => unassignDriver existingOrder body.priority userId
    | some _ =>
      match driver with
      | none => .reply ⟨404,none,"Active, visible driver not found"⟩
      | some driver =>
        if ¬ (driver.isOnline ∧ isDriverFresh driver.lastSeenAt now) then
          .reply ⟨409,some "DRIVER_NOT_ONLINE","Driver is offline or has not checked in recently"⟩
        else if existingOrder.assignedDriverId = some driver.id ∧ body.priority = none then
          .reply driverAssigned
        else if shouldMarkDispatched existingOrder ∧ existingOrder.orderStatus ≠ .dispatched then
          match evaluateOrderStatusTransition .manualAssignment existingOrder.orderStatus .dispatched false with
          | .refused code message => .reply (refusal code message)
          | .allowed => .update (assignmentUpdate existingOrder driver.id body.priority userId role now)
        else .update (assignmentUpdate existingOrder driver.id body.priority userId role now)

/-! ### driverAction.controller.ts -/

inductive DriverActionName where
  | accepted | outForDelivery | delivered | other (text : String)
  deriving DecidableEq, Repr

def DriverActionName.targetStatus : DriverActionName → Option OrderStatus
  | .accepted => some .accepted
  | .outForDelivery => some .outForDelivery
  | .delivered => some .delivered
  | .other _ => none

def driverActionReply : OrderStatus → Reply
  | .accepted => ⟨200,none,"Order accepted"⟩
  | .outForDelivery => ⟨200,none,"Order marked OUT_FOR_DELIVERY"⟩
  | _ => ⟨200,none,"Order marked DELIVERED"⟩

def driverActionMissed : OrderStatus → String
  | .accepted => "Order changed before acceptance could be completed."
  | .outForDelivery => "Order changed before pickup could be completed."
  | _ => "Order changed before delivery could be completed."

/-- The three branches of the handler differ in their target and texts only. -/
def driverActionUpdate (order : Order) (userId : UserId) (targetStatus : OrderStatus)
    (now : Time) : GuardedUpdate where
  guard := { orderStatus := some order.orderStatus, assignedDriverId := some (some userId) }
  data := (({ orderStatus := some targetStatus } : OrderData).spread
    (buildOrderTransitionTimestampData order.toOrderLifecycleSnapshot targetStatus now)).spread
    (getFirstDispatchAttribution order.dispatchedAt ⟨some userId,some .driver⟩)
  updated := driverActionReply targetStatus
  missed := fun _ => refusal .invalidOrderTransition (driverActionMissed targetStatus)

def driverAction (order : Option Order) (user : Option UserId) (action : DriverActionName)
    (receipt : Bool) (now : Time) : Decision :=
  match user with
  | none => .reply unauthorized
  | some userId =>
  match order with
  | none => .reply orderNotFound
  | some order =>
    if order.assignedDriverId ≠ some userId then .reply forbidden
    else match action.targetStatus with
    | none => .reply ⟨400,none,"Invalid action"⟩
    | some targetStatus =>
      match evaluateOrderStatusTransition .driverAction order.orderStatus targetStatus
        (targetStatus.needsReceipt && receipt) with
      | .refused code message => .reply (refusal code message)
      | .allowed => .update (driverActionUpdate order userId targetStatus now)

/-! ### updateOrderStatusController -/

def cleanedCancellationReason (reason : Option String) : Option String :=
  match reason with
  | none => none
  | some reason => if JsText.trim reason = "" then none else some (JsText.trim reason)

def cancellationUpdate (existingOrder : Order) (reason : Option String) (now : Time) : GuardedUpdate where
  guard := { orderStatus := some existingOrder.orderStatus }
  data := { orderStatus := some .cancelled, cancelledAt := some (some now),
            cancelledFromStatus := some (some existingOrder.orderStatus),
            cancellationReason := some (cleanedCancellationReason reason) }
  updated := ⟨200,none,"Order cancelled successfully"⟩
  missed := fun _ => refusal .invalidOrderTransition
    "Order changed before cancellation could be completed."

def updateOrderStatus (existingOrder : Option Order) (role : Option UserRole)
    (orderStatus : OrderStatus) (reason : Option String) (now : Time) : Decision :=
  if role ≠ some .admin ∧ role ≠ some .dispatcher then .reply forbidden
  else if orderStatus ≠ .cancelled then
    .reply (refusal .invalidOrderTransition
      "Operational status changes must be completed through the assigned driver workflow.")
  else match existingOrder with
  | none => .reply orderNotFound
  | some existingOrder =>
    match evaluateOrderStatusTransition .staffCancellation existingOrder.orderStatus orderStatus false with
    | .refused code message => .reply (refusal code message)
    | .allowed => .update (cancellationUpdate existingOrder reason now)

/-! ### updateOrderDetailsController -/

/-- The submitted details, with the customer and the location the handler found
for them. A `none` for unit, buzz code or location means nothing was submitted. -/
structure OrderDetails where
  customerId : CustomerId
  customerName : String
  phone : String
  email : String
  addressLine1 : String
  unitNumber : Option (Option String)
  buzzCode : Option (Option String)
  city : String
  province : String
  itemsText : String
  additionalNotes : Option String
  paymentMethod : PaymentMethod
  location : Option OrderLocation
  deriving DecidableEq, Repr

def updateOrderDetails (existingOrder : Option Order) : Except Reply Order :=
  match existingOrder with
  | none => .error orderNotFound
  | some existingOrder =>
    if existingOrder.orderStatus.final then
      .error ⟨400,none,"Delivered or cancelled orders cannot be edited"⟩
    else .ok existingOrder

/-- Unit and buzz code fall back to the order the handler read, not to the row. -/
def OrderDetails.apply (details : OrderDetails) (existingOrder o : Order) : Order :=
  { o with
    customerId := some details.customerId
    customerName := details.customerName
    phone := details.phone
    email := details.email
    addressLine1 := details.addressLine1
    unitNumber := details.unitNumber.getD existingOrder.unitNumber
    buzzCode := details.buzzCode.getD existingOrder.buzzCode
    city := details.city
    province := details.province
    itemsText := details.itemsText
    additionalNotes := details.additionalNotes
    paymentMethod := details.paymentMethod
    toOrderLocation := details.location.getD o.toOrderLocation }

/-! ### The transactions of auto-dispatch and of a driver's receipt

Both decide on the row they have locked, so their update cannot be stale. -/

def autoDispatchUpdate (lockedOrder : Order) (driver : UserId) (allocationTime : Time) : OrderData :=
  ((({ assignedDriverId := some (some driver), assignedAt := some (some allocationTime) } : OrderData).spread
    (buildOrderTransitionTimestampData lockedOrder.toOrderLifecycleSnapshot .dispatched allocationTime)).spread
    { dispatchedByUserId := some none, dispatchSource := some (some .auto) }).spread
    { orderStatus := some .dispatched }

def autoDispatchEvent (driver : UserId) : RecordDispatchEventInput where
  eventType := .assigned
  dispatchSource := .auto
  actorUserId := none
  fromDriverId := none
  toDriverId := some driver
  occurredAt := none

/-- `selected` is the driver the allocation chose and locked as assignable. -/
def autoDispatchTransaction (lockedOrder : Order) (selected : Option UserId)
    (allocationTime : Time) : Except String OrderData :=
  if lockedOrder.orderStatus ≠ .placed ∨ lockedOrder.assignedDriverId ≠ none then .error "ORDER_CHANGED"
  else match evaluateOrderStatusTransition .autoDispatch lockedOrder.orderStatus .dispatched false with
  | .refused _ _ => .error "ORDER_CHANGED"
  | .allowed => match selected with
    | none => .error "NO_ROUTEABLE_DRIVERS"
    | some driver => .ok (autoDispatchUpdate lockedOrder driver allocationTime)

/-- `none` is the handler's exception, which rolls the receipt back as well. -/
def receiptUpdate (order : Order) (now : Time) : Option OrderData :=
  if order.orderStatus ≠ .accepted then some {}
  else match evaluateOrderStatusTransition .receipt order.orderStatus .outForDelivery true with
  | .refused _ _ => none
  | .allowed => some (({ orderStatus := some .outForDelivery } : OrderData).spread
      (buildOrderTransitionTimestampData order.toOrderLifecycleSnapshot .outForDelivery now))

end SpeedySweeties
