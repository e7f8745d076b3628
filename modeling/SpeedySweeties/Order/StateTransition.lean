import SpeedySweeties.Schema

/-! `orderStateTransition.service.ts` and `dispatchAttribution.ts`: the policy all
status writers share, and the columns a status write sets. A partial update keeps
every column it does not name, as an object spread into `data` does. -/
namespace SpeedySweeties

def initialOrderStatus : OrderStatus := .placed

inductive OrderTransitionActor where
  | autoDispatch | manualAssignment | manualUnassignment | driverAction | receipt | staffCancellation
  deriving DecidableEq, Repr

inductive OrderTransitionFailureCode where
  | invalidOrderTransition | receiptRequired
  deriving DecidableEq, Repr

def OrderTransitionFailureCode.text : OrderTransitionFailureCode → String
  | .invalidOrderTransition => "INVALID_ORDER_TRANSITION"
  | .receiptRequired => "RECEIPT_REQUIRED"

inductive OrderTransitionDecision where
  | allowed
  | refused (code : OrderTransitionFailureCode) (message : String)
  deriving DecidableEq, Repr

def operationalStatuses : List OrderStatus := [.placed,.dispatched,.accepted,.outForDelivery]

def invalidTransition (currentStatus targetStatus : OrderStatus) : OrderTransitionDecision :=
  .refused .invalidOrderTransition
    ("Order cannot transition from " ++ currentStatus.name ++ " to " ++ targetStatus.name ++ ".")

def evaluateOrderStatusTransition (actor : OrderTransitionActor)
    (currentStatus targetStatus : OrderStatus) (hasPersistedReceipt : Bool) : OrderTransitionDecision :=
  if currentStatus = .delivered ∨ currentStatus = .cancelled ∨ currentStatus = targetStatus then
    invalidTransition currentStatus targetStatus
  else if actor = .staffCancellation then
    if targetStatus = .cancelled ∧ currentStatus ∈ operationalStatuses then .allowed
    else invalidTransition currentStatus targetStatus
  else if actor = .autoDispatch ∨ actor = .manualAssignment then
    if currentStatus = .placed ∧ targetStatus = .dispatched then .allowed
    else invalidTransition currentStatus targetStatus
  else if actor = .manualUnassignment then
    if currentStatus = .dispatched ∧ targetStatus = .placed then .allowed
    else invalidTransition currentStatus targetStatus
  else if (actor = .driverAction ∨ actor = .receipt) ∧ currentStatus = .accepted ∧
      targetStatus = .outForDelivery then
    if hasPersistedReceipt then .allowed
    else .refused .receiptRequired "A valid digital receipt is required before pickup."
  else if actor = .driverAction ∧ (currentStatus = .placed ∨ currentStatus = .dispatched) ∧
      targetStatus = .accepted then .allowed
  else if actor = .driverAction ∧ currentStatus = .outForDelivery ∧ targetStatus = .delivered then
    if hasPersistedReceipt then .allowed
    else .refused .receiptRequired "A valid digital receipt is required before delivery completion."
  else invalidTransition currentStatus targetStatus

/-- The lifecycle graph the policy is meant to enforce, stated on its own. -/
inductive Follows : OrderStatus → OrderStatus → Prop where
  | dispatch : Follows .placed .dispatched
  | acceptPlaced : Follows .placed .accepted
  | unassign : Follows .dispatched .placed
  | accept : Follows .dispatched .accepted
  | pickUp : Follows .accepted .outForDelivery
  | deliver : Follows .outForDelivery .delivered
  | cancel {status} (operational : status ∈ operationalStatuses) : Follows status .cancelled

def OrderStatus.final (status : OrderStatus) : Bool := status = .delivered ∨ status = .cancelled

def OrderStatus.needsReceipt (status : OrderStatus) : Bool :=
  status = .outForDelivery ∨ status = .delivered

theorem finalNeverLeft {status target} (final : status.final = true) : ¬ Follows status target := by
  intro h
  cases h with
  | cancel operational => revert final operational; cases status <;> decide
  | _ => simp [OrderStatus.final] at final

theorem allowedFollows {actor current target receipt}
    (ok : evaluateOrderStatusTransition actor current target receipt = .allowed) :
    Follows current target ∧ (target.needsReceipt = true → receipt = true) := by
  unfold evaluateOrderStatusTransition invalidTransition at ok
  split at ok; · contradiction
  split at ok
  · split at ok <;> try contradiction
    rename_i h; obtain ⟨rfl,operational⟩ := h
    exact ⟨.cancel operational,by simp [OrderStatus.needsReceipt]⟩
  split at ok
  · split at ok <;> try contradiction
    rename_i h; obtain ⟨rfl,rfl⟩ := h
    exact ⟨.dispatch,by simp [OrderStatus.needsReceipt]⟩
  split at ok
  · split at ok <;> try contradiction
    rename_i h; obtain ⟨rfl,rfl⟩ := h
    exact ⟨.unassign,by simp [OrderStatus.needsReceipt]⟩
  split at ok
  · split at ok <;> try contradiction
    rename_i h have_; obtain ⟨_,rfl,rfl⟩ := h
    exact ⟨.pickUp,fun _ => have_⟩
  split at ok
  · rename_i h; obtain ⟨_,rfl | rfl,rfl⟩ := h
    · exact ⟨.acceptPlaced,by simp [OrderStatus.needsReceipt]⟩
    · exact ⟨.accept,by simp [OrderStatus.needsReceipt]⟩
  split at ok
  · split at ok <;> try contradiction
    rename_i h have_; obtain ⟨_,rfl,rfl⟩ := h
    exact ⟨.deliver,fun _ => have_⟩
  · contradiction

theorem driverTransitions {current target receipt}
    (ok : evaluateOrderStatusTransition .driverAction current target receipt = .allowed) :
    target = .accepted ∧ (current = .placed ∨ current = .dispatched) ∨
    target = .outForDelivery ∧ current = .accepted ∨
    target = .delivered ∧ current = .outForDelivery := by
  revert ok
  cases current <;> cases target <;> simp [evaluateOrderStatusTransition,invalidTransition]

theorem cancellationTarget {current target receipt}
    (ok : evaluateOrderStatusTransition .staffCancellation current target receipt = .allowed) :
    target = .cancelled ∧ current.final = false := by
  revert ok
  cases current <;> cases target <;>
    simp [evaluateOrderStatusTransition,invalidTransition,operationalStatuses,OrderStatus.final]

/-! ### Partial updates of the dispatch columns -/

structure OrderData where
  orderStatus : Option OrderStatus := none
  priority : Option OrderPriority := none
  assignedDriverId : Option (Option UserId) := none
  assignedAt : Option (Option Time) := none
  dispatchedAt : Option (Option Time) := none
  dispatchedByUserId : Option (Option UserId) := none
  dispatchSource : Option (Option DispatchSource) := none
  acceptedAt : Option (Option Time) := none
  outForDeliveryAt : Option (Option Time) := none
  deliveredAt : Option (Option Time) := none
  cancelledAt : Option (Option Time) := none
  cancelledFromStatus : Option (Option OrderStatus) := none
  cancellationReason : Option (Option String) := none
  deriving DecidableEq, Repr

/-- `{ ...a, ...b }`: a column named twice takes the later value. -/
def OrderData.spread (a b : OrderData) : OrderData where
  orderStatus := b.orderStatus <|> a.orderStatus
  priority := b.priority <|> a.priority
  assignedDriverId := b.assignedDriverId <|> a.assignedDriverId
  assignedAt := b.assignedAt <|> a.assignedAt
  dispatchedAt := b.dispatchedAt <|> a.dispatchedAt
  dispatchedByUserId := b.dispatchedByUserId <|> a.dispatchedByUserId
  dispatchSource := b.dispatchSource <|> a.dispatchSource
  acceptedAt := b.acceptedAt <|> a.acceptedAt
  outForDeliveryAt := b.outForDeliveryAt <|> a.outForDeliveryAt
  deliveredAt := b.deliveredAt <|> a.deliveredAt
  cancelledAt := b.cancelledAt <|> a.cancelledAt
  cancelledFromStatus := b.cancelledFromStatus <|> a.cancelledFromStatus
  cancellationReason := b.cancellationReason <|> a.cancellationReason

def OrderData.applyDispatch (d : OrderData) (o : OrderDispatch) : OrderDispatch where
  assignedAt := d.assignedAt.getD o.assignedAt
  dispatchedAt := d.dispatchedAt.getD o.dispatchedAt
  acceptedAt := d.acceptedAt.getD o.acceptedAt
  outForDeliveryAt := d.outForDeliveryAt.getD o.outForDeliveryAt
  deliveredAt := d.deliveredAt.getD o.deliveredAt
  orderStatus := d.orderStatus.getD o.orderStatus
  priority := d.priority.getD o.priority
  assignedDriverId := d.assignedDriverId.getD o.assignedDriverId
  dispatchedByUserId := d.dispatchedByUserId.getD o.dispatchedByUserId
  dispatchSource := d.dispatchSource.getD o.dispatchSource
  cancelledAt := d.cancelledAt.getD o.cancelledAt
  cancelledFromStatus := d.cancelledFromStatus.getD o.cancelledFromStatus
  cancellationReason := d.cancellationReason.getD o.cancellationReason

def OrderData.apply (d : OrderData) (o : Order) : Order :=
  { o with toOrderDispatch := d.applyDispatch o.toOrderDispatch }

structure OrderWhere where
  orderStatus : Option OrderStatus := none
  assignedDriverId : Option (Option UserId) := none
  deriving DecidableEq, Repr

def OrderWhere.Matches (w : OrderWhere) (o : Order) : Prop :=
  (∀ status ∈ w.orderStatus, o.orderStatus = status) ∧
  (∀ driver ∈ w.assignedDriverId, o.assignedDriverId = driver)

instance (w : OrderWhere) (o : Order) : Decidable (w.Matches o) := by
  unfold OrderWhere.Matches; infer_instance

def buildOrderTransitionTimestampData (currentOrder : OrderLifecycleSnapshot)
    (targetStatus : OrderStatus) (now : Time) : OrderData :=
  let dispatchedAt := currentOrder.dispatchedAt <|> currentOrder.assignedAt <|> some now
  let acceptedAt := currentOrder.acceptedAt <|> some now
  let outForDeliveryAt := currentOrder.outForDeliveryAt <|> some now
  match targetStatus with
  | .dispatched => { dispatchedAt := some (currentOrder.dispatchedAt <|> some now) }
  | .accepted => { dispatchedAt := some dispatchedAt, acceptedAt := some acceptedAt }
  | .outForDelivery => { dispatchedAt := some dispatchedAt, acceptedAt := some acceptedAt,
                         outForDeliveryAt := some outForDeliveryAt }
  | .delivered => { dispatchedAt := some dispatchedAt, acceptedAt := some acceptedAt,
                    outForDeliveryAt := some outForDeliveryAt,
                    deliveredAt := some (currentOrder.deliveredAt <|> some now) }
  | _ => {}

structure DispatchActor where
  userId : Option UserId
  role : Option UserRole
  deriving DecidableEq, Repr

def getFirstDispatchAttribution (dispatchedAt : Option Time) (actor : DispatchActor) : OrderData :=
  if dispatchedAt.isSome then {}
  else if actor.role = some .driver then
    { dispatchSource := some (some .driver), dispatchedByUserId := some none }
  else match actor.userId with
    | some userId =>
      if userId = "" then {}
      else { dispatchSource := some (some .manual), dispatchedByUserId := some (some userId) }
    | none => {}

theorem attributionColumns (dispatchedAt actor) : ∃ user source,
    getFirstDispatchAttribution dispatchedAt actor =
      { dispatchedByUserId := user, dispatchSource := source } := by
  unfold getFirstDispatchAttribution
  split; · exact ⟨none,none,rfl⟩
  split; · exact ⟨_,_,rfl⟩
  split
  · split
    · exact ⟨none,none,rfl⟩
    · exact ⟨_,_,rfl⟩
  · exact ⟨none,none,rfl⟩

theorem timestampColumns (current target now) : ∃ dispatched accepted out delivered,
    buildOrderTransitionTimestampData current target now =
      { dispatchedAt := dispatched, acceptedAt := accepted,
        outForDeliveryAt := out, deliveredAt := delivered } := by
  cases target <;> exact ⟨_,_,_,_,rfl⟩

end SpeedySweeties
