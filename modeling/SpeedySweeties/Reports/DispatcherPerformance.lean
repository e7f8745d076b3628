import SpeedySweeties.Library.Grouping
import SpeedySweeties.Library.JsText
import SpeedySweeties.Order.DispatchTiming
import SpeedySweeties.Reports.Metrics

/-! The dispatchers' performance report. Several loops classify the same orders and events, by
dispatcher, by source and by day, and a summary counts them once more; all of them agree. -/
namespace SpeedySweeties.Reports
open DispatchTiming

inductive SourceGroup where | app | online | manual | unknown deriving DecidableEq, Repr

structure DispatcherPerformanceUser where
  id : String
  firstName : Option String
  lastName : Option String
  role : UserRole
  isActive : Bool
  deriving DecidableEq, Repr

structure DispatcherPerformanceOrder where
  id : String
  orderNumber : Nat
  orderStatus : OrderStatus
  orderSource : OrderSource
  dispatchSource : Option DispatchSource := none
  createdAt : Int
  manualEntryStartedAt : Option Int := none
  createdByUserId : Option String := none
  dispatchedAt : Option Int := none
  dispatchEditPauses : List DispatchEditPause := []
  dispatchedByUserId : Option String := none
  deliveredAt : Option Int := none
  deriving DecidableEq, Repr

structure DispatcherPerformanceEvent where
  orderId : String
  eventType : DispatchEventType
  dispatchSource : DispatchSource
  actorUserId : Option String
  occurredAt : Int
  deriving DecidableEq, Repr

structure DurationBreakdown where
  totalOrders : Nat
  averageDispatchMinutes : Option ℚ
  medianDispatchMinutes : Option ℚ
  longestDispatchMinutes : Option ℚ
  p90DispatchMinutes : Option ℚ
  withinFiveMinutesPercent : Option ℚ
  deriving DecidableEq, Repr

structure DispatcherAccumulator where
  dispatcher : DispatcherPerformanceUser
  manualOrdersCreated : Nat := 0
  manualEntryMinutes : List ℚ := []
  dispatchedOrders : List DispatcherPerformanceOrder := []
  assignmentActions : Nat := 0
  reassignments : Nat := 0
  unassignments : Nat := 0
  deriving DecidableEq, Repr

def sourceGroups : List SourceGroup := [.app,.online,.manual,.unknown]

def ascending (values : List ℚ) : List ℚ := values.mergeSort fun a b => decide (a ≤ b)

def percentile (values : List ℚ) (fraction : ℚ) : Option ℚ :=
  ((ascending values)[(⌈fraction * values.length⌉ - 1).toNat]?).map (round · 1)

def median (values : List ℚ) : Option ℚ := do
  let sorted := ascending values
  let middle := sorted.length / 2
  let upper ← sorted[middle]?
  if sorted.length % 2 = 0 then some (round (((← sorted[middle - 1]?) + upper) / 2) 1) else some (round upper 1)

def longest (values : List ℚ) : Option ℚ := values.max?.map (round · 1)

def getSourceGroup : OrderSource → SourceGroup
  | .androidApp | .iosApp => .app
  | .webflow => .online
  | .dispatcherManual => .manual
  | .unknown => .unknown

def dispatchMinutesForOrder (order : DispatcherPerformanceOrder) : Option ℚ := do
  let _ ← minutesBetween (some order.createdAt) order.dispatchedAt
  let waiting ← DispatchTiming.dispatchWaitingMilliseconds (some order.createdAt) order.dispatchedAt order.dispatchEditPauses
  some ((waiting : ℚ) / 60000)

def buildDurationBreakdown (orders : List DispatcherPerformanceOrder) : DurationBreakdown :=
  let dispatchMinutes := orders.filterMap dispatchMinutesForOrder
  { totalOrders := orders.length
    averageDispatchMinutes := average dispatchMinutes
    medianDispatchMinutes := median dispatchMinutes
    longestDispatchMinutes := longest dispatchMinutes
    p90DispatchMinutes := percentile dispatchMinutes (9/10)
    withinFiveMinutesPercent := percentage (dispatchMinutes.filter (· ≤ 5)).length dispatchMinutes.length }

def displayName (dispatcher : DispatcherPerformanceUser) : String :=
  let name := JsText.trim (" ".intercalate ([dispatcher.firstName,dispatcher.lastName].filterMap present))
  if name = "" then "Unnamed dispatcher" else name

def buildSourceBreakdown (orders : List DispatcherPerformanceOrder) : List (SourceGroup × DurationBreakdown) :=
  sourceGroups.map fun sourceGroup =>
    (sourceGroup,buildDurationBreakdown (orders.filter fun order => getSourceGroup order.orderSource = sourceGroup))

abbrev FirstAssignments := Table DispatcherPerformanceEvent (·.orderId)

def firstAssignmentByOrderId (events : List DispatcherPerformanceEvent) : FirstAssignments :=
  events.foldl (fun first event =>
    if event.eventType ≠ .assigned then first
    else match first.find event.orderId with
      | some current => if event.occurredAt < current.occurredAt then first.put event else first
      | none => first.put event) Table.empty

def buildFirstDispatchOrders (orders : List DispatcherPerformanceOrder) (events : List DispatcherPerformanceEvent) :
    List DispatcherPerformanceOrder :=
  let first := firstAssignmentByOrderId events
  orders.filterMap fun order =>
    match first.find order.id with
    | some firstAssignment =>
      if firstAssignment.dispatchSource ≠ .manual ∨ present firstAssignment.actorUserId = none then none
      else some { order with
        dispatchSource := some .manual
        dispatchedByUserId := firstAssignment.actorUserId
        dispatchedAt := some firstAssignment.occurredAt }
    | none => if order.dispatchSource = some .manual ∧ present order.dispatchedByUserId ≠ none then some order else none

structure DispatcherPerformanceInput where
  dispatchers : List DispatcherPerformanceUser
  orders : List DispatcherPerformanceOrder
  events : List DispatcherPerformanceEvent
  selectedDispatcherIds : List String := []
  selectedSourceGroups : List SourceGroup := []
  overFiveMinutesOnly : Bool := false

namespace DispatcherPerformanceInput
variable (input : DispatcherPerformanceInput)

def sourceFilteredOrders : List DispatcherPerformanceOrder :=
  input.orders.filter fun order => input.selectedSourceGroups = [] ∨ getSourceGroup order.orderSource ∈ input.selectedSourceGroups

def sourceFilteredEvents : List DispatcherPerformanceEvent :=
  input.events.filter fun event => event.orderId ∈ input.sourceFilteredOrders.map (·.id)

def firstDispatchOrders : List DispatcherPerformanceOrder :=
  (buildFirstDispatchOrders input.sourceFilteredOrders input.sourceFilteredEvents).filter fun order =>
    !input.overFiveMinutesOnly || (dispatchMinutesForOrder order).any (5 < ·)

def performanceOrders : List DispatcherPerformanceOrder :=
  if input.overFiveMinutesOnly then input.sourceFilteredOrders.filter fun order => order.id ∈ input.firstDispatchOrders.map (·.id)
  else input.sourceFilteredOrders

def performanceEvents : List DispatcherPerformanceEvent :=
  if input.overFiveMinutesOnly then input.sourceFilteredEvents.filter fun event => event.orderId ∈ input.firstDispatchOrders.map (·.id)
  else input.sourceFilteredEvents

def selectedDispatchers : List DispatcherPerformanceUser :=
  input.dispatchers.filter fun dispatcher => input.selectedDispatcherIds = [] ∨ dispatcher.id ∈ input.selectedDispatcherIds

def selectedIds : List String := (input.selectedDispatchers.map (·.id)).eraseDups

/-- `id && selectedIds.has(id)`, with the id. -/
def selected (id : Option String) : Option String := (present id).filter (· ∈ input.selectedIds)

/-- Who is credited with the entry of an order, with its dispatch, with an event. -/
def manualEntryBy (order : DispatcherPerformanceOrder) : Option String :=
  if order.orderSource = .dispatcherManual then input.selected order.createdByUserId else none

def dispatchedBy (order : DispatcherPerformanceOrder) : Option String := input.selected order.dispatchedByUserId

def actionBy (event : DispatcherPerformanceEvent) : Option String :=
  if event.dispatchSource = .manual then input.selected event.actorUserId else none

end DispatcherPerformanceInput

def entryMinutes (order : DispatcherPerformanceOrder) : Option ℚ := minutesBetween order.manualEntryStartedAt (some order.createdAt)

def addManualEntry (order : DispatcherPerformanceOrder) (row : DispatcherAccumulator) : DispatcherAccumulator :=
  { row with
    manualOrdersCreated := row.manualOrdersCreated + 1
    manualEntryMinutes := row.manualEntryMinutes ++ (entryMinutes order).toList }

def addDispatched (order : DispatcherPerformanceOrder) (row : DispatcherAccumulator) : DispatcherAccumulator :=
  { row with dispatchedOrders := row.dispatchedOrders ++ [order] }

def addAction (event : DispatcherPerformanceEvent) (row : DispatcherAccumulator) : DispatcherAccumulator :=
  { row with
    assignmentActions := row.assignmentActions + if event.eventType = .assigned ∨ event.eventType = .reassigned then 1 else 0
    reassignments := row.reassignments + if event.eventType = .reassigned then 1 else 0
    unassignments := row.unassignments + if event.eventType = .unassigned then 1 else 0 }

theorem manualEntryKeeps (order : DispatcherPerformanceOrder) (row : DispatcherAccumulator) :
    (addManualEntry order row).dispatcher.id = row.dispatcher.id := rfl

theorem dispatchedKeeps (order : DispatcherPerformanceOrder) (row : DispatcherAccumulator) :
    (addDispatched order row).dispatcher.id = row.dispatcher.id := rfl

theorem actionKeeps (event : DispatcherPerformanceEvent) (row : DispatcherAccumulator) :
    (addAction event row).dispatcher.id = row.dispatcher.id := rfl

def accumulators (input : DispatcherPerformanceInput) : Table DispatcherAccumulator (·.dispatcher.id) :=
  let start := Table.ofRows (·.dispatcher.id) (input.selectedDispatchers.map fun dispatcher => { dispatcher := dispatcher : DispatcherAccumulator })
  let entered := start.modifyEach input.performanceOrders input.manualEntryBy addManualEntry manualEntryKeeps
  let dispatched := entered.modifyEach input.firstDispatchOrders input.dispatchedBy addDispatched dispatchedKeeps
  dispatched.modifyEach input.performanceEvents input.actionBy addAction actionKeeps

/-- `Boolean(id) && selectedIds.has(id ?? "")` -/
def DispatcherPerformanceInput.isSelected (input : DispatcherPerformanceInput) (id : Option String) : Bool :=
  (present id).isSome && id.getD "" ∈ input.selectedIds

def selectedDispatchedOrders (input : DispatcherPerformanceInput) : List DispatcherPerformanceOrder :=
  input.firstDispatchOrders.filter fun order => input.isSelected order.dispatchedByUserId

def selectedManualOrders (input : DispatcherPerformanceInput) : List DispatcherPerformanceOrder :=
  input.performanceOrders.filter fun order => order.orderSource = .dispatcherManual && input.isSelected order.createdByUserId

def selectedEvents (input : DispatcherPerformanceInput) : List DispatcherPerformanceEvent :=
  input.performanceEvents.filter fun event => event.dispatchSource = .manual && input.isSelected event.actorUserId

structure DispatcherStats where
  dispatcherId : String
  firstName : Option String
  lastName : Option String
  displayName : String
  role : UserRole
  isActive : Bool
  manualOrdersCreated : Nat
  manualEntryTimeSamples : Nat
  averageManualEntryMinutes : Option ℚ
  ordersDispatched : Nat
  dispatchTimeSamples : Nat
  dispatchDurations : DurationBreakdown
  deliveredOrders : Nat
  averageTotalDeliveryMinutes : Option ℚ
  averagePostDispatchDeliveryMinutes : Option ℚ
  cancelledOrders : Nat
  assignmentActions : Nat
  reassignments : Nat
  unassignments : Nat
  sourceBreakdown : List (SourceGroup × DurationBreakdown)
  deriving DecidableEq, Repr

def DispatcherAccumulator.stats (row : DispatcherAccumulator) : DispatcherStats :=
  let dispatchDurations := buildDurationBreakdown row.dispatchedOrders
  let deliveredOrders := row.dispatchedOrders.filter fun order => order.orderStatus = .delivered ∧ order.deliveredAt ≠ none
  { dispatcherId := row.dispatcher.id
    firstName := row.dispatcher.firstName
    lastName := row.dispatcher.lastName
    displayName := Reports.displayName row.dispatcher
    role := row.dispatcher.role
    isActive := row.dispatcher.isActive
    manualOrdersCreated := row.manualOrdersCreated
    manualEntryTimeSamples := row.manualEntryMinutes.length
    averageManualEntryMinutes := average row.manualEntryMinutes
    ordersDispatched := dispatchDurations.totalOrders
    dispatchTimeSamples := (row.dispatchedOrders.filter fun order => dispatchMinutesForOrder order ≠ none).length
    dispatchDurations
    deliveredOrders := deliveredOrders.length
    averageTotalDeliveryMinutes := average (deliveredOrders.filterMap fun order => minutesBetween (some order.createdAt) order.deliveredAt)
    averagePostDispatchDeliveryMinutes := average (deliveredOrders.filterMap fun order => minutesBetween order.dispatchedAt order.deliveredAt)
    cancelledOrders := (row.dispatchedOrders.filter fun order => order.orderStatus = .cancelled).length
    assignmentActions := row.assignmentActions
    reassignments := row.reassignments
    unassignments := row.unassignments
    sourceBreakdown := buildSourceBreakdown row.dispatchedOrders }

structure DispatcherSummary where
  manualOrdersCreated : Nat
  manualEntryTimeSamples : Nat
  averageManualEntryMinutes : Option ℚ
  ordersDispatched : Nat
  dispatchTimeSamples : Nat
  dispatchDurations : DurationBreakdown
  deliveredOrders : Nat
  averageTotalDeliveryMinutes : Option ℚ
  averagePostDispatchDeliveryMinutes : Option ℚ
  cancelledOrders : Nat
  assignmentActions : Nat
  reassignments : Nat
  unassignments : Nat
  deriving DecidableEq, Repr

def performanceSummary (input : DispatcherPerformanceInput) : DispatcherSummary :=
  let dispatched := selectedDispatchedOrders input
  let delivered := dispatched.filter fun order => order.orderStatus = .delivered
  let manualEntryMinutes := (selectedManualOrders input).filterMap entryMinutes
  let dispatchSummary := buildDurationBreakdown dispatched
  { manualOrdersCreated := (selectedManualOrders input).length
    manualEntryTimeSamples := manualEntryMinutes.length
    averageManualEntryMinutes := average manualEntryMinutes
    ordersDispatched := dispatchSummary.totalOrders
    dispatchTimeSamples := (dispatched.filter fun order => dispatchMinutesForOrder order ≠ none).length
    dispatchDurations := dispatchSummary
    deliveredOrders := delivered.length
    averageTotalDeliveryMinutes := average (delivered.filterMap fun order => minutesBetween (some order.createdAt) order.deliveredAt)
    averagePostDispatchDeliveryMinutes := average (delivered.filterMap fun order => minutesBetween order.dispatchedAt order.deliveredAt)
    cancelledOrders := (dispatched.filter fun order => order.orderStatus = .cancelled).length
    assignmentActions := ((selectedEvents input).filter fun event => event.eventType = .assigned ∨ event.eventType = .reassigned).length
    reassignments := ((selectedEvents input).filter fun event => event.eventType = .reassigned).length
    unassignments := ((selectedEvents input).filter fun event => event.eventType = .unassigned).length }

structure DispatcherCoverage where
  allOrdersInRange : Nat
  totalOrders : Nat
  automaticDispatches : Nat
  driverDispatches : Nat
  unattributedManualDispatches : Nat
  unattributedDispatches : Nat
  undispatchedOrders : Nat
  unknownSourceOrders : Nat
  deriving DecidableEq, Repr

def performanceCoverage (input : DispatcherPerformanceInput) : DispatcherCoverage :=
  let orders := input.sourceFilteredOrders
  { allOrdersInRange := input.orders.length
    totalOrders := orders.length
    automaticDispatches := orders.countP (·.dispatchSource = some .auto)
    driverDispatches := orders.countP (·.dispatchSource = some .driver)
    unattributedManualDispatches := orders.countP fun order => order.dispatchSource = some .manual ∧ present order.dispatchedByUserId = none
    unattributedDispatches := orders.countP fun order => order.dispatchedAt ≠ none ∧ order.dispatchSource = none
    undispatchedOrders := orders.countP (·.dispatchedAt = none)
    unknownSourceOrders := orders.countP (·.orderSource = .unknown) }

structure OrderDetail where
  orderId : String
  orderNumber : Nat
  dispatcherId : Option String
  orderStatus : OrderStatus
  orderSource : OrderSource
  sourceGroup : SourceGroup
  createdAt : Int
  dispatchedAt : Option Int
  dispatchMinutes : Option ℚ
  withinFiveMinutes : Option Bool
  deliveredAt : Option Int
  totalDeliveryMinutes : Option ℚ
  postDispatchDeliveryMinutes : Option ℚ
  deriving DecidableEq, Repr

def DispatcherPerformanceOrder.detail (order : DispatcherPerformanceOrder) : OrderDetail where
  orderId := order.id
  orderNumber := order.orderNumber
  dispatcherId := order.dispatchedByUserId
  orderStatus := order.orderStatus
  orderSource := order.orderSource
  sourceGroup := getSourceGroup order.orderSource
  createdAt := order.createdAt
  dispatchedAt := order.dispatchedAt
  dispatchMinutes := dispatchMinutesForOrder order
  withinFiveMinutes := (dispatchMinutesForOrder order).map (· ≤ 5)
  deliveredAt := order.deliveredAt
  totalDeliveryMinutes := minutesBetween (some order.createdAt) order.deliveredAt
  postDispatchDeliveryMinutes := minutesBetween order.dispatchedAt order.deliveredAt

structure DispatcherPerformanceReport where
  dispatchers : List DispatcherPerformanceUser
  selectedDispatcherIds : List String
  selectedSourceGroups : List SourceGroup
  overFiveMinutesOnly : Bool
  summary : DispatcherSummary
  coverage : DispatcherCoverage
  sourceBreakdown : List (SourceGroup × DurationBreakdown)
  dailyTrend : List (String × DurationBreakdown)
  stats : List DispatcherStats
  orders : List OrderDetail
  deriving DecidableEq, Repr

section Report
variable (localeCompare : String → String → Int) (formatTorontoDateKey : Int → String)

/-- `a || b` of two comparisons. -/
def orElse (a b : Int) : Int := if a = 0 then b else a

def compareStats (a b : DispatcherStats) : Int :=
  orElse (b.ordersDispatched - a.ordersDispatched) (orElse (b.manualOrdersCreated - a.manualOrdersCreated)
    (localeCompare a.displayName b.displayName))

def dailyTrend (orders : List DispatcherPerformanceOrder) : List (String × DurationBreakdown) :=
  ((Table.groupBy (fun order => formatTorontoDateKey order.createdAt) orders).rows.mergeSort
    fun a b => decide (localeCompare a.1 b.1 ≤ 0)).map fun day => (day.1,buildDurationBreakdown day.2)

def buildDispatcherPerformance (input : DispatcherPerformanceInput) : DispatcherPerformanceReport where
  dispatchers := input.dispatchers.mergeSort fun a b => decide (localeCompare (displayName a) (displayName b) ≤ 0)
  selectedDispatcherIds := input.selectedIds
  selectedSourceGroups := input.selectedSourceGroups.eraseDups
  overFiveMinutesOnly := input.overFiveMinutesOnly
  summary := performanceSummary input
  coverage := performanceCoverage input
  sourceBreakdown := buildSourceBreakdown (selectedDispatchedOrders input)
  dailyTrend := dailyTrend localeCompare formatTorontoDateKey (selectedDispatchedOrders input)
  stats := ((accumulators input).rows.map (·.stats)).mergeSort fun a b => decide (compareStats localeCompare a b ≤ 0)
  orders := ((selectedDispatchedOrders input).map (·.detail)).mergeSort fun a b => decide (b.createdAt ≤ a.createdAt)

end Report
end SpeedySweeties.Reports
