import Mathlib.Data.List.MinMax
import SpeedySweeties.Reports.DispatcherPerformance

/-! The performance report conserves orders. What a loop leaves in a dispatcher's row is said once,
by the orders and events that the row is credited with, and the rows' sums are then counts. -/
namespace SpeedySweeties.Reports

/-! ### The rows after the loops -/

theorem manualEntries (orders : List DispatcherPerformanceOrder) (row : DispatcherAccumulator) :
    orders.foldl (fun row order => addManualEntry order row) row = { row with
      manualOrdersCreated := row.manualOrdersCreated + orders.length
      manualEntryMinutes := row.manualEntryMinutes ++ orders.filterMap entryMinutes } := by
  induction orders generalizing row with
  | nil => simp
  | cons order orders ih =>
    rw [List.foldl_cons,ih]
    cases minutes : entryMinutes order <;> simp [addManualEntry,minutes] <;> omega

theorem dispatchedEntries (orders : List DispatcherPerformanceOrder) (row : DispatcherAccumulator) :
    orders.foldl (fun row order => addDispatched order row) row = { row with dispatchedOrders := row.dispatchedOrders ++ orders } := by
  induction orders generalizing row with
  | nil => simp
  | cons order orders ih =>
    rw [List.foldl_cons,ih]
    simp [addDispatched]

def assigns (event : DispatcherPerformanceEvent) : Bool := event.eventType = .assigned ∨ event.eventType = .reassigned

theorem actions (events : List DispatcherPerformanceEvent) (row : DispatcherAccumulator) :
    events.foldl (fun row event => addAction event row) row = { row with
      assignmentActions := row.assignmentActions + events.countP assigns
      reassignments := row.reassignments + events.countP (·.eventType = .reassigned)
      unassignments := row.unassignments + events.countP (·.eventType = .unassigned) } := by
  induction events generalizing row with
  | nil => simp
  | cons event events ih =>
    rw [List.foldl_cons,ih]
    cases type : event.eventType <;> simp [addAction,assigns,type] <;> omega

variable (input : DispatcherPerformanceInput)

/-- A dispatcher's row by what it is credited with. -/
def credited (dispatcher : DispatcherPerformanceUser) : DispatcherAccumulator :=
  let entered := input.performanceOrders.filter fun order => input.manualEntryBy order = some dispatcher.id
  let events := input.performanceEvents.filter fun event => input.actionBy event = some dispatcher.id
  { dispatcher := dispatcher
    manualOrdersCreated := entered.length
    manualEntryMinutes := entered.filterMap entryMinutes
    dispatchedOrders := input.firstDispatchOrders.filter fun order => input.dispatchedBy order = some dispatcher.id
    assignmentActions := events.countP assigns
    reassignments := events.countP (·.eventType = .reassigned)
    unassignments := events.countP (·.eventType = .unassigned) }

section Rows
variable {input} (dispatchersOnce : (input.dispatchers.map (·.id)).Nodup)
include dispatchersOnce

theorem selectedOnce : (input.selectedDispatchers.map (·.id)).Nodup := dispatchersOnce.sublist (List.filter_sublist.map _)

theorem accumulatorRows : (accumulators input).rows = input.selectedDispatchers.map (credited input) := by
  have once : ((input.selectedDispatchers.map fun dispatcher => ({ dispatcher := dispatcher } : DispatcherAccumulator)).map
      (·.dispatcher.id)).Nodup := by
    rw [List.map_map]
    exact selectedOnce dispatchersOnce
  rw [accumulators,Table.rows_modifyEach,Table.rows_modifyEach,Table.rows_modifyEach,Table.rows_ofRows once,List.map_map,List.map_map,List.map_map]
  refine List.map_congr_left fun dispatcher _ => ?_
  simp only [Function.comp_apply,manualEntries,dispatchedEntries,actions,credited,Nat.zero_add,List.nil_append]

/-- What the rows count of some items, each credited to one of the selected dispatchers at most, is what there is of them. -/
theorem rowsCount {α : Type} (by_ : α → Option String) (chosen : ∀ a, ∀ id ∈ by_ a, id ∈ input.selectedIds) (items : List α) (p : α → Bool) :
    (input.selectedDispatchers.map fun dispatcher => (items.filter fun a => by_ a = some dispatcher.id).countP p).sum =
      (items.filter fun a => (by_ a).isSome).countP p := by
  have counts := Table.sumCountP (selectedOnce dispatchersOnce) by_ (items.filter p)
  simp only [List.map_map,List.countP_filter,Function.comp_def] at counts ⊢
  refine Eq.trans (congrArg List.sum (List.map_congr_left fun dispatcher _ => List.countP_congr fun a _ => ?_))
    (counts.trans (List.countP_congr fun a _ => ?_))
  · simp [and_comm]
  · cases named : by_ a with
    | none => simp
    | some id =>
      have mem : id ∈ input.selectedDispatchers.map (·.id) := List.mem_eraseDups.mp (chosen a id named)
      simp only [Option.isSome_some,Bool.and_true]
      simpa using fun _ => mem

end Rows

/-! ### One classification -/

theorem selectedChosen {id : Option String} {name : String} (is : input.selected id = some name) : name ∈ input.selectedIds := by
  obtain ⟨-,chosen⟩ := Option.filter_eq_some_iff.mp is
  exact of_decide_eq_true chosen

theorem selectedIsSelected (id : Option String) : (input.selected id).isSome = input.isSelected id := by
  unfold DispatcherPerformanceInput.selected DispatcherPerformanceInput.isSelected present
  cases id with
  | none => rfl
  | some name => by_cases named : name = "" <;> simp [named]

theorem manualEntryCredited (order : DispatcherPerformanceOrder) :
    (input.manualEntryBy order).isSome = (order.orderSource = .dispatcherManual && input.isSelected order.createdByUserId) := by
  unfold DispatcherPerformanceInput.manualEntryBy
  split
  · rename_i manual
    simp [selectedIsSelected,manual]
  · rename_i other
    simp [other]

theorem actionCredited (event : DispatcherPerformanceEvent) :
    (input.actionBy event).isSome = (event.dispatchSource = .manual && input.isSelected event.actorUserId) := by
  unfold DispatcherPerformanceInput.actionBy
  split
  · rename_i manual
    simp [selectedIsSelected,manual]
  · rename_i other
    simp [other]

theorem manualEntryChosen (order : DispatcherPerformanceOrder) : ∀ id ∈ input.manualEntryBy order, id ∈ input.selectedIds := by
  intro id is
  rw [DispatcherPerformanceInput.manualEntryBy,Option.mem_def] at is
  split at is
  · exact selectedChosen input is
  · cases is

theorem dispatchedChosen (order : DispatcherPerformanceOrder) : ∀ id ∈ input.dispatchedBy order, id ∈ input.selectedIds :=
  fun _ is => selectedChosen input is

theorem actionChosen (event : DispatcherPerformanceEvent) : ∀ id ∈ input.actionBy event, id ∈ input.selectedIds := by
  intro id is
  rw [DispatcherPerformanceInput.actionBy,Option.mem_def] at is
  split at is
  · exact selectedChosen input is
  · cases is

section Sums
variable {input} (dispatchersOnce : (input.dispatchers.map (·.id)).Nodup)
include dispatchersOnce

theorem dispatchedSum (p : DispatcherPerformanceOrder → Bool) :
    (input.selectedDispatchers.map fun dispatcher => ((credited input dispatcher).dispatchedOrders.filter p).length).sum =
      ((selectedDispatchedOrders input).filter p).length := by
  simp only [← List.countP_eq_length_filter]
  refine (rowsCount dispatchersOnce input.dispatchedBy (dispatchedChosen input) input.firstDispatchOrders p).trans ?_
  rw [selectedDispatchedOrders]
  congr 2
  funext order
  exact selectedIsSelected input order.dispatchedByUserId

theorem manualSum : (input.selectedDispatchers.map fun dispatcher => (credited input dispatcher).manualOrdersCreated).sum =
    (selectedManualOrders input).length := by
  have counts := rowsCount dispatchersOnce input.manualEntryBy (manualEntryChosen input) input.performanceOrders fun _ => true
  simp only [List.countP_true] at counts
  refine counts.trans ?_
  rw [selectedManualOrders]
  congr 2
  funext order
  exact manualEntryCredited input order

theorem actionSum (p : DispatcherPerformanceEvent → Bool) :
    (input.selectedDispatchers.map fun dispatcher =>
      (input.performanceEvents.filter fun event => input.actionBy event = some dispatcher.id).countP p).sum =
        ((selectedEvents input).filter p).length := by
  refine (rowsCount dispatchersOnce input.actionBy (actionChosen input) input.performanceEvents p).trans ?_
  rw [selectedEvents,← List.countP_eq_length_filter]
  congr 2
  funext event
  exact actionCredited input event

theorem statsSum (localeCompare : String → String → Int) (formatTorontoDateKey : Int → String) (μ : DispatcherStats → Nat) :
    ((buildDispatcherPerformance localeCompare formatTorontoDateKey input).stats.map μ).sum =
      (input.selectedDispatchers.map fun dispatcher => μ (credited input dispatcher).stats).sum := by
  rw [buildDispatcherPerformance,accumulatorRows dispatchersOnce]
  refine (((List.mergeSort_perm _ _).map μ).sum_eq).trans ?_
  rw [List.map_map,List.map_map]
  rfl

end Sums

/-! ### Sources and days -/

theorem groupsCount (orders : List DispatcherPerformanceOrder) : ((buildSourceBreakdown orders).map (·.2.totalOrders)).sum = orders.length := by
  have once : sourceGroups.Nodup := by decide
  have counts := Table.sumCountP once (fun order : DispatcherPerformanceOrder => some (getSourceGroup order.orderSource)) orders
  have all : ∀ order ∈ orders, decide (∃ name ∈ sourceGroups, some (getSourceGroup order.orderSource) = some name) = true := by
    intro order _
    cases order.orderSource <;> decide
  rw [List.countP_eq_length.mpr all] at counts
  rw [← counts,buildSourceBreakdown,List.map_map]
  refine congrArg List.sum (List.map_congr_left fun group _ => ?_)
  simp only [Function.comp_apply,buildDurationBreakdown,Option.some.injEq,List.countP_eq_length_filter]

theorem daysCount (localeCompare : String → String → Int) (formatTorontoDateKey : Int → String) (orders : List DispatcherPerformanceOrder) :
    ((dailyTrend localeCompare formatTorontoDateKey orders).map (·.2.totalOrders)).sum = orders.length := by
  rw [dailyTrend,List.map_map,← Table.sum_groupBy (fun order => formatTorontoDateKey order.createdAt) orders]
  exact ((List.mergeSort_perm _ _).map _).sum_eq

/-! ### The detail list -/

/-- The first assignment of an order. -/
def firstAssignment (events : List DispatcherPerformanceEvent) (orderId : String) : Option DispatcherPerformanceEvent :=
  Table.firstLeast (·.occurredAt) (events.filter fun event => event.eventType = .assigned ∧ event.orderId = orderId)

theorem firstAssignmentSource (events : List DispatcherPerformanceEvent) (orderId : String) :
    (firstAssignmentByOrderId events).find orderId = firstAssignment events orderId := by
  induction events using List.reverseRecOn generalizing orderId with
  | nil => rfl
  | append_singleton events event ih =>
    rw [firstAssignmentByOrderId,List.foldl_append,← firstAssignmentByOrderId,List.foldl_cons,List.foldl_nil,firstAssignment,
      List.filter_append]
    by_cases assigned : event.eventType = .assigned
    · rw [if_neg (not_not_intro assigned)]
      by_cases here : event.orderId = orderId
      · subst here
        have one : [event].filter (fun other => other.eventType = .assigned ∧ other.orderId = event.orderId) = [event] := by simp [assigned]
        rw [one,Table.firstLeast_concat,← firstAssignment,← ih]
        cases found : (firstAssignmentByOrderId events).find event.orderId with
        | none => simp
        | some current =>
          dsimp only
          split <;> simp [found]
      · have none_ : [event].filter (fun other => other.eventType = .assigned ∧ other.orderId = orderId) = [] := by simp [here]
        rw [none_,List.append_nil,← firstAssignment,← ih]
        have other : orderId ≠ event.orderId := Ne.symm here
        split
        · split
          · exact Table.find_put_other other
          · rfl
        · exact Table.find_put_other other
    · have none_ : [event].filter (fun other => other.eventType = .assigned ∧ other.orderId = orderId) = [] := by simp [assigned]
      rw [if_pos assigned,none_,List.append_nil,← firstAssignment,ih]

/-- An order as it was first dispatched, if a dispatcher did that. -/
def firstDispatch (events : List DispatcherPerformanceEvent) (order : DispatcherPerformanceOrder) : Option DispatcherPerformanceOrder :=
  match firstAssignment events order.id with
  | some first =>
    if first.dispatchSource ≠ .manual ∨ present first.actorUserId = none then none
    else some { order with
      dispatchSource := some .manual
      dispatchedByUserId := first.actorUserId
      dispatchedAt := some first.occurredAt }
  | none => if order.dispatchSource = some .manual ∧ present order.dispatchedByUserId ≠ none then some order else none

/-- An order that passes the filters and was first dispatched by a selected dispatcher, within the time asked for. -/
def Dispatched (order : DispatcherPerformanceOrder) : Bool :=
  (input.selectedSourceGroups = [] ∨ getSourceGroup order.orderSource ∈ input.selectedSourceGroups) &&
    (firstDispatch input.events order).any fun first => input.isSelected first.dispatchedByUserId &&
      (!input.overFiveMinutesOnly || (dispatchMinutesForOrder first).any (5 < ·))

theorem firstAssignmentFiltered {order : DispatcherPerformanceOrder} (mem : order ∈ input.sourceFilteredOrders) :
    firstAssignment input.sourceFilteredEvents order.id = firstAssignment input.events order.id := by
  rw [firstAssignment,firstAssignment,DispatcherPerformanceInput.sourceFilteredEvents,List.filter_filter]
  congr 2
  funext event
  by_cases here : event.orderId = order.id
  · have kept : event.orderId ∈ input.sourceFilteredOrders.map (·.id) := List.mem_map.mpr ⟨order,mem,here.symm⟩
    simp only [kept,decide_true,Bool.and_true]
  · simp [here]

theorem firstDispatchSource : buildFirstDispatchOrders input.sourceFilteredOrders input.sourceFilteredEvents =
    input.sourceFilteredOrders.filterMap (firstDispatch input.events) := by
  refine List.filterMap_congr fun order mem => ?_
  rw [firstAssignmentSource,firstAssignmentFiltered input mem]
  unfold firstDispatch
  cases firstAssignment input.events order.id <;> rfl

theorem firstDispatchKeeps {events : List DispatcherPerformanceEvent} {order first : DispatcherPerformanceOrder}
    (is : firstDispatch events order = some first) :
    first.id = order.id ∧ first.orderStatus = order.orderStatus ∧ first.deliveredAt = order.deliveredAt := by
  rw [firstDispatch] at is
  split at is
  · split at is
    · cases is
    · cases is
      exact ⟨rfl,rfl,rfl⟩
  · split at is
    · cases is
      exact ⟨rfl,rfl,rfl⟩
    · cases is

/-- The filters one after the other, as one filter of the first list. -/
theorem filteredNames {α ν : Type} {name : α → ν} {f : α → Option α} (keeps : ∀ a b, f a = some b → name b = name a) (p q r : α → Bool)
    (items : List α) : ((((items.filter p).filterMap f).filter q).filter r).map name =
      (items.filter fun a => p a && (f a).any fun b => r b && q b).map name := by
  rw [List.filter_filter]
  induction items with
  | nil => rfl
  | cons a items ih =>
    cases chosen : p a with
    | false => simpa [List.filter_cons,chosen] using ih
    | true =>
      cases is : f a with
      | none => simpa [List.filter_cons,chosen,is] using ih
      | some b => cases listed : r b && q b <;> simp [chosen,is,listed,ih,keeps a b is]

theorem dispatchedIds : (selectedDispatchedOrders input).map (·.id) = (input.orders.filter (Dispatched input)).map (·.id) := by
  rw [selectedDispatchedOrders,DispatcherPerformanceInput.firstDispatchOrders,firstDispatchSource,DispatcherPerformanceInput.sourceFilteredOrders]
  exact filteredNames (fun _ _ is => (firstDispatchKeeps is).1) _ _ _ _

theorem dispatchedDated {input : DispatcherPerformanceInput}
    (deliveredDated : ∀ order ∈ input.orders, order.orderStatus = .delivered → order.deliveredAt ≠ none)
    {first : DispatcherPerformanceOrder} (mem : first ∈ selectedDispatchedOrders input) :
    first.orderStatus = .delivered → first.deliveredAt ≠ none := by
  have listed := (List.mem_filter.mp (List.mem_filter.mp mem).1).1
  rw [firstDispatchSource] at listed
  obtain ⟨order,kept,is⟩ := List.mem_filterMap.mp listed
  obtain ⟨-,status,delivered⟩ := firstDispatchKeeps is
  rw [status,delivered]
  exact deliveredDated order (List.mem_filter.mp kept).1

theorem detailIds (localeCompare : String → String → Int) (formatTorontoDateKey : Int → String) :
    ((buildDispatcherPerformance localeCompare formatTorontoDateKey input).orders.map (·.orderId)).Perm
      ((input.orders.filter (Dispatched input)).map (·.id)) := by
  rw [← dispatchedIds]
  refine ((List.mergeSort_perm _ _).map _).trans ?_
  rw [List.map_map]
  exact .refl _

theorem performanceConserves (localeCompare : String → String → Int) (formatTorontoDateKey : Int → String) (input : DispatcherPerformanceInput)
    (dispatchersOnce : (input.dispatchers.map (·.id)).Nodup) (ordersOnce : (input.orders.map (·.id)).Nodup)
    (deliveredDated : ∀ order ∈ input.orders, order.orderStatus = .delivered → order.deliveredAt ≠ none) :
    let report := buildDispatcherPerformance localeCompare formatTorontoDateKey input
    ((report.stats.map (·.manualOrdersCreated)).sum = report.summary.manualOrdersCreated ∧
      (report.stats.map (·.ordersDispatched)).sum = report.summary.ordersDispatched ∧
      (report.stats.map (·.dispatchTimeSamples)).sum = report.summary.dispatchTimeSamples ∧
      (report.stats.map (·.deliveredOrders)).sum = report.summary.deliveredOrders ∧
      (report.stats.map (·.cancelledOrders)).sum = report.summary.cancelledOrders ∧
      (report.stats.map (·.assignmentActions)).sum = report.summary.assignmentActions ∧
      (report.stats.map (·.reassignments)).sum = report.summary.reassignments ∧
      (report.stats.map (·.unassignments)).sum = report.summary.unassignments) ∧
    ((report.sourceBreakdown.map (·.2.totalOrders)).sum = report.summary.ordersDispatched ∧
      ∀ row ∈ report.stats, (row.sourceBreakdown.map (·.2.totalOrders)).sum = row.ordersDispatched) ∧
    (report.dailyTrend.map (·.2.totalOrders)).sum = report.summary.ordersDispatched ∧
    (report.orders.map (·.orderId)).Nodup ∧
    (∀ id, id ∈ report.orders.map (·.orderId) ↔ ∃ order ∈ input.orders, order.id = id ∧ Dispatched input order) ∧
    report.orders.length = report.summary.ordersDispatched := by
  have details := detailIds input localeCompare formatTorontoDateKey
  refine ⟨⟨?_,?_,?_,?_,?_,?_,?_,?_⟩,⟨groupsCount _,?_⟩,daysCount _ _ _,?_,?_,?_⟩
  · exact (statsSum dispatchersOnce _ _ _).trans (manualSum dispatchersOnce)
  · refine (statsSum dispatchersOnce _ _ _).trans ?_
    have counts := dispatchedSum dispatchersOnce fun _ => true
    simp only [List.filter_true] at counts
    exact counts
  · exact (statsSum dispatchersOnce _ _ _).trans (dispatchedSum dispatchersOnce _)
  · refine (statsSum dispatchersOnce _ _ _).trans ?_
    refine (dispatchedSum dispatchersOnce _).trans (congrArg List.length (List.filter_congr fun order mem => ?_))
    have dated := dispatchedDated deliveredDated mem
    simpa using dated
  · exact (statsSum dispatchersOnce _ _ _).trans (dispatchedSum dispatchersOnce _)
  · exact (statsSum dispatchersOnce _ _ _).trans (actionSum dispatchersOnce assigns)
  · exact (statsSum dispatchersOnce _ _ _).trans (actionSum dispatchersOnce _)
  · exact (statsSum dispatchersOnce _ _ _).trans (actionSum dispatchersOnce _)
  · intro row mem
    obtain ⟨accumulator,-,rfl⟩ := List.mem_map.mp ((List.mergeSort_perm _ _).mem_iff.mp mem)
    exact groupsCount accumulator.dispatchedOrders
  · exact details.symm.nodup (ordersOnce.sublist (List.filter_sublist.map _))
  · intro id
    rw [details.mem_iff,List.mem_map]
    simp only [List.mem_filter]
    exact ⟨fun ⟨order,⟨mem,listed⟩,is⟩ => ⟨order,mem,is,listed⟩,fun ⟨order,mem,is,listed⟩ => ⟨order,⟨mem,listed⟩,is⟩⟩
  · exact (List.mergeSort_perm _ _).length_eq.trans (List.length_map _)

/-- Two dispatchers, an order first dispatched by each and one dispatched by someone else, who was removed. -/
def threeDispatches : DispatcherPerformanceInput where
  dispatchers := [⟨"d1",some "Ann",none,.dispatcher,true⟩,⟨"d2",none,some "Bo",.dispatcher,false⟩]
  orders := [
    { id := "o1", orderNumber := 1, orderStatus := .delivered, orderSource := .dispatcherManual, createdAt := 0
      createdByUserId := some "d2", dispatchedAt := some 60000, dispatchedByUserId := some "d1", deliveredAt := some 900000 },
    { id := "o2", orderNumber := 2, orderStatus := .cancelled, orderSource := .webflow, dispatchSource := some .manual
      createdAt := 5, dispatchedAt := some 400005, dispatchedByUserId := some "d2" },
    { id := "o3", orderNumber := 3, orderStatus := .dispatched, orderSource := .iosApp, createdAt := 7 }]
  events := [⟨"o1",.reassigned,.manual,some "d2",90000⟩,⟨"o1",.assigned,.manual,some "d1",60000⟩,⟨"o3",.assigned,.manual,some "gone",80000⟩]

theorem performanceConservesThree :
    ((buildDispatcherPerformance (fun _ _ => 0) (fun _ => "1970-01-01") threeDispatches).stats.map (·.ordersDispatched)).sum = 2 ∧
    ((buildDispatcherPerformance (fun _ _ => 0) (fun _ => "1970-01-01") threeDispatches).dailyTrend.map (·.2.totalOrders)).sum = 2 :=
  have conserved := performanceConserves (fun _ _ => 0) (fun _ => "1970-01-01") threeDispatches (by decide) (by decide) (by decide)
  have two : (performanceSummary threeDispatches).ordersDispatched = 2 := by decide +kernel
  ⟨conserved.1.2.1.trans two,conserved.2.2.1.trans two⟩

end SpeedySweeties.Reports
