import SpeedySweeties.Library.Grouping
import SpeedySweeties.Reports.GrowthRange

/-! The figures of the growth dashboard for one range of dates. One loop over the orders fills all
the tables, and a second one, over the customers with a delivery, tells new customers from those
who had one before. -/
namespace SpeedySweeties.Reports
open Calendar JsText

/-- A value that the database client gives for an amount; `none` for one that is not finite. -/
inductive DecimalLike where
  | number (value : Option ℚ)
  | text (value : String)
  | decimal (value : Option ℚ)
  | missing
  deriving DecidableEq

structure DigitalReceipt where
  deliveryCharge : DecimalLike
  grandTotal : DecimalLike
  deriving DecidableEq

/-- What the campaigns are told apart by. -/
structure Attribution where
  utmSource : Option String
  utmMedium : Option String
  utmCampaign : Option String
  referralCode : Option String
  deriving DecidableEq, Repr

structure GrowthDashboardOrder extends Attribution where
  customerId : Option String
  paymentMethod : PaymentMethod
  orderStatus : OrderStatus
  createdAt : Int
  dispatchedAt : Option Int
  deliveredAt : Option Int
  orderSource : OrderSource
  digitalReceipt : Option DigitalReceipt
  deriving DecidableEq

structure FirstDeliveredOrderAttribution extends Attribution where
  createdAt : Int
  orderSource : OrderSource
  deriving DecidableEq, Repr

structure DailyRow where
  date : String
  totalOrders : Nat := 0
  deliveredOrders : Nat := 0
  cancelledOrders : Nat := 0
  deriving DecidableEq, Repr

structure GrowthSourceRow where
  source : OrderSource
  totalOrders : Nat := 0
  deliveredOrders : Nat := 0
  cancelledOrders : Nat := 0
  deliveredCustomerIds : List String := []
  returningCustomerIds : List String := []
  newCustomerIds : List String := []
  repeatedNewCustomerIds : List String := []
  deliveryFeesRecorded : ℚ := 0
  deriving DecidableEq, Repr

/-- Under the four values that `JSON.stringify` makes its key of. -/
structure CampaignRow where
  key : List (Option String)
  attribution : Attribution
  orderSources : List OrderSource := []
  totalOrders : Nat := 0
  deliveredOrders : Nat := 0
  cancelledOrders : Nat := 0
  newCustomerIds : List String := []
  repeatedNewCustomerIds : List String := []
  deliveryFeesRecorded : ℚ := 0
  deriving DecidableEq, Repr

/-- `Set.prototype.add`: a set keeps its members in the order of their first insertion. -/
def added {α : Type} [DecidableEq α] (set : List α) (a : α) : List α := if a ∈ set then set else set ++ [a]

def orderStatuses : List OrderStatus := [.placed,.dispatched,.accepted,.outForDelivery,.delivered,.cancelled]
def paymentMethods : List PaymentMethod := [.cash,.debit,.visa,.mastercard,.etransfer]
def orderSources : List OrderSource := [.unknown,.androidApp,.iosApp,.webflow,.dispatcherManual]
def weekdayOrder : List String := ["Mon","Tue","Wed","Thu","Fri","Sat","Sun"]

/-- Counters under keys. -/
abbrev Counts (κ : Type) := Table (κ × Nat) Prod.fst

def counters {κ : Type} [DecidableEq κ] (keys : List κ) : Counts κ := Table.ofRows Prod.fst (keys.map (·,0))

def countOne {κ : Type} (row : κ × Nat) : κ × Nat := (row.1,row.2 + 1)

theorem countOneKeeps {κ : Type} (row : κ × Nat) : (countOne row).1 = row.1 := rfl

def counted {κ : Type} [DecidableEq κ] (counts : Counts κ) (key : κ) : Counts κ := counts.modify key countOne countOneKeeps

section Runtime
variable (torontoClock : Int → Int) (toLocaleLowerCase : String → String) (parseNumber : String → Option ℚ)

def decimalToNumber : DecimalLike → ℚ
  | .number value => value.getD 0
  | .text value => (parseNumber value).getD 0
  | .decimal value => value.getD 0
  | .missing => 0

def getTorontoHour (date : Int) : Nat := (torontoClock date % Calendar.dayMs/(60*60*1000)).toNat

def getTorontoWeekday (date : Int) : String :=
  ["Sun","Mon","Tue","Wed","Thu","Fri","Sat"].getD (weekday (torontoClock date/Calendar.dayMs)).toNat ""

def createDateKeys (range : GrowthDashboardDateRange) : Except String (List String) :=
  (List.range range.days).mapM fun index : Nat => addCalendarDays range.startDate index

def campaignKeyFor (attribution : Attribution) : Option (List (Option String)) :=
  let values := [attribution.utmSource,attribution.utmMedium,attribution.utmCampaign,attribution.referralCode].map
    fun value => present (value.map trim)
  if values.any (·.isSome) then some (values.map fun value => present (value.map toLocaleLowerCase)) else none

abbrev SourceRows := Table GrowthSourceRow GrowthSourceRow.source

abbrev CampaignRows := Table CampaignRow (·.key)

/-- `getCampaignRow`, and what is done to the row. -/
def withCampaignRow (rows : CampaignRows) (attribution : Attribution) (source : OrderSource) (change : CampaignRow → CampaignRow) :
    CampaignRows :=
  match campaignKeyFor toLocaleLowerCase attribution with
  | none => rows
  | some key =>
    let row := (rows.find key).getD { key, attribution }
    rows.put { change { row with orderSources := added row.orderSources source } with key }

structure GrowthTotals where
  statusCounts : Counts OrderStatus := counters orderStatuses
  paymentCounts : Counts PaymentMethod := counters paymentMethods
  dailyByDate : Table DailyRow DailyRow.date
  weekdayByName : Counts String := counters weekdayOrder
  hourlyByHour : Counts Nat := counters (List.range 24)
  dispatchMinutes : List ℚ := []
  totalOrderMinutes : List ℚ := []
  deliveredCustomerIds : List String := []
  sourceRows : SourceRows := Table.ofRows GrowthSourceRow.source (orderSources.map fun source => { source := source })
  campaignRows : CampaignRows := Table.empty
  deliveredOrdersWithCustomer : Nat := 0
  deliveredOrdersWithReceipt : Nat := 0
  deliveredOrdersWithDispatchTimestamp : Nat := 0
  deliveredOrdersWithDuration : Nat := 0
  deliveriesUnderFortyMinutes : Nat := 0
  dispatchesOverFiveMinutes : Nat := 0
  deliveryFeesRecorded : ℚ := 0
  receiptSalesTotal : ℚ := 0
  ordersWithKnownSource : Nat := 0
  ordersWithCampaignTag : Nat := 0

variable (order : GrowthDashboardOrder)

/-- One if it holds. -/
def one (holds : Bool) : Nat := if holds then 1 else 0

def delivered : Bool := order.orderStatus = .delivered
def cancelled : Bool := order.orderStatus = .cancelled

/-- The customer of a delivered order. -/
def deliveredCustomer : Option String := if delivered order then present order.customerId else none

/-- The fee on the receipt of a delivered order. -/
def deliveryFee : ℚ := if delivered order then (order.digitalReceipt.map fun r => decimalToNumber parseNumber r.deliveryCharge).getD 0 else 0

def saleTotal : ℚ := if delivered order then (order.digitalReceipt.map fun r => decimalToNumber parseNumber r.grandTotal).getD 0 else 0

def minutesToDispatch : Option ℚ := minutesBetween (some order.createdAt) order.dispatchedAt

def totalMinutes : Option ℚ := if delivered order then minutesBetween (some order.createdAt) order.deliveredAt else none

def addDaily (row : DailyRow) : DailyRow :=
  { row with
    totalOrders := row.totalOrders + 1
    deliveredOrders := row.deliveredOrders + one (delivered order)
    cancelledOrders := row.cancelledOrders + one (cancelled order) }

def addSource (row : GrowthSourceRow) : GrowthSourceRow :=
  { row with
    totalOrders := row.totalOrders + 1
    deliveredOrders := row.deliveredOrders + one (delivered order)
    cancelledOrders := row.cancelledOrders + one (cancelled order)
    deliveredCustomerIds := (deliveredCustomer order).elim row.deliveredCustomerIds (added row.deliveredCustomerIds)
    deliveryFeesRecorded := row.deliveryFeesRecorded + deliveryFee parseNumber order }

def addCampaign (row : CampaignRow) : CampaignRow :=
  { row with
    totalOrders := row.totalOrders + 1
    deliveredOrders := row.deliveredOrders + one (delivered order)
    cancelledOrders := row.cancelledOrders + one (cancelled order)
    deliveryFeesRecorded := row.deliveryFeesRecorded + deliveryFee parseNumber order }

theorem addDailyKeeps (row : DailyRow) : (addDaily order row).date = row.date := rfl

theorem addSourceKeeps (row : GrowthSourceRow) : (addSource parseNumber order row).source = row.source := rfl

/-- One round of the loop over the orders. -/
def addOrder (totals : GrowthTotals) : GrowthTotals where
  statusCounts := counted totals.statusCounts order.orderStatus
  paymentCounts := counted totals.paymentCounts order.paymentMethod
  dailyByDate := totals.dailyByDate.modify (formatTorontoDateKey torontoClock order.createdAt) (addDaily order) (addDailyKeeps order)
  weekdayByName := counted totals.weekdayByName (getTorontoWeekday torontoClock order.createdAt)
  hourlyByHour := counted totals.hourlyByHour (getTorontoHour torontoClock order.createdAt)
  dispatchMinutes := totals.dispatchMinutes ++ (minutesToDispatch order).toList
  totalOrderMinutes := totals.totalOrderMinutes ++ (totalMinutes order).toList
  deliveredCustomerIds := (deliveredCustomer order).elim totals.deliveredCustomerIds (added totals.deliveredCustomerIds)
  sourceRows := totals.sourceRows.modify order.orderSource (addSource parseNumber order) (addSourceKeeps parseNumber order)
  campaignRows := withCampaignRow toLocaleLowerCase totals.campaignRows order.toAttribution order.orderSource (addCampaign parseNumber order)
  deliveredOrdersWithCustomer := totals.deliveredOrdersWithCustomer + one (deliveredCustomer order).isSome
  deliveredOrdersWithReceipt := totals.deliveredOrdersWithReceipt + one (delivered order && order.digitalReceipt.isSome)
  deliveredOrdersWithDispatchTimestamp := totals.deliveredOrdersWithDispatchTimestamp + one (delivered order && (minutesToDispatch order).isSome)
  deliveredOrdersWithDuration := totals.deliveredOrdersWithDuration + one (totalMinutes order).isSome
  deliveriesUnderFortyMinutes := totals.deliveriesUnderFortyMinutes + one ((totalMinutes order).any (· ≤ 40))
  dispatchesOverFiveMinutes := totals.dispatchesOverFiveMinutes + one ((minutesToDispatch order).any (5 < ·))
  deliveryFeesRecorded := totals.deliveryFeesRecorded + deliveryFee parseNumber order
  receiptSalesTotal := totals.receiptSalesTotal + saleTotal parseNumber order
  ordersWithKnownSource := totals.ordersWithKnownSource + one (order.orderSource ≠ .unknown)
  ordersWithCampaignTag := totals.ordersWithCampaignTag + one (campaignKeyFor toLocaleLowerCase order.toAttribution).isSome

/-! ### Customers -/

section Customers
variable (range : GrowthDashboardDateRange) (firstDeliveredOrderByCustomer : String → Option FirstDeliveredOrderAttribution)
  (deliveredOrderCountByCustomer : String → Option Nat) (customerId : String)

structure CustomerTotals where
  newCustomers : Nat := 0
  returningCustomers : Nat := 0
  newCustomersWithRepeatOrder : Nat := 0
  sourceRows : SourceRows
  campaignRows : CampaignRows

def returning : Bool := (firstDeliveredOrderByCustomer customerId).any (·.createdAt < range.startUtc)

def repeated : Bool := 2 ≤ (deliveredOrderCountByCustomer customerId).getD 0

def acquisitionSource : OrderSource := ((firstDeliveredOrderByCustomer customerId).map (·.orderSource)).getD .unknown

def addReturning (row : GrowthSourceRow) : GrowthSourceRow :=
  if customerId ∈ row.deliveredCustomerIds then { row with returningCustomerIds := added row.returningCustomerIds customerId } else row

def addNew (again : Bool) (row : GrowthSourceRow) : GrowthSourceRow :=
  { row with
    newCustomerIds := added row.newCustomerIds customerId
    repeatedNewCustomerIds := if again then added row.repeatedNewCustomerIds customerId else row.repeatedNewCustomerIds }

def addAcquired (again : Bool) (row : CampaignRow) : CampaignRow :=
  { row with
    newCustomerIds := added row.newCustomerIds customerId
    repeatedNewCustomerIds := if again then added row.repeatedNewCustomerIds customerId else row.repeatedNewCustomerIds }

theorem addReturningKeeps (row : GrowthSourceRow) : (addReturning customerId row).source = row.source := by
  unfold addReturning
  split <;> rfl

theorem addNewKeeps (again : Bool) (row : GrowthSourceRow) : (addNew customerId again row).source = row.source := rfl

/-- One round of the loop over the customers with a delivery. -/
def addCustomer (totals : CustomerTotals) : CustomerTotals :=
  if returning range firstDeliveredOrderByCustomer customerId then
    { totals with
      returningCustomers := totals.returningCustomers + 1
      sourceRows := totals.sourceRows.update (addReturning customerId) (addReturningKeeps customerId) }
  else
    let again := repeated deliveredOrderCountByCustomer customerId
    { newCustomers := totals.newCustomers + 1
      returningCustomers := totals.returningCustomers
      newCustomersWithRepeatOrder := totals.newCustomersWithRepeatOrder + one again
      sourceRows := totals.sourceRows.modify (acquisitionSource firstDeliveredOrderByCustomer customerId) (addNew customerId again)
        (addNewKeeps customerId again)
      campaignRows := (firstDeliveredOrderByCustomer customerId).elim totals.campaignRows fun first =>
        withCampaignRow toLocaleLowerCase totals.campaignRows first.toAttribution first.orderSource (addAcquired customerId again) }

end Customers

/-! ### Figures -/

structure SourceMetrics where
  source : OrderSource
  totalOrders : Nat
  deliveredOrders : Nat
  cancelledOrders : Nat
  uniqueDeliveredCustomers : Nat
  newCustomers : Nat
  returningCustomers : Nat
  newCustomersWithRepeatOrder : Nat
  secondOrderConversionRate : Option ℚ
  completionRate : Option ℚ
  deliveryFeesRecorded : ℚ
  deriving DecidableEq, Repr

structure CampaignMetrics where
  attribution : Attribution
  orderSources : List OrderSource
  totalOrders : Nat
  deliveredOrders : Nat
  cancelledOrders : Nat
  newCustomers : Nat
  newCustomersWithRepeatOrder : Nat
  secondOrderConversionRate : Option ℚ
  completionRate : Option ℚ
  deliveryFeesRecorded : ℚ
  deriving DecidableEq, Repr

structure DataCoverage where
  customerLinkRate : Option ℚ
  receiptRate : Option ℚ
  dispatchTimestampRate : Option ℚ
  deliveryTimeRate : Option ℚ
  orderSourceRate : Option ℚ
  campaignTagRate : Option ℚ
  deriving DecidableEq, Repr

structure GrowthMetrics where
  totalOrders : Nat
  deliveredOrders : Nat
  cancelledOrders : Nat
  activeOrders : Nat
  uniqueDeliveredCustomers : Nat
  newCustomers : Nat
  newCustomersWithRepeatOrder : Nat
  secondOrderConversionRate : Option ℚ
  returningCustomers : Nat
  returningCustomerRate : Option ℚ
  completionRate : Option ℚ
  cancellationRate : Option ℚ
  averageMinutesToDispatch : Option ℚ
  dispatchesOverFiveMinutesRate : Option ℚ
  averageMinutesCreatedToDelivered : Option ℚ
  deliveriesUnderFortyMinutesRate : Option ℚ
  deliveryFeesRecorded : ℚ
  receiptSalesTotal : ℚ
  statusCounts : List (OrderStatus × Nat)
  paymentCounts : List (PaymentMethod × Nat)
  dataCoverage : DataCoverage
  sources : List SourceMetrics
  campaigns : List CampaignMetrics
  daily : List DailyRow
  weekdays : List (String × Nat)
  hours : List (Nat × Nat)
  deriving DecidableEq, Repr

def GrowthSourceRow.metrics (row : GrowthSourceRow) : SourceMetrics where
  source := row.source
  totalOrders := row.totalOrders
  deliveredOrders := row.deliveredOrders
  cancelledOrders := row.cancelledOrders
  uniqueDeliveredCustomers := row.deliveredCustomerIds.length
  newCustomers := row.newCustomerIds.length
  returningCustomers := row.returningCustomerIds.length
  newCustomersWithRepeatOrder := row.repeatedNewCustomerIds.length
  secondOrderConversionRate := percentage row.repeatedNewCustomerIds.length row.newCustomerIds.length
  completionRate := percentage row.deliveredOrders (row.deliveredOrders + row.cancelledOrders)
  deliveryFeesRecorded := round row.deliveryFeesRecorded 2

def CampaignRow.metrics (row : CampaignRow) : CampaignMetrics where
  attribution := row.attribution
  orderSources := row.orderSources
  totalOrders := row.totalOrders
  deliveredOrders := row.deliveredOrders
  cancelledOrders := row.cancelledOrders
  newCustomers := row.newCustomerIds.length
  newCustomersWithRepeatOrder := row.repeatedNewCustomerIds.length
  secondOrderConversionRate := percentage row.repeatedNewCustomerIds.length row.newCustomerIds.length
  completionRate := percentage row.deliveredOrders (row.deliveredOrders + row.cancelledOrders)
  deliveryFeesRecorded := round row.deliveryFeesRecorded 2

def countOf {κ : Type} [DecidableEq κ] (counts : Counts κ) (key : κ) : Nat := ((counts.find key).map (·.2)).getD 0

def growthMetrics (totalOrders : Nat) (totals : GrowthTotals) (customers : CustomerTotals) : GrowthMetrics :=
  let deliveredOrders := countOf totals.statusCounts .delivered
  let cancelledOrders := countOf totals.statusCounts .cancelled
  let resolvedOrders := deliveredOrders + cancelledOrders
  { totalOrders
    deliveredOrders
    cancelledOrders
    activeOrders := countOf totals.statusCounts .placed + countOf totals.statusCounts .dispatched +
      countOf totals.statusCounts .accepted + countOf totals.statusCounts .outForDelivery
    uniqueDeliveredCustomers := totals.deliveredCustomerIds.length
    newCustomers := customers.newCustomers
    newCustomersWithRepeatOrder := customers.newCustomersWithRepeatOrder
    secondOrderConversionRate := percentage customers.newCustomersWithRepeatOrder customers.newCustomers
    returningCustomers := customers.returningCustomers
    returningCustomerRate := percentage customers.returningCustomers totals.deliveredCustomerIds.length
    completionRate := percentage deliveredOrders resolvedOrders
    cancellationRate := percentage cancelledOrders resolvedOrders
    averageMinutesToDispatch := average totals.dispatchMinutes
    dispatchesOverFiveMinutesRate := percentage totals.dispatchesOverFiveMinutes totals.dispatchMinutes.length
    averageMinutesCreatedToDelivered := average totals.totalOrderMinutes
    deliveriesUnderFortyMinutesRate := percentage totals.deliveriesUnderFortyMinutes totals.deliveredOrdersWithDuration
    deliveryFeesRecorded := round totals.deliveryFeesRecorded 2
    receiptSalesTotal := round totals.receiptSalesTotal 2
    statusCounts := totals.statusCounts.rows
    paymentCounts := totals.paymentCounts.rows
    dataCoverage := {
      customerLinkRate := percentage totals.deliveredOrdersWithCustomer deliveredOrders
      receiptRate := percentage totals.deliveredOrdersWithReceipt deliveredOrders
      dispatchTimestampRate := percentage totals.deliveredOrdersWithDispatchTimestamp deliveredOrders
      deliveryTimeRate := percentage totals.deliveredOrdersWithDuration deliveredOrders
      orderSourceRate := percentage totals.ordersWithKnownSource totalOrders
      campaignTagRate := percentage totals.ordersWithCampaignTag totalOrders }
    sources := (customers.sourceRows.rows.map (·.metrics)).mergeSort fun left right => right.totalOrders ≤ left.totalOrders
    campaigns := (customers.campaignRows.rows.map (·.metrics)).mergeSort fun left right => right.totalOrders ≤ left.totalOrders
    daily := totals.dailyByDate.rows
    weekdays := weekdayOrder.filterMap totals.weekdayByName.find
    hours := totals.hourlyByHour.rows }

def buildGrowthPeriodMetrics (orders : List GrowthDashboardOrder) (range : GrowthDashboardDateRange)
    (firstDeliveredOrderByCustomer : String → Option FirstDeliveredOrderAttribution)
    (deliveredOrderCountByCustomer : String → Option Nat) : Except String GrowthMetrics := do
  let dates ← createDateKeys range
  let start : GrowthTotals := { dailyByDate := Table.ofRows DailyRow.date (dates.map fun date => { date := date }) }
  let totals := orders.foldl (fun totals order => addOrder torontoClock toLocaleLowerCase parseNumber order totals) start
  let customers := totals.deliveredCustomerIds.foldl (fun customers customerId =>
    addCustomer toLocaleLowerCase range firstDeliveredOrderByCustomer deliveredOrderCountByCustomer customerId customers)
    { sourceRows := totals.sourceRows, campaignRows := totals.campaignRows }
  .ok (growthMetrics orders.length totals customers)

end Runtime

end SpeedySweeties.Reports
