import SpeedySweeties.Library.Calendar
import SpeedySweeties.Library.DayRanges
import SpeedySweeties.Library.Grouping
import SpeedySweeties.Library.JsText
import SpeedySweeties.Reports.Metrics

/-! The day filters of the driver statistics and of the order history. A day ends with its last
second, and whatever happens within that second belongs to no day. -/
namespace SpeedySweeties.Reports
open Calendar DayRanges

inductive QueryValue where
  | text (value : String)
  | list (values : List String)
  deriving DecidableEq, Repr

def QueryValue.text? : QueryValue → Option String
  | .text value => some value
  | .list _ => none

structure AssignedDriver where
  id : String
  firstName : Option String
  lastName : Option String
  email : String
  deriving DecidableEq, Repr

structure FilteredOrder where
  id : String
  orderStatus : OrderStatus
  priority : OrderPriority
  createdAt : Int
  acceptedAt : Option Int
  deliveredAt : Option Int
  assignedDriver : Option AssignedDriver
  deriving DecidableEq, Repr

structure TimeFilter where
  gte : Option Int
  lte : Option Int
  deriving DecidableEq, Repr

def TimeFilter.passes (filter : TimeFilter) (at_ : Int) : Bool := filter.gte.all (· ≤ at_) && filter.lte.all (at_ ≤ ·)

def separated (ids : String) : List String := ((ids.splitOn ",").map JsText.trim).filter (· ≠ "")

/-- `T23:59:59` -/
def lastSecond : Int := Calendar.dayMs - 1000

section Dates
variable (utc : Int → Int)

/-- A local date, in days. The parser takes any day of a month up to 31. -/
def dayOf (date : String) : Option Int := do
  let c ← dateOnly date
  if 1 ≤ c.month ∧ c.month ≤ 12 ∧ 1 ≤ c.day ∧ c.day ≤ 31 then some (daysFromCivil c) else none

/-- `new Date(date + "T…")`: the server's clock says when it is that time there; a date that is none is refused by the database client. -/
def localDate (date : String) (timeOfDay : Int) : Except String Int :=
  match dayOf date with
  | some day => .ok (utc (day*Calendar.dayMs + timeOfDay))
  | none => .error "Invalid Date"

def dayFilter (startDate endDate : Option String) : Except String (Option TimeFilter) :=
  match present startDate,present endDate with
  | none,none => .ok none
  | some start,none => do .ok (some ⟨some (← localDate utc start 0),none⟩)
  | none,some end_ => do .ok (some ⟨none,some (← localDate utc end_ lastSecond)⟩)
  | some start,some end_ => do .ok (some ⟨some (← localDate utc start 0),some (← localDate utc end_ lastSecond)⟩)

/-! ### Driver statistics -/

structure DriverStatsQuery where
  startDate : Option QueryValue := none
  endDate : Option QueryValue := none
  driverIds : Option QueryValue := none
  deriving DecidableEq, Repr

def DriverStatsQuery.drivers (query : DriverStatsQuery) : List String := (query.driverIds.bind (·.text?)).elim [] separated

structure DriverStat where
  driverId : String
  firstName : Option String
  lastName : Option String
  email : String
  totalDeliveries : Nat := 0
  totalDeliveryMinutes : Int := 0
  deliveryTimeSamples : Nat := 0
  fastestDeliveryMinutes : Option Int := none
  slowestDeliveryMinutes : Option Int := none
  deriving DecidableEq, Repr

def getMinutesBetween (start end_ : Option Int) : Option Int := do
  let diffMs := (← end_) - (← start)
  if diffMs < 0 then none else some ⌊(diffMs : ℚ)/60000 + 1/2⌋

def DriverStat.add (stat : DriverStat) (order : FilteredOrder) : DriverStat :=
  let counted := { stat with totalDeliveries := stat.totalDeliveries + 1 }
  match getMinutesBetween order.acceptedAt order.deliveredAt with
  | none => counted
  | some minutes => { counted with
      totalDeliveryMinutes := stat.totalDeliveryMinutes + minutes
      deliveryTimeSamples := stat.deliveryTimeSamples + 1
      fastestDeliveryMinutes := some (stat.fastestDeliveryMinutes.elim minutes (min minutes))
      slowestDeliveryMinutes := some (stat.slowestDeliveryMinutes.elim minutes (max minutes)) }

def AssignedDriver.stat (driver : AssignedDriver) : DriverStat where
  driverId := driver.id
  firstName := driver.firstName
  lastName := driver.lastName
  email := driver.email

abbrev StatsByDriver := Table DriverStat (·.driverId)

/-- One turn of the loop over the delivered orders. -/
def countDelivery (stats : StatsByDriver) (order : FilteredOrder) : StatsByDriver :=
  match order.assignedDriver with
  | none => stats
  | some driver => stats.put (((stats.find driver.id).getD driver.stat).add order)

def statsByDriver (orders : List FilteredOrder) : StatsByDriver := orders.foldl countDelivery Table.empty

structure DriverStatRow where
  driverId : String
  firstName : Option String
  lastName : Option String
  email : String
  totalDeliveries : Nat
  averageDeliveryMinutes : Option Int
  fastestDeliveryMinutes : Option Int
  slowestDeliveryMinutes : Option Int
  deriving DecidableEq, Repr

def DriverStat.row (stat : DriverStat) : DriverStatRow where
  driverId := stat.driverId
  firstName := stat.firstName
  lastName := stat.lastName
  email := stat.email
  totalDeliveries := stat.totalDeliveries
  averageDeliveryMinutes :=
    if 0 < stat.deliveryTimeSamples then some ⌊(stat.totalDeliveryMinutes : ℚ)/stat.deliveryTimeSamples + 1/2⌋ else none
  fastestDeliveryMinutes := stat.fastestDeliveryMinutes
  slowestDeliveryMinutes := stat.slowestDeliveryMinutes

def driverSelected (drivers : List String) (order : FilteredOrder) : Bool :=
  order.assignedDriver.any fun driver => drivers = [] ∨ driver.id ∈ drivers

def deliveredWhere (query : DriverStatsQuery) : Except String (FilteredOrder → Bool) := do
  let deliveredAt ← dayFilter utc (query.startDate.bind (·.text?)) (query.endDate.bind (·.text?))
  .ok fun order => order.orderStatus = .delivered && driverSelected query.drivers order &&
    deliveredAt.all fun filter => order.deliveredAt.any filter.passes

def getDriverStats (orders : List FilteredOrder) (query : DriverStatsQuery) : Except String (List DriverStatRow) := do
  let deliveredOrders := orders.filter (← deliveredWhere utc query)
  .ok (((statsByDriver deliveredOrders).rows.map (·.row)).mergeSort fun a b => decide (b.totalDeliveries ≤ a.totalDeliveries))

/-! ### Order history -/

structure OrderListQuery where
  status : Option QueryValue := none
  driverId : Option QueryValue := none
  startDate : Option QueryValue := none
  endDate : Option QueryValue := none
  customerSearch : Option QueryValue := none
  /-- The number it stands for, `none` where that is not a safe integer. -/
  page : Option Int := some 1
  deriving DecidableEq, Repr

/-- Only the dotless i and the long s become ASCII letters that are not those of an ASCII letter. -/
def upperCase (text : String) : String :=
  String.ofList (text.toList.map fun c => if c = 'ı' then 'I' else if c = 'ſ' then 'S' else c.toUpper)

def statusSelected (status : Option String) (order : FilteredOrder) : Bool :=
  match status with
  | some "CANCELLED" => order.orderStatus = .cancelled
  | some "DELIVERED" => order.orderStatus = .delivered
  | some "DISPATCHED" => order.orderStatus = .dispatched
  | _ => order.orderStatus ∈ [.placed,.dispatched,.accepted,.outForDelivery]

def OrderListQuery.statusText (query : OrderListQuery) : Option String :=
  (query.status.bind (·.text?)).map fun status => upperCase (JsText.trim status)

def OrderListQuery.searchText (query : OrderListQuery) : String := JsText.trim ((query.customerSearch.bind (·.text?)).getD "")

/-- What the database is asked for. The search of names, addresses and phone numbers is its own. -/
def historyWhere (searchMatches : String → FilteredOrder → Bool) (query : OrderListQuery) : Except String (FilteredOrder → Bool) := do
  let drivers := ((query.driverId.bind (·.text?)).map JsText.trim).elim [] separated
  let createdAt ← dayFilter utc ((query.startDate.bind (·.text?)).map JsText.trim) ((query.endDate.bind (·.text?)).map JsText.trim)
  .ok fun order => (drivers = [] || order.assignedDriver.any fun driver => driver.id ∈ drivers) &&
    (query.searchText = "" || searchMatches query.searchText order) && statusSelected query.statusText order &&
    createdAt.all fun filter => filter.passes order.createdAt

structure OrderListPage where
  totalCount : Nat
  currentPage : Int
  totalPages : Nat
  orders : List FilteredOrder
  deriving DecidableEq, Repr

def pageLimit : Nat := 100

def prioritySortOrder : OrderPriority → Nat
  | .high => 0
  | .normal => 1

def sortOrdersByPriorityThenOldest (orders : List FilteredOrder) : List FilteredOrder :=
  orders.mergeSort fun a b => decide (prioritySortOrder a.priority < prioritySortOrder b.priority ∨
    prioritySortOrder a.priority = prioritySortOrder b.priority ∧ a.createdAt ≤ b.createdAt)

def listAllOrders (searchMatches : String → FilteredOrder → Bool) (orders : List FilteredOrder) (query : OrderListQuery) :
    Except String OrderListPage :=
  if (query.customerSearch.any fun value => value.text?.all fun text => 200 < JsText.length (JsText.trim text)) then
    .error "Customer search must be text of 200 characters or fewer."
  else match query.page.filter (1 ≤ ·) with
    | none => .error "Use at least 2 characters to search and a valid page number."
    | some page =>
      if JsText.length query.searchText = 1 then .error "Use at least 2 characters to search and a valid page number."
      else do
        let found := orders.filter (← historyWhere utc searchMatches query)
        let newest := found.mergeSort fun a b => decide (b.createdAt < a.createdAt ∨ b.createdAt = a.createdAt ∧ b.id ≤ a.id)
        let shown := (newest.drop ((page.toNat - 1)*pageLimit)).take pageLimit
        .ok {
          totalCount := found.length
          currentPage := page
          totalPages := (found.length + pageLimit - 1)/pageLimit
          orders := if query.statusText ∈ [some "CANCELLED",some "DELIVERED"] then shown else sortOrdersByPriorityThenOldest shown }

end Dates
end SpeedySweeties.Reports
