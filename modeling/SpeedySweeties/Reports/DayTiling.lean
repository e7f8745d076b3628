import SpeedySweeties.Reports.DayFilters

/-! When the day filters tile the calendar. Over consecutive ranges of days nothing is counted
twice, and what is lost is what happened within the last second of a day on which a range ends. -/
namespace SpeedySweeties.Reports
open Calendar DayRanges

variable (utc : Int → Int)

def dayStart (day : Int) : Int := utc (day*Calendar.dayMs)

/-- The first millisecond that the filter of a day's end leaves out. -/
def dayEnd (day : Int) : Int := utc (day*Calendar.dayMs + lastSecond) + 1

/-- The query values of consecutive ranges, day by day. -/
abbrev DayQueries (parts : List (String × String)) (days : List (Int × Int)) : Prop :=
  List.Forall₂ (fun part range => dayOf part.1 = some range.1 ∧ dayOf part.2 = some range.2) parts days

section Dates
variable {start end_ : String} {first last : Int}

theorem datePresent {date : String} {day : Int} (is : dayOf date = some day) : present (some date) = some date := by
  refine Option.filter_some_pos (decide_eq_true ?_)
  rintro rfl
  cases is

theorem dateTrimmed {date : String} {day : Int} (is : dayOf date = some day) : JsText.trim date = date := by
  obtain ⟨c,read,-⟩ := Option.bind_eq_some_iff.mp is
  refine JsText.trimSpaceless fun d mem => ?_
  unfold dateOnly at read
  split at read
  · rename_i chars
    split at read
    · rename_i digits
      rw [chars] at mem
      simp only [List.all_cons,List.all_nil,Bool.and_eq_true] at digits
      simp only [List.mem_cons,List.not_mem_nil,or_false] at mem
      rcases mem with rfl | rfl | rfl | rfl | rfl | rfl | rfl | rfl | rfl | rfl <;> first
        | decide
        | exact Bool.eq_false_iff.mpr fun space => by simp [JsText.spaceNoDigit space] at digits
    · cases read
  · cases read

theorem dayFilterDated (starts : dayOf start = some first) (ends : dayOf end_ = some last) :
    dayFilter utc (some start) (some end_) = .ok (some ⟨some (dayStart utc first),some (utc (last*Calendar.dayMs + lastSecond))⟩) := by
  rw [dayFilter,datePresent starts,datePresent ends]
  simp only [localDate,starts,ends,Int.add_zero]
  rfl

theorem passesDays : TimeFilter.passes ⟨some (dayStart utc first),some (utc (last*Calendar.dayMs + lastSecond))⟩ =
    fun at_ => decide (Covers (dayStart utc) (dayEnd utc) (first,last) at_) := by
  funext at_
  simp only [TimeFilter.passes,Option.all_some,Covers,dayEnd,Int.lt_add_one_iff,Bool.decide_and]

end Dates

/-! ### Delivery counts -/

/-- What the statistics say of a driver. -/
def driverDeliveries (driverId : String) (stats : List DriverStatRow) : Nat :=
  (stats.map fun row => if row.driverId = driverId then row.totalDeliveries else 0).sum

def deliveredBy (driverId : String) (order : FilteredOrder) : Bool := order.assignedDriver.any (·.id = driverId)

theorem addKeeps (stat : DriverStat) (order : FilteredOrder) : (stat.add order).driverId = stat.driverId := by
  unfold DriverStat.add
  split <;> rfl

theorem addCounts (stat : DriverStat) (order : FilteredOrder) : (stat.add order).totalDeliveries = stat.totalDeliveries + 1 := by
  unfold DriverStat.add
  split <;> rfl

theorem stepCount (stats : StatsByDriver) (order : FilteredOrder) (driverId : String) :
    ((countDelivery stats order).rows.map fun stat => if stat.driverId = driverId then stat.totalDeliveries else 0).sum =
      (stats.rows.map fun stat => if stat.driverId = driverId then stat.totalDeliveries else 0).sum +
        if deliveredBy driverId order then 1 else 0 := by
  unfold countDelivery
  cases is : order.assignedDriver with
  | none => simp [deliveredBy,is]
  | some driver =>
    dsimp only
    have put := Table.sum_put stats (((stats.find driver.id).getD driver.stat).add order)
      fun stat => if stat.driverId = driverId then stat.totalDeliveries else 0
    cases found : stats.find driver.id with
    | none =>
      rw [found,Option.getD_none] at put
      simp only [addKeeps,addCounts,show driver.stat.driverId = driver.id from rfl,found,Option.elim_none] at put
      simpa [deliveredBy,is,AssignedDriver.stat] using put
    | some stat =>
      have key := Table.find_key found
      rw [found,Option.getD_some] at put
      simp only [addKeeps,addCounts,key,found,Option.elim_some] at put
      simp only [deliveredBy,is,Option.any_some,decide_eq_true_eq,Option.getD_some]
      split at put <;> simp_all
      omega

theorem statsCount (orders : List FilteredOrder) (driverId : String) :
    ((statsByDriver orders).rows.map fun stat => if stat.driverId = driverId then stat.totalDeliveries else 0).sum =
      orders.countP (deliveredBy driverId) := by
  suffices steps : ∀ stats : StatsByDriver,
      ((orders.foldl countDelivery stats).rows.map fun stat => if stat.driverId = driverId then stat.totalDeliveries else 0).sum =
        (stats.rows.map fun stat => if stat.driverId = driverId then stat.totalDeliveries else 0).sum +
          orders.countP (deliveredBy driverId) by
    exact (steps Table.empty).trans (Nat.zero_add _)
  intro stats
  induction orders generalizing stats with
  | nil => rfl
  | cons order orders ih =>
    rw [List.foldl_cons,ih,stepCount,List.countP_cons]
    omega

/-! ### Parts of a range -/

def DriverStatsQuery.during (query : DriverStatsQuery) (part : String × String) : DriverStatsQuery :=
  { query with startDate := some (.text part.1), endDate := some (.text part.2) }

def OrderListQuery.during (query : OrderListQuery) (part : String × String) : OrderListQuery :=
  { query with startDate := some (.text part.1), endDate := some (.text part.2) }

/-- An order that the statistics are about, on whatever day it was delivered. -/
def deliveryCounted (query : DriverStatsQuery) (order : FilteredOrder) : Bool :=
  order.orderStatus = .delivered && driverSelected query.drivers order

/-- An order that the history is about, on whatever day it was created. -/
def historySelected (searchMatches : String → FilteredOrder → Bool) (query : OrderListQuery) (order : FilteredOrder) : Bool :=
  let drivers := ((query.driverId.bind (·.text?)).map JsText.trim).elim [] separated
  (drivers = [] || order.assignedDriver.any fun driver => driver.id ∈ drivers) &&
    (query.searchText = "" || searchMatches query.searchText order) && statusSelected query.statusText order

section Parts
variable {utc} {part : String × String} {range : Int × Int} (dated : dayOf part.1 = some range.1 ∧ dayOf part.2 = some range.2)
include dated

theorem deliveriesDuring (orders : List FilteredOrder) (query : DriverStatsQuery) (driverId : String) :
    (getDriverStats utc orders (query.during part)).map (driverDeliveries driverId) =
      .ok (orders.countP fun order => deliveryCounted query order && deliveredBy driverId order &&
        order.deliveredAt.any fun at_ => Covers (dayStart utc) (dayEnd utc) range at_) := by
  have filter := dayFilterDated utc dated.1 dated.2
  have where_ : deliveredWhere utc (query.during part) = .ok fun order => deliveryCounted query order &&
      order.deliveredAt.any fun at_ => Covers (dayStart utc) (dayEnd utc) range at_ := by
    simp only [deliveredWhere,DriverStatsQuery.during,Option.bind_some,QueryValue.text?,filter]
    refine congrArg Except.ok (funext fun order => ?_)
    simp only [Option.all_some,deliveryCounted,DriverStatsQuery.drivers,passesDays]
  rw [getDriverStats,where_]
  change Except.ok (driverDeliveries driverId _) = _
  refine congrArg Except.ok ?_
  rw [driverDeliveries]
  refine (((List.mergeSort_perm _ _).map _).sum_eq).trans ?_
  rw [List.map_map]
  refine (statsCount _ driverId).trans ?_
  rw [List.countP_filter]
  refine List.countP_congr fun order _ => ?_
  cases deliveryCounted query order <;> simp

theorem historyDuring (searchMatches : String → FilteredOrder → Bool) (query : OrderListQuery) :
    historyWhere utc searchMatches (query.during part) = .ok fun order =>
      historySelected searchMatches query order && Covers (dayStart utc) (dayEnd utc) range order.createdAt := by
  have filter := dayFilterDated utc dated.1 dated.2
  simp only [historyWhere,OrderListQuery.during,Option.bind_some,QueryValue.text?,Option.map_some,dateTrimmed dated.1,dateTrimmed dated.2,filter]
  refine congrArg Except.ok (funext fun order => ?_)
  simp only [Option.all_some,passesDays]
  rfl

end Parts

theorem partsOk {β : Type} {parts : List (String × String)} {ranges : List (Int × Int)} (queries : DayQueries parts ranges)
    {f : String × String → Except String β} {g : Int × Int → β}
    (each : ∀ part range, dayOf part.1 = some range.1 ∧ dayOf part.2 = some range.2 → f part = .ok (g range)) :
    parts.mapM f = .ok (ranges.map g) := by
  induction queries with
  | nil => rfl
  | cons dated _ ih =>
    rw [List.mapM_cons,each _ _ dated,ih]
    rfl

section Tiling
variable {utc} {parts : List (String × String)} {ranges : List (Int × Int)} {start end_ : String} {first last : Int}
  (clock : ∀ day, utc (day*Calendar.dayMs) ≤ utc (day*Calendar.dayMs + lastSecond) ∧ utc (day*Calendar.dayMs + lastSecond) < utc ((day + 1)*Calendar.dayMs))
  (queries : DayQueries parts ranges) (whole : dayOf start = some first ∧ dayOf end_ = some last) (tiles : Tiles first last ranges)
include clock

theorem daysOrdered (day : Int) : dayStart utc day ≤ dayEnd utc day ∧ dayEnd utc day ≤ dayStart utc (day + 1) := by
  have := clock day
  unfold dayStart dayEnd
  omega

include tiles

theorem partsCount (at_ : Int) : ranges.countP (fun range => Covers (dayStart utc) (dayEnd utc) range at_) =
    if Covers (dayStart utc) (dayEnd utc) (first,last) at_ ∧ ¬Between (dayStart utc) (dayEnd utc) ranges at_ then 1 else 0 :=
  tilesCount (daysOrdered clock) tiles at_

theorem deliveryCount (counted : Bool) (deliveredAt : Option Int) :
    ranges.countP (fun range => counted && deliveredAt.any fun at_ => Covers (dayStart utc) (dayEnd utc) range at_) =
      if (counted && deliveredAt.any fun at_ => Covers (dayStart utc) (dayEnd utc) (first,last) at_) &&
        !(deliveredAt.any fun at_ => Between (dayStart utc) (dayEnd utc) ranges at_) then 1 else 0 := by
  cases counted with
  | false => simp
  | true =>
    cases deliveredAt with
    | none => simp
    | some at_ => simpa using partsCount clock tiles at_

include queries whole

theorem deliveriesTile (orders : List FilteredOrder) (query : DriverStatsQuery) :
    (∀ driverId, (parts.mapM fun part => (getDriverStats utc orders (query.during part)).map (driverDeliveries driverId)).map List.sum =
      (getDriverStats utc orders (query.during (start,end_))).map (driverDeliveries driverId)) ↔
    ∀ order ∈ orders, deliveryCounted query order → ∀ at_ ∈ order.deliveredAt, ¬Between (dayStart utc) (dayEnd utc) ranges at_ := by
  have law (driverId : String) : ((parts.mapM fun part =>
        (getDriverStats utc orders (query.during part)).map (driverDeliveries driverId)).map List.sum =
      (getDriverStats utc orders (query.during (start,end_))).map (driverDeliveries driverId)) ↔
      ∀ order ∈ orders, ((deliveryCounted query order && deliveredBy driverId order) &&
        order.deliveredAt.any fun at_ => Covers (dayStart utc) (dayEnd utc) (first,last) at_) = true →
          (order.deliveredAt.any fun at_ => Between (dayStart utc) (dayEnd utc) ranges at_) = false := by
    rw [partsOk queries fun part range dated => deliveriesDuring dated orders query driverId,@deliveriesDuring utc (start,end_) (first,last) whole orders query driverId,
      ← Table.countPWithout]
    change Except.ok _ = Except.ok _ ↔ _
    rw [Except.ok.injEq,Table.sumCountPComm]
    simp only [deliveryCount clock tiles,Table.sumIndicator]
  simp only [law]
  constructor
  · intro apart order mem counted at_ is between
    obtain ⟨driver,assigned,-⟩ := Option.any_eq_true _ _ |>.mp (Bool.and_eq_true_iff.mp counted).2
    have inside := betweenInside (daysOrdered clock) tiles between
    have free := apart driver.id order mem
    rw [Option.mem_def] at is
    simp [counted,deliveredBy,assigned,is,Covers,inside,between] at free
  · intro apart driverId order mem counted
    rw [Bool.eq_false_iff]
    intro between
    obtain ⟨at_,is,between⟩ := Option.any_eq_true _ _ |>.mp between
    simp only [Bool.and_eq_true] at counted
    exact apart order mem counted.1.1 at_ is (of_decide_eq_true between)

theorem historyTiles (searchMatches : String → FilteredOrder → Bool) (orders : List FilteredOrder) (query : OrderListQuery) :
    (∀ order ∈ orders, (parts.mapM fun part => historyWhere utc searchMatches (query.during part)).map (·.countP fun selects => selects order) =
      (historyWhere utc searchMatches (query.during (start,end_))).map fun selects => if selects order then 1 else 0) ↔
    ∀ order ∈ orders, historySelected searchMatches query order → ¬Between (dayStart utc) (dayEnd utc) ranges order.createdAt := by
  refine forall₂_congr fun order mem => ?_
  rw [partsOk queries fun part range dated => historyDuring dated searchMatches query,@historyDuring utc (start,end_) (first,last) whole searchMatches query]
  change Except.ok _ = Except.ok _ ↔ _
  dsimp only
  rw [Except.ok.injEq,List.countP_map]
  have counts := deliveryCount clock tiles (historySelected searchMatches query order) (some order.createdAt)
  simp only [Option.any_some] at counts
  refine (Eq.congr_left counts).trans ?_
  have inside := fun between => betweenInside (daysOrdered clock) tiles (between : Between _ _ ranges order.createdAt)
  by_cases between : Between (dayStart utc) (dayEnd utc) ranges order.createdAt
  · have covers : Covers (dayStart utc) (dayEnd utc) (first,last) order.createdAt := inside between
    by_cases selected : historySelected searchMatches query order = true <;> simp [between,covers,selected]
  · simp [between]

/-- Over consecutive ranges of days the deliveries add up, and each order of the history is in one
range, exactly where nothing that is looked for happened between the ranges. -/
theorem dayFiltersTile (searchMatches : String → FilteredOrder → Bool) (orders : List FilteredOrder) (stats : DriverStatsQuery)
    (history : OrderListQuery) :
    ((∀ driverId, (parts.mapM fun part => (getDriverStats utc orders (stats.during part)).map (driverDeliveries driverId)).map List.sum =
        (getDriverStats utc orders (stats.during (start,end_))).map (driverDeliveries driverId)) ↔
      ∀ order ∈ orders, deliveryCounted stats order → ∀ at_ ∈ order.deliveredAt, ¬Between (dayStart utc) (dayEnd utc) ranges at_) ∧
    ((∀ order ∈ orders,
        (parts.mapM fun part => historyWhere utc searchMatches (history.during part)).map (·.countP fun selects => selects order) =
          (historyWhere utc searchMatches (history.during (start,end_))).map fun selects => if selects order then 1 else 0) ↔
      ∀ order ∈ orders, historySelected searchMatches history order → ¬Between (dayStart utc) (dayEnd utc) ranges order.createdAt) :=
  ⟨deliveriesTile clock queries whole tiles orders stats,historyTiles clock queries whole tiles searchMatches orders history⟩

end Tiling

def twoDays : List (String × String) := [("1970-01-01","1970-01-01"),("1970-01-02","1970-01-02")]

/-- Created with the first day's last second half over, and delivered with the next second. -/
def deliveredAtMidnight (deliveredAt : Int) : FilteredOrder :=
  ⟨"o1",.delivered,.normal,86399500,some 86399600,some deliveredAt,some ⟨"d1",none,none,"d1@example.com"⟩⟩

theorem dayFiltersTileMidnight :
    (twoDays.mapM fun part => (getDriverStats id [deliveredAtMidnight 86400000] (DriverStatsQuery.during {} part)).map
        (driverDeliveries "d1")).map List.sum =
      (getDriverStats id [deliveredAtMidnight 86400000] (DriverStatsQuery.during {} ("1970-01-01","1970-01-02"))).map (driverDeliveries "d1") := by
  have clock (day : Int) : id (day*Calendar.dayMs) ≤ id (day*Calendar.dayMs + lastSecond) ∧ id (day*Calendar.dayMs + lastSecond) < id ((day + 1)*Calendar.dayMs) := by
    simp only [id_eq,lastSecond,Calendar.dayMs]
    omega
  have queries : DayQueries twoDays [(0,0),(1,1)] := .cons (by decide) (.cons (by decide) .nil)
  have tiles : Tiles 0 1 [(0,0),(1,1)] := .cons (by decide) (.one (by decide))
  exact (dayFiltersTile clock queries ⟨by decide,by decide⟩ tiles (fun _ _ => true) [deliveredAtMidnight 86400000] {} {}).1.mpr
    (by decide +kernel) "d1"

theorem dayGap :
    ¬(∀ driverId, (twoDays.mapM fun part => (getDriverStats id [deliveredAtMidnight 86399700] (DriverStatsQuery.during {} part)).map
        (driverDeliveries driverId)).map List.sum =
      (getDriverStats id [deliveredAtMidnight 86399700] (DriverStatsQuery.during {} ("1970-01-01","1970-01-02"))).map
        (driverDeliveries driverId)) ∧
    ¬(∀ order ∈ [deliveredAtMidnight 86399700],
      (twoDays.mapM fun part => historyWhere id (fun _ _ => true) (OrderListQuery.during { status := some (.text "delivered") } part)).map
          (·.countP fun selects => selects order) =
        (historyWhere id (fun _ _ => true) (OrderListQuery.during { status := some (.text "delivered") } ("1970-01-01","1970-01-02"))).map
          fun selects => if selects order then 1 else 0) := by
  constructor
  · intro deliveries
    exact absurd (deliveries "d1") (by decide +kernel)
  · intro history
    exact absurd (history _ List.mem_cons_self) (by decide +kernel)

end SpeedySweeties.Reports
