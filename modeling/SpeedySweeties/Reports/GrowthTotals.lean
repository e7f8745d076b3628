import Mathlib.Data.Finset.Card
import SpeedySweeties.Library.Fallible
import SpeedySweeties.Reports.GrowthMetrics

/-! Each series of the growth dashboard sorts the same orders into its own rows, and none of them
loses or repeats one: every order of the range has a source, a status, a way of payment, a date of
the range, an hour and a weekday. New and returning customers are told apart once each. -/
namespace SpeedySweeties.Reports
open Calendar DayRanges

variable {α κ ρ : Type}

/-! ### Counting in loops -/

theorem foldlTally {f : ρ → α → ρ} {μ : ρ → Nat} {p : α → Bool} (step : ∀ row a, μ (f row a) = μ row + one (p a))
    (items : List α) (row : ρ) : μ (items.foldl f row) = μ row + items.countP p := by
  induction items generalizing row with
  | nil => rfl
  | cons a items ih =>
    rw [List.foldl_cons,ih,step,List.countP_cons,one]
    split <;> omega

theorem foldlKeeps {σ : Type} {f : ρ → α → ρ} {μ : ρ → σ} (step : ∀ row a, μ (f row a) = μ row) (items : List α) (row : ρ) :
    μ (items.foldl f row) = μ row := by
  induction items generalizing row with
  | nil => rfl
  | cons a items ih => rw [List.foldl_cons,ih,step]

/-- The rows of a series: every item is in the one row with its key, which counts its items. -/
structure Buckets (key : α → κ) [DecidableEq κ] (items : List α) (rows : List (κ × Nat)) : Prop where
  once : (rows.map Prod.fst).Nodup
  placed : ∀ item ∈ items, key item ∈ rows.map Prod.fst
  counts : ∀ row ∈ rows, row.2 = items.countP fun item => key item = row.1
  total : (rows.map Prod.snd).sum = items.length

variable [DecidableEq κ]

theorem bucketsOf {key : α → κ} {items : List α} {keys : List κ} (once : keys.Nodup) (placed : ∀ item ∈ items, key item ∈ keys) :
    Buckets key items (keys.map fun name => (name,items.countP fun item => key item = name)) := by
  have names : (keys.map fun name => (name,items.countP fun item => key item = name)).map Prod.fst = keys := by
    rw [List.map_map]
    exact List.map_id keys
  refine ⟨names.symm ▸ once,fun item mem => names.symm ▸ placed item mem,fun row mem => ?_,?_⟩
  · obtain ⟨name,_,rfl⟩ := List.mem_map.mp mem
    rfl
  · have counts := Table.sumCountP once (fun item => some (key item)) items
    rw [List.countP_eq_length.mpr fun item mem => decide_eq_true ⟨_,placed item mem,rfl⟩] at counts
    rw [← counts,List.map_map]
    refine congrArg List.sum (List.map_congr_left fun name _ => ?_)
    simp only [Function.comp_apply,Option.some.injEq]

theorem Buckets.perm {key : α → κ} {items : List α} {rows others : List (κ × Nat)} (h : Buckets key items rows) (same : rows.Perm others) :
    Buckets key items others where
  once := (same.map Prod.fst).nodup_iff.mp h.once
  placed item mem := (same.map Prod.fst).mem_iff.mp (h.placed item mem)
  counts row mem := h.counts row (same.mem_iff.mpr mem)
  total := (same.map Prod.snd).sum_eq.symm.trans h.total

theorem countersRows {keys : List κ} (once : keys.Nodup) (key : α → κ) (items : List α) :
    (items.foldl (fun counts item => counted counts (key item)) (counters keys)).rows =
      keys.map fun name => (name,items.countP fun item => key item = name) := by
  have rows : (counters keys).rows = keys.map (·,0) := Table.rows_ofRows (by rw [List.map_map]; exact (List.map_id keys).symm ▸ once)
  refine (Table.rows_modifyEach (counters keys) items (fun item => some (key item)) (fun _ => countOne) fun _ => countOneKeeps).trans ?_
  rw [rows,List.map_map]
  refine List.map_congr_left fun name _ => Prod.ext ?_ ?_
  · exact @foldlKeeps α _ _ (fun row _ => countOne row) Prod.fst (fun row _ => countOneKeeps row) _ _
  · refine (@foldlTally α _ (fun row _ => countOne row) Prod.snd (fun _ => true) (fun _ _ => rfl) _ _).trans ?_
    simp [List.countP_eq_length_filter]

theorem foldlAdded {α : Type} [DecidableEq α] (xs set : List α) (once : set.Nodup) :
    (xs.foldl added set).Nodup ∧ ∀ a, a ∈ xs.foldl added set ↔ a ∈ set ∨ a ∈ xs := by
  induction xs generalizing set with
  | nil => exact ⟨once,fun a => by simp⟩
  | cons x xs ih =>
    have step : (added set x).Nodup ∧ ∀ a, a ∈ added set x ↔ a ∈ set ∨ a = x := by
      unfold added
      split
      · rename_i mem
        exact ⟨once,fun a => ⟨.inl,fun h => h.elim id (· ▸ mem)⟩⟩
      · rename_i fresh
        exact ⟨List.nodup_append.mpr ⟨once,by simp,by simpa using fun a mem (same : a = x) => fresh (same ▸ mem)⟩,fun a => by simp⟩
    obtain ⟨distinct,members⟩ := ih (added set x) step.1
    exact ⟨distinct,fun a => by rw [List.foldl_cons,members,step.2,List.mem_cons,or_assoc]⟩

/-! ### The loop over the orders -/

section Loops
variable (torontoClock : Int → Int) (toLocaleLowerCase : String → String) (parseNumber : String → Option ℚ)
  (orders : List GrowthDashboardOrder) (start : GrowthTotals)

def addOrders : GrowthTotals := orders.foldl (fun totals order => addOrder torontoClock toLocaleLowerCase parseNumber order totals) start

theorem statusLoop : (addOrders torontoClock toLocaleLowerCase parseNumber orders start).statusCounts =
    orders.foldl (fun counts order => counted counts order.orderStatus) start.statusCounts :=
  (List.foldl_hom GrowthTotals.statusCounts fun _ _ => rfl).symm

theorem paymentLoop : (addOrders torontoClock toLocaleLowerCase parseNumber orders start).paymentCounts =
    orders.foldl (fun counts order => counted counts order.paymentMethod) start.paymentCounts :=
  (List.foldl_hom GrowthTotals.paymentCounts fun _ _ => rfl).symm

theorem weekdayLoop : (addOrders torontoClock toLocaleLowerCase parseNumber orders start).weekdayByName =
    orders.foldl (fun counts order => counted counts (getTorontoWeekday torontoClock order.createdAt)) start.weekdayByName :=
  (List.foldl_hom GrowthTotals.weekdayByName fun _ _ => rfl).symm

theorem hourLoop : (addOrders torontoClock toLocaleLowerCase parseNumber orders start).hourlyByHour =
    orders.foldl (fun counts order => counted counts (getTorontoHour torontoClock order.createdAt)) start.hourlyByHour :=
  (List.foldl_hom GrowthTotals.hourlyByHour fun _ _ => rfl).symm

theorem dailyLoop : (addOrders torontoClock toLocaleLowerCase parseNumber orders start).dailyByDate =
    start.dailyByDate.modifyEach orders (fun order => some (formatTorontoDateKey torontoClock order.createdAt)) addDaily addDailyKeeps :=
  (List.foldl_hom GrowthTotals.dailyByDate fun _ _ => rfl).symm

theorem sourceLoop : (addOrders torontoClock toLocaleLowerCase parseNumber orders start).sourceRows =
    start.sourceRows.modifyEach orders (fun order => some order.orderSource) (addSource parseNumber) (addSourceKeeps parseNumber) :=
  (List.foldl_hom GrowthTotals.sourceRows fun _ _ => rfl).symm

theorem customerLoop : (addOrders torontoClock toLocaleLowerCase parseNumber orders start).deliveredCustomerIds =
    (orders.filterMap deliveredCustomer).foldl added start.deliveredCustomerIds := by
  have loop : orders.foldl (fun set order => (deliveredCustomer order).elim set (added set)) start.deliveredCustomerIds =
      (addOrders torontoClock toLocaleLowerCase parseNumber orders start).deliveredCustomerIds :=
    List.foldl_hom GrowthTotals.deliveredCustomerIds fun _ _ => rfl
  rw [← loop,List.foldl_filterMap]
  congr 1
  funext set order
  cases h : deliveredCustomer order <;> rfl

theorem dailyRows {dates : List String} (once : dates.Nodup)
    (at_ : start.dailyByDate = Table.ofRows DailyRow.date (dates.map fun date => { date := date })) :
    (addOrders torontoClock toLocaleLowerCase parseNumber orders start).dailyByDate.rows.map (fun row => (row.date,row.totalOrders)) =
      dates.map fun date => (date,orders.countP fun order => formatTorontoDateKey torontoClock order.createdAt = date) := by
  have names : (dates.map fun date => ({ date := date } : DailyRow)).map DailyRow.date = dates := by
    rw [List.map_map]
    exact List.map_id dates
  rw [dailyLoop,Table.rows_modifyEach,at_,Table.rows_ofRows (names.symm ▸ once),List.map_map,List.map_map]
  refine List.map_congr_left fun date _ => Prod.ext ?_ ?_
  · exact @foldlKeeps GrowthDashboardOrder _ _ (fun row order => addDaily order row) DailyRow.date (fun _ _ => rfl) _ _
  · refine (@foldlTally GrowthDashboardOrder _ (fun row order => addDaily order row) DailyRow.totalOrders (fun _ => true)
      (fun _ _ => rfl) _ _).trans ?_
    simp [List.countP_eq_length_filter]

theorem allSources (source : OrderSource) : source ∈ orderSources := by cases source <;> decide

theorem sourceRowsAfter (at_ : start.sourceRows = Table.ofRows GrowthSourceRow.source (orderSources.map fun source => { source := source })) :
    (addOrders torontoClock toLocaleLowerCase parseNumber orders start).sourceRows.rows.map
        (fun row => (row.source,row.totalOrders,row.newCustomerIds)) =
      orderSources.map fun source => (source,orders.countP (fun order => order.orderSource = source),[]) := by
  rw [sourceLoop,Table.rows_modifyEach,at_,Table.rows_ofRows (by decide),List.map_map,List.map_map]
  refine List.map_congr_left fun source _ => Prod.ext ?_ (Prod.ext ?_ ?_)
  · exact @foldlKeeps GrowthDashboardOrder _ _ (fun row order => addSource parseNumber order row) GrowthSourceRow.source (fun _ _ => rfl) _ _
  · refine (@foldlTally GrowthDashboardOrder _ (fun row order => addSource parseNumber order row) GrowthSourceRow.totalOrders (fun _ => true)
      (fun _ _ => rfl) _ _).trans ?_
    simp [List.countP_eq_length_filter]
  · exact @foldlKeeps GrowthDashboardOrder _ _ (fun row order => addSource parseNumber order row) GrowthSourceRow.newCustomerIds
      (fun _ _ => rfl) _ _

/-! ### Campaigns -/

def campaignTotal (rows : CampaignRows) : Nat := (rows.rows.map (·.totalOrders)).sum

theorem campaignSum {rows : CampaignRows} {attribution : Attribution} {source : OrderSource} {change : CampaignRow → CampaignRow} {more : Nat}
    (adds : ∀ row, (change row).totalOrders = row.totalOrders + more) :
    campaignTotal (withCampaignRow toLocaleLowerCase rows attribution source change) =
      campaignTotal rows + if (campaignKeyFor toLocaleLowerCase attribution).isSome then more else 0 := by
  unfold withCampaignRow campaignTotal
  cases tagged : campaignKeyFor toLocaleLowerCase attribution with
  | none => simp
  | some key =>
    simp only [Option.isSome_some,if_true]
    generalize is : change { (rows.find key).getD { key := key, attribution := attribution } with
      orderSources := added ((rows.find key).getD { key := key, attribution := attribution }).orderSources source } = row
    have size : row.totalOrders = (rows.find key).elim 0 (·.totalOrders) + more := by
      rw [← is,adds]
      cases rows.find key <;> rfl
    have put := Table.sum_put rows { row with key := key } (·.totalOrders)
    dsimp only at put
    omega

theorem campaignLoop : campaignTotal (addOrders torontoClock toLocaleLowerCase parseNumber orders start).campaignRows =
    campaignTotal start.campaignRows + orders.countP fun order => (campaignKeyFor toLocaleLowerCase order.toAttribution).isSome :=
  @foldlTally GrowthDashboardOrder GrowthTotals _ (fun totals => campaignTotal totals.campaignRows) _
    (fun _ _ => campaignSum toLocaleLowerCase fun _ => rfl) _ _

end Loops

/-! ### The loop over the customers -/

section Customers
variable (toLocaleLowerCase : String → String) (range : GrowthDashboardDateRange)
  (firstDeliveredOrderByCustomer : String → Option FirstDeliveredOrderAttribution) (deliveredOrderCountByCustomer : String → Option Nat)
  (customerIds : List String) (start : CustomerTotals)

def addCustomers : CustomerTotals := customerIds.foldl (fun totals customerId =>
  addCustomer toLocaleLowerCase range firstDeliveredOrderByCustomer deliveredOrderCountByCustomer customerId totals) start

theorem returningLoop :
    (addCustomers toLocaleLowerCase range firstDeliveredOrderByCustomer deliveredOrderCountByCustomer customerIds start).returningCustomers =
      start.returningCustomers + customerIds.countP (returning range firstDeliveredOrderByCustomer) := by
  refine @foldlTally String CustomerTotals _ CustomerTotals.returningCustomers _ (fun totals customerId => ?_) _ _
  unfold addCustomer one
  cases returning range firstDeliveredOrderByCustomer customerId <;> rfl

theorem newLoop :
    (addCustomers toLocaleLowerCase range firstDeliveredOrderByCustomer deliveredOrderCountByCustomer customerIds start).newCustomers =
      start.newCustomers + customerIds.countP (!returning range firstDeliveredOrderByCustomer ·) := by
  refine @foldlTally String CustomerTotals _ CustomerTotals.newCustomers _ (fun totals customerId => ?_) _ _
  unfold addCustomer one
  cases returning range firstDeliveredOrderByCustomer customerId <;> rfl

theorem acquiredLoop :
    campaignTotal (addCustomers toLocaleLowerCase range firstDeliveredOrderByCustomer deliveredOrderCountByCustomer customerIds start).campaignRows =
      campaignTotal start.campaignRows := by
  refine @foldlKeeps String CustomerTotals _ _ (fun totals => campaignTotal totals.campaignRows) (fun totals customerId => ?_) _ _
  unfold addCustomer
  cases returning range firstDeliveredOrderByCustomer customerId with
  | true => rfl
  | false =>
    cases first : firstDeliveredOrderByCustomer customerId with
    | none => simp
    | some attribution =>
      simp only [Bool.false_eq_true,if_false,Option.elim_some]
      have same := @campaignSum toLocaleLowerCase totals.campaignRows attribution.toAttribution attribution.orderSource
        (addAcquired customerId (repeated deliveredOrderCountByCustomer customerId)) 0 fun _ => rfl
      rw [same]
      simp

/-- What becomes of a source's row in a round. -/
def sourceAfter (customerId : String) (row : GrowthSourceRow) : GrowthSourceRow :=
  if returning range firstDeliveredOrderByCustomer customerId then addReturning customerId row
  else if row.source = acquisitionSource firstDeliveredOrderByCustomer customerId then
    addNew customerId (repeated deliveredOrderCountByCustomer customerId) row
  else row

theorem sourceRowsLoop :
    (addCustomers toLocaleLowerCase range firstDeliveredOrderByCustomer deliveredOrderCountByCustomer customerIds start).sourceRows.rows =
      start.sourceRows.rows.map fun row => customerIds.foldl
        (fun row customerId => sourceAfter range firstDeliveredOrderByCustomer deliveredOrderCountByCustomer customerId row) row := by
  induction customerIds generalizing start with
  | nil => simp [addCustomers]
  | cons customerId customerIds ih =>
    refine (ih _).trans ?_
    have step : (addCustomer toLocaleLowerCase range firstDeliveredOrderByCustomer deliveredOrderCountByCustomer customerId start).sourceRows.rows =
        start.sourceRows.rows.map (sourceAfter range firstDeliveredOrderByCustomer deliveredOrderCountByCustomer customerId) := by
      unfold addCustomer sourceAfter
      cases returning range firstDeliveredOrderByCustomer customerId <;> rfl
    rw [step,List.map_map]
    rfl

theorem sourceAfterKeeps (row : GrowthSourceRow) (customerId : String) :
    (sourceAfter range firstDeliveredOrderByCustomer deliveredOrderCountByCustomer customerId row).source = row.source ∧
      (sourceAfter range firstDeliveredOrderByCustomer deliveredOrderCountByCustomer customerId row).totalOrders = row.totalOrders := by
  unfold sourceAfter
  split
  · unfold addReturning
    split <;> exact ⟨rfl,rfl⟩
  · split <;> exact ⟨rfl,rfl⟩

theorem returningNotNew (customerId : String) (row : GrowthSourceRow) : (addReturning customerId row).newCustomerIds = row.newCustomerIds := by
  unfold addReturning
  split <;> rfl

/-- The source that a new customer counts for. -/
def acquiredBy (customerId : String) : Option OrderSource :=
  if returning range firstDeliveredOrderByCustomer customerId then none else some (acquisitionSource firstDeliveredOrderByCustomer customerId)

theorem newCustomersOf (once : customerIds.Nodup) (row : GrowthSourceRow) (fresh : ∀ id ∈ customerIds, id ∉ row.newCustomerIds) :
    (customerIds.foldl (fun row customerId => sourceAfter range firstDeliveredOrderByCustomer deliveredOrderCountByCustomer customerId row)
      row).newCustomerIds = row.newCustomerIds ++
        customerIds.filter fun id => acquiredBy range firstDeliveredOrderByCustomer id = some row.source := by
  induction customerIds generalizing row with
  | nil => simp
  | cons customerId customerIds ih =>
    obtain ⟨other,once⟩ := List.nodup_cons.mp once
    have step : (sourceAfter range firstDeliveredOrderByCustomer deliveredOrderCountByCustomer customerId row).newCustomerIds =
        row.newCustomerIds ++ if acquiredBy range firstDeliveredOrderByCustomer customerId = some row.source then [customerId] else [] := by
      unfold sourceAfter acquiredBy
      cases returning range firstDeliveredOrderByCustomer customerId with
      | true => simp [returningNotNew]
      | false =>
        by_cases here : row.source = acquisitionSource firstDeliveredOrderByCustomer customerId
        · simp [here,addNew,added,fresh customerId List.mem_cons_self]
        · simp [here,Ne.symm here]
    have source := (sourceAfterKeeps range firstDeliveredOrderByCustomer deliveredOrderCountByCustomer row customerId).1
    rw [List.foldl_cons,ih once,step,source,List.append_assoc]
    · congr 1
      rw [List.filter_cons]
      split <;> simp_all
    · intro id mem
      rw [step,List.mem_append,not_or]
      refine ⟨fresh id (List.mem_cons_of_mem _ mem),?_⟩
      split
      · simpa using fun same : id = customerId => other (same ▸ mem)
      · exact List.not_mem_nil

end Customers

/-! ### Keys of the range -/

section Keys
variable {torontoClock : Int → Int} {range : GrowthDashboardDateRange} {first : Civil}

/-- The dates of the range, one after the other. -/
def rangeDates (first : Civil) (days : Nat) : List String :=
  (List.range days).map fun index => plainDate (civilFromDays (daysFromCivil first + (index : Nat)))

theorem rangeKeys (own : RangeDays torontoClock range first) : createDateKeys range = .ok (rangeDates first range.days) := by
  unfold createDateKeys rangeDates
  exact mapOk (g := fun index : Nat => plainDate (civilFromDays (daysFromCivil first + (index : Int)))) fun index _ => addedDays own.start index

theorem rangeDatesOnce (days : Nat) : (rangeDates first days).Nodup := by
  refine List.Nodup.map (fun a b same => ?_) List.nodup_range
  have := plainDayInjective same
  omega

theorem dateInRange (own : RangeDays torontoClock range first) {t : Int} (from_ : range.startUtc ≤ t) (until_ : t < range.endExclusiveUtc) :
    formatTorontoDateKey torontoClock t ∈ rangeDates first range.days := by
  have low := (own.starts t).mp from_
  have high := (own.ends t).mp until_
  refine List.mem_map.mpr ⟨(torontoClock t/Calendar.dayMs - daysFromCivil first).toNat,List.mem_range.mpr (by omega),?_⟩
  rw [formatTorontoDateKey,formatDateParts,civil]
  congr 2
  omega

theorem hourInDay (torontoClock : Int → Int) (t : Int) : getTorontoHour torontoClock t ∈ List.range 24 := by
  rw [List.mem_range,getTorontoHour,Calendar.dayMs]
  omega

theorem weekdayNamed (torontoClock : Int → Int) (t : Int) : getTorontoWeekday torontoClock t ∈ weekdayOrder := by
  have names (n : Fin 7) : ["Sun","Mon","Tue","Wed","Thu","Fri","Sat"].getD n.val "" ∈ weekdayOrder := by
    revert n
    decide
  exact names ⟨(weekday (torontoClock t/Calendar.dayMs)).toNat,by unfold weekday; omega⟩

end Keys

theorem allStatuses (status : OrderStatus) : status ∈ orderStatuses := by cases status <;> decide

theorem allPayments (method : PaymentMethod) : method ∈ paymentMethods := by cases method <;> decide

theorem foundRows {key : ρ → κ} (t : Table ρ key) : (t.rows.map key).filterMap t.find = t.rows := by
  rw [List.filterMap_map]
  refine (List.filterMap_congr fun row mem => Table.find_of_mem mem).trans ?_
  exact List.filterMap_some

/-! ### Conservation -/

/-- What the figures say of the orders that they are made of. -/
structure GrowthConserves (torontoClock : Int → Int) (toLocaleLowerCase : String → String) (orders : List GrowthDashboardOrder)
    (m : GrowthMetrics) : Prop where
  total : m.totalOrders = orders.length
  sources : Buckets (·.orderSource) orders (m.sources.map fun row => (row.source,row.totalOrders))
  statuses : Buckets (·.orderStatus) orders m.statusCounts
  payments : Buckets (·.paymentMethod) orders m.paymentCounts
  campaigns : (m.campaigns.map (·.totalOrders)).sum =
    orders.countP fun order => (campaignKeyFor toLocaleLowerCase order.toAttribution).isSome
  unique : m.uniqueDeliveredCustomers = (orders.filterMap deliveredCustomer).toFinset.card
  customers : m.newCustomers + m.returningCustomers = m.uniqueDeliveredCustomers
  sourceCustomers : (m.sources.map (·.newCustomers)).sum = m.newCustomers
  daily : Buckets (fun order => formatTorontoDateKey torontoClock order.createdAt) orders (m.daily.map fun row => (row.date,row.totalOrders))
  hours : Buckets (fun order => getTorontoHour torontoClock order.createdAt) orders m.hours
  weekdays : Buckets (fun order => getTorontoWeekday torontoClock order.createdAt) orders m.weekdays

section Conserved
variable {torontoClock : Int → Int} (toLocaleLowerCase : String → String) (parseNumber : String → Option ℚ)
  {range : GrowthDashboardDateRange} {first : Civil}
  (firstDeliveredOrderByCustomer : String → Option FirstDeliveredOrderAttribution) (deliveredOrderCountByCustomer : String → Option Nat)
  {orders : List GrowthDashboardOrder}

theorem finalSourceRows (customerIds : List String) (once : customerIds.Nodup) (rows : SourceRows) (campaignRows : CampaignRows) (count : OrderSource → Nat)
    (before : rows.rows.map (fun row => (row.source,row.totalOrders,row.newCustomerIds)) = orderSources.map fun source => (source,count source,[])) :
    (addCustomers toLocaleLowerCase range firstDeliveredOrderByCustomer deliveredOrderCountByCustomer customerIds
        { sourceRows := rows, campaignRows := campaignRows }).sourceRows.rows.map (fun row => (row.source,row.totalOrders,row.newCustomerIds)) =
      orderSources.map fun source =>
        (source,count source,customerIds.filter fun id => acquiredBy range firstDeliveredOrderByCustomer id = some source) := by
  have none_ : ∀ row ∈ rows.rows, row.newCustomerIds = [] := fun row mem => by
    have := List.mem_map_of_mem (f := fun row : GrowthSourceRow => (row.source,row.totalOrders,row.newCustomerIds)) mem
    rw [before] at this
    obtain ⟨source,_,is⟩ := List.mem_map.mp this
    exact (congrArg (fun triple => triple.2.2) is).symm
  have triples := congrArg (List.map fun triple : OrderSource × Nat × List String =>
    (triple.1,triple.2.1,customerIds.filter fun id => acquiredBy range firstDeliveredOrderByCustomer id = some triple.1)) before
  rw [List.map_map,List.map_map] at triples
  refine Eq.trans ?_ triples
  rw [sourceRowsLoop,List.map_map]
  refine List.map_congr_left fun row mem => Prod.ext ?_ (Prod.ext ?_ ?_)
  · exact foldlKeeps (fun row id => (sourceAfterKeeps range firstDeliveredOrderByCustomer deliveredOrderCountByCustomer row id).1) customerIds row
  · exact foldlKeeps (fun row id => (sourceAfterKeeps range firstDeliveredOrderByCustomer deliveredOrderCountByCustomer row id).2) customerIds row
  · refine (newCustomersOf range firstDeliveredOrderByCustomer deliveredOrderCountByCustomer customerIds once row fun id _ => ?_).trans ?_
    · rw [none_ row mem]
      exact List.not_mem_nil
    · rw [none_ row mem]
      rfl

theorem acquiredCount (customerIds : List String) :
    (orderSources.map fun source => (customerIds.filter fun id => acquiredBy range firstDeliveredOrderByCustomer id = some source).length).sum =
      customerIds.countP (!returning range firstDeliveredOrderByCustomer ·) := by
  have counts := Table.sumCountP (show orderSources.Nodup by decide) (acquiredBy range firstDeliveredOrderByCustomer) customerIds
  simp only [List.countP_eq_length_filter] at counts
  rw [counts,← List.countP_eq_length_filter]
  refine List.countP_congr fun id _ => ?_
  unfold acquiredBy
  cases returning range firstDeliveredOrderByCustomer id with
  | true => simp
  | false => simpa using allSources _

theorem growthConserves (own : RangeDays torontoClock range first)
    (inside : ∀ order ∈ orders, range.startUtc ≤ order.createdAt ∧ order.createdAt < range.endExclusiveUtc) :
    ∃ m, buildGrowthPeriodMetrics torontoClock toLocaleLowerCase parseNumber orders range firstDeliveredOrderByCustomer
      deliveredOrderCountByCustomer = .ok m ∧ GrowthConserves torontoClock toLocaleLowerCase orders m := by
  have dates := rangeKeys own
  let start : GrowthTotals :=
    { dailyByDate := Table.ofRows DailyRow.date ((rangeDates first range.days).map fun date => { date := date }) }
  let totals := addOrders torontoClock toLocaleLowerCase parseNumber orders start
  let customers := addCustomers toLocaleLowerCase range firstDeliveredOrderByCustomer deliveredOrderCountByCustomer totals.deliveredCustomerIds
    { sourceRows := totals.sourceRows, campaignRows := totals.campaignRows }
  refine ⟨growthMetrics orders.length totals customers,by rw [buildGrowthPeriodMetrics,dates]; rfl,?_⟩
  obtain ⟨once,members⟩ := foldlAdded (orders.filterMap deliveredCustomer) [] List.nodup_nil
  have ids : totals.deliveredCustomerIds = (orders.filterMap deliveredCustomer).foldl added [] :=
    customerLoop torontoClock toLocaleLowerCase parseNumber orders start
  have afterOrders := sourceRowsAfter torontoClock toLocaleLowerCase parseNumber orders start rfl
  have atEnd : customers.sourceRows.rows.map (fun row => (row.source,row.totalOrders,row.newCustomerIds)) =
      orderSources.map fun source => (source,orders.countP (fun order => order.orderSource = source),
        totals.deliveredCustomerIds.filter fun id => acquiredBy range firstDeliveredOrderByCustomer id = some source) :=
    finalSourceRows toLocaleLowerCase firstDeliveredOrderByCustomer deliveredOrderCountByCustomer
      totals.deliveredCustomerIds (ids.symm ▸ once) totals.sourceRows totals.campaignRows _ afterOrders
  have newCount : customers.newCustomers = totals.deliveredCustomerIds.countP (!returning range firstDeliveredOrderByCustomer ·) :=
    (newLoop toLocaleLowerCase range firstDeliveredOrderByCustomer deliveredOrderCountByCustomer _ _).trans (Nat.zero_add _)
  have returningCount : customers.returningCustomers = totals.deliveredCustomerIds.countP (returning range firstDeliveredOrderByCustomer) :=
    (returningLoop toLocaleLowerCase range firstDeliveredOrderByCustomer deliveredOrderCountByCustomer _ _).trans (Nat.zero_add _)
  constructor
  case total => rfl
  case sources =>
    have pairs := congrArg (List.map fun triple : OrderSource × Nat × List String => (triple.1,triple.2.1)) atEnd
    rw [List.map_map,List.map_map] at pairs
    refine Buckets.perm ?_ ((List.mergeSort_perm _ _).map _).symm
    rw [List.map_map]
    exact pairs ▸ bucketsOf (by decide) fun order _ => allSources order.orderSource
  case statuses =>
    have rows : (growthMetrics orders.length totals customers).statusCounts = _ :=
      (congrArg Table.rows (statusLoop torontoClock toLocaleLowerCase parseNumber orders start)).trans (countersRows (by decide) _ _)
    rw [rows]
    exact bucketsOf (by decide) fun order _ => allStatuses order.orderStatus
  case payments =>
    have rows : (growthMetrics orders.length totals customers).paymentCounts = _ :=
      (congrArg Table.rows (paymentLoop torontoClock toLocaleLowerCase parseNumber orders start)).trans (countersRows (by decide) _ _)
    rw [rows]
    exact bucketsOf (by decide) fun order _ => allPayments order.paymentMethod
  case campaigns =>
    refine ((List.mergeSort_perm _ _).map _).sum_eq.trans ?_
    rw [List.map_map]
    refine (acquiredLoop toLocaleLowerCase range firstDeliveredOrderByCustomer deliveredOrderCountByCustomer _ _).trans ?_
    exact (campaignLoop torontoClock toLocaleLowerCase parseNumber orders start).trans (Nat.zero_add _)
  case unique =>
    have set : totals.deliveredCustomerIds.toFinset = (orders.filterMap deliveredCustomer).toFinset := by
      ext id
      rw [List.mem_toFinset,List.mem_toFinset,ids,members]
      simp
    rw [← set]
    exact (List.toFinset_card_of_nodup (ids.symm ▸ once)).symm
  case customers =>
    have parts := Table.countPEither (p := returning range firstDeliveredOrderByCustomer)
      (q := (!returning range firstDeliveredOrderByCustomer ·)) totals.deliveredCustomerIds fun id => by
        cases returning range firstDeliveredOrderByCustomer id <;> simp
    simp only [Bool.or_not_self,List.countP_true] at parts
    change customers.newCustomers + customers.returningCustomers = totals.deliveredCustomerIds.length
    omega
  case sourceCustomers =>
    have sizes := congrArg (fun triples : List (OrderSource × Nat × List String) => (triples.map fun triple => triple.2.2.length).sum) atEnd
    simp only [List.map_map] at sizes
    refine ((List.mergeSort_perm _ _).map _).sum_eq.trans ?_
    rw [List.map_map]
    exact sizes.trans ((acquiredCount firstDeliveredOrderByCustomer _).trans newCount.symm)
  case daily =>
    have rows := dailyRows torontoClock toLocaleLowerCase parseNumber orders start (rangeDatesOnce range.days) rfl
    exact rows ▸ bucketsOf (rangeDatesOnce range.days) fun order mem => dateInRange own (inside order mem).1 (inside order mem).2
  case hours =>
    have rows : (growthMetrics orders.length totals customers).hours = _ :=
      (congrArg Table.rows (hourLoop torontoClock toLocaleLowerCase parseNumber orders start)).trans (countersRows List.nodup_range _ _)
    rw [rows]
    exact bucketsOf List.nodup_range fun order _ => hourInDay torontoClock order.createdAt
  case weekdays =>
    have rows : totals.weekdayByName.rows = _ :=
      (congrArg Table.rows (weekdayLoop torontoClock toLocaleLowerCase parseNumber orders start)).trans (countersRows (by decide) _ _)
    have names : totals.weekdayByName.rows.map Prod.fst = weekdayOrder := by
      rw [rows,List.map_map]
      exact List.map_id weekdayOrder
    have found : weekdayOrder.filterMap totals.weekdayByName.find = totals.weekdayByName.rows := by
      rw [← foundRows totals.weekdayByName,names]
    have kept : (growthMetrics orders.length totals customers).weekdays = totals.weekdayByName.rows := found
    rw [kept,rows]
    exact bucketsOf (by decide) fun order _ => weekdayNamed torontoClock order.createdAt

/-- Consecutive ranges leave out no instant and no order, and count none twice, whatever the clock does between their midnights. -/
theorem growthPartitions (advance : DatesAdvance torontoClock) {ranges : List GrowthDashboardDateRange}
    (built : ∀ range ∈ ranges, ∃ requestedStartDate requestedEndDate now,
      buildGrowthDashboardDateRange torontoClock requestedStartDate requestedEndDate now = .ok range)
    (plain : ∀ range ∈ ranges, PlainEnds torontoClock range) (chain : List.IsChain Follows ranges) :
    (∀ range ∈ ranges, ∀ orders : List GrowthDashboardOrder,
      (∀ order ∈ orders, range.startUtc ≤ order.createdAt ∧ order.createdAt < range.endExclusiveUtc) →
      ∃ m, buildGrowthPeriodMetrics torontoClock toLocaleLowerCase parseNumber orders range firstDeliveredOrderByCustomer
        deliveredOrderCountByCustomer = .ok m ∧ GrowthConserves torontoClock toLocaleLowerCase orders m) ∧
    ∀ first ∈ ranges.head?, ∀ last ∈ ranges.getLast?, ∀ t, first.startUtc ≤ t → t < last.endExclusiveUtc →
      ranges.countP (Within · t) = 1 := by
  have days : ∀ range ∈ ranges, ∃ first, RangeDays torontoClock range first := fun range mem => by
    obtain ⟨_,_,_,made⟩ := built range mem
    exact rangeDays advance (plain range mem) made
  refine ⟨fun range mem orders inside => ?_,fun first isFirst last isLast t from_ until_ => ?_⟩
  · obtain ⟨first,own⟩ := days range mem
    exact growthConserves toLocaleLowerCase parseNumber firstDeliveredOrderByCustomer deliveredOrderCountByCustomer own inside
  · cases ranges with
    | nil => cases isFirst
    | cons range rest =>
      cases isFirst
      have ending : (first::rest).getLast (List.cons_ne_nil _ _) = last :=
        Option.some.inj ((List.getLast?_eq_some_getLast (List.cons_ne_nil _ _)).symm.trans isLast)
      exact rangesPartition chain days from_ (ending ▸ until_)

end Conserved

/-! ### The spring of 2026 -/

/-- Toronto's clock in the year 2026, which is ahead from March 8th to November 1st. -/
def toronto2026 (t : Int) : Int :=
  if t < 1772953200000 then t - 5*hourMs else if t < 1793512800000 then t - 4*hourMs else t - 5*hourMs

theorem toronto2026Advance : DatesAdvance toronto2026 := by
  intro a b le
  unfold toronto2026 hourMs Calendar.dayMs
  dsimp only
  split <;> split <;> (try split) <;> (try split) <;> omega

/-- A midnight that is not in the hours around a change of the clock. -/
theorem toronto2026Plain {dateKey : String} {c : Civil} (key : datePartsFromKey dateKey = .ok c)
    (far : dateUtc c + 6*hourMs < 1772953200000 ∨ (1772953200000 ≤ dateUtc c ∧ dateUtc c + 6*hourMs < 1793512800000))
    (whole : dateUtc c % 1000 = 0) : PlainMidnight toronto2026 dateKey := by
  intro c' same
  obtain rfl := Except.ok.inj (key.symm.trans same)
  unfold toronto2026 hourMs Calendar.dayMs at *
  rcases far with winter | ⟨since,summer⟩
  · exact ⟨-(5*(60*60*1000)),-(5*(60*60*1000)),by omega,by omega,by omega,fun t _ _ => by rw [if_pos (by omega)]; omega,
      by rw [if_pos (by omega)]; omega,by omega,by omega⟩
  · exact ⟨-(4*(60*60*1000)),-(4*(60*60*1000)),by omega,by omega,by omega,
      fun t _ _ => by rw [if_neg (by omega),if_pos (by omega)]; omega,by rw [if_neg (by omega),if_pos (by omega)]; omega,by omega,by omega⟩

def february2026 : GrowthDashboardDateRange := ⟨"2026-02-01","2026-02-28",1769922000000,1772341200000,28⟩

def march2026 : GrowthDashboardDateRange := ⟨"2026-03-01","2026-03-31",1772341200000,1775016000000,31⟩

/-- Placed in the hour after the clock was set forward. -/
def springOrder : GrowthDashboardOrder :=
  ⟨⟨some " news ",none,none,none⟩,some "c",.cash,.delivered,1772953200000,none,none,.webflow,none⟩

theorem growthPartitionsSpring : [february2026,march2026].countP (Within · 1772953200000) = 1 ∧
    ∃ m, buildGrowthPeriodMetrics toronto2026 id (fun _ => none) [springOrder] march2026 (fun _ => none) (fun _ => none) = .ok m ∧
      GrowthConserves toronto2026 id [springOrder] m := by
  have march : addCalendarDays february2026.endDate 1 = .ok march2026.startDate := by decide +kernel
  have april : addCalendarDays march2026.endDate 1 = .ok "2026-04-01" := by decide +kernel
  have marchPlain : PlainMidnight toronto2026 march2026.startDate :=
    toronto2026Plain (c := ⟨2026,3,1⟩) (by decide +kernel) (by decide +kernel) (by decide +kernel)
  have built : ∀ range ∈ [february2026,march2026], ∃ requestedStartDate requestedEndDate now,
      buildGrowthDashboardDateRange toronto2026 requestedStartDate requestedEndDate now = .ok range := by
    intro range mem
    rcases List.mem_pair.mp mem with rfl | rfl
    · exact ⟨some "2026-02-01",some "2026-02-28",0,by decide +kernel⟩
    · exact ⟨some "2026-03-01",some "2026-03-31",0,by decide +kernel⟩
  have plain : ∀ range ∈ [february2026,march2026], PlainEnds toronto2026 range := by
    intro range mem
    rcases List.mem_pair.mp mem with rfl | rfl
    · refine ⟨toronto2026Plain (c := ⟨2026,2,1⟩) (by decide +kernel) (by decide +kernel) (by decide +kernel),fun next following => ?_⟩
      exact Except.ok.inj (march.symm.trans following) ▸ marchPlain
    · refine ⟨marchPlain,fun next following => ?_⟩
      rw [← Except.ok.inj (april.symm.trans following)]
      exact toronto2026Plain (c := ⟨2026,4,1⟩) (by decide +kernel) (by decide +kernel) (by decide +kernel)
  have parted := growthPartitions id (fun _ => none) (fun _ => none) (fun _ => none) toronto2026Advance built plain
    (List.isChain_pair.mpr march)
  exact ⟨parted.2 _ rfl _ rfl _ (by decide) (by decide),parted.1 march2026 (by simp) [springOrder] (by decide)⟩

end SpeedySweeties.Reports
