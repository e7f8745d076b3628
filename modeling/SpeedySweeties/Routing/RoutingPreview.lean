import SpeedySweeties.Routing.RouteMatrix

/-! The routing preview of an order. It lists the online drivers by the minutes that it shows for
them and reports the first one as the fastest. Minutes are rounded, so what is first among
those who show the fewest is decided by the list from the database. -/
namespace Routing
open Ranking WallClock

structure PreviewDriver where
  id : String
  firstName : String
  lastName : String
  email : String
  activeOrderCount : Nat := 0
  latitude : Option Rat := none
  longitude : Option Rat := none
  locationUpdatedAt : Option Int := none
  deriving DecidableEq, Repr

inductive PickupRecommendation where
  | stop (stop : PickupStoreRecommendation)
  | unavailable (pickupType : String)
  deriving DecidableEq, Repr

structure FormattedDriver where
  driverId : String
  firstName : String
  lastName : String
  email : String
  activeOrderCount : Nat
  latitude : Option Rat
  longitude : Option Rat
  locationUpdatedAt : Option Int
  locationAvailable : Bool
  routeAvailable : Bool
  etaMinutes : Option Int
  durationSeconds : Option Rat
  distanceMeters : Option Rat
  pickupRecommendations : List PickupRecommendation
  deriving DecidableEq, Repr

/-- What the preview of one order has to go by: the direct routes of the drivers, which a matrix measured, and for an order with
pickups the stores and the routes among all of them. -/
structure RoutingPreview where
  requiredPickupTypes : List String
  customerRouteNodeId : String
  routeableDriverIds : List String
  matrix : { matrix : List MultiDestinationRouteMatrixResult // Measured matrix }
  matrixPickupStores : List PickupStoreCandidate
  pickupMatrix : List MultiDestinationRouteMatrixResult
  generatedAt : Int

def toMinutes (durationSeconds : Rat) : Int := max 1 (mathRound (durationSeconds/60))

section Preview
variable (z : Zone) (localeCompare : String → String → Ordering) (preview : RoutingPreview)

def RoutingPreview.directRoute (driverId : String) : Option MultiDestinationRouteMatrixResult :=
  preview.matrix.val.reverse.find? (·.originId = driverId)

def RoutingPreview.sequentialRoutePlan (driverId : String) : Option SequentialPickupRoutePlan :=
  if preview.routeableDriverIds.contains driverId && !preview.requiredPickupTypes.isEmpty then
    (selectSequentialPickupRoutePlan z localeCompare ⟨"driver:" ++ driverId,preview.customerRouteNodeId,preview.requiredPickupTypes,
      preview.matrixPickupStores,preview.pickupMatrix,preview.generatedAt⟩).1
  else none

def RoutingPreview.pickupRecommendations (driverId : String) : List PickupRecommendation :=
  if preview.requiredPickupTypes.isEmpty then []
  else match preview.sequentialRoutePlan z localeCompare driverId with
    | some plan => plan.pickupStops.map .stop
    | none => preview.requiredPickupTypes.map .unavailable

def RoutingPreview.routeAvailable (driverId : String) : Bool :=
  if preview.requiredPickupTypes.isEmpty then (preview.directRoute driverId).any (·.routeAvailable)
  else (preview.sequentialRoutePlan z localeCompare driverId).isSome

def RoutingPreview.durationSeconds (driverId : String) : Option Rat :=
  if preview.requiredPickupTypes.isEmpty then (preview.directRoute driverId).bind (·.durationSeconds)
  else (preview.sequentialRoutePlan z localeCompare driverId).map (·.totalDurationSeconds)

def RoutingPreview.distanceMeters (driverId : String) : Option Rat :=
  if preview.requiredPickupTypes.isEmpty then (preview.directRoute driverId).bind (·.distanceMeters)
  else (preview.sequentialRoutePlan z localeCompare driverId).bind (·.totalDistanceMeters)

def formatDriver (driver : PreviewDriver) : FormattedDriver :=
  let locationAvailable := preview.routeableDriverIds.contains driver.id
  { driverId := driver.id
    firstName := driver.firstName
    lastName := driver.lastName
    email := driver.email
    activeOrderCount := driver.activeOrderCount
    latitude := if locationAvailable then driver.latitude else none
    longitude := if locationAvailable then driver.longitude else none
    locationUpdatedAt := if locationAvailable then driver.locationUpdatedAt else none
    locationAvailable := locationAvailable
    routeAvailable := preview.routeAvailable z localeCompare driver.id
    etaMinutes := (preview.durationSeconds z localeCompare driver.id).map toMinutes
    durationSeconds := preview.durationSeconds z localeCompare driver.id
    distanceMeters := preview.distanceMeters z localeCompare driver.id
    pickupRecommendations := preview.pickupRecommendations z localeCompare driver.id }

/-- Drivers without a route come last. -/
def compareDrivers (a b : FormattedDriver) : Ordering :=
  match a.etaMinutes,b.etaMinutes with
  | none,none => localeCompare a.email b.email
  | none,some _ => .gt
  | some _,none => .lt
  | some m,some n => compare m n

def formattedDrivers (onlineDrivers : List PreviewDriver) : List FormattedDriver :=
  ranked (compareDrivers localeCompare) (onlineDrivers.map (formatDriver z localeCompare preview))

def fastestDriverId (onlineDrivers : List PreviewDriver) : Option String :=
  ((formattedDrivers z localeCompare preview onlineDrivers).find? (·.etaMinutes.isSome)).map (·.driverId)

/-- The reported driver has a route, and no driver with a route has a shorter one. -/
def ReportsFastest (onlineDrivers : List PreviewDriver) : Prop :=
  match fastestDriverId z localeCompare preview onlineDrivers with
  | none => ∀ driver ∈ formattedDrivers z localeCompare preview onlineDrivers, driver.routeAvailable = false
  | some id => ∃ driver ∈ formattedDrivers z localeCompare preview onlineDrivers, driver.driverId = id ∧ driver.routeAvailable = true ∧
      ∃ least, driver.durationSeconds = some least ∧ ∀ other ∈ formattedDrivers z localeCompare preview onlineDrivers,
        other.routeAvailable = true → ∀ seconds, other.durationSeconds = some seconds → least ≤ seconds

/-- Of the drivers with the fewest minutes the first one in the list is not slower than another. -/
def FewestMinutesFastest (onlineDrivers : List PreviewDriver) : Prop :=
  let travel := fun driver : PreviewDriver => preview.durationSeconds z localeCompare driver.id
  ∀ before first after, onlineDrivers = before ++ first::after → ∀ slow, travel first = some slow →
    ∀ driver ∈ onlineDrivers, ∀ fast, travel driver = some fast → fast < slow → toMinutes fast = toMinutes slow →
      (∃ other ∈ onlineDrivers, ∃ seconds, travel other = some seconds ∧ toMinutes seconds < toMinutes slow) ∨
        ∃ other ∈ before, ∃ seconds, travel other = some seconds ∧ toMinutes seconds = toMinutes slow

end Preview

theorem minutesMono {s t : Rat} (le : s ≤ t) : toMinutes s ≤ toMinutes t := by
  have sixtieth : s/60 ≤ t/60 := div_le_div_of_nonneg_right le (by norm_num)
  have rounded : mathRound (s/60) ≤ mathRound (t/60) := by
    change ⌊s/60 + 1/2⌋ ≤ ⌊t/60 + 1/2⌋
    exact Int.floor_mono (by linarith)
  exact max_le_max le_rfl rounded

instance {localeCompare : String → String → Ordering} [Std.TransCmp localeCompare] : Std.TransCmp (compareDrivers localeCompare) where
  eq_swap {a b} := by
    unfold compareDrivers
    cases a.etaMinutes <;> cases b.etaMinutes
    · exact @Std.OrientedCmp.eq_swap _ localeCompare _ _ _
    · rfl
    · rfl
    · exact @Std.OrientedCmp.eq_swap Int compare _ _ _
  isLE_trans {a b c} := by
    unfold compareDrivers
    cases a.etaMinutes <;> cases b.etaMinutes <;> cases c.etaMinutes <;> simp
    · exact Std.TransCmp.isLE_trans
    · exact Std.TransCmp.isLE_trans

section Fastest
variable {z : Zone} {localeCompare : String → String → Ordering} {preview : RoutingPreview}

theorem availableMeasured (driverId : String) :
    preview.routeAvailable z localeCompare driverId = (preview.durationSeconds z localeCompare driverId).isSome := by
  unfold RoutingPreview.routeAvailable RoutingPreview.durationSeconds
  split
  · cases found : preview.directRoute driverId with
    | none => rfl
    | some route => exact preview.matrix.property route (List.mem_reverse.mp (List.mem_of_find?_eq_some found))
  · exact Option.isSome_map.symm

theorem memFormatted {driver : FormattedDriver} {onlineDrivers : List PreviewDriver} :
    driver ∈ formattedDrivers z localeCompare preview onlineDrivers ↔
      ∃ online ∈ onlineDrivers, formatDriver z localeCompare preview online = driver := by
  rw [formattedDrivers,memRanked,List.mem_map]

theorem reportsIff {onlineDrivers : List PreviewDriver} {reported : PreviewDriver} (mem : reported ∈ onlineDrivers)
    (fastest : fastestDriverId z localeCompare preview onlineDrivers = some reported.id) :
    ReportsFastest z localeCompare preview onlineDrivers ↔
      ∃ least, preview.durationSeconds z localeCompare reported.id = some least ∧
        ∀ other ∈ onlineDrivers, ∀ seconds, preview.durationSeconds z localeCompare other.id = some seconds → least ≤ seconds := by
  rw [ReportsFastest,fastest]
  constructor
  · rintro ⟨driver,formatted,same,-,least,is,all⟩
    obtain ⟨online,-,rfl⟩ := memFormatted.mp formatted
    have sameId : online.id = reported.id := same
    refine ⟨least,sameId ▸ is,fun other memOther seconds travels => ?_⟩
    exact all _ (memFormatted.mpr ⟨other,memOther,rfl⟩) ((availableMeasured other.id).trans (by rw [travels]; rfl)) seconds travels
  · rintro ⟨least,is,all⟩
    refine ⟨_,memFormatted.mpr ⟨reported,mem,rfl⟩,rfl,(availableMeasured reported.id).trans (by rw [is]; rfl),least,is,?_⟩
    intro driver formatted _ seconds travels
    obtain ⟨online,memOnline,rfl⟩ := memFormatted.mp formatted
    exact all online memOnline seconds travels

theorem aloneFirst {a b : FormattedDriver} (none_ : a.etaMinutes = none) (leads : (compareDrivers localeCompare a b).isLE) :
    b.etaMinutes = none := by
  cases is : b.etaMinutes with
  | none => rfl
  | some n => simp [compareDrivers,none_,is] at leads

theorem fewerFirst {a b : FormattedDriver} {m n : Int} (left : a.etaMinutes = some m) (right : b.etaMinutes = some n) :
    compareDrivers localeCompare a b = compare m n := by
  rw [compareDrivers,left,right]

theorem etaOf {driver : PreviewDriver} : (formatDriver z localeCompare preview driver).etaMinutes =
    (preview.durationSeconds z localeCompare driver.id).map toMinutes := rfl

/-- Who leads the list: the first one of those with the fewest minutes, if anyone has a route. -/
theorem fastestLeads [Std.TransCmp localeCompare] (onlineDrivers : List PreviewDriver) :
    (fastestDriverId z localeCompare preview onlineDrivers = none ∧
      ∀ driver ∈ onlineDrivers, preview.durationSeconds z localeCompare driver.id = none) ∨
    ∃ before first after least, onlineDrivers = before ++ first::after ∧
      fastestDriverId z localeCompare preview onlineDrivers = some first.id ∧
      preview.durationSeconds z localeCompare first.id = some least ∧
      (∀ driver ∈ before, ∀ seconds, preview.durationSeconds z localeCompare driver.id = some seconds → toMinutes least < toMinutes seconds) ∧
      ∀ driver ∈ onlineDrivers, ∀ seconds, preview.durationSeconds z localeCompare driver.id = some seconds →
        toMinutes least ≤ toMinutes seconds := by
  by_cases none_ : onlineDrivers = []
  · left
    subst none_
    exact ⟨rfl,nofun⟩
  · obtain ⟨lead,others,leads⟩ := leader (compareDrivers localeCompare)
      (mt List.map_eq_nil_iff.mp none_ : onlineDrivers.map (formatDriver z localeCompare preview) ≠ [])
    have ranks := leads.ranked
    obtain ⟨before,after,split,-,ahead,behind⟩ := leads
    obtain ⟨first,rest,rfl,rfl,mapped⟩ := List.map_eq_append_iff.mp split
    obtain ⟨lead,after,rfl,rfl,rfl⟩ := List.map_eq_cons_iff.mp mapped
    cases travels : preview.durationSeconds z localeCompare lead.id with
    | none =>
      left
      have noneLead : (formatDriver z localeCompare preview lead).etaMinutes = none := by rw [etaOf,travels]; rfl
      have nobody : ∀ driver ∈ first ++ lead::after, preview.durationSeconds z localeCompare driver.id = none := by
        intro driver mem
        rcases List.mem_append.mp mem with mem | mem
        · exact Option.map_eq_none_iff.mp (aloneFirst noneLead (by rw [ahead _ (List.mem_map_of_mem mem)]; rfl))
        · rcases List.mem_cons.mp mem with rfl | mem
          · exact travels
          · exact Option.map_eq_none_iff.mp (aloneFirst noneLead (behind _ (List.mem_map_of_mem mem)))
      refine ⟨?_,nobody⟩
      rw [fastestDriverId,List.find?_eq_none.mpr,Option.map_none]
      intro driver formatted
      obtain ⟨online,mem,rfl⟩ := memFormatted.mp formatted
      rw [etaOf,nobody online mem]
      decide
    | some least =>
      right
      have eta : (formatDriver z localeCompare preview lead).etaMinutes = some (toMinutes least) := by rw [etaOf,travels]; rfl
      have other : ∀ driver : PreviewDriver, ∀ seconds, preview.durationSeconds z localeCompare driver.id = some seconds →
          (formatDriver z localeCompare preview driver).etaMinutes = some (toMinutes seconds) := fun driver seconds is => by
        rw [etaOf,is]; rfl
      have less : ∀ driver ∈ first, ∀ seconds, preview.durationSeconds z localeCompare driver.id = some seconds →
          toMinutes least < toMinutes seconds := by
        intro driver mem seconds is
        have order := ahead _ (List.mem_map_of_mem mem)
        rwa [fewerFirst eta (other driver seconds is),Int.compare_eq_lt] at order
      refine ⟨first,lead,after,least,rfl,?_,travels,less,fun driver mem seconds is => ?_⟩
      · rw [fastestDriverId,formattedDrivers,ranks,List.find?_cons_of_pos (by rw [eta]; rfl)]
        rfl
      · rcases List.mem_append.mp mem with mem | mem
        · exact (less driver mem seconds is).le
        · rcases List.mem_cons.mp mem with rfl | mem
          · cases Option.some.inj (travels.symm.trans is)
            exact le_rfl
          · have order := behind _ (List.mem_map_of_mem mem)
            rwa [fewerFirst eta (other driver seconds is),Int.isLE_compare] at order

end Fastest

/-- The reported driver is the fastest one exactly when no slower one stands before it with as few minutes. -/
theorem fastestReported (z : Zone) (localeCompare : String → String → Ordering) [Std.TransCmp localeCompare] (preview : RoutingPreview)
    (onlineDrivers : List PreviewDriver) :
    ReportsFastest z localeCompare preview onlineDrivers ↔ FewestMinutesFastest z localeCompare preview onlineDrivers := by
  rcases @fastestLeads z localeCompare preview _ onlineDrivers with ⟨nobody,alone⟩ | ⟨before,lead,after,least,split,fastest,travels,less,fewest⟩
  · refine iff_of_true ?_ ?_
    · rw [ReportsFastest,nobody]
      intro driver formatted
      obtain ⟨online,mem,rfl⟩ := memFormatted.mp formatted
      exact (availableMeasured online.id).trans (by rw [alone online mem]; rfl)
    · rintro before first after rfl slow is
      exact absurd ((alone first (by simp)).symm.trans is) (by simp)
  · have mem : lead ∈ onlineDrivers := by rw [split]; simp
    rw [reportsIff mem fastest]
    constructor
    · rintro ⟨_,is,minimal⟩ first slow rest split' seconds travels' driver memDriver fast isFast faster same
      cases Option.some.inj (travels.symm.trans is)
      have lower := minimal driver memDriver fast isFast
      have memSlow : slow ∈ onlineDrivers := by rw [split']; simp
      rcases (fewest slow memSlow seconds travels').lt_or_eq with fewer | equal
      · exact .inl ⟨lead,mem,least,travels,fewer⟩
      · right
        -- `slow` has the fewest minutes too, so it does not stand before `lead`.
        rcases List.append_eq_append_iff.mp (split.symm.trans split') with ⟨between,rfl,next⟩ | ⟨between,rfl,next⟩
        · cases between with
          | nil =>
            cases (List.cons.inj next).1
            cases Option.some.inj (travels.symm.trans travels')
            exact absurd faster (not_lt.mpr lower)
          | cons head between =>
            cases (List.cons.inj next).1
            exact ⟨lead,by simp,least,travels,equal⟩
        · cases between with
          | nil =>
            cases (List.cons.inj next).1
            cases Option.some.inj (travels.symm.trans travels')
            exact absurd faster (not_lt.mpr lower)
          | cons head between =>
            cases (List.cons.inj next).1
            exact absurd (less slow (by simp) seconds travels') (by omega)
    · intro ordered
      refine ⟨least,travels,fun driver memDriver seconds is => ?_⟩
      by_contra faster
      have same : toMinutes seconds = toMinutes least := le_antisymm (minutesMono (not_le.mp faster).le) (fewest driver memDriver seconds is)
      rcases ordered before lead after split least travels driver memDriver seconds is (not_le.mp faster) same with
        ⟨other,memOther,t,isT,fewer⟩ | ⟨other,memOther,t,isT,equal⟩
      · exact absurd (fewest other memOther t isT) (not_le.mpr fewer)
      · exact absurd (less other memOther t isT) (by omega)

/-- Two drivers of a direct route, the first one in the list 80 and the other one 61 seconds away. -/
def samplePreview : RoutingPreview where
  requiredPickupTypes := []
  customerRouteNodeId := "customer:1"
  routeableDriverIds := ["a","b"]
  matrix := ⟨[⟨"a","customer:1",some 80,none,true⟩,⟨"b","customer:1",some 61,none,true⟩],by simp [Measured]⟩
  matrixPickupStores := []
  pickupMatrix := []
  generatedAt := 0

def ann : PreviewDriver := ⟨"a","Ann","A","ann@a.ca",0,none,none,none⟩
def ben : PreviewDriver := ⟨"b","Ben","B","ben@b.ca",0,none,none,none⟩

theorem annTravels : samplePreview.durationSeconds (.fixed 0) compare ann.id = some 80 := by decide +kernel
theorem benTravels : samplePreview.durationSeconds (.fixed 0) compare ben.id = some 61 := by decide +kernel

theorem slowerReported : ¬ReportsFastest (.fixed 0) compare samplePreview [ann,ben] := by
  have reported : fastestDriverId (.fixed 0) compare samplePreview [ann,ben] = some ann.id := by decide +kernel
  rw [reportsIff List.mem_cons_self reported]
  rintro ⟨least,is,minimal⟩
  cases Option.some.inj (annTravels.symm.trans is)
  exact absurd (minimal ben (by simp) 61 benTravels) (by decide +kernel)

/-- In the other order the faster one is reported. -/
theorem fastestReportedBen : ReportsFastest (.fixed 0) compare samplePreview [ben,ann] := by
  refine (fastestReported (.fixed 0) compare samplePreview [ben,ann]).mpr ?_
  intro before first after split slow travels driver mem fast isFast faster same
  match before,split with
  | [],split =>
    cases (List.cons.inj split).1
    cases Option.some.inj (benTravels.symm.trans travels)
    have isAnn : driver = ben ∨ driver = ann := by simpa using mem
    rcases isAnn with rfl | rfl
    · cases Option.some.inj (benTravels.symm.trans isFast)
      exact absurd faster (lt_irrefl _)
    · cases Option.some.inj (annTravels.symm.trans isFast)
      exact absurd faster (by decide +kernel)
  | [x],split =>
    obtain ⟨rfl,rest⟩ := List.cons.inj split
    cases (List.cons.inj rest).1
    cases Option.some.inj (annTravels.symm.trans travels)
    exact .inr ⟨ben,List.mem_singleton_self _,61,benTravels,by decide +kernel⟩
  | x::y::more,split => simp at split

end Routing
