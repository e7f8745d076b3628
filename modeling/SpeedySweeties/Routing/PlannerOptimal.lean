import SpeedySweeties.Routing.PlannerOrder

/-! The planner against brute force. A journey is an order of the required types with a place
for each of them: its legs, what has been driven after each of them and which stores are open on
arrival are read off the journey as a whole. The search finds exactly the feasible journeys of a
shortlist, and what it keeps of them is the best one. -/
namespace Routing
open Arrangements Ranking WallClock

def durationOf (legs : List Leg) : Rat := (legs.map (·.durationSeconds)).sum

/-- Unknown as soon as the distance of one leg is. -/
def distanceOf (legs : List Leg) : Option Rat := legs.foldl (fun meters leg => addRouteDistance meters leg.distanceMeters) (some 0)

section Journeys
variable (z : Zone) (search : RouteSearch)

/-- The legs over the picked stores and on to the customer, if all of them are available. -/
def legsFrom : String → List (String × PickupStoreCandidate) → Option (List Leg)
  | current,[] => (search.routeFor current search.customerRouteNodeId).map ([·])
  | current,(_,store)::picks => do
    let leg ← search.routeFor current (pickupStoreRouteNodeId store.id)
    let legs ← legsFrom (pickupStoreRouteNodeId store.id) picks
    some (leg::legs)

/-- The stop at a store that is reached after some legs. -/
def stopAfter (legs : List Leg) (pick : String × PickupStoreCandidate) : RouteSearchStop :=
  let projectedArrivalAt := newDate (search.generatedAt + durationOf legs*1000)
  ⟨pick.1,pick.2,durationOf legs,distanceOf legs,projectedArrivalAt,evaluatePickupStoreEligibility z pick.2 projectedArrivalAt⟩

/-- The stops of a journey; the first of them is reached after the first leg. -/
def stopsOf (picks : List (String × PickupStoreCandidate)) (legs : List Leg) : List RouteSearchStop :=
  picks.mapIdx fun i => stopAfter z search (legs.take (i + 1))

structure FeasibleJourney (candidates : String → List PickupStoreCandidate) (picks : List (String × PickupStoreCandidate))
    (legs : List Leg) : Prop where
  types : (picks.map Prod.fst).Perm search.requiredPickupTypes
  chosen : ∀ p ∈ picks, p.2 ∈ candidates p.1
  available : legsFrom search search.driverRouteNodeId picks = some legs
  open_ : ∀ stop ∈ stopsOf z search picks legs, stop.eligibility.eligible = true

def journey (picks : List (String × PickupStoreCandidate)) (legs : List Leg) : CompletedRoute where
  stops := stopsOf z search picks legs
  totalDurationSeconds := durationOf legs
  totalDistanceMeters := distanceOf legs
  customerLegDurationSeconds := (legs.getLast?.map (·.durationSeconds)).getD 0
  customerLegDistanceMeters := legs.getLast?.bind (·.distanceMeters)

end Journeys

section Brute
variable {z : Zone} {search : RouteSearch}

@[simp] theorem durationNil : durationOf [] = 0 := rfl

@[simp] theorem durationNext (legs : List Leg) (leg : Leg) : durationOf (legs ++ [leg]) = durationOf legs + leg.durationSeconds := by
  simp [durationOf]

@[simp] theorem distanceNext (legs : List Leg) (leg : Leg) :
    distanceOf (legs ++ [leg]) = addRouteDistance (distanceOf legs) leg.distanceMeters := by
  simp [distanceOf]

theorem legsSome (current : String) (picks : List (String × PickupStoreCandidate)) : legsFrom search current picks ≠ some [] := by
  cases picks <;> simp [legsFrom,Option.bind_eq_some_iff]

theorem nextStopAfter (current : String) (past : List Leg) (stops : List RouteSearchStop) (pick : String × PickupStoreCandidate) :
    nextStop z search ⟨current,durationOf past,distanceOf past,stops⟩ pick.1 pick.2 =
      (search.routeFor current (pickupStoreRouteNodeId pick.2.id)).bind fun leg =>
        let stop := stopAfter z search (past ++ [leg]) pick
        if stop.eligibility.eligible then
          some ⟨pickupStoreRouteNodeId pick.2.id,durationOf (past ++ [leg]),distanceOf (past ++ [leg]),stops ++ [stop]⟩
        else none := by
  simp only [nextStop,stopAfter,durationNext,distanceNext]

theorem followJourney {picks : List (String × PickupStoreCandidate)} {current : String} {past : List Leg} {stops : List RouteSearchStop}
    {route : CompletedRoute} :
    let ahead := fun legs : List Leg => picks.mapIdx fun i => stopAfter z search (past ++ legs.take (i + 1))
    follow (nextStop z search) (completeRoute search) ⟨current,durationOf past,distanceOf past,stops⟩ picks = some route ↔
      ∃ legs, legsFrom search current picks = some legs ∧ (∀ stop ∈ ahead legs, stop.eligibility.eligible = true) ∧
        route = ⟨stops ++ ahead legs,durationOf (past ++ legs),distanceOf (past ++ legs),
          (legs.getLast?.map (·.durationSeconds)).getD 0,legs.getLast?.bind (·.distanceMeters)⟩ := by
  induction picks generalizing current past stops with
  | nil =>
    simp only [follow,completeRoute,legsFrom,Option.map_eq_some_iff,List.mapIdx_nil]
    constructor
    · rintro ⟨leg,is,rfl⟩
      exact ⟨[leg],⟨leg,is,rfl⟩,by simp,by simp⟩
    · rintro ⟨_,⟨leg,is,rfl⟩,_,rfl⟩
      exact ⟨leg,is,by simp⟩
  | cons pick picks ih =>
    have last : ∀ {leg : Leg} {legs}, legsFrom search (pickupStoreRouteNodeId pick.2.id) picks = some legs →
        (leg::legs).getLast? = legs.getLast? := fun {leg legs} is => by
      cases legs with
      | nil => exact absurd is (legsSome _ _)
      | cons => rw [List.getLast?_cons_cons]
    rw [follow,nextStopAfter]
    simp only [legsFrom,bind,Option.bind_assoc,Option.bind_eq_some_iff,Option.some.injEq]
    constructor
    · rintro ⟨leg,is,next,moves,drives⟩
      split at moves
      · rename_i eligible
        cases moves
        obtain ⟨legs,rest,others,rfl⟩ := ih.mp drives
        refine ⟨leg::legs,⟨leg,is,legs,rest,rfl⟩,?_,?_⟩
        · simpa [List.mapIdx_cons,eligible] using others
        · simp [List.mapIdx_cons,last rest]
      · cases moves
    · rintro ⟨_,⟨leg,is,legs,rest,rfl⟩,others,rfl⟩
      rw [List.mapIdx_cons,List.forall_mem_cons] at others
      have eligible : (stopAfter z search (past ++ [leg]) pick).eligibility.eligible = true := others.1
      refine ⟨leg,is,_,if_pos eligible,ih.mpr ⟨legs,rest,by simpa using others.2,?_⟩⟩
      simp [List.mapIdx_cons,last rest]

theorem memCompleteRoutes {candidates : String → List PickupStoreCandidate} (once : search.requiredPickupTypes.Nodup) {route : CompletedRoute} :
    route ∈ completeRoutes z search candidates ↔
      ∃ picks legs, FeasibleJourney z search candidates picks legs ∧ route = journey z search picks legs := by
  have drives : ∀ picks, drive z search picks = some route ↔ ∃ legs, legsFrom search search.driverRouteNodeId picks = some legs ∧
      (∀ stop ∈ stopsOf z search picks legs, stop.eligibility.eligible = true) ∧ route = journey z search picks legs := fun picks => by
    have := @followJourney z search picks search.driverRouteNodeId [] [] route
    simpa [drive,RouteSearch.start,journey,stopsOf,distanceOf] using this
  rw [completeRoutes,List.mem_filterMap]
  constructor
  · rintro ⟨picks,among,is⟩
    obtain ⟨types,chosen⟩ := (memArrangements once rfl).mp among
    obtain ⟨legs,available,open_,rfl⟩ := (drives picks).mp is
    exact ⟨picks,legs,⟨types,chosen,available,open_⟩,rfl⟩
  · rintro ⟨picks,legs,h,rfl⟩
    exact ⟨picks,(memArrangements once rfl).mpr ⟨h.types,h.chosen⟩,(drives picks).mpr ⟨legs,h.available,h.open_,rfl⟩⟩

end Brute

section Selection
variable (localeCompare : String → String → Ordering)

/-- Shorter, or as short with a signature that does not come later. -/
def Sooner (route other : CompletedRoute) : Prop :=
  route.totalDurationSeconds < other.totalDurationSeconds ∨
    (route.totalDurationSeconds = other.totalDurationSeconds ∧
      (localeCompare (routeSignatureForStops route.stops) (routeSignatureForStops other.stops)).isLE)

def HardlySlower (fastest route : CompletedRoute) : Prop :=
  route.totalDurationSeconds ≤ fastest.totalDurationSeconds + preferredPickupRouteMaxExtraSeconds

/-- The fastest of some routes, unless one that is hardly slower has more preferred stores: then
one with as many of them as any that is hardly slower, and the fastest of these. -/
structure BestRoute (routes : Set CompletedRoute) (chosen : CompletedRoute) : Prop where
  feasible : chosen ∈ routes
  rule : ∃ fastest ∈ routes, (∀ route ∈ routes, Sooner localeCompare fastest route) ∧
    ((¬∃ route ∈ routes, HardlySlower fastest route ∧ preferredCount fastest.stops < preferredCount route.stops) →
      ∀ route ∈ routes, Sooner localeCompare chosen route) ∧
    ((∃ route ∈ routes, HardlySlower fastest route ∧ preferredCount fastest.stops < preferredCount route.stops) →
      HardlySlower fastest chosen ∧ 0 < preferredCount chosen.stops ∧ ∀ route ∈ routes, HardlySlower fastest route →
        preferredCount route.stops ≤ preferredCount chosen.stops ∧
          (preferredCount route.stops = preferredCount chosen.stops → Sooner localeCompare chosen route))

end Selection

section Selects
variable {localeCompare : String → String → Ordering}

theorem soonerIff {route other : CompletedRoute} :
    Sooner localeCompare route other ↔ (compareFastestPlan localeCompare (toPriorityRoutePlan route) (toPriorityRoutePlan other)).isLE := by
  rcases lt_trichotomy route.totalDurationSeconds other.totalDurationSeconds with less | same | more
  · simp [Sooner,compareFastestPlan,thenBy,byValue,toPriorityRoutePlan,less]
  · simp [Sooner,compareFastestPlan,thenBy,byValue,toPriorityRoutePlan,same]
  · simp [Sooner,compareFastestPlan,thenBy,byValue,toPriorityRoutePlan,more,not_lt_of_gt more,ne_of_gt more]

instance [Std.TransCmp localeCompare] : Std.TransCmp (compareFastestPlan localeCompare) := inferInstanceAs (Std.TransCmp (thenBy _ _))

/-- More preferred stores first. -/
def comparePreferredPlan (localeCompare : String → String → Ordering) : PriorityRoutePlan → PriorityRoutePlan → Ordering :=
  thenBy (byValue fun plan => OrderDual.toDual plan.preferredLocationCount) (compareFastestPlan localeCompare)

instance [Std.TransCmp localeCompare] : Std.TransCmp (comparePreferredPlan localeCompare) := inferInstanceAs (Std.TransCmp (thenBy _ _))

theorem onPreferredFirst (baseline : PriorityRoutePlan) (plan : Option PriorityRoutePlan) (route : CompletedRoute) :
    onPreferred localeCompare baseline plan route =
      if 0 < preferredCount route.stops ∧ route.totalDurationSeconds ≤ baseline.plan.totalDurationSeconds + preferredPickupRouteMaxExtraSeconds then
        keepFirst (comparePreferredPlan localeCompare) plan (toPriorityRoutePlan route)
      else plan := by
  by_cases passes : 0 < preferredCount route.stops ∧ route.totalDurationSeconds ≤ baseline.plan.totalDurationSeconds + preferredPickupRouteMaxExtraSeconds
  · have not_ : ¬(preferredCount route.stops = 0 ∨ baseline.plan.totalDurationSeconds + preferredPickupRouteMaxExtraSeconds < route.totalDurationSeconds) :=
      not_or.mpr ⟨Nat.pos_iff_ne_zero.mp passes.1,not_lt.mpr passes.2⟩
    rw [if_pos passes,onPreferred,if_neg not_]
    cases plan with
    | none => rfl
    | some preferred =>
      have ahead : comparePreferredPlan localeCompare (toPriorityRoutePlan route) preferred = .lt ↔
          preferred.preferredLocationCount < (toPriorityRoutePlan route).preferredLocationCount ∨
            ((toPriorityRoutePlan route).preferredLocationCount = preferred.preferredLocationCount ∧
              compareFastestPlan localeCompare (toPriorityRoutePlan route) preferred = .lt) := by
        rw [comparePreferredPlan,thenByLt,byValueLt,byValueEq,OrderDual.toDual_lt_toDual,OrderDual.toDual_inj]
      simp only [keepFirst,ahead]
  · have is : preferredCount route.stops = 0 ∨ baseline.plan.totalDurationSeconds + preferredPickupRouteMaxExtraSeconds < route.totalDurationSeconds := by
      rcases not_and_or.mp passes with none_ | slow
      · exact .inl (Nat.eq_zero_of_not_pos none_)
      · exact .inr (not_le.mp slow)
    rw [if_neg passes,onPreferred,if_pos is]

theorem preferredFold (baseline : PriorityRoutePlan) (routes : List CompletedRoute) :
    routes.foldl (onPreferred localeCompare baseline) none =
      ((routes.filter fun route => 0 < preferredCount route.stops ∧
          route.totalDurationSeconds ≤ baseline.plan.totalDurationSeconds + preferredPickupRouteMaxExtraSeconds).map toPriorityRoutePlan).foldl
        (keepFirst (comparePreferredPlan localeCompare)) none := by
  rw [List.foldl_map,List.foldl_filter]
  congr 1
  funext plan route
  simp only [onPreferredFirst,decide_eq_true_eq]

theorem preferredLe {route other : CompletedRoute}
    (le : (comparePreferredPlan localeCompare (toPriorityRoutePlan route) (toPriorityRoutePlan other)).isLE) :
    preferredCount other.stops ≤ preferredCount route.stops ∧
      (preferredCount other.stops = preferredCount route.stops → Sooner localeCompare route other) := by
  rw [soonerIff]
  rcases lt_trichotomy (preferredCount other.stops) (preferredCount route.stops) with fewer | same | more
  · exact ⟨Nat.le_of_lt fewer,fun same => absurd same (Nat.ne_of_lt fewer)⟩
  · refine ⟨same.le,fun _ => ?_⟩
    simpa [comparePreferredPlan,thenBy,byValue,toPriorityRoutePlan,same] using le
  · simp [comparePreferredPlan,thenBy,byValue,toPriorityRoutePlan,more,not_lt_of_gt more] at le

theorem bestKept [Std.TransCmp localeCompare] {routes : List CompletedRoute} {plan : SequentialPickupRoutePlan}
    (kept : (routes.foldl (onBaseline localeCompare) none).map (fun baseline =>
      ((routes.foldl (onPreferred localeCompare baseline) none).getD baseline).plan) = some plan) :
    ∃ chosen, BestRoute localeCompare {route | route ∈ routes} chosen ∧ plan = (toPriorityRoutePlan chosen).plan := by
  obtain ⟨baseline,first,rfl⟩ := Option.map_eq_some_iff.mp kept
  rw [baselineFold] at first
  obtain ⟨from_,-,ahead⟩ := firstAmong first
  obtain ⟨fastest,among,rfl⟩ := List.mem_map.mp (from_.resolve_left nofun)
  have soonest : ∀ route ∈ routes, Sooner localeCompare fastest route := fun route mem =>
    soonerIff.mpr (ahead _ (List.mem_map_of_mem mem))
  have itself : HardlySlower fastest fastest := by
    simp [HardlySlower,preferredPickupRouteMaxExtraSeconds]
  cases preferred : routes.foldl (onPreferred localeCompare (toPriorityRoutePlan fastest)) none with
  | none =>
    -- without a preferred store nearby the second pass keeps nothing
    have nothing : ∀ route ∈ routes, HardlySlower fastest route → ¬preferredCount fastest.stops < preferredCount route.stops := by
      intro route mem near more
      rw [preferredFold] at preferred
      have empty := List.filter_eq_nil_iff.mp (List.map_eq_nil_iff.mp (firstNone preferred)) route mem
      exact empty (decide_eq_true ⟨Nat.zero_lt_of_lt more,near⟩)
    refine ⟨fastest,⟨among,fastest,among,soonest,fun _ => soonest,fun ⟨route,mem,near,more⟩ => ?_⟩,rfl⟩
    exact absurd more (nothing route mem near)
  | some plan =>
    rw [preferredFold] at preferred
    obtain ⟨from_,-,most⟩ := firstAmong preferred
    obtain ⟨chosen,kept,rfl⟩ := List.mem_map.mp (from_.resolve_left nofun)
    rw [List.mem_filter,decide_eq_true_eq] at kept
    obtain ⟨mem,some_,near⟩ := kept
    have others : ∀ route ∈ routes, 0 < preferredCount route.stops → HardlySlower fastest route →
        preferredCount route.stops ≤ preferredCount chosen.stops ∧
          (preferredCount route.stops = preferredCount chosen.stops → Sooner localeCompare chosen route) := fun route isRoute has close =>
      preferredLe (most _ (List.mem_map_of_mem (List.mem_filter.mpr ⟨isRoute,decide_eq_true ⟨has,close⟩⟩)))
    refine ⟨chosen,⟨mem,fastest,among,soonest,fun none_ route isRoute => ?_,fun _ => ⟨near,some_,fun route isRoute close => ?_⟩⟩,rfl⟩
    · have no_more : preferredCount chosen.stops ≤ preferredCount fastest.stops :=
        Nat.not_lt.mp fun more => none_ ⟨chosen,mem,near,more⟩
      obtain ⟨no_fewer,soon⟩ := others fastest among (Nat.lt_of_lt_of_le some_ no_more) itself
      have first := soonerIff.mp (soon (Nat.le_antisymm no_fewer no_more))
      exact soonerIff.mpr (Std.TransCmp.isLE_trans first (soonerIff.mp (soonest route isRoute)))
    · rcases Nat.eq_zero_or_pos (preferredCount route.stops) with zero | has
      · exact ⟨zero ▸ Nat.zero_le _,fun same => absurd (same.symm.trans zero) (Nat.ne_of_gt some_)⟩
      · exact others route isRoute has close

end Selects

section Places
variable {localeCompare : String → String → Ordering} {input : SequentialPickupInput} {allowed : List PickupLocationRoutingPriority}

/-- The stores that compete with one for the places of its type and priority. -/
def rivals (input : SequentialPickupInput) (store : PickupStoreCandidate) : List ShortlistedStore :=
  (input.stores.filter fun other => ofClass store.pickupType store.priority other && hasValidPickupStoreCoordinates other).filterMap
    (shortlisted input)

theorem memShortlist {pickupType : String} {store : PickupStoreCandidate} : store ∈ shortlist localeCompare input allowed pickupType ↔
    store.pickupType = pickupType ∧ store.priority ∈ allowed ∧ ∃ listed, shortlisted input store = some listed ∧
      listed ∈ best (compareShortlisted localeCompare) maxPickupStoreCandidatesPerPriorityAndType (rivals input store) := by
  constructor
  · intro kept
    obtain ⟨priority,isAllowed,kept⟩ := List.mem_flatMap.mp kept
    obtain ⟨listed,isBest,rfl⟩ := List.mem_map.mp kept
    obtain ⟨store,mem,is⟩ := List.mem_filterMap.mp (memBest isBest)
    have passes := (List.mem_filter.mp mem).2
    rw [Bool.and_eq_true,ofClassIff] at passes
    obtain ⟨⟨rfl,rfl⟩,-⟩ := passes
    rw [shortlistedStore is]
    exact ⟨rfl,of_decide_eq_true (List.mem_filter.mp isAllowed).2,listed,is,isBest⟩
  · rintro ⟨rfl,isAllowed,listed,is,isBest⟩
    refine List.mem_flatMap.mpr ⟨store.priority,List.mem_filter.mpr ⟨everyPriority _,decide_eq_true isAllowed⟩,?_⟩
    exact List.mem_map.mpr ⟨listed,isBest,shortlistedStore is⟩

theorem memRivals {store : PickupStoreCandidate} {listed : ShortlistedStore} (is : shortlisted input store = some listed) :
    listed ∈ rivals input store ↔ store ∈ input.stores ∧ hasValidPickupStoreCoordinates store = true := by
  rw [rivals,List.mem_filterMap]
  constructor
  · rintro ⟨other,mem,isOther⟩
    obtain rfl : other = store := (shortlistedStore isOther).symm.trans (shortlistedStore is)
    obtain ⟨supplied,passes⟩ := List.mem_filter.mp mem
    exact ⟨supplied,(Bool.and_eq_true_iff.mp passes).2⟩
  · rintro ⟨supplied,valid⟩
    exact ⟨store,List.mem_filter.mpr ⟨supplied,Bool.and_eq_true_iff.mpr ⟨ofClassIff.mpr ⟨rfl,rfl⟩,valid⟩⟩,is⟩

theorem shortlistSupplied {pickupType : String} {store : PickupStoreCandidate}
    (kept : store ∈ shortlist localeCompare input allowed pickupType) : store ∈ input.stores ∧ store.pickupType = pickupType := by
  obtain ⟨ofType,-,listed,is,isBest⟩ := memShortlist.mp kept
  exact ⟨((memRivals is).mp (memBest isBest)).1,ofType⟩

end Places

section Plans
variable {z : Zone} {localeCompare : String → String → Ordering} {search : RouteSearch} {allowed : List PickupLocationRoutingPriority}

theorem phaseNone (once : search.requiredPickupTypes.Nodup) : (runBoundedPhase z localeCompare search allowed).plan = none ↔
    ¬∃ picks legs, FeasibleJourney z search (search.candidatesOf allowed) picks legs := by
  rw [phasePlanned once,List.eq_nil_iff_forall_not_mem]
  constructor
  · rintro empty ⟨picks,legs,h⟩
    exact empty _ ((memCompleteRoutes once).mpr ⟨picks,legs,h,rfl⟩)
  · intro none_ route among
    obtain ⟨picks,legs,h,-⟩ := (memCompleteRoutes once).mp among
    exact none_ ⟨picks,legs,h⟩

theorem phaseBest [Std.TransCmp localeCompare] (once : search.requiredPickupTypes.Nodup) {plan : SequentialPickupRoutePlan}
    (planned : (runBoundedPhase z localeCompare search allowed).plan = some plan) :
    ∃ picks legs, FeasibleJourney z search (search.candidatesOf allowed) picks legs ∧
      plan = (toPriorityRoutePlan (journey z search picks legs)).plan ∧
      BestRoute localeCompare {route | ∃ picks legs, FeasibleJourney z search (search.candidatesOf allowed) picks legs ∧
        route = journey z search picks legs} (journey z search picks legs) := by
  rw [(phaseRoutes once).2] at planned
  obtain ⟨chosen,best,is⟩ := bestKept planned
  have routes : {route | route ∈ completeRoutes z search (search.candidatesOf allowed)} =
      {route | ∃ picks legs, FeasibleJourney z search (search.candidatesOf allowed) picks legs ∧ route = journey z search picks legs} :=
    Set.ext fun route => memCompleteRoutes once
  rw [routes] at best
  obtain ⟨picks,legs,h,rfl⟩ := best.feasible
  exact ⟨picks,legs,h,is,best⟩

theorem directPhase (nothing : search.requiredPickupTypes = []) : (runBoundedPhase z localeCompare search allowed).plan =
    (search.routeFor search.driverRouteNodeId search.customerRouteNodeId).map fun directRoute =>
      ⟨[],directRoute.durationSeconds,directRoute.distanceMeters,directRoute.durationSeconds,directRoute.distanceMeters⟩ := by
  have once : search.requiredPickupTypes.Nodup := nothing ▸ List.nodup_nil
  have routes : completeRoutes z search (search.candidatesOf allowed) = (completeRoute search search.start).toList := by
    rw [completeRoutes,nothing]
    cases is : completeRoute search search.start <;> simp [arrangements,drive,follow,is]
  rw [(phaseRoutes once).2,routes,completeRoute,RouteSearch.start]
  cases search.routeFor search.driverRouteNodeId search.customerRouteNodeId with
  | none => rfl
  | some leg =>
    cases far : leg.distanceMeters <;> simp [onBaseline,onPreferred,preferredCount,toPriorityRoutePlan,addRouteDistance,far]

theorem plannedInPhases (few : search.requiredPickupTypes.length ≤ maxPickupRouteStops) :
    (planRoute z localeCompare search).1 = (runBoundedPhase z localeCompare search primaryPriorities).plan.or
      (runBoundedPhase z localeCompare search fallbackPriorities).plan := by
  unfold planRoute
  split
  · rename_i empty
    rw [directPhase (List.isEmpty_iff.mp empty),directPhase (List.isEmpty_iff.mp empty),Option.or_self]
  · rw [if_neg (Nat.not_lt.mpr few)]
    dsimp only
    split
    · rename_i planned
      rw [planned,Option.some_or]
    · rename_i planned
      rw [planned,Option.none_or]

/-- Five types, a store for each of them and every leg. -/
def fiveTypes : SequentialPickupInput :=
  let types := ["BEER_STORE","BROTHERS_BREWING","CONVENIENCE","LCBO","VAPE"]
  let nodes := types.map fun pickupType => pickupStoreRouteNodeId pickupType
  { driverRouteNodeId := "driver:driver-a"
    customerRouteNodeId := "customer:order-a"
    requiredPickupTypes := types
    stores := types.map fun pickupType => openStore pickupType pickupType "STANDARD"
    matrix := ("driver:driver-a"::nodes).flatMap fun origin => (nodes ++ ["customer:order-a"]).map fun destination => routeBetween origin destination 60
    generatedAt := 1788883200000 }

end Plans
end Routing
