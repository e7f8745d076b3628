import SpeedySweeties.Library.Table
import SpeedySweeties.Routing.PlannerSearch

/-! The planner's input is a set of stores, a map of legs and a set of types, whatever order
they come in: what the search is given is ranked by comparisons that end with the ids. -/
namespace Routing
open Ranking WallClock

variable {localeCompare : String → String → Ordering} {input : SequentialPickupInput}

theorem routeInOrder {matrix other : List MultiDestinationRouteMatrixResult} (keys : (matrix.map (·.key)).Nodup) (same : matrix.Perm other) :
    routeIn matrix = routeIn other := by
  let rows : Table MultiDestinationRouteMatrixResult (·.key) := ⟨matrix.reverse,((List.reverse_perm matrix).map _).nodup_iff.mpr keys⟩
  let rows' : Table MultiDestinationRouteMatrixResult (·.key) :=
    ⟨other.reverse,((List.reverse_perm other).map _).nodup_iff.mpr ((same.map _).nodup_iff.mp keys)⟩
  have perm : rows.rows.Perm rows'.rows := ((List.reverse_perm matrix).trans same).trans (List.reverse_perm other).symm
  funext originId destinationId
  have found : matrix.reverse.find? (·.key = routeKey originId destinationId) = other.reverse.find? (·.key = routeKey originId destinationId) :=
    Table.find_perm perm (routeKey originId destinationId)
  rw [routeIn,found,routeIn]

theorem sortedTypesOrder [Std.TransCmp localeCompare] [Std.LawfulEqCmp localeCompare] {types other : List String}
    (same : ∀ t, t ∈ types ↔ t ∈ other) : sortedPickupTypes localeCompare types = sortedPickupTypes localeCompare other :=
  rankedCanonical (fun _ _ _ _ => Std.LawfulEqCmp.eq_of_compare) (distinctPerm same)

instance [Std.TransCmp localeCompare] : Std.TransCmp (compareShortlisted localeCompare) :=
  inferInstanceAs (Std.TransCmp (thenBy _ (thenBy _ (thenBy _ _))))

theorem sameShortlisted [Std.LawfulEqCmp localeCompare] {a b : ShortlistedStore} (tie : compareShortlisted localeCompare a b = .eq) :
    a.store.id = b.store.id := Std.LawfulEqCmp.eq_of_compare (thenByEq (thenByEq (thenByEq tie).2).2).2

theorem shortlistedStore {store : PickupStoreCandidate} {a : ShortlistedStore} (is : shortlisted input store = some a) : a.store = store := by
  obtain ⟨_,_,rfl⟩ := Option.map_eq_some_iff.mp is
  rfl

theorem shortlistedSeparate [Std.LawfulEqCmp localeCompare] {stores : List PickupStoreCandidate} (unique : (stores.map (·.id)).Nodup) :
    Separates (compareShortlisted localeCompare) (stores.filterMap (shortlisted input)) := by
  intro a left b right tie
  obtain ⟨s,mem,isA⟩ := List.mem_filterMap.mp left
  obtain ⟨t,mem',isB⟩ := List.mem_filterMap.mp right
  have ids : s.id = t.id := by
    rw [← shortlistedStore isA,← shortlistedStore isB]
    exact sameShortlisted tie
  have same : s = t := List.inj_on_of_nodup_map unique mem mem' ids
  subst same
  exact Option.some.inj (isA.symm.trans isB)

theorem shortlistOrder [Std.TransCmp localeCompare] [Std.LawfulEqCmp localeCompare] {other : SequentialPickupInput}
    (unique : (input.stores.map (·.id)).Nodup) (stores : input.stores.Perm other.stores) (routes : routeIn input.matrix = routeIn other.matrix)
    (driver : input.driverRouteNodeId = other.driverRouteNodeId) (customer : input.customerRouteNodeId = other.customerRouteNodeId) :
    shortlist localeCompare input = shortlist localeCompare other := by
  have same : shortlisted input = shortlisted other := by
    funext store
    rw [shortlisted,shortlisted,routes,driver,customer]
  funext allowed pickupType
  refine List.flatMap_congr fun priority _ => ?_
  rw [← same,bestCanonical ?_ ((stores.filter _).filterMap _)]
  exact shortlistedSeparate (unique.sublist (List.filter_sublist.map _))

/-- Stores and legs in any order and types in any order and number give one plan. -/
theorem planOrderIndependent (z : Zone) [Std.TransCmp localeCompare] [Std.LawfulEqCmp localeCompare] (unique : (input.stores.map (·.id)).Nodup)
    (keys : (input.matrix.map (·.key)).Nodup) {stores : List PickupStoreCandidate} {matrix : List MultiDestinationRouteMatrixResult}
    {requiredPickupTypes : List String} (sameStores : input.stores.Perm stores) (sameMatrix : input.matrix.Perm matrix)
    (sameTypes : ∀ t, t ∈ input.requiredPickupTypes ↔ t ∈ requiredPickupTypes) :
    selectSequentialPickupRoutePlan z localeCompare
        { input with stores := stores, matrix := matrix, requiredPickupTypes := requiredPickupTypes } =
      selectSequentialPickupRoutePlan z localeCompare input := by
  have routes := routeInOrder keys sameMatrix
  have same : searchOf localeCompare { input with stores := stores, matrix := matrix, requiredPickupTypes := requiredPickupTypes } =
      searchOf localeCompare input := by
    have lists : shortlist localeCompare input =
        shortlist localeCompare { input with stores := stores, matrix := matrix, requiredPickupTypes := requiredPickupTypes } :=
      shortlistOrder unique sameStores routes rfl rfl
    simp only [searchOf]
    rw [← lists,routes,sortedTypesOrder sameTypes]
  rw [selectSequentialPickupRoutePlan,same,selectSequentialPickupRoutePlan]

/-- Two stores that tie on everything but their ids. -/
def twoStores : SequentialPickupInput where
  driverRouteNodeId := "driver:driver-a"
  customerRouteNodeId := "customer:order-a"
  requiredPickupTypes := ["BEER_STORE"]
  stores := [openStore "store-b" "BEER_STORE" "STANDARD",openStore "store-a" "BEER_STORE" "STANDARD"]
  matrix := [routeBetween "driver:driver-a" "pickup-store:store-a" 60,routeBetween "pickup-store:store-a" "customer:order-a" 300,
    routeBetween "driver:driver-a" "pickup-store:store-b" 60,routeBetween "pickup-store:store-b" "customer:order-a" 300]
  generatedAt := 1788883200000

theorem planOrderIndependentReversed :
    selectSequentialPickupRoutePlan (Zone.fixed (-240)) compare
        { twoStores with
          stores := twoStores.stores.reverse, matrix := twoStores.matrix.reverse
          requiredPickupTypes := ["BEER_STORE","BEER_STORE"] } =
      selectSequentialPickupRoutePlan (Zone.fixed (-240)) compare twoStores :=
  planOrderIndependent (Zone.fixed (-240)) (by decide) (by decide) (List.reverse_perm _).symm (List.reverse_perm _).symm
    (by simp [twoStores])

end Routing
