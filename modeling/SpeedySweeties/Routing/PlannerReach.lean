import SpeedySweeties.Routing.PlannerOptimal

/-! Which feasible journeys the planner cannot miss. A store takes part when it has coordinates,
a leg from the driver and one of the two places of its type and priority; who gets these is
decided before anything is known about the opening hours on arrival. -/
namespace Routing
open Arrangements Ranking WallClock

def suppliedOf (input : SequentialPickupInput) (pickupType : String) : List PickupStoreCandidate :=
  input.stores.filter (·.pickupType = pickupType)

theorem fallbackEvery (priority : PickupLocationRoutingPriority) : priority ∈ fallbackPriorities := by
  cases priority <;> decide

/-- A store that is open on Mondays from nine to ten. -/
def mondayStore (id : String) : PickupStoreCandidate :=
  { openStore id "BEER_STORE" "STANDARD" with
    regularOpeningHours := some ⟨some [⟨some { day := some 1, hour := some 9 },some { day := some 1, hour := some 10 }⟩]⟩ }

/-- On a Tuesday the two nearest stores are closed and the third one is open. -/
def closedNearby : SequentialPickupInput where
  driverRouteNodeId := "driver:driver-a"
  customerRouteNodeId := "customer:order-a"
  requiredPickupTypes := ["BEER_STORE"]
  stores := [mondayStore "near-a",mondayStore "near-b",openStore "far" "BEER_STORE" "STANDARD"]
  matrix := ["near-a","near-b","far"].zipIdx.flatMap fun (id,i) =>
    [routeBetween "driver:driver-a" (pickupStoreRouteNodeId id) (60*(i + 1)),routeBetween (pickupStoreRouteNodeId id) "customer:order-a" 300]
  generatedAt := 1788883200000

end Routing
