import Mathlib.Data.Rat.Floor
import SpeedySweeties.Library.Ranking
import SpeedySweeties.Routing.Stores

/-! The stores whose legs are paid for. Every pickup type and routing priority has its own
places, filled by the shortest approximate journey from a driver over the store to the
customer; no store takes a place of another type or priority. -/
namespace Routing
open Ranking

variable (localeCompare : String → String → Ordering)

/-- `Array.from(new Set(types)).sort((a, b) => a.localeCompare(b))` -/
def sortedPickupTypes (requiredPickupTypes : List String) : List String := ranked localeCompare (distinct requiredPickupTypes)

def maxPickupStoreCandidatesPerPriorityAndType : Nat := 2

structure MatrixRequest where
  stores : List PickupStoreCandidate
  requiredPickupTypes : List String
  driverLocations : List RoutingCoordinate
  destination : RoutingCoordinate
  maxPerPriorityAndType : Option Rat

def MatrixRequest.places (input : MatrixRequest) : Nat :=
  (max 1 (input.maxPerPriorityAndType.getD maxPickupStoreCandidatesPerPriorityAndType).floor).toNat

def PickupStoreCandidate.coordinate (store : PickupStoreCandidate) : RoutingCoordinate :=
  ⟨store.latitude.getD (.finite 0),store.longitude.getD (.finite 0)⟩

def ofClass (pickupType : String) (routingPriority : PickupLocationRoutingPriority) (store : PickupStoreCandidate) : Bool :=
  store.pickupType = pickupType && store.priority = routingPriority

def selectable (store : PickupStoreCandidate) : Bool := hasValidPickupStoreCoordinates store && store.operational

variable {δ : Type} [LinearOrder δ] [Add δ] (approximateDistanceMeters : RoutingCoordinate → RoutingCoordinate → δ)

/-- The shortest journey of a driver, the first one or another. -/
def approximateCompleteJourneyMeters (first : RoutingCoordinate) (others : List RoutingCoordinate) (destination : RoutingCoordinate)
    (store : PickupStoreCandidate) : δ :=
  let journey driverLocation :=
    approximateDistanceMeters driverLocation store.coordinate + approximateDistanceMeters store.coordinate destination
  (others.map journey).foldl min (journey first)

def compareJourneys (first : RoutingCoordinate) (others : List RoutingCoordinate) (destination : RoutingCoordinate) :
    PickupStoreCandidate → PickupStoreCandidate → Ordering :=
  thenBy (byValue (approximateCompleteJourneyMeters approximateDistanceMeters first others destination))
    (thenBy (fun a b => localeCompare a.name b.name) fun a b => localeCompare a.id b.id)

instance [Std.TransCmp localeCompare] {first : RoutingCoordinate} {others : List RoutingCoordinate} {destination : RoutingCoordinate} :
    Std.TransCmp (compareJourneys localeCompare approximateDistanceMeters first others destination) :=
  inferInstanceAs (Std.TransCmp (thenBy _ (thenBy _ _)))

def selectPickupStoreMatrixCandidates (input : MatrixRequest) : List PickupStoreCandidate :=
  match input.driverLocations with
  | [] => []
  | first::others =>
    (sortedPickupTypes localeCompare input.requiredPickupTypes).flatMap fun pickupType =>
      routingPriorityOrder.flatMap fun routingPriority =>
        best (compareJourneys localeCompare approximateDistanceMeters first others input.destination) input.places
          (input.stores.filter fun store => ofClass pickupType routingPriority store && selectable store)

section Protected
variable {localeCompare approximateDistanceMeters} {input : MatrixRequest} {first : RoutingCoordinate} {others : List RoutingCoordinate}

theorem memSortedTypes {pickupType : String} {required : List String} :
    pickupType ∈ sortedPickupTypes localeCompare required ↔ pickupType ∈ required := memRanked.trans memDistinct

theorem sortedTypesNodup (required : List String) : (sortedPickupTypes localeCompare required).Nodup :=
  rankedPerm.nodup_iff.mpr (distinctNodup required)

theorem everyPriority (priority : PickupLocationRoutingPriority) : priority ∈ routingPriorityOrder := by
  cases priority <;> decide

theorem ofClassIff {pickupType : String} {priority : PickupLocationRoutingPriority} {store : PickupStoreCandidate} :
    ofClass pickupType priority store = true ↔ store.pickupType = pickupType ∧ store.priority = priority := by
  simp [ofClass]

theorem keptOfClass (drivers : input.driverLocations = first::others) {pickupType : String} (required : pickupType ∈ input.requiredPickupTypes)
    (priority : PickupLocationRoutingPriority) :
    (selectPickupStoreMatrixCandidates localeCompare approximateDistanceMeters input).filter (ofClass pickupType priority) =
      best (compareJourneys localeCompare approximateDistanceMeters first others input.destination) input.places
        (input.stores.filter fun store => ofClass pickupType priority store && selectable store) := by
  have classOf : ∀ {cmp : PickupStoreCandidate → PickupStoreCandidate → Ordering} {k : Nat} {type p} {store : PickupStoreCandidate},
      store ∈ best cmp k (input.stores.filter fun store => ofClass type p store && selectable store) → ofClass type p store = true := by
    intro cmp k type p store kept
    have mem := (List.mem_filter.mp (memBest kept)).2
    exact (Bool.and_eq_true_iff.mp mem).1
  simp only [selectPickupStoreMatrixCandidates,drivers]
  rw [filterPieces (sortedTypesNodup input.requiredPickupTypes) (memSortedTypes.mpr required),
    filterPieces (by decide) (everyPriority priority)]
  · exact List.filter_eq_self.mpr fun store kept => classOf kept
  · intro other _ differs store kept
    have is := ofClassIff.mp (classOf kept)
    exact Bool.eq_false_iff.mpr fun mine => differs (is.2.symm.trans (ofClassIff.mp mine).2)
  · intro other _ differs store kept
    obtain ⟨p,_,kept⟩ := List.mem_flatMap.mp kept
    have is := ofClassIff.mp (classOf kept)
    exact Bool.eq_false_iff.mpr fun mine => differs (is.1.symm.trans (ofClassIff.mp mine).1)

theorem storesNodup {stores : List PickupStoreCandidate} (unique : (stores.map (·.id)).Nodup) : stores.Nodup := List.Nodup.of_map _ unique

theorem keptRequired {store : PickupStoreCandidate} (kept : store ∈ selectPickupStoreMatrixCandidates localeCompare approximateDistanceMeters input) :
    store.pickupType ∈ input.requiredPickupTypes := by
  unfold selectPickupStoreMatrixCandidates at kept
  split at kept
  · cases kept
  obtain ⟨pickupType,required,kept⟩ := List.mem_flatMap.mp kept
  obtain ⟨priority,_,kept⟩ := List.mem_flatMap.mp kept
  have mem := (List.mem_filter.mp (memBest kept)).2
  rw [Bool.and_eq_true,ofClassIff] at mem
  exact mem.1.1 ▸ memSortedTypes.mp required

theorem keptOnce (unique : (input.stores.map (·.id)).Nodup) (drivers : input.driverLocations = first::others) :
    (selectPickupStoreMatrixCandidates localeCompare approximateDistanceMeters input).Nodup := by
  rw [List.nodup_iff_count_le_one]
  intro store
  by_cases kept : store ∈ selectPickupStoreMatrixCandidates localeCompare approximateDistanceMeters input
  · have mine : ofClass store.pickupType store.priority store = true := ofClassIff.mpr ⟨rfl,rfl⟩
    rw [← List.count_filter (p := ofClass store.pickupType store.priority) mine,keptOfClass drivers (keptRequired kept)]
    exact List.nodup_iff_count_le_one.mp (bestNodup ((storesNodup unique).filter _)) store
  · rw [List.count_eq_zero_of_not_mem kept]
    exact Nat.zero_le 1

/-- Each required class keeps the first of its selectable stores by journey, name and id, and stores of other classes do not matter. -/
theorem shortlistProtected [Std.TransCmp localeCompare] (unique : (input.stores.map (·.id)).Nodup)
    (drivers : input.driverLocations = first::others) :
    let kept := selectPickupStoreMatrixCandidates localeCompare approximateDistanceMeters input
    kept.Nodup ∧ (∀ store ∈ kept, store.pickupType ∈ input.requiredPickupTypes) ∧
      ∀ pickupType ∈ input.requiredPickupTypes, ∀ priority,
        FirstOf (compareJourneys localeCompare approximateDistanceMeters first others input.destination)
          (input.stores.filter fun store => ofClass pickupType priority store && selectable store) input.places
          (kept.filter (ofClass pickupType priority)) ∧
        ∀ stores : List PickupStoreCandidate,
          stores.filter (ofClass pickupType priority) = input.stores.filter (ofClass pickupType priority) →
            (selectPickupStoreMatrixCandidates localeCompare approximateDistanceMeters { input with stores := stores }).filter
              (ofClass pickupType priority) = kept.filter (ofClass pickupType priority) := by
  intro kept
  refine ⟨keptOnce unique drivers,fun store => keptRequired,fun pickupType required priority => ⟨?_,fun stores same => ?_⟩⟩
  · rw [keptOfClass drivers required priority]
    exact bestFirstOf ((storesNodup unique).filter _)
  · have classes : ∀ stores : List PickupStoreCandidate, (stores.filter fun store => ofClass pickupType priority store && selectable store) =
        (stores.filter (ofClass pickupType priority)).filter selectable := fun stores => by
      rw [List.filter_filter]
      exact List.filter_congr fun store _ => Bool.and_comm _ _
    have other : ({ input with stores := stores } : MatrixRequest).driverLocations = first::others := drivers
    rw [keptOfClass drivers required priority,keptOfClass other required priority]
    dsimp only
    rw [classes,classes,same]
    rfl

end Protected

/-- Two stores of one name and place, of which one has room. -/
def twinStores : MatrixRequest where
  stores := ["tie-b","tie-a"].map fun id =>
    ⟨id,"Same","BEER_STORE","","","",some (.finite (4351/100)),some (.finite (-321/4)),none,none,none,none,none,[]⟩
  requiredPickupTypes := ["BEER_STORE"]
  driverLocations := [⟨.finite (87/2),.finite (-321/4)⟩]
  destination := ⟨.finite (1088/25),.finite (-321/4)⟩
  maxPerPriorityAndType := some 1

theorem shortlistProtectedTwins :
    let kept := selectPickupStoreMatrixCandidates compare (fun _ _ => (1 : Nat)) twinStores
    kept.Nodup ∧ (∀ store ∈ kept, store.pickupType ∈ twinStores.requiredPickupTypes) ∧
      ∀ pickupType ∈ twinStores.requiredPickupTypes, ∀ priority,
        FirstOf (compareJourneys compare (fun _ _ => (1 : Nat)) ⟨.finite (87/2),.finite (-321/4)⟩ [] twinStores.destination)
          (twinStores.stores.filter fun store => ofClass pickupType priority store && selectable store) twinStores.places
          (kept.filter (ofClass pickupType priority)) ∧
        ∀ stores : List PickupStoreCandidate,
          stores.filter (ofClass pickupType priority) = twinStores.stores.filter (ofClass pickupType priority) →
            (selectPickupStoreMatrixCandidates compare (fun _ _ => (1 : Nat)) { twinStores with stores := stores }).filter
              (ofClass pickupType priority) = kept.filter (ofClass pickupType priority) :=
  shortlistProtected (by decide) rfl

end Routing
