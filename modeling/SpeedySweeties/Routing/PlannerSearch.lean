import Mathlib.Data.Set.Card
import Mathlib.Tactic.IntervalCases
import SpeedySweeties.Routing.Planner

/-! What the recursive search visits: of all arrangements of the types with a store for each of
them, the ones that can be driven. Both passes of a phase visit the same routes, so the work of
a phase is twice their number, and no more than two places for each priority bound it. -/
namespace Routing
open Arrangements Ranking WallClock

variable (z : Zone) (localeCompare : String → String → Ordering) (search : RouteSearch)

def RouteSearch.start : RouteProgress := ⟨search.driverRouteNodeId,0,some 0,[]⟩

/-- The route that visits stores one after the other, if every leg is available and every store open on arrival. -/
def drive (picks : List (String × PickupStoreCandidate)) : Option CompletedRoute :=
  follow (nextStop z search) (completeRoute search) search.start picks

/-- The routes that are complete under a shortlist, in the order of the search. -/
def completeRoutes (candidates : String → List PickupStoreCandidate) : List CompletedRoute :=
  (arrangements candidates search.requiredPickupTypes.length search.requiredPickupTypes).filterMap (drive z search)

section Visits
variable {z localeCompare search} {γ : Type} {candidates : String → List PickupStoreCandidate} {on : γ → CompletedRoute → γ}

/-- The recursion visits what driving every arrangement gives: what it does not try could not have been driven. -/
theorem visitStopsAll {depth : Nat} {progress : RouteProgress} {remaining : List String} {seen : Nat × γ} (once : remaining.Nodup)
    (fits : remaining.length = depth) :
    let routes := (arrangements candidates depth remaining).filterMap (follow (nextStop z search) (completeRoute search) progress)
    visitStops z search candidates on depth progress remaining seen = (seen.1 + routes.length,routes.foldl on seen.2) := by
  induction depth generalizing progress remaining seen with
  | zero =>
    obtain rfl := List.length_eq_zero_iff.mp fits
    unfold visitStops
    dsimp only [List.isEmpty_nil,arrangements]
    rw [if_pos rfl]
    cases is : completeRoute search progress <;> simp [follow,is]
  | succ depth ih =>
    have some_ : ¬remaining.isEmpty = true := by
      rw [List.isEmpty_iff_length_eq_zero]
      omega
    unfold visitStops
    dsimp only
    rw [if_neg some_,arrangements,List.filterMap_flatMap]
    refine foldResults remaining (fun t mem acc => ?_) seen
    have rest : (remaining.filter (· ≠ t)).length = depth := by
      have := (othersPerm once mem).length_eq
      simp only [List.length_cons] at this
      omega
    rw [List.filterMap_flatMap]
    refine foldResults (candidates t) (fun store _ acc => ?_) acc
    rw [followCons]
    cases nextStop z search progress t store with
    | none => rfl
    | some next => exact ih (once.filter _) rest

theorem visitAll (once : search.requiredPickupTypes.Nodup) (seen : Nat × γ) :
    visitCompletedRoutes z search candidates on seen =
      (seen.1 + (completeRoutes z search candidates).length,(completeRoutes z search candidates).foldl on seen.2) :=
  visitStopsAll once rfl

end Visits

section Phases
variable {z localeCompare search} {allowed : List PickupLocationRoutingPriority}

theorem onBaselineFirst (plan : Option PriorityRoutePlan) (route : CompletedRoute) :
    onBaseline localeCompare plan route = keepFirst (compareFastestPlan localeCompare) plan (toPriorityRoutePlan route) := by
  cases plan with
  | none => rfl
  | some baseline =>
    have ahead : compareFastestPlan localeCompare (toPriorityRoutePlan route) baseline = .lt ↔
        route.totalDurationSeconds < baseline.plan.totalDurationSeconds ∨ (route.totalDurationSeconds = baseline.plan.totalDurationSeconds ∧
          localeCompare (routeSignatureForStops route.stops) baseline.routeSignature = .lt) := by
      rw [compareFastestPlan,thenByLt,byValueLt,byValueEq]
      rfl
    rw [onBaseline,keepFirst]
    simp only [ahead]

theorem baselineFold (routes : List CompletedRoute) (plan : Option PriorityRoutePlan) :
    routes.foldl (onBaseline localeCompare) plan = (routes.map toPriorityRoutePlan).foldl (keepFirst (compareFastestPlan localeCompare)) plan := by
  rw [List.foldl_map]
  congr 1
  funext plan route
  exact onBaselineFirst plan route

theorem baselineFound (localeCompare : String → String → Ordering) (routes : List CompletedRoute) (plan : Option PriorityRoutePlan) :
    (routes.foldl (onBaseline localeCompare) plan).isSome = (plan.isSome || !routes.isEmpty) := by
  rw [baselineFold,firstFound,List.isEmpty_map]

theorem foundEntry {α : Type} {types : List String} {f : String → α} {t : String} (mem : t ∈ types) :
    (types.map fun pickupType => (pickupType,f pickupType)).find? (·.1 = t) = some (t,f t) := by
  induction types with
  | nil => cases mem
  | cons first types ih =>
    by_cases same : first = t
    · subst same
      simp
    · rw [List.map_cons,List.find?_cons_of_neg (by simpa using same)]
      exact ih ((List.mem_cons.mp mem).resolve_left fun is => same is.symm)

theorem builtCandidates (full : ∀ t ∈ search.requiredPickupTypes, search.candidatesOf allowed t ≠ []) :
    (buildCandidatesByPickupType search allowed).length = search.requiredPickupTypes.length ∧
      ∀ t ∈ search.requiredPickupTypes, candidatesIn (buildCandidatesByPickupType search allowed) t = search.candidatesOf allowed t := by
  have whole : buildCandidatesByPickupType search allowed =
      search.requiredPickupTypes.map fun pickupType => (pickupType,search.candidatesOf allowed pickupType) := by
    rw [buildCandidatesByPickupType,if_neg]
    simpa using full
  rw [whole]
  refine ⟨List.length_map _,fun t mem => ?_⟩
  rw [candidatesIn,foundEntry mem]
  rfl

theorem noCandidates {candidates : String → List PickupStoreCandidate} (once : search.requiredPickupTypes.Nodup) {t : String}
    (mem : t ∈ search.requiredPickupTypes) (empty : candidates t = []) : completeRoutes z search candidates = [] := by
  rw [completeRoutes,List.filterMap_eq_nil_iff]
  intro picks among
  obtain ⟨types,chosen⟩ := (memArrangements once rfl).mp among
  obtain ⟨p,in_,rfl⟩ := List.mem_map.mp (types.mem_iff.mpr mem)
  have := chosen p in_
  rw [empty] at this
  cases this

theorem phaseRoutes (once : search.requiredPickupTypes.Nodup) :
    let routes := completeRoutes z search (search.candidatesOf allowed)
    let phase := runBoundedPhase z localeCompare search allowed
    phase.completeRouteEvaluations = 2*routes.length ∧
      phase.plan = (routes.foldl (onBaseline localeCompare) none).map fun baseline =>
        ((routes.foldl (onPreferred localeCompare baseline) none).getD baseline).plan := by
  intro routes phase
  by_cases full : ∀ t ∈ search.requiredPickupTypes, search.candidatesOf allowed t ≠ []
  · obtain ⟨size,lists⟩ := builtCandidates full
    have same : completeRoutes z search (candidatesIn (buildCandidatesByPickupType search allowed)) = routes := by
      rw [completeRoutes,arrangementsCongr lists]
      rfl
    have is : phase = runBoundedPhase z localeCompare search allowed := rfl
    simp only [runBoundedPhase,size,ne_eq,not_true_eq_false,if_false,visitAll once,same,Nat.zero_add] at is
    cases baseline : routes.foldl (onBaseline localeCompare) none with
    | none =>
      have none_ := baselineFound localeCompare routes none
      rw [baseline] at none_
      have nil : routes = [] := by simpa using none_.symm
      rw [baseline] at is
      rw [is,nil]
      exact ⟨rfl,rfl⟩
    | some plan =>
      rw [baseline] at is
      rw [is]
      exact ⟨(Nat.two_mul _).symm,rfl⟩
  · obtain ⟨t,missing⟩ := Classical.not_forall.mp full
    obtain ⟨mem,empty⟩ := Classical.not_imp.mp missing
    rw [not_not] at empty
    have nil : routes = [] := noCandidates once mem empty
    have built : buildCandidatesByPickupType search allowed = [] := by
      rw [buildCandidatesByPickupType,if_pos]
      simp only [List.any_map,List.any_eq_true,Function.comp_apply]
      exact ⟨t,mem,by simp [empty]⟩
    have is : phase = runBoundedPhase z localeCompare search allowed := rfl
    have differ : ([] : List (String × List PickupStoreCandidate)).length ≠ search.requiredPickupTypes.length :=
      fun same => List.not_mem_nil (List.length_eq_zero_iff.mp same.symm ▸ mem)
    simp only [runBoundedPhase,built,if_pos differ] at is
    rw [is,nil]
    exact ⟨rfl,rfl⟩

theorem phasePlanned (once : search.requiredPickupTypes.Nodup) :
    (runBoundedPhase z localeCompare search allowed).plan = none ↔ completeRoutes z search (search.candidatesOf allowed) = [] := by
  have found := baselineFound localeCompare (completeRoutes z search (search.candidatesOf allowed)) none
  rw [(phaseRoutes once).2,Option.map_eq_none_iff,← Option.isNone_iff_eq_none,← Option.not_isSome,found]
  simp

end Phases

section Work
variable {z localeCompare search}

/-- A feasible complete route: an order of the required types, a place of the shortlist of each, and all of it can be driven. -/
structure FeasibleRoute (z : Zone) (search : RouteSearch) (candidates : String → List PickupStoreCandidate)
    (picks : List (String × PickupStoreCandidate × Nat)) : Prop where
  types : (picks.map Prod.fst).Perm search.requiredPickupTypes
  chosen : ∀ p ∈ picks, (candidates p.1)[p.2.2]? = some p.2.1
  driven : (drive z search (picks.map (Prod.map id Prod.fst))).isSome

theorem completeRoutesCount {candidates : String → List PickupStoreCandidate} (once : search.requiredPickupTypes.Nodup) :
    (completeRoutes z search candidates).length = {picks | FeasibleRoute z search candidates picks}.ncard := by
  let placed := arrangements (fun t => (candidates t).zipIdx) search.requiredPickupTypes.length search.requiredPickupTypes
  let driven := fun picks : List (String × PickupStoreCandidate × Nat) => (drive z search (picks.map (Prod.map id Prod.fst))).isSome
  have plain : arrangements candidates search.requiredPickupTypes.length search.requiredPickupTypes =
      placed.map (List.map (Prod.map id Prod.fst)) := by
    rw [← mapArrangements]
    exact arrangementsCongr fun t _ => (List.zipIdx_map_fst 0 _).symm
  have count : (completeRoutes z search candidates).length = (placed.filter driven).length := by
    rw [completeRoutes,plain,List.filterMap_map,List.length_filterMap_eq_countP,List.countP_eq_length_filter]
    rfl
  have each : ∀ t, ((candidates t).zipIdx).Nodup := fun t => by
    refine List.Nodup.of_map Prod.snd ?_
    rw [List.zipIdx_map_snd]
    exact List.nodup_range'
  have nodup : (placed.filter driven).Nodup := (arrangementsNodup once each).filter _
  have same : {picks | FeasibleRoute z search candidates picks} = ((placed.filter driven).toFinset : Set _) := by
    ext picks
    simp only [Set.mem_ofPred_eq,List.coe_toFinset,List.mem_filter]
    have is : picks ∈ placed ↔ (picks.map Prod.fst).Perm search.requiredPickupTypes ∧ ∀ p ∈ picks, p.2 ∈ (candidates p.1).zipIdx :=
      memArrangements once rfl
    refine ⟨fun h => ⟨is.mpr ⟨h.types,fun p mem => ?_⟩,h.driven⟩,fun ⟨among,h⟩ => ⟨(is.mp among).1,fun p mem => ?_,h⟩⟩
    · exact List.mk_mem_zipIdx_iff_getElem?.mpr (h.chosen p mem)
    · exact List.mk_mem_zipIdx_iff_getElem?.mp ((is.mp among).2 p mem)
  rw [same,Set.ncard_coe_finset,List.toFinset_card_of_nodup nodup,count]

theorem shortlistLength (input : SequentialPickupInput) (allowed : List PickupLocationRoutingPriority) (pickupType : String) :
    (shortlist localeCompare input allowed pickupType).length ≤ (routingPriorityOrder.filter (· ∈ allowed)).length*2 := by
  rw [shortlist,List.length_flatMap]
  refine List.sum_le_card_nsmul _ 2 ?_ |>.trans (by simp)
  intro length mem
  obtain ⟨priority,_,rfl⟩ := List.mem_map.mp mem
  rw [List.length_map,lengthBest]
  exact Nat.min_le_left _ _

theorem routesBounded (z : Zone) (localeCompare : String → String → Ordering) (input : SequentialPickupInput) (allowed : List PickupLocationRoutingPriority)
    (few : (searchOf localeCompare input).requiredPickupTypes.length ≤ maxPickupRouteStops) :
    (completeRoutes z (searchOf localeCompare input) (shortlist localeCompare input allowed)).length ≤ 31104 := by
  have most : ∀ t ∈ (searchOf localeCompare input).requiredPickupTypes, (shortlist localeCompare input allowed t).length ≤ 6 := fun t _ =>
    (shortlistLength input allowed t).trans (Nat.mul_le_mul_right 2 (List.length_filter_le _ routingPriorityOrder))
  have size : (searchOf localeCompare input).requiredPickupTypes.length ≤ 4 := few
  have arranged := lengthArrangements most (Nat.le_refl _)
  refine (List.length_filterMap_le _ _).trans (arranged.trans ?_)
  generalize (searchOf localeCompare input).requiredPickupTypes.length = n at size
  interval_cases n <;> decide

/-- The evaluations that are reported: none for a phase without a plan, twice the feasible routes of the one that yields it. -/
theorem plannerWork (z : Zone) (localeCompare : String → String → Ordering) (input : SequentialPickupInput)
    (report : SequentialPickupRouteSearchDiagnostics) (told : (selectSequentialPickupRoutePlan z localeCompare input).2 = some report) :
    let search := searchOf localeCompare input
    let feasible := fun allowed => {picks | FeasibleRoute z search (shortlist localeCompare input allowed) picks}
    let phase := runBoundedPhase z localeCompare search
    (∀ allowed, (phase allowed).plan = none → (phase allowed).completeRouteEvaluations = 0) ∧
      (∀ allowed, (phase allowed).plan ≠ none → (phase allowed).completeRouteEvaluations = 2*(feasible allowed).ncard) ∧
      report.completeRouteEvaluations = (if (phase primaryPriorities).plan ≠ none then 2*(feasible primaryPriorities).ncard
        else if (phase fallbackPriorities).plan ≠ none then 2*(feasible fallbackPriorities).ncard else 0) ∧
      report.completeRouteEvaluations ≤ 62208 ∧ 62208 < maxSequentialPickupRouteCompletionEvaluations := by
  intro search feasible phase
  have once : search.requiredPickupTypes.Nodup := sortedTypesNodup _
  have twice : ∀ allowed, (phase allowed).completeRouteEvaluations = 2*(feasible allowed).ncard := fun allowed => by
    rw [(phaseRoutes once).1,completeRoutesCount once]
    rfl
  have nothing : ∀ allowed, (phase allowed).plan = none → (phase allowed).completeRouteEvaluations = 0 := fun allowed none_ => by
    rw [(phaseRoutes once).1,phasePlanned once |>.mp none_]
    rfl
  refine ⟨nothing,fun allowed _ => twice allowed,?_⟩
  simp only [selectSequentialPickupRoutePlan,planRoute] at told
  split at told
  · cases told
  split at told
  · cases told
  rename_i few
  have bounded : ∀ allowed, (phase allowed).completeRouteEvaluations ≤ 62208 := fun allowed => by
    have := routesBounded z localeCompare input allowed (Nat.not_lt.mp few)
    rw [(phaseRoutes once).1]
    exact Nat.mul_le_mul_left 2 this
  split at told
  · rename_i plan planned
    cases told
    have some_ : (phase primaryPriorities).plan ≠ none := fun none_ => nomatch planned.symm.trans none_
    rw [if_pos some_]
    exact ⟨twice _,bounded _,by decide⟩
  · rename_i none_
    cases told
    have zero : (phase primaryPriorities).completeRouteEvaluations = 0 := nothing _ none_
    have sum : (phase primaryPriorities).completeRouteEvaluations + (phase fallbackPriorities).completeRouteEvaluations =
        (phase fallbackPriorities).completeRouteEvaluations := by rw [zero,Nat.zero_add]
    rw [if_neg (not_not_intro none_)]
    refine ⟨?_,(sum.trans_le (bounded _)),by decide⟩
    by_cases planned : (phase fallbackPriorities).plan ≠ none
    · rw [if_pos planned]
      exact sum.trans (twice _)
    · rw [if_neg planned]
      exact sum.trans (nothing _ (not_not.mp planned))

/-- A store that never closes. -/
def openStore (id pickupType routingPriority : String) : PickupStoreCandidate where
  id := id
  name := id
  pickupType := pickupType
  addressLine1 := "710 Municipal Street"
  city := "Guelph"
  province := "ON"
  latitude := some (.finite (1088/25))
  longitude := some (.finite (-4013/50))
  isActive := none
  routingPriority := some routingPriority
  googleBusinessStatus := some "OPERATIONAL"
  regularOpeningHours := some ⟨some [⟨some { day := some 0 },none⟩]⟩
  currentOpeningHours := none
  manualHoursOverride := []

def routeBetween (originId destinationId : String) (durationSeconds : Rat) : MultiDestinationRouteMatrixResult :=
  ⟨originId,destinationId,some durationSeconds,some 1000,true⟩

def oneStore : SequentialPickupInput where
  driverRouteNodeId := "driver:driver-a"
  customerRouteNodeId := "customer:order-a"
  requiredPickupTypes := ["BEER_STORE"]
  stores := [openStore "store-a" "BEER_STORE" "STANDARD"]
  matrix := [routeBetween "driver:driver-a" "pickup-store:store-a" 60,routeBetween "pickup-store:store-a" "customer:order-a" 300]
  generatedAt := 1788883200000

theorem plannerWorkOneStore :
    let search := searchOf compare oneStore
    let feasible := fun allowed => {picks | FeasibleRoute (Zone.fixed (-240)) search (shortlist compare oneStore allowed) picks}
    let phase := runBoundedPhase (Zone.fixed (-240)) compare search
    (∀ allowed, (phase allowed).plan = none → (phase allowed).completeRouteEvaluations = 0) ∧
      (∀ allowed, (phase allowed).plan ≠ none → (phase allowed).completeRouteEvaluations = 2*(feasible allowed).ncard) ∧
      2 = (if (phase primaryPriorities).plan ≠ none then 2*(feasible primaryPriorities).ncard
        else if (phase fallbackPriorities).plan ≠ none then 2*(feasible fallbackPriorities).ncard else 0) ∧
      2 ≤ 62208 ∧ 62208 < maxSequentialPickupRouteCompletionEvaluations :=
  plannerWork (Zone.fixed (-240)) compare oneStore ⟨[("BEER_STORE",1)],none,2,2⟩ (by decide +kernel)

end Work
end Routing
