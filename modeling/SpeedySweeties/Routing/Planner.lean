import Mathlib.Algebra.Order.Field.Rat
import Mathlib.Order.WithBot
import SpeedySweeties.Library.Arrangements
import SpeedySweeties.Routing.Hours
import SpeedySweeties.Routing.Shortlist

/-! The planner of a pickup route. Two phases try every order of the pickup types and every
choice of shortlisted stores, the second one with fallback stores too. A first pass finds the
fastest complete route and a second one a route with more preferred stores that is hardly slower.
Numbers are exact here where JavaScript rounds. -/
namespace Routing
open Ranking WallClock

structure MultiDestinationRouteMatrixResult where
  originId : String
  destinationId : String
  durationSeconds : Option Rat
  distanceMeters : Option Rat
  routeAvailable : Bool
  deriving DecidableEq, Repr

def routeKey (originId destinationId : String) : String := originId ++ "\u0000" ++ destinationId

def MultiDestinationRouteMatrixResult.key (route : MultiDestinationRouteMatrixResult) : String := routeKey route.originId route.destinationId

/-- A route that is available and has a duration. -/
structure Leg where
  durationSeconds : Rat
  distanceMeters : Option Rat
  deriving DecidableEq, Repr

/-- `new Map(...)` keeps the last entry of a key. -/
def routeIn (matrix : List MultiDestinationRouteMatrixResult) (originId destinationId : String) : Option Leg := do
  let route ← matrix.reverse.find? (·.key = routeKey originId destinationId)
  if route.routeAvailable then route.durationSeconds.map fun durationSeconds => ⟨durationSeconds,route.distanceMeters⟩ else none

structure SequentialPickupInput where
  driverRouteNodeId : String
  customerRouteNodeId : String
  requiredPickupTypes : List String
  stores : List PickupStoreCandidate
  matrix : List MultiDestinationRouteMatrixResult
  generatedAt : Int

structure RouteSearchStop where
  pickupType : String
  store : PickupStoreCandidate
  elapsedDurationSeconds : Rat
  elapsedDistanceMeters : Option Rat
  projectedArrivalAt : Int
  eligibility : PickupStoreEligibility
  deriving DecidableEq, Repr

structure CompletedRoute where
  stops : List RouteSearchStop
  totalDurationSeconds : Rat
  totalDistanceMeters : Option Rat
  customerLegDurationSeconds : Rat
  customerLegDistanceMeters : Option Rat
  deriving DecidableEq, Repr

structure PickupStoreRecommendation where
  pickupType : String
  storeId : String
  storeName : String
  addressLine1 : String
  city : String
  province : String
  etaMinutes : Int
  durationSeconds : Rat
  distanceMeters : Option Rat
  projectedArrivalAt : Int
  hoursSource : PickupStoreHoursSource
  closingDate : Option String
  closingTime : Option String
  closingBufferMinutes : Int
  deriving DecidableEq, Repr

structure SequentialPickupRoutePlan where
  pickupStops : List PickupStoreRecommendation
  totalDurationSeconds : Rat
  totalDistanceMeters : Option Rat
  customerLegDurationSeconds : Rat
  customerLegDistanceMeters : Option Rat
  deriving DecidableEq, Repr

structure PriorityRoutePlan where
  plan : SequentialPickupRoutePlan
  routeSignature : String
  preferredLocationCount : Nat
  deriving DecidableEq, Repr

structure SequentialPickupRouteSearchDiagnostics where
  primaryCandidateCountsByPickupType : List (String × Nat)
  fallbackCandidateCountsByPickupType : Option (List (String × Nat))
  completeRouteEvaluations : Nat
  maximumRetainedCompletedPlans : Nat
  deriving DecidableEq, Repr

def maxPickupRouteStops : Nat := 4
def preferredPickupRouteMaxExtraSeconds : Rat := 180
def maxSequentialPickupRouteCompletionEvaluations : Nat := 74496

/-- `new Date(ms)` drops a fraction of a millisecond. -/
def newDate (ms : Rat) : Int := if 0 ≤ ms then ms.floor else ms.ceil

/-- `Math.round` -/
def mathRound (value : Rat) : Int := (value + 1/2).floor

def addRouteDistance (elapsedDistanceMeters routeDistanceMeters : Option Rat) : Option Rat := do
  some ((← elapsedDistanceMeters) + (← routeDistanceMeters))

def routeSignatureForStops (stops : List RouteSearchStop) : String :=
  "|".intercalate (stops.map fun stop => stop.pickupType ++ ":" ++ stop.store.id)

def preferredCount (stops : List RouteSearchStop) : Nat := (stops.filter (·.store.priority = .preferred)).length

def RouteSearchStop.recommendation (stop : RouteSearchStop) : PickupStoreRecommendation where
  pickupType := stop.pickupType
  storeId := stop.store.id
  storeName := stop.store.name
  addressLine1 := stop.store.addressLine1
  city := stop.store.city
  province := stop.store.province
  etaMinutes := max 1 (mathRound (stop.elapsedDurationSeconds/60))
  durationSeconds := stop.elapsedDurationSeconds
  distanceMeters := stop.elapsedDistanceMeters
  projectedArrivalAt := stop.projectedArrivalAt
  hoursSource := stop.eligibility.hoursSource
  closingDate := stop.eligibility.closingDate
  closingTime := stop.eligibility.closingTime
  closingBufferMinutes := stop.eligibility.closingBufferMinutes

def toPriorityRoutePlan (route : CompletedRoute) : PriorityRoutePlan where
  plan := ⟨route.stops.map (·.recommendation),route.totalDurationSeconds,route.totalDistanceMeters,
    route.customerLegDurationSeconds,route.customerLegDistanceMeters⟩
  routeSignature := routeSignatureForStops route.stops
  preferredLocationCount := preferredCount route.stops

variable (z : Zone) (localeCompare : String → String → Ordering)

def compareFastestPlan : PriorityRoutePlan → PriorityRoutePlan → Ordering :=
  thenBy (byValue (·.plan.totalDurationSeconds)) fun a b => localeCompare a.routeSignature b.routeSignature

structure ShortlistedStore where
  store : PickupStoreCandidate
  route : Leg
  completeJourneyHintSeconds : WithTop Rat

def compareStoreCandidates : ShortlistedStore → ShortlistedStore → Ordering :=
  thenBy (byValue (·.route.durationSeconds))
    (thenBy (fun a b => localeCompare a.store.name b.store.name) fun a b => localeCompare a.store.id b.store.id)

def compareShortlisted : ShortlistedStore → ShortlistedStore → Ordering :=
  thenBy (byValue (·.completeJourneyHintSeconds)) (compareStoreCandidates localeCompare)

/-- What the phases search: the legs, the sorted types and the shortlist of each of them under the allowed priorities. -/
structure RouteSearch where
  routeFor : String → String → Option Leg
  driverRouteNodeId : String
  customerRouteNodeId : String
  generatedAt : Int
  requiredPickupTypes : List String
  candidatesOf : List PickupLocationRoutingPriority → String → List PickupStoreCandidate

section Build
variable (input : SequentialPickupInput)

def shortlisted (store : PickupStoreCandidate) : Option ShortlistedStore :=
  (routeIn input.matrix input.driverRouteNodeId (pickupStoreRouteNodeId store.id)).map fun route =>
    let customerRoute := routeIn input.matrix (pickupStoreRouteNodeId store.id) input.customerRouteNodeId
    ⟨store,route,(customerRoute.map fun leg => route.durationSeconds + leg.durationSeconds).elim ⊤ fun hint => (hint : WithTop Rat)⟩

/-- The stores that one type may be picked up at. -/
def shortlist (allowedPriorities : List PickupLocationRoutingPriority) (pickupType : String) : List PickupStoreCandidate :=
  (routingPriorityOrder.filter (· ∈ allowedPriorities)).flatMap fun priority =>
    (best (compareShortlisted localeCompare) maxPickupStoreCandidatesPerPriorityAndType
      ((input.stores.filter fun store => ofClass pickupType priority store && hasValidPickupStoreCoordinates store).filterMap
        (shortlisted input))).map (·.store)

def searchOf : RouteSearch where
  routeFor := routeIn input.matrix
  driverRouteNodeId := input.driverRouteNodeId
  customerRouteNodeId := input.customerRouteNodeId
  generatedAt := input.generatedAt
  requiredPickupTypes := sortedPickupTypes localeCompare input.requiredPickupTypes
  candidatesOf := shortlist localeCompare input

end Build

section Search
variable (search : RouteSearch)

/-- The map of the types to their shortlists, empty as soon as one of these is. -/
def buildCandidatesByPickupType (allowedPriorities : List PickupLocationRoutingPriority) : List (String × List PickupStoreCandidate) :=
  let entries := search.requiredPickupTypes.map fun pickupType => (pickupType,search.candidatesOf allowedPriorities pickupType)
  if entries.any (·.2.isEmpty) then [] else entries

def candidatesIn (candidatesByPickupType : List (String × List PickupStoreCandidate)) (pickupType : String) : List PickupStoreCandidate :=
  ((candidatesByPickupType.find? (·.1 = pickupType)).map (·.2)).getD []

/-- Where a partial route has got to. -/
structure RouteProgress where
  currentRouteNodeId : String
  elapsedDurationSeconds : Rat
  elapsedDistanceMeters : Option Rat
  stops : List RouteSearchStop

/-- One more stop, if there is a leg to the store and it is open on arrival. -/
def nextStop (progress : RouteProgress) (pickupType : String) (store : PickupStoreCandidate) : Option RouteProgress :=
  (search.routeFor progress.currentRouteNodeId (pickupStoreRouteNodeId store.id)).bind fun route =>
    let elapsedDurationSeconds := progress.elapsedDurationSeconds + route.durationSeconds
    let elapsedDistanceMeters := addRouteDistance progress.elapsedDistanceMeters route.distanceMeters
    let projectedArrivalAt := newDate (search.generatedAt + elapsedDurationSeconds*1000)
    let eligibility := evaluatePickupStoreEligibility z store projectedArrivalAt
    if eligibility.eligible then
      some ⟨pickupStoreRouteNodeId store.id,elapsedDurationSeconds,elapsedDistanceMeters,
        progress.stops ++ [⟨pickupType,store,elapsedDurationSeconds,elapsedDistanceMeters,projectedArrivalAt,eligibility⟩]⟩
    else none

/-- The last leg, to the customer. -/
def completeRoute (progress : RouteProgress) : Option CompletedRoute :=
  (search.routeFor progress.currentRouteNodeId search.customerRouteNodeId).map fun customerRoute =>
    ⟨progress.stops,progress.elapsedDurationSeconds + customerRoute.durationSeconds,
      addRouteDistance progress.elapsedDistanceMeters customerRoute.distanceMeters,customerRoute.durationSeconds,customerRoute.distanceMeters⟩

variable {γ : Type}

/-- The recursion, with the count of the complete routes and what the callback has made of them so far; it goes as deep as types remain. -/
def visitStops (candidates : String → List PickupStoreCandidate) (onCompletedRoute : γ → CompletedRoute → γ) :
    Nat → RouteProgress → List String → Nat × γ → Nat × γ
  | depth,progress,remainingPickupTypes,seen =>
    if remainingPickupTypes.isEmpty then
      match completeRoute search progress with
      | none => seen
      | some route => (seen.1 + 1,onCompletedRoute seen.2 route)
    else match depth with
      | 0 => seen
      | depth + 1 => remainingPickupTypes.foldl (fun seen pickupType =>
          (candidates pickupType).foldl (fun seen store =>
            match nextStop z search progress pickupType store with
            | none => seen
            | some next => visitStops candidates onCompletedRoute depth next (remainingPickupTypes.filter (· ≠ pickupType)) seen) seen) seen

def visitCompletedRoutes (candidates : String → List PickupStoreCandidate) (onCompletedRoute : γ → CompletedRoute → γ) : Nat × γ → Nat × γ :=
  visitStops z search candidates onCompletedRoute search.requiredPickupTypes.length
    ⟨search.driverRouteNodeId,0,some 0,[]⟩ search.requiredPickupTypes

def onBaseline (baselinePlan : Option PriorityRoutePlan) (route : CompletedRoute) : Option PriorityRoutePlan :=
  match baselinePlan with
  | none => some (toPriorityRoutePlan route)
  | some baseline =>
    if route.totalDurationSeconds < baseline.plan.totalDurationSeconds ∨
        (route.totalDurationSeconds = baseline.plan.totalDurationSeconds ∧
          localeCompare (routeSignatureForStops route.stops) baseline.routeSignature = .lt) then
      some (toPriorityRoutePlan route)
    else some baseline

def onPreferred (baseline : PriorityRoutePlan) (preferredPlan : Option PriorityRoutePlan) (route : CompletedRoute) : Option PriorityRoutePlan :=
  if preferredCount route.stops = 0 ∨
      baseline.plan.totalDurationSeconds + preferredPickupRouteMaxExtraSeconds < route.totalDurationSeconds then preferredPlan
  else
    let candidatePlan := toPriorityRoutePlan route
    match preferredPlan with
    | none => some candidatePlan
    | some preferred =>
      if preferred.preferredLocationCount < candidatePlan.preferredLocationCount ∨
          (candidatePlan.preferredLocationCount = preferred.preferredLocationCount ∧
            compareFastestPlan localeCompare candidatePlan preferred = .lt) then some candidatePlan
      else some preferred

structure RoutePhase where
  plan : Option SequentialPickupRoutePlan
  candidateCountsByPickupType : List (String × Nat)
  completeRouteEvaluations : Nat

def runBoundedPhase (allowedPriorities : List PickupLocationRoutingPriority) : RoutePhase :=
  let candidatesByPickupType := buildCandidatesByPickupType search allowedPriorities
  let candidates := candidatesIn candidatesByPickupType
  let counts := search.requiredPickupTypes.map fun pickupType => (pickupType,(candidates pickupType).length)
  if candidatesByPickupType.length ≠ search.requiredPickupTypes.length then ⟨none,counts,0⟩
  else
    let (evaluations,baselinePlan) := visitCompletedRoutes z search candidates (onBaseline localeCompare) (0,none)
    match baselinePlan with
    | none => ⟨none,counts,evaluations⟩
    | some baseline =>
      let (evaluations,preferredPlan) := visitCompletedRoutes z search candidates (onPreferred localeCompare baseline) (evaluations,none)
      ⟨some (preferredPlan.getD baseline).plan,counts,evaluations⟩

def primaryPriorities : List PickupLocationRoutingPriority := [.preferred,.standard]
def fallbackPriorities : List PickupLocationRoutingPriority := [.preferred,.standard,.fallback]

/-- The plan and what is reported about the search, if there was one. -/
def planRoute : Option SequentialPickupRoutePlan × Option SequentialPickupRouteSearchDiagnostics :=
  if search.requiredPickupTypes.isEmpty then
    ((search.routeFor search.driverRouteNodeId search.customerRouteNodeId).map fun directRoute =>
      ⟨[],directRoute.durationSeconds,directRoute.distanceMeters,directRoute.durationSeconds,directRoute.distanceMeters⟩,none)
  else if maxPickupRouteStops < search.requiredPickupTypes.length then (none,none)
  else
    let primary := runBoundedPhase z localeCompare search primaryPriorities
    match primary.plan with
    | some plan => (some plan,some ⟨primary.candidateCountsByPickupType,none,primary.completeRouteEvaluations,2⟩)
    | none =>
      let fallback := runBoundedPhase z localeCompare search fallbackPriorities
      (fallback.plan,some ⟨primary.candidateCountsByPickupType,some fallback.candidateCountsByPickupType,
        primary.completeRouteEvaluations + fallback.completeRouteEvaluations,2⟩)

end Search

def selectSequentialPickupRoutePlan (input : SequentialPickupInput) :
    Option SequentialPickupRoutePlan × Option SequentialPickupRouteSearchDiagnostics :=
  planRoute z localeCompare (searchOf localeCompare input)

end Routing
