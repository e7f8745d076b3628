import Mathlib.Algebra.Order.Floor.Ring
import Mathlib.Data.Rat.Floor
import SpeedySweeties.Library.JsText
import SpeedySweeties.Routing.Planner

/-! The matrix of travel times from several origins to several destinations. The provider limits
the elements of a request, so the destinations are asked for batch by batch; its answer names
the pairs by their places in the request, in any order. -/
namespace Routing
open Ranking

structure RouteMatrixPoint where
  id : String
  latitude : JsNumber
  longitude : JsNumber
  deriving DecidableEq, Repr

/-- What an element says about its pair. -/
structure RouteFigures where
  statusCode : Option Rat := none
  condition : Option String := none
  distanceMeters : Option Rat := none
  duration : Option String := none
  deriving DecidableEq, Repr

structure GoogleRouteMatrixElement extends RouteFigures where
  originIndex : Option Rat
  destinationIndex : Option Rat
  deriving DecidableEq, Repr

structure RouteMatrixRequest where
  origins : List RouteMatrixPoint
  destinations : List RouteMatrixPoint
  deriving DecidableEq, Repr

/-- An element that is null is `none`. -/
inductive RoutesBody where
  | unreadable (aborted : Bool)
  | noArray
  | elements (payload : List (Option GoogleRouteMatrixElement))
  deriving DecidableEq, Repr

inductive RoutesResponse where
  | failed (aborted : Bool)
  | answered (ok : Bool) (status : Nat) (body : RoutesBody)
  deriving DecidableEq, Repr

def isValidCoordinate (point : RouteMatrixPoint) : Bool := point.latitude.within 90 && point.longitude.within 180

/-- `Number(text)` is `parseNumber`, without a value where it is not finite. -/
def parseGoogleDurationSeconds (parseNumber : String → Option Rat) (duration : Option String) : Option Rat := do
  let duration ← duration
  if duration.toList.getLast? = some 's' then (parseNumber (String.ofList duration.toList.dropLast)).filter (0 ≤ ·) else none

def indexKey (originIndex destinationIndex : Int) : String := toString originIndex ++ ":" ++ toString destinationIndex

def GoogleRouteMatrixElement.key (element : GoogleRouteMatrixElement) : Option String := do
  let originIndex ← element.originIndex.filter (·.isInt)
  let destinationIndex ← element.destinationIndex.filter (·.isInt)
  some (indexKey originIndex.num destinationIndex.num)

/-- The map keeps the last element of a key. -/
def elementAt (payload : List GoogleRouteMatrixElement) (originIndex destinationIndex : Nat) : Option GoogleRouteMatrixElement :=
  payload.reverse.find? fun element => element.key = some (indexKey originIndex destinationIndex)

section Batch
variable (parseNumber : String → Option Rat)

def toResult (origin destination : RouteMatrixPoint) (element : Option RouteFigures) : MultiDestinationRouteMatrixResult :=
  let durationSeconds := parseGoogleDurationSeconds parseNumber (element.bind (·.duration))
  let statusCode := (element.bind (·.statusCode)).getD 0
  let routeAvailable := element.isSome && statusCode = 0 && element.bind (·.condition) ≠ some "ROUTE_NOT_FOUND" && durationSeconds.isSome
  { originId := origin.id
    destinationId := destination.id
    durationSeconds := if routeAvailable then durationSeconds else none
    distanceMeters := if routeAvailable then element.bind (·.distanceMeters) else none
    routeAvailable := routeAvailable }

def timedOut (aborted : Bool) : String :=
  if aborted then "Google Routes API timed out." else "Google Routes API could not calculate pickup-store routes."

/-- The results of one request, or the text of the error. -/
def computeBatch (request : RouteMatrixRequest) : RoutesResponse → Except String (List MultiDestinationRouteMatrixResult)
  | .failed aborted => .error (timedOut aborted)
  | .answered false status _ => .error s!"Google Routes API returned HTTP {status}."
  | .answered true _ (.unreadable aborted) => .error (timedOut aborted)
  | .answered true _ .noArray => .error "Google Routes API returned an unexpected response."
  | .answered true _ (.elements payload) =>
    match payload.mapM id with
    | none => .error (timedOut false)
    | some payload => .ok (request.origins.zipIdx.flatMap fun (origin,originIndex) =>
        request.destinations.zipIdx.map fun (destination,destinationIndex) =>
          toResult parseNumber origin destination ((elementAt payload originIndex destinationIndex).map (·.toRouteFigures)))

structure MatrixRun where
  requests : List RouteMatrixRequest
  result : Except String (List MultiDestinationRouteMatrixResult)

variable (apiKey : Option String) (provider : Nat → RouteMatrixRequest → RoutesResponse)

/-- One batch after the other; `provider` may answer each request in its own way. -/
def computeBatches (origins : List RouteMatrixPoint) : Nat → List (List RouteMatrixPoint) → MatrixRun
  | _,[] => ⟨[],.ok []⟩
  | number,batch::rest =>
    if apiKey.all (· = "") then ⟨[],.error "Google Routes API is not configured."⟩
    else
      let request : RouteMatrixRequest := ⟨origins,batch⟩
      match computeBatch parseNumber request (provider number request) with
      | .error message => ⟨[request],.error message⟩
      | .ok results =>
        let later := computeBatches origins (number + 1) rest
        ⟨request::later.requests,later.result.map (results ++ ·)⟩

end Batch

/-- The slices that the loop takes from `startIndex` on. -/
def batchesFrom (destinations : List RouteMatrixPoint) (destinationsPerBatch : Nat) : Nat → Nat → List (List RouteMatrixPoint)
  | 0,_ => []
  | fuel + 1,startIndex =>
    if startIndex < destinations.length then
      (destinations.drop startIndex).take destinationsPerBatch::
        batchesFrom destinations destinationsPerBatch fuel (startIndex + destinationsPerBatch)
    else []

def maxElements (origins : List RouteMatrixPoint) (maxElementsPerRequest : Option Rat) : Rat :=
  max origins.length (maxElementsPerRequest.getD 625)

def destinationsPerBatch (origins : List RouteMatrixPoint) (maxElementsPerRequest : Option Rat) : Nat :=
  max 1 ⌊maxElements origins maxElementsPerRequest/origins.length⌋.toNat

def batches (origins destinations : List RouteMatrixPoint) (maxElementsPerRequest : Option Rat) : List (List RouteMatrixPoint) :=
  batchesFrom destinations (destinationsPerBatch origins maxElementsPerRequest) destinations.length 0

def computeTrafficAwareRouteMatrixToDestinations (parseNumber : String → Option Rat) (apiKey : Option String)
    (provider : Nat → RouteMatrixRequest → RoutesResponse) (origins destinations : List RouteMatrixPoint)
    (maxElementsPerRequest : Option Rat) : MatrixRun :=
  if origins = [] ∨ destinations = [] then ⟨[],.ok []⟩
  else match origins.find? (!isValidCoordinate ·), destinations.find? (!isValidCoordinate ·) with
    | some origin,_ => ⟨[],.error s!"Route origin {origin.id} does not have valid coordinates."⟩
    | none,some destination => ⟨[],.error s!"Route destination {destination.id} does not have valid coordinates."⟩
    | none,none => computeBatches parseNumber apiKey provider origins 0 (batches origins destinations maxElementsPerRequest)

theorem intChars {i : Int} {c : Char} (mem : c ∈ (toString i).toList) : c.isDigit = true ∨ c = '-' := by
  have digits : ∀ n : Nat, c ∈ (toString n).toList → c.isDigit = true := fun n mem => by
    rw [Nat.toString_eq_repr,Nat.toList_repr] at mem
    exact Nat.isDigit_of_mem_toDigits (by decide) (by decide) mem
  cases i with
  | ofNat n => exact .inl (digits n mem)
  | negSucc n =>
    rw [show toString (Int.negSucc n) = "-" ++ toString (n + 1) from rfl,String.toList_append,List.mem_append] at mem
    exact mem.symm.imp (digits (n + 1)) fun sign => by simpa using sign

theorem indexKeyInjective {i j i' j' : Int} (same : indexKey i j = indexKey i' j') : i = i' ∧ j = j' := by
  have noColon : ∀ i : Int, ':' ∉ (toString i).toList := fun i mem => by
    rcases intChars mem with digit | sign
    · exact absurd digit (by decide)
    · exact absurd sign (by decide)
  have texts : (toString i).toList ++ ':'::(toString j).toList = (toString i').toList ++ ':'::(toString j').toList := by
    simpa [indexKey] using congrArg String.toList same
  obtain ⟨first,-,second⟩ := (List.append_cons_inj_of_notMem (noColon i) (noColon j)).mp texts
  exact ⟨JsText.intText (String.toList_inj.mp first),JsText.intText (String.toList_inj.mp second)⟩

theorem indexIs {index : Option Rat} {n : Nat} : (∃ r, index.filter (·.isInt) = some r ∧ r.num = n) ↔ index = some (n : Rat) := by
  constructor
  · rintro ⟨r,is,num⟩
    obtain ⟨rfl,whole⟩ := Option.filter_eq_some_iff.mp is
    have exact_ : ((r.num : Int) : Rat) = r := by
      rw [Rat.isInt,beq_iff_eq] at whole
      exact (Rat.den_eq_one_iff r).mp whole
    rw [← exact_,num]
    rfl
  · rintro rfl
    exact ⟨n,by simp [Option.filter,Rat.isInt],Rat.num_natCast n⟩

theorem keyIs {element : GoogleRouteMatrixElement} {i j : Nat} :
    element.key = some (indexKey i j) ↔ element.originIndex = some (i : Rat) ∧ element.destinationIndex = some (j : Rat) := by
  rw [← indexIs,← indexIs]
  simp only [GoogleRouteMatrixElement.key,bind,Option.bind_eq_some_iff,Option.some_inj]
  constructor
  · rintro ⟨r,origin,t,destination,same⟩
    obtain ⟨first,second⟩ := indexKeyInjective same
    exact ⟨⟨r,origin,first⟩,t,destination,second⟩
  · rintro ⟨⟨r,origin,first⟩,t,destination,second⟩
    exact ⟨r,origin,t,destination,by rw [first,second]⟩

/-- The elements of the answer, in any order and with any others beside them, say of each pair of the request what `truth` says. -/
def Answers (truth : RouteMatrixPoint → RouteMatrixPoint → Option RouteFigures) (request : RouteMatrixRequest) (response : RoutesResponse) : Prop :=
  ∃ (status : Nat) (payload : List GoogleRouteMatrixElement), response = .answered true status (.elements (payload.map some)) ∧
    ∀ (i : Nat) origin, request.origins[i]? = some origin → ∀ (j : Nat) destination, request.destinations[j]? = some destination → ∀ figures,
      (∃ element ∈ payload, element.originIndex = some (i : Rat) ∧ element.destinationIndex = some (j : Rat) ∧ element.toRouteFigures = figures) ↔
        truth origin destination = some figures

theorem elementFigures {payload : List GoogleRouteMatrixElement} {i j : Nat} {figures : Option RouteFigures}
    (exactly : ∀ f, (∃ element ∈ payload, element.originIndex = some (i : Rat) ∧ element.destinationIndex = some (j : Rat) ∧
      element.toRouteFigures = f) ↔ figures = some f) :
    (elementAt payload i j).map (·.toRouteFigures) = figures := by
  cases found : elementAt payload i j with
  | none =>
    cases is : figures with
    | none => rfl
    | some f =>
      obtain ⟨element,mem,origin,destination,-⟩ := (exactly f).mpr is
      have missed := List.find?_eq_none.mp found element (List.mem_reverse.mpr mem)
      exact absurd (keyIs.mpr ⟨origin,destination⟩) (by simpa using missed)
  | some element =>
    have keyed : element.key = some (indexKey i j) := by simpa using List.find?_some found
    obtain ⟨origin,destination⟩ := keyIs.mp keyed
    exact ((exactly _).mp ⟨element,List.mem_reverse.mp (List.mem_of_find?_eq_some found),origin,destination,rfl⟩).symm

theorem zipIdxFlatMap {α β : Type} {xs : List α} {f : α × Nat → List β} {g : α → List β} (same : ∀ i x, xs[i]? = some x → f (x,i) = g x) :
    xs.zipIdx.flatMap f = xs.flatMap g := by
  have pointwise : xs.zipIdx.flatMap f = xs.zipIdx.flatMap fun p => g p.1 :=
    List.flatMap_congr fun p mem => same p.2 p.1 (List.mem_zipIdx_iff_getElem?.mp mem)
  rw [pointwise,← List.flatMap_map,List.zipIdx_map_fst]

section Transparent
variable {parseNumber : String → Option Rat} {truth : RouteMatrixPoint → RouteMatrixPoint → Option RouteFigures}

/-- The results of all pairs, as `truth` has them. -/
def allPairs (parseNumber : String → Option Rat) (truth : RouteMatrixPoint → RouteMatrixPoint → Option RouteFigures)
    (origins destinations : List RouteMatrixPoint) : List MultiDestinationRouteMatrixResult :=
  origins.flatMap fun origin => destinations.map fun destination => toResult parseNumber origin destination (truth origin destination)

theorem batchAnswered {request : RouteMatrixRequest} {response : RoutesResponse} (answers : Answers truth request response) :
    computeBatch parseNumber request response = .ok (allPairs parseNumber truth request.origins request.destinations) := by
  obtain ⟨status,payload,rfl,exactly⟩ := answers
  have read : (payload.map some).mapM id = some payload := by
    rw [List.mapM_map]
    exact (List.mapM_pure (m := Option)).trans (by simp)
  rw [computeBatch,read]
  refine congrArg Except.ok (zipIdxFlatMap fun i origin here => ?_)
  dsimp only
  rw [← List.flatMap_pure_eq_map,← List.flatMap_pure_eq_map]
  refine zipIdxFlatMap fun j destination there => ?_
  dsimp only [Function.comp_apply]
  rw [elementFigures (exactly i origin here j destination there)]

theorem batchesAnswered {apiKey : Option String} (configured : apiKey.all (· = "") = false)
    {provider : Nat → RouteMatrixRequest → RoutesResponse} (answers : ∀ number request, Answers truth request (provider number request))
    (origins : List RouteMatrixPoint) (number : Nat) (parts : List (List RouteMatrixPoint)) :
    (computeBatches parseNumber apiKey provider origins number parts).result =
      .ok (parts.flatMap (allPairs parseNumber truth origins)) := by
  induction parts generalizing number with
  | nil => rfl
  | cons batch rest ih =>
    rw [computeBatches,if_neg (by simp [configured])]
    dsimp only
    rw [batchAnswered (answers number ⟨origins,batch⟩)]
    dsimp only
    rw [ih (number + 1)]
    rfl

theorem batchFails {apiKey : Option String} {provider : Nat → RouteMatrixRequest → RoutesResponse} {origins : List RouteMatrixPoint}
    {parts : List (List RouteMatrixPoint)} (number n : Nat) {batch : List RouteMatrixPoint} (here : parts[n]? = some batch) {message : String}
    (fails : computeBatch parseNumber ⟨origins,batch⟩ (provider (number + n) ⟨origins,batch⟩) = .error message) :
    ∃ message, (computeBatches parseNumber apiKey provider origins number parts).result = .error message := by
  induction parts generalizing number n with
  | nil => simp at here
  | cons first rest ih =>
    rw [computeBatches]
    split
    · exact ⟨_,rfl⟩
    · dsimp only
      cases answered : computeBatch parseNumber ⟨origins,first⟩ (provider number ⟨origins,first⟩) with
      | error text => exact ⟨text,rfl⟩
      | ok results =>
        cases n with
        | zero =>
          cases Option.some.inj here
          exact absurd (answered.symm.trans fails) (by simp)
        | succ n =>
          obtain ⟨text,later⟩ := ih (number + 1) n here (by rwa [Nat.add_right_comm,Nat.add_assoc])
          exact ⟨text,by dsimp only; rw [later]; rfl⟩

theorem requestsOf {apiKey : Option String} {provider : Nat → RouteMatrixRequest → RoutesResponse} {origins : List RouteMatrixPoint}
    {parts : List (List RouteMatrixPoint)} {number : Nat} {request : RouteMatrixRequest}
    (made : request ∈ (computeBatches parseNumber apiKey provider origins number parts).requests) :
    request.origins = origins ∧ request.destinations ∈ parts := by
  induction parts generalizing number with
  | nil => simp [computeBatches] at made
  | cons first rest ih =>
    rw [computeBatches] at made
    split at made
    · cases made
    · dsimp only at made
      split at made
      · cases List.mem_singleton.mp made
        exact ⟨rfl,List.mem_cons_self⟩
      · rcases List.mem_cons.mp made with rfl | later
        · exact ⟨rfl,List.mem_cons_self⟩
        · exact (ih later).imp_right (List.mem_cons_of_mem _)

end Transparent

section Slices
variable {destinations : List RouteMatrixPoint} {k : Nat}

theorem batchesWhole (positive : 0 < k) (fuel startIndex : Nat) (enough : destinations.length ≤ startIndex + fuel) :
    (batchesFrom destinations k fuel startIndex).flatten = destinations.drop startIndex := by
  induction fuel generalizing startIndex with
  | zero => rw [batchesFrom,List.drop_of_length_le (by omega),List.flatten_nil]
  | succ fuel ih =>
    rw [batchesFrom]
    split
    · rw [List.flatten_cons,ih _ (by omega),← List.drop_drop,List.take_append_drop]
    · rw [List.drop_of_length_le (by omega)]
      rfl

theorem batchesShort {fuel startIndex : Nat} {batch : List RouteMatrixPoint} (mem : batch ∈ batchesFrom destinations k fuel startIndex) :
    batch.length ≤ k := by
  induction fuel generalizing startIndex with
  | zero => cases mem
  | succ fuel ih =>
    rw [batchesFrom] at mem
    split at mem
    · rcases List.mem_cons.mp mem with rfl | later
      · exact List.length_take_le _ _
      · exact ih later
    · cases mem

end Slices

section Pairs
variable {parseNumber : String → Option Rat} {truth : RouteMatrixPoint → RouteMatrixPoint → Option RouteFigures}
  {origins destinations : List RouteMatrixPoint}

theorem batchesPairs (parts : List (List RouteMatrixPoint)) :
    (parts.flatMap (allPairs parseNumber truth origins)).Perm (allPairs parseNumber truth origins parts.flatten) := by
  induction parts with
  | nil => simp [allPairs]
  | cons batch rest ih =>
    rw [List.flatMap_cons,List.flatten_cons]
    refine (ih.append_left _).trans ?_
    simp only [allPairs,List.map_append]
    exact List.flatMap_append_perm _ _ _

theorem onePair (uniqueOrigins : (origins.map (·.id)).Nodup) (uniqueDestinations : (destinations.map (·.id)).Nodup)
    {origin destination : RouteMatrixPoint} (isOrigin : origin ∈ origins) (isDestination : destination ∈ destinations) :
    (allPairs parseNumber truth origins destinations).filter
      (fun result => result.originId = origin.id ∧ result.destinationId = destination.id) =
        [toResult parseNumber origin destination (truth origin destination)] := by
  have apart : ∀ {points : List RouteMatrixPoint}, (points.map (·.id)).Nodup → ∀ a ∈ points, ∀ b ∈ points, a ≠ b → a.id ≠ b.id :=
    fun unique a memA b memB differ same => differ (List.inj_on_of_nodup_map unique memA memB same)
  rw [allPairs,filterPieces (uniqueOrigins.of_map _) isOrigin,← List.flatMap_pure_eq_map,
    filterPieces (uniqueDestinations.of_map _) isDestination]
  · simp [toResult]
  · intro other mem differ result is
    have different := apart uniqueDestinations other mem destination isDestination differ
    cases List.mem_singleton.mp is
    simp [toResult,different]
  · intro other mem differ result is
    have different := apart uniqueOrigins other mem origin isOrigin differ
    obtain ⟨_,-,rfl⟩ := List.mem_map.mp is
    simp [toResult,different]

end Pairs

theorem perBatchFits {origins : List RouteMatrixPoint} (some_ : origins ≠ []) (limit : Option Rat) :
    (origins.length*destinationsPerBatch origins limit : Rat) ≤ maxElements origins limit := by
  have positive : (0 : Rat) < origins.length := by exact_mod_cast List.length_pos_iff.mpr some_
  have least : (origins.length : Rat) ≤ maxElements origins limit := le_max_left _ _
  rw [destinationsPerBatch]
  rcases le_total 1 ⌊maxElements origins limit/origins.length⌋.toNat with more | one
  · rw [max_eq_right more]
    have whole : ((⌊maxElements origins limit/origins.length⌋.toNat : Int) : Rat) = ⌊maxElements origins limit/origins.length⌋ := by
      rw [Int.toNat_of_nonneg (by omega)]
    have floor := Int.floor_le (maxElements origins limit/origins.length)
    rw [← whole,le_div_iff₀ positive,mul_comm] at floor
    exact_mod_cast floor
  · rw [max_eq_left one]
    simpa using least

theorem batchFits {origins destinations batch : List RouteMatrixPoint} (some_ : origins ≠ []) {limit : Option Rat}
    (mem : batch ∈ batches origins destinations limit) : (origins.length*batch.length : Rat) ≤ maxElements origins limit := by
  have short : (batch.length : Rat) ≤ destinationsPerBatch origins limit := by exact_mod_cast batchesShort mem
  exact (mul_le_mul_of_nonneg_left short (Nat.cast_nonneg _)).trans (perBatchFits some_ limit)

section Whole
variable (parseNumber : String → Option Rat) (apiKey : Option String) (provider : Nat → RouteMatrixRequest → RoutesResponse)
  (origins destinations : List RouteMatrixPoint) (limit : Option Rat)

theorem validRun (validOrigins : ∀ point ∈ origins, isValidCoordinate point = true)
    (validDestinations : ∀ point ∈ destinations, isValidCoordinate point = true) :
    computeTrafficAwareRouteMatrixToDestinations parseNumber apiKey provider origins destinations limit =
      if origins = [] ∨ destinations = [] then ⟨[],.ok []⟩
      else computeBatches parseNumber apiKey provider origins 0 (batches origins destinations limit) := by
  have noOrigin : origins.find? (!isValidCoordinate ·) = none := List.find?_eq_none.mpr fun point mem => by simp [validOrigins point mem]
  have noDestination : destinations.find? (!isValidCoordinate ·) = none :=
    List.find?_eq_none.mpr fun point mem => by simp [validDestinations point mem]
  rw [computeTrafficAwareRouteMatrixToDestinations,noOrigin,noDestination]

/-- A provider that answers every request gives every pair its one result, however the destinations are split; no request
is too large, and one failing batch fails the whole. -/
theorem routeMatrixTransparent (validOrigins : ∀ point ∈ origins, isValidCoordinate point = true)
    (validDestinations : ∀ point ∈ destinations, isValidCoordinate point = true)
    (uniqueOrigins : (origins.map (·.id)).Nodup) (uniqueDestinations : (destinations.map (·.id)).Nodup) :
    let run := computeTrafficAwareRouteMatrixToDestinations parseNumber apiKey provider origins destinations limit
    (∀ truth, apiKey.all (· = "") = false → (∀ number request, Answers truth request (provider number request)) →
      ∃ results, run.result = .ok results ∧ results.Perm (allPairs parseNumber truth origins destinations) ∧
        ∀ origin ∈ origins, ∀ destination ∈ destinations,
          results.filter (fun result => result.originId = origin.id ∧ result.destinationId = destination.id) =
            [toResult parseNumber origin destination (truth origin destination)]) ∧
      (∀ request ∈ run.requests,
        (request.origins.length*request.destinations.length : Rat) ≤ max (limit.getD 625) origins.length) ∧
      ∀ (n : Nat) batch message, origins ≠ [] → (batches origins destinations limit)[n]? = some batch →
        computeBatch parseNumber ⟨origins,batch⟩ (provider n ⟨origins,batch⟩) = .error message → ∃ message, run.result = .error message := by
  intro run
  have is : run = _ := validRun parseNumber apiKey provider origins destinations limit validOrigins validDestinations
  refine ⟨fun truth configured answers => ?_,fun request made => ?_,fun n batch message some_ here fails => ?_⟩
  · have exactly : ∃ results, run.result = .ok results ∧ results.Perm (allPairs parseNumber truth origins destinations) := by
      rw [is]
      split
      · rename_i empty
        refine ⟨[],rfl,?_⟩
        rcases empty with rfl | rfl <;> simp [allPairs]
      · refine ⟨_,batchesAnswered configured answers origins 0 _,(batchesPairs _).trans ?_⟩
        rw [batches,batchesWhole (by simp [destinationsPerBatch]) _ 0 (by omega),List.drop_zero]
    obtain ⟨results,ok,same⟩ := exactly
    refine ⟨results,ok,same,fun origin isOrigin destination isDestination => ?_⟩
    have one := same.filter fun result => result.originId = origin.id ∧ result.destinationId = destination.id
    rw [onePair uniqueOrigins uniqueDestinations isOrigin isDestination] at one
    exact List.perm_singleton.mp one
  · rw [is] at made
    split at made
    · cases made
    · rename_i some_
      obtain ⟨rfl,mem⟩ := requestsOf made
      rw [max_comm]
      exact batchFits (fun none_ => some_ (.inl none_)) mem
  · rw [is]
    split
    · rename_i empty
      rcases empty with rfl | rfl
      · exact absurd rfl some_
      · simp [batches,batchesFrom] at here
    · exact batchFails 0 n here (by rwa [Nat.zero_add])

end Whole

/-- One minute for every pair, the last pair first. -/
def reversedProvider (_ : Nat) (request : RouteMatrixRequest) : RoutesResponse :=
  .answered true 200 (.elements (((request.origins.zipIdx.flatMap fun p => request.destinations.zipIdx.map fun q =>
    ({ originIndex := some (p.2 : Rat), destinationIndex := some (q.2 : Rat), duration := some "60s" } : GoogleRouteMatrixElement)).reverse).map some))

def minuteAway (_ _ : RouteMatrixPoint) : Option RouteFigures := some { duration := some "60s" }

theorem reversedAnswers (number : Nat) (request : RouteMatrixRequest) : Answers minuteAway request (reversedProvider number request) := by
  refine ⟨200,_,rfl,fun i origin here j destination there figures => ?_⟩
  simp only [minuteAway,Option.some_inj]
  constructor
  · rintro ⟨element,mem,-,-,rfl⟩
    obtain ⟨p,-,mem⟩ := List.mem_flatMap.mp (List.mem_reverse.mp mem)
    obtain ⟨q,-,rfl⟩ := List.mem_map.mp mem
    rfl
  · rintro rfl
    exact ⟨_,List.mem_reverse.mpr (List.mem_flatMap.mpr ⟨(origin,i),List.mem_zipIdx_iff_getElem?.mpr here,
      List.mem_map.mpr ⟨(destination,j),List.mem_zipIdx_iff_getElem?.mpr there,rfl⟩⟩),rfl,rfl,rfl⟩

def samplePoint (id : String) : RouteMatrixPoint := ⟨id,.finite (87/2),.finite (-80)⟩

/-- Two origins, three destinations and at most five elements make two requests. -/
theorem routeMatrixTransparentSix :
    ∃ results, (computeTrafficAwareRouteMatrixToDestinations (fun text => if text = "60" then some 60 else none) (some "key") reversedProvider
      [samplePoint "a",samplePoint "b"] [samplePoint "x",samplePoint "y",samplePoint "z"] (some 5)).result = .ok results ∧
      results.Perm ([("a","x"),("a","y"),("a","z"),("b","x"),("b","y"),("b","z")].map fun p => ⟨p.1,p.2,some 60,none,true⟩) := by
  obtain ⟨results,ok,same,-⟩ := (routeMatrixTransparent (fun text => if text = "60" then some 60 else none) (some "key") reversedProvider
    [samplePoint "a",samplePoint "b"] [samplePoint "x",samplePoint "y",samplePoint "z"] (some 5)
    (by decide +kernel) (by decide +kernel) (by decide) (by decide)).1 minuteAway (by decide) reversedAnswers
  exact ⟨results,ok,same.trans (.of_eq (by decide +kernel))⟩

/-- A route has a duration exactly when it is available. -/
def Measured (matrix : List MultiDestinationRouteMatrixResult) : Prop := ∀ route ∈ matrix, route.routeAvailable = route.durationSeconds.isSome

theorem toResultMeasured {parseNumber : String → Option Rat} {origin destination : RouteMatrixPoint} {element : Option RouteFigures} :
    (toResult parseNumber origin destination element).routeAvailable =
      (toResult parseNumber origin destination element).durationSeconds.isSome := by
  unfold toResult
  dsimp only
  split
  · rename_i available
    rw [available]
    simp only [Bool.and_eq_true] at available
    exact available.2.symm
  · rename_i unavailable
    simpa using unavailable

section Results
variable {parseNumber : String → Option Rat} {apiKey : Option String} {provider : Nat → RouteMatrixRequest → RoutesResponse}
  {origins destinations : List RouteMatrixPoint} {limit : Option Rat}

theorem batchMeasured {request : RouteMatrixRequest} {response : RoutesResponse} {matrix : List MultiDestinationRouteMatrixResult}
    (ok : computeBatch parseNumber request response = .ok matrix) : Measured matrix := by
  unfold computeBatch at ok
  split at ok <;> try cases ok
  split at ok
  · cases ok
  · cases ok
    intro route mem
    obtain ⟨_,-,mem⟩ := List.mem_flatMap.mp mem
    obtain ⟨_,-,rfl⟩ := List.mem_map.mp mem
    exact toResultMeasured

theorem batchesMeasured {parts : List (List RouteMatrixPoint)} {number : Nat} {matrix : List MultiDestinationRouteMatrixResult}
    (ok : (computeBatches parseNumber apiKey provider origins number parts).result = .ok matrix) : Measured matrix := by
  induction parts generalizing number matrix with
  | nil =>
    cases ok
    exact nofun
  | cons batch rest ih =>
    rw [computeBatches] at ok
    split at ok
    · cases ok
    · dsimp only at ok
      split at ok
      · cases ok
      · rename_i results first
        cases later : (computeBatches parseNumber apiKey provider origins (number + 1) rest).result with
        | error message => simp [later,Except.map] at ok
        | ok others =>
          rw [later] at ok
          cases ok
          intro route mem
          rcases List.mem_append.mp mem with mem | mem
          · exact batchMeasured first route mem
          · exact ih later route mem

theorem matrixMeasured {matrix : List MultiDestinationRouteMatrixResult}
    (ok : (computeTrafficAwareRouteMatrixToDestinations parseNumber apiKey provider origins destinations limit).result = .ok matrix) :
    Measured matrix := by
  unfold computeTrafficAwareRouteMatrixToDestinations at ok
  split at ok
  · cases ok
    exact nofun
  · split at ok <;> try cases ok
    exact batchesMeasured ok

end Results

end Routing
