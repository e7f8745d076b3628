import Mathlib.Algebra.Order.Ring.Unbundled.Rat
import Mathlib.Data.List.Sort
import SpeedySweeties.Library.Table
import SpeedySweeties.Staff.Account

/-! Which driver a new order is allocated to, and which accounts an assignment may lock.
The planned routes come from outside; a candidate must still be where its route starts. -/
namespace SpeedySweeties
open JsText

/-- Library functions on texts. -/
structure AllocationService where
  toLowerCase : String → String
  localeCompare : String → String → Ordering

def sampleAllocation : AllocationService where
  toLowerCase text := String.ofList (text.toList.map Char.toLower)
  localeCompare a b := compare a b

/-! ### staffAccountLock.ts and driverFreshness.ts -/

/-- The `WHERE` of `lockAssignableDriver`. -/
def Assignable (now : Time) (user : User) : Prop :=
  user.role = .driver ∧ user.isActive = true ∧ user.isVisibleInDispatch = true ∧ user.isOnline = true ∧
    user.passwordChangeRequired = false ∧ isDriverFresh user.lastSeenAt now = true

instance (now : Time) (user : User) : Decidable (Assignable now user) := by unfold Assignable; infer_instance

def isDriverLocationFresh (lastSeenAt locationUpdatedAt : Option Time) (now : Time) : Bool :=
  isDriverFresh lastSeenAt now && isDriverFresh locationUpdatedAt now

/-! ### autoDispatchPickupPlan.service.ts -/

def robDriverId : UserId := "e400eba6-841c-4f89-918b-2426af11e76e"
def robActiveOrderLimit : Nat := 4

/-- Of the environment variable `AUTO_DISPATCH_ROB_PRIORITY_ENABLED`. -/
def isRobPriorityEnabled (T : AllocationService) (setting : Option String) : Bool :=
  T.toLowerCase (trim (setting.getD "true")) ∉ ["false","0","off","no"]

/-- Where the route of a driver starts, and the route to the customer. -/
structure PlannedRoute where
  driverId : UserId
  latitude : Int
  longitude : Int
  locationUpdatedAt : Option Time
  durationSeconds : Rat
  distanceMeters : Option Rat
  deriving DecidableEq, Repr

structure AllocationCandidate where
  driver : User
  routeDurationSeconds : Rat
  routeDistanceMeters : Option Rat
  deriving DecidableEq, Repr

/-- The driver as the query finds it. -/
def availableDriver (now : Time) (user : User) : Bool :=
  user.role = .driver && user.isActive && user.isVisibleInDispatch && user.isOnline &&
    isDriverFresh user.lastSeenAt now

def allocationCandidate (routes : List PlannedRoute) (allocationTime : Time) (driver : User) :
    Option AllocationCandidate := do
  let route ← routes.find? (·.driverId = driver.id)
  let latitude ← driver.latitude
  let longitude ← driver.longitude
  if isDriverLocationFresh driver.lastSeenAt driver.locationUpdatedAt allocationTime ∧
      latitude = route.latitude ∧ longitude = route.longitude ∧
      driver.locationUpdatedAt = route.locationUpdatedAt then
    some ⟨driver,route.durationSeconds,route.distanceMeters⟩
  else none

def allocationCandidates (users : List User) (routes : List PlannedRoute) (allocationTime : Time) :
    List AllocationCandidate :=
  (users.filter (availableDriver allocationTime)).filterMap (allocationCandidate routes allocationTime)

variable (T : AllocationService)

def driverName (driver : User) : String := trim (driver.firstName.getD "" ++ " " ++ driver.lastName.getD "")

def compareDriverIdentity (a b : User) : Ordering :=
  (T.localeCompare (driverName a) (driverName b)).then
    ((T.localeCompare a.email b.email).then (T.localeCompare a.id b.id))

def compareCandidates (a b : AllocationCandidate) : Ordering :=
  if a.routeDurationSeconds ≠ b.routeDurationSeconds then compare a.routeDurationSeconds b.routeDurationSeconds
  else match a.routeDistanceMeters,b.routeDistanceMeters with
    | some x,some y => if x ≠ y then compare x y else compareDriverIdentity T a.driver b.driver
    | some _,none => .lt
    | none,some _ => .gt
    | none,none => compareDriverIdentity T a.driver b.driver

/-- A stable sort, then its first element. -/
def selectAutoDispatchAllocationCandidate (candidates : List AllocationCandidate) : Option AllocationCandidate :=
  (candidates.insertionSort fun a b => compareCandidates T a b ≠ .gt).head?

variable {T}

theorem selectedCandidate {candidates : List AllocationCandidate} {c : AllocationCandidate}
    (selected : selectAutoDispatchAllocationCandidate T candidates = some c) : c ∈ candidates :=
  (List.mem_insertionSort _).mp (List.mem_of_head? selected)

/-- An account that may own unfinished orders. -/
def User.CanDeliver (user : User) : Prop :=
  user.isActive = true ∧ user.passwordChangeRequired = false ∧ user.role = .driver

instance (user : User) : Decidable user.CanDeliver := by unfold User.CanDeliver; infer_instance

theorem assignableDelivers {now : Time} {user : User} (h : Assignable now user) : user.CanDeliver :=
  ⟨h.2.1,h.2.2.2.2.1,h.1⟩

/-! ### The update of `changeStaff` -/

/-- Which columns the update sets was decided on the account as it was `read`. -/
def StaffChange.write (change : StaffChange) (read row : User) : User :=
  if change.revokeSessions read then (change.changed row).endSessions else change.changed row

@[simp] theorem StaffChange.writeId (change : StaffChange) (read row : User) : (change.write read row).id = row.id := by
  unfold StaffChange.write
  split <;> exact changedId change row

theorem changeDelivers {change : StaffChange} {user : User} (harmless : change.accessChanges user = false)
    (h : user.CanDeliver) : (change.write user user).CanDeliver := by
  obtain ⟨active,chosen,driver⟩ := h
  cases change with
  | profile firstName lastName email role =>
    simp only [StaffChange.accessChanges,decide_eq_false_iff_not,not_or,not_not] at harmless
    unfold StaffChange.write
    split <;> exact ⟨active,chosen,harmless.1.trans driver⟩
  | status isActive =>
    cases isActive with
    | false => contradiction
    | true =>
      unfold StaffChange.write
      split <;> exact ⟨rfl,chosen,driver⟩
  | password passwordHash => contradiction

theorem writeDelivers {w : AccountWrite} {user : User} (other : ∀ change, w ≠ .staff change) (h : user.CanDeliver) :
    (w.apply user).CanDeliver := by
  obtain ⟨active,chosen,driver⟩ := h
  cases w with
  | signIn isDriver now => cases isDriver <;> exact ⟨active,chosen,driver⟩
  | staff change => exact absurd rfl (other change)
  | presence kind now => cases kind <;> exact ⟨active,chosen,driver⟩
  | clearInvalidToken token =>
    simp only [AccountWrite.apply]
    split <;> exact ⟨active,chosen,driver⟩
  | changePassword authVersion passwordHash => exact ⟨active,rfl,driver⟩
  | _ => exact ⟨active,chosen,driver⟩

end SpeedySweeties
