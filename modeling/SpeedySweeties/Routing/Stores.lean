import Mathlib.Data.Rat.Defs
import SpeedySweeties.Library.JsText

/-! Pickup stores as the routing service reads them: their routing priority, their
coordinates and their opening hours from three places. The hours come out of JSON columns
under the types that the service gives them, so a column that is no object is `none`. -/
namespace Routing

inductive JsNumber where
  | finite (value : Rat)
  | infinity (negative : Bool)
  | nan
  deriving DecidableEq, Repr

inductive PickupLocationRoutingPriority where
  | preferred
  | standard
  | fallback
  deriving DecidableEq, Repr

/-- Upper case turns no other character into a letter of `PREFERRED` or `FALLBACK`, so ASCII letters are enough. -/
def parsePickupLocationRoutingPriority (value : String) : Option PickupLocationRoutingPriority :=
  match (JsText.trim value).map Char.toUpper with
  | "PREFERRED" => some .preferred
  | "STANDARD" => some .standard
  | "FALLBACK" => some .fallback
  | _ => none

def normalizePickupLocationRoutingPriority (value : Option String) : PickupLocationRoutingPriority :=
  (value.bind parsePickupLocationRoutingPriority).getD .standard

structure GoogleDate where
  year : Option Int
  month : Option Int
  day : Option Int
  deriving DecidableEq, Repr

structure GoogleOpeningTime where
  day : Option Int := none
  hour : Option Int := none
  minute : Option Int := none
  date : Option GoogleDate := none
  deriving DecidableEq, Repr

structure GoogleOpeningPeriod where
  open_ : Option GoogleOpeningTime
  close : Option GoogleOpeningTime
  deriving DecidableEq, Repr

structure GoogleOpeningHours where
  periods : Option (List GoogleOpeningPeriod)
  deriving DecidableEq, Repr

structure ManualHoursOverrideEntry where
  date : Option String
  isClosed : Option Bool
  openTime : Option String
  closeTime : Option String
  deriving DecidableEq, Repr

structure PickupStoreCandidate where
  id : String
  name : String
  pickupType : String
  addressLine1 : String
  city : String
  province : String
  latitude : Option JsNumber
  longitude : Option JsNumber
  isActive : Option Bool
  routingPriority : Option String
  googleBusinessStatus : Option String
  regularOpeningHours : Option GoogleOpeningHours
  currentOpeningHours : Option GoogleOpeningHours
  manualHoursOverride : List ManualHoursOverrideEntry
  deriving DecidableEq, Repr

structure RoutingCoordinate where
  latitude : JsNumber
  longitude : JsNumber
  deriving DecidableEq, Repr

def JsNumber.within (bound : Rat) : JsNumber → Bool
  | finite value => -bound ≤ value && value ≤ bound
  | _ => false

variable (store : PickupStoreCandidate)

def hasValidPickupStoreCoordinates : Bool :=
  store.isActive ≠ some false && store.latitude.any (JsNumber.within 90) && store.longitude.any (JsNumber.within 180)

def PickupStoreCandidate.priority : PickupLocationRoutingPriority := normalizePickupLocationRoutingPriority store.routingPriority

/-- `!store.googleBusinessStatus || store.googleBusinessStatus === "OPERATIONAL"` -/
def PickupStoreCandidate.operational : Bool :=
  store.googleBusinessStatus.all fun status => status = "" || status = "OPERATIONAL"

def routingPriorityOrder : List PickupLocationRoutingPriority := [.preferred,.standard,.fallback]

def pickupStoreRouteNodeId (storeId : String) : String := "pickup-store:" ++ storeId

end Routing
