/-! The rows of the order tables. Times are milliseconds, money is cents and
coordinates are micro-degrees; no modelled function computes with coordinates.
`updatedAt` columns that no modelled function reads are left out. -/
namespace SpeedySweeties

abbrev Time := Nat
abbrev OrderId := String
abbrev UserId := String
abbrev CustomerId := String

inductive OrderStatus where
  | placed | dispatched | accepted | outForDelivery | delivered | cancelled
  deriving DecidableEq, Repr

inductive OrderPriority where | normal | high deriving DecidableEq, Repr

inductive PaymentMethod where | cash | debit | visa | mastercard | etransfer deriving DecidableEq, Repr

inductive UserRole where | admin | dispatcher | driver deriving DecidableEq, Repr

inductive DispatchSource where | manual | auto | driver deriving DecidableEq, Repr

inductive OrderSource where
  | unknown | androidApp | iosApp | webflow | dispatcherManual
  deriving DecidableEq, Repr

inductive DeliveryGeocodeStatus where | verified | needsReview | unverified deriving DecidableEq, Repr

inductive DispatchEventType where | assigned | reassigned | unassigned deriving DecidableEq, Repr

def OrderStatus.name : OrderStatus → String
  | .placed => "PLACED"
  | .dispatched => "DISPATCHED"
  | .accepted => "ACCEPTED"
  | .outForDelivery => "OUT_FOR_DELIVERY"
  | .delivered => "DELIVERED"
  | .cancelled => "CANCELLED"

structure OrderLifecycleSnapshot where
  assignedAt : Option Time
  dispatchedAt : Option Time
  acceptedAt : Option Time
  outForDeliveryAt : Option Time
  deliveredAt : Option Time
  deriving DecidableEq, Repr

structure OrderDispatch extends OrderLifecycleSnapshot where
  orderStatus : OrderStatus
  priority : OrderPriority
  assignedDriverId : Option UserId
  dispatchedByUserId : Option UserId
  dispatchSource : Option DispatchSource
  cancelledAt : Option Time
  cancelledFromStatus : Option OrderStatus
  cancellationReason : Option String
  deriving DecidableEq, Repr

structure OrderContact where
  customerId : Option CustomerId
  customerName : String
  phone : String
  email : String
  addressLine1 : String
  unitNumber : Option String
  buzzCode : Option String
  city : String
  province : String
  postalCode : Option String
  deriving DecidableEq, Repr

structure OrderContent where
  itemsText : String
  additionalNotes : Option String
  paymentMethod : PaymentMethod
  orderSource : OrderSource
  fcmToken : Option String
  trackingTokenHash : Option String
  trackingTokenExpiresAt : Option Time
  createdByUserId : Option UserId
  manualEntryStartedAt : Option Time
  deriving DecidableEq, Repr

structure OrderLocation where
  deliveryLatitude : Option Int
  deliveryLongitude : Option Int
  geocodeStatus : Option DeliveryGeocodeStatus
  geocodedAddress : Option String
  geocodePlaceId : Option String
  geocodeAddressFingerprint : Option String
  deriving DecidableEq, Repr

structure OrderCampaign where
  utmSource : Option String
  utmMedium : Option String
  utmCampaign : Option String
  utmContent : Option String
  utmTerm : Option String
  referralCode : Option String
  deriving DecidableEq, Repr

/-- The columns of `model Order`, grouped by what writes them together. -/
structure Order extends OrderDispatch, OrderContact, OrderContent, OrderLocation, OrderCampaign where
  id : OrderId
  orderNumber : Nat
  createdAt : Time
  privacyErasedAt : Option Time
  privacyRetainUntil : Option Time
  undispatchedAlertClaimedAt : Option Time
  undispatchedAlertSentAt : Option Time
  deriving DecidableEq, Repr

structure OrderItem where
  id : String
  itemCatalogId : Option String
  name : String
  quantity : Int
  price : Int
  createdAt : Time
  deriving DecidableEq, Repr

/-- What a JavaScript number made of decimal digits can be. -/
inductive JsNumber where
  | finite (value : Nat)
  | infinity
  deriving DecidableEq, Repr

structure ReceiptChargeEvidence where
  extraStops : Option JsNumber
  extraStopCharge : Option String
  distanceSurcharge : Option String
  deriving DecidableEq, Repr

structure ReceiptAmounts where
  itemTotal : Nat
  deliveryCharge : Nat
  taxOrFees : Nat
  grandTotal : Nat
  deriving DecidableEq, Repr

structure DigitalReceipt extends ReceiptAmounts where
  id : String
  receiptNumber : String
  createdByDriverId : Option UserId
  notes : Option String
  retainedChargeEvidence : Option ReceiptChargeEvidence
  createdAt : Time
  deriving DecidableEq, Repr

end SpeedySweeties
