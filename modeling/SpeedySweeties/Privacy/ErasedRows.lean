import SpeedySweeties.Library.JsText
import SpeedySweeties.Schema

/-! What `eraseScoped` writes into the order, item and receipt rows of a deleted
customer, and the charges `receiptChargeEvidence` extracts from receipt notes. -/
namespace SpeedySweeties
open JsText

/-- The double nearest to a natural number, ties to even. -/
def roundToDouble (n : Nat) : Nat :=
  if n < 2^53 then n
  else
    let shift := n.log2 - 52
    let kept := n / 2^shift
    let dropped := n % 2^shift
    let up := 2^(shift-1) < dropped ∨ (dropped = 2^(shift-1) ∧ kept % 2 = 1)
    (if up then kept + 1 else kept) * 2^shift

/-- `Number(text)` of a run of decimal digits. -/
def numberOfDigits (text : List Char) : JsNumber :=
  let value := roundToDouble (text.foldl (fun n c => 10*n + (c.toNat - '0'.toNat)) 0)
  if value.log2 < 1024 then .finite value else .infinity

def amountAfter (label : String) (notes : String) : Option String :=
  (firstMatch (fun text => do
    let rest ← stripLabel (label ++ ":").toList text
    amount (skipDollar (rest.dropWhile isSpace))) notes.toList).map String.ofList

def countAfter (label : String) (notes : String) : Option JsNumber :=
  (firstMatch (fun text => do
    let rest ← stripLabel (label ++ ":").toList text
    wholeNumber (rest.dropWhile isSpace)) notes.toList).map numberOfDigits

def receiptChargeEvidence (notes : Option String) : Option ReceiptChargeEvidence :=
  match notes with
  | none => none
  | some notes =>
    if notes = "" then none
    else
      let evidence : ReceiptChargeEvidence := {
        extraStops := countAfter "Extra stops" notes
        extraStopCharge := amountAfter "Extra stop charge" notes
        distanceSurcharge := amountAfter "Distance surcharge" notes }
      if evidence = ⟨none,none,none⟩ then none else some evidence

def eraseItem (item : OrderItem) : OrderItem := { item with itemCatalogId := none }

/-- `?? undefined` leaves the stored evidence as it is when the notes give none. -/
def eraseReceipt (readNotes : Option String) (receipt : DigitalReceipt) : DigitalReceipt :=
  { receipt with
    createdByDriverId := none
    notes := none
    retainedChargeEvidence := receiptChargeEvidence readNotes <|> receipt.retainedChargeEvidence }

def eraseOrder (now retainUntil : Time) (order : Order) : Order where
  id := order.id
  orderNumber := order.orderNumber
  createdAt := order.createdAt
  privacyErasedAt := some now
  privacyRetainUntil := some retainUntil
  undispatchedAlertClaimedAt := none
  undispatchedAlertSentAt := none
  orderStatus := order.orderStatus
  priority := .normal
  assignedDriverId := none
  assignedAt := none
  dispatchedAt := none
  dispatchedByUserId := none
  dispatchSource := none
  acceptedAt := none
  outForDeliveryAt := none
  deliveredAt := none
  cancelledAt := none
  cancelledFromStatus := none
  cancellationReason := none
  customerId := none
  customerName := "Deleted customer"
  phone := ""
  email := ""
  addressLine1 := ""
  unitNumber := none
  buzzCode := none
  city := ""
  province := ""
  postalCode := none
  itemsText := ""
  additionalNotes := none
  paymentMethod := order.paymentMethod
  orderSource := .unknown
  fcmToken := none
  trackingTokenHash := none
  trackingTokenExpiresAt := none
  createdByUserId := none
  manualEntryStartedAt := none
  deliveryLatitude := none
  deliveryLongitude := none
  geocodeStatus := none
  geocodedAddress := none
  geocodePlaceId := none
  geocodeAddressFingerprint := none
  utmSource := none
  utmMedium := none
  utmCampaign := none
  utmContent := none
  utmTerm := none
  referralCode := none

example : receiptChargeEvidence (some "Gate 12. extra STOPS: 2; Extra stop charge: $4.505") =
    some ⟨some (.finite 2),some "4.50",none⟩ := by decide

end SpeedySweeties
