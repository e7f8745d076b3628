import SpeedySweeties.Order.Address
import SpeedySweeties.Order.Handlers

/-! `updateOrderDetailsController` from the submitted body to the columns it writes.
Whether the new address is geocoded is decided against the order the handler read. -/
namespace SpeedySweeties
open JsText

structure EditableOrderItem where
  name : String
  quantity : Int
  price : Int
  deriving DecidableEq, Repr

/-- `none` for unit and buzz code means that the field is not in the body. -/
structure UpdateOrderDetailsBody where
  customerName : String
  customerPhone : String
  customerEmail : String
  addressLine1 : String
  unitNumber : Option (Option String)
  buzzCode : Option (Option String)
  city : String
  province : String
  additionalNotes : Option String
  paymentMethod : PaymentMethod
  items : List EditableOrderItem
  deriving DecidableEq, Repr

def normalizeAddressAccessField (value : Option String) : Option String :=
  (value.map trim).filter (· ≠ "")

def Order.deliveryAddress (o : Order) : DeliveryAddressInput := ⟨o.addressLine1,o.city,o.province⟩

def UpdateOrderDetailsBody.deliveryAddress (body : UpdateOrderDetailsBody) : DeliveryAddressInput :=
  ⟨body.addressLine1,body.city,body.province⟩

variable (T : TextService)

def civicAddressChanged (existingOrder : Order) (body : UpdateOrderDetailsBody) : Bool :=
  createDeliveryAddressFingerprint T existingOrder.deliveryAddress ≠
    createDeliveryAddressFingerprint T body.deliveryAddress

/-- `replacementDeliveryLocation`, or the rejection of the address. -/
def replacementLocation (existingOrder : Order) (body : UpdateOrderDetailsBody) (answer : GeocodeAnswer) :
    Except Reply (Option OrderLocation) :=
  if civicAddressChanged T existingOrder body then
    match geocodeDeliveryAddress T body.deliveryAddress answer with
    | some location => .ok (some location)
    | none => .error ⟨400,some "INVALID_DELIVERY_ADDRESS","Please select a valid delivery address."⟩
  else .ok none

def UpdateOrderDetailsBody.details (body : UpdateOrderDetailsBody) (customerId : CustomerId)
    (location : Option OrderLocation) : OrderDetails where
  customerId := customerId
  customerName := trim body.customerName
  phone := trim body.customerPhone
  email := T.toLowerCase (trim body.customerEmail)
  addressLine1 := trim body.addressLine1
  unitNumber := body.unitNumber.map normalizeAddressAccessField
  buzzCode := body.buzzCode.map normalizeAddressAccessField
  city := trim body.city
  province := trim body.province
  itemsText := ", ".intercalate (body.items.map fun i => toString i.quantity ++ "x " ++ i.name)
  additionalNotes := normalizeAddressAccessField body.additionalNotes
  paymentMethod := body.paymentMethod
  location := location

/-- The rows created for the submitted items; `keys` are their ids, catalogue items and times. -/
def editedItems (items : List EditableOrderItem) (keys : List (String × String × Time)) : List OrderItem :=
  (keys.zip (items.filter (·.name ≠ ""))).map fun ((id,itemCatalogId,createdAt),item) =>
    { id, itemCatalogId := some itemCatalogId, name := trim item.name
      quantity := if item.quantity = 0 then 1 else item.quantity, price := item.price, createdAt }

end SpeedySweeties
