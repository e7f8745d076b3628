import Mathlib.Data.List.Sort
import SpeedySweeties.Library.JsText
import SpeedySweeties.Library.Table
import SpeedySweeties.Library.Transition
import SpeedySweeties.Order.System

/-! Orders through the ChatGPT gateway. Each database statement of a submission is a step of
its own, and a request may end between any two of them; the order and the completed record
are committed together. Submissions are as the schema has parsed them. -/
namespace SpeedySweeties
open JsText

/-! ### Submissions -/

def isHexDigit (c : Char) : Bool := c ∈ "0123456789abcdefABCDEF".toList

def isUuid (text : String) : Bool :=
  text.toList.length = 36 &&
    (text.toList.zipIdx.all fun (c,i) => if i ∈ [8,13,18,23] then c = '-' else isHexDigit c) &&
    (text = "00000000-0000-0000-0000-000000000000" || text = "ffffffff-ffff-ffff-ffff-ffffffffffff" ||
      (text.toList[14]?.any (· ∈ "12345678".toList) && text.toList[19]?.any (· ∈ "89abAB".toList)))

structure RequestKey where
  text : String
  uuid : isUuid text = true
  deriving DecidableEq, Repr

structure CartItem where
  productId : String
  quantity : Nat
  deriving DecidableEq, Repr

structure GatewayCustomer where
  name : String
  phone : String
  email : String
  addressLine1 : String
  unit : String
  buzzCode : String
  city : String
  province : String
  deliveryInstructions : String
  paymentMethod : PaymentMethod
  deriving DecidableEq, Repr

structure Confirmation where
  reviewToken : String
  policyVersion : String
  confirmedAt : Time
  deriving DecidableEq, Repr

structure Submission where
  requestKey : RequestKey
  items : List CartItem
  customer : GatewayCustomer
  confirmation : Confirmation
  deriving DecidableEq, Repr

/-- Library functions: `digest` is SHA-256 of the JSON text of a submission. -/
structure GatewayService where
  localeCompare : String → String → Ordering
  digest : Submission → String

def normalizeAttributionValue (value : Option String) : Option String :=
  (value.map trim).filter (· ≠ "")

/-- The order as it is created, under the attribution that `orderBody` gives it. -/
def gatewayOrder (data : Submission) (input : NewOrder) : NewOrder :=
  { input with
    campaign := {
      utmSource := normalizeAttributionValue (some "chatgpt")
      utmMedium := normalizeAttributionValue (some "customer-plugin")
      utmCampaign := normalizeAttributionValue (some "guelph-convenience")
      utmContent := normalizeAttributionValue (some data.requestKey.text)
      utmTerm := none
      referralCode := none } }

inductive RecordState where | pending | complete | rejected deriving DecidableEq, Repr

structure RecordValue where
  owner : String
  hash : String
  state : RecordState
  orderId : Option OrderId
  createdAt : Time
  confirmation : Confirmation
  deriving DecidableEq, Repr

structure OrderSummary where
  orderId : OrderId
  orderNumber : Nat
  status : OrderStatus
  assignedDriver : Bool
  createdAt : Time
  deriving DecidableEq, Repr

structure GatewayResult where
  requestKey : RequestKey
  state : RecordState
  order : Option OrderSummary
  deriving DecidableEq, Repr

inductive GatewayReply where
  | refused (reply : Reply)
  | result (status : Nat) (result : GatewayResult)
  deriving DecidableEq, Repr

def OrderMapped (key : RequestKey) (o : Order) : Prop :=
  o.utmSource = some "chatgpt" ∧ o.utmMedium = some "customer-plugin" ∧ o.utmContent = some key.text

instance (key : RequestKey) (o : Order) : Decidable (OrderMapped key o) := by unfold OrderMapped; infer_instance

def orderSummary (o : Order) : OrderSummary :=
  ⟨o.id,o.orderNumber,o.orderStatus,o.assignedDriverId.isSome,o.createdAt⟩

/-- `none` is the exception of an order that does not map back to the key. -/
def gatewayResult (orders : Table Order Order.id) (key : RequestKey) (saved : RecordValue) : Option GatewayResult :=
  match saved.orderId with
  | none => some ⟨key,saved.state,none⟩
  | some orderId =>
    if saved.state ≠ .complete then some ⟨key,saved.state,none⟩
    else match orders.find orderId with
    | none => none
    | some order => if OrderMapped key order then some ⟨key,saved.state,some (orderSummary order)⟩ else none

def gatewayNotFound : Reply := ⟨404,some "NOT_FOUND","Order not found."⟩
def detailsChanged (message : String) : Reply := ⟨409,some "DETAILS_CHANGED",message⟩
def submissionUncertain (message : String) : Reply := ⟨503,some "SUBMISSION_UNCERTAIN",message⟩
def orderRejected : Reply :=
  ⟨409,some "ORDER_REJECTED","The order was not accepted. Check the details before making a new request."⟩
def gatewayUnavailable : Reply :=
  ⟨503,some "UNAVAILABLE","The request could not be confirmed. Check the same order reference."⟩

structure GatewayConditions where
  enabled : Bool
  policyMatches : Bool
  catalogueComplete : Bool
  hoursVerified : Bool
  isOpen : Bool
  deriving DecidableEq, Repr

/-- The checks of a submission under a key of which the owner has no record. -/
def submissionChecks (c : GatewayConditions) (confirmedAt now : Time) : Option Reply :=
  if ¬ c.enabled ∨ ¬ c.policyMatches then
    some ⟨503,some "ORDERING_DISABLED","New ChatGPT orders are paused."⟩
  else if now + 60000 < confirmedAt ∨ confirmedAt + 30*60000 < now then
    some ⟨409,some "REVIEW_EXPIRED","Please review and confirm this order again."⟩
  else if ¬ c.catalogueComplete then
    some ⟨409,some "CATALOGUE_CHANGED","The catalogue changed. No order was submitted."⟩
  else if ¬ c.hoursVerified ∨ ¬ c.isOpen then
    some ⟨409,some (if c.hoursVerified then "CLOSED" else "HOURS_UNVERIFIED"),
      "Speedy Sweeties is not confirmed open. No order was submitted."⟩
  else none

/-! ### Requests -/

/-- How far a request has come. -/
inductive GatewayStage where
  | answering (saved : RecordValue) (status : Nat)
  | checking (data : Submission)
  | reserving (data : Submission) (saved : RecordValue)
  | conflicted (data : Submission)
  | creating (data : Submission) (saved : RecordValue)
  | ordered (data : Submission) (saved : RecordValue) (order : Order)
  | committed (saved : RecordValue)
  | returned (saved : RecordValue) (controllerStatus : Nat)
  | threw (saved : RecordValue)
  | rejecting (saved : RecordValue)
  deriving DecidableEq, Repr

structure GatewayRequest where
  owner : String
  key : RequestKey
  stage : GatewayStage
  deriving DecidableEq, Repr

/-- A committed order, with who ordered it and what. -/
structure GatewayCommit where
  key : RequestKey
  orderId : OrderId
  owner : String
  data : Submission
  deriving DecidableEq, Repr

structure GatewayAnswer where
  owner : String
  key : RequestKey
  reply : GatewayReply
  deriving DecidableEq, Repr

/-- `commits` and `answers` record what has happened, newest first. -/
structure GatewaySystem where
  records : RequestKey → Option RecordValue
  orders : Table Order Order.id
  requests : RequestId → Option GatewayRequest
  commits : List GatewayCommit
  answers : List GatewayAnswer

/-- What a running request does next. -/
inductive GatewayStep where
  | check (conditions : GatewayConditions) (now : Time)
  | reserve
  | readConcurrent
  | controllerReturns (status : Nat)
  | controllerThrows
  | createOrder (id : OrderId) (input : NewOrder) (now : Time)
  | commit
  | readAfter
  | reject
  | answer
  | crash

inductive GatewayAction where
  | submit (request : RequestId) (owner : String) (data : Submission)
  | status (request : RequestId) (owner : String) (key : RequestKey)
  | advance (request : RequestId) (next : GatewayStep)
  | createOther (id : OrderId) (input : NewOrder) (now : Time)
  | operate (id : OrderId) (data : OrderData)
  | edit (id : OrderId) (existingOrder : Order) (details : OrderDetails)
  | erase (id : OrderId) (now retainUntil : Time)

namespace GatewaySystem
variable (T : GatewayService)

def sorted (data : Submission) : Submission :=
  { data with items := data.items.insertionSort fun a b => T.localeCompare a.productId b.productId ≠ .gt }

def submissionHash (data : Submission) : String := T.digest (sorted T data)

def initial : GatewaySystem := ⟨fun _ => none,.empty,fun _ => none,[],[]⟩

/-- The record of a key, where it is the owner's. -/
def read (s : GatewaySystem) (key : RequestKey) (owner : String) : Option RecordValue :=
  (s.records key).filter (·.owner = owner)

def await (s : GatewaySystem) (request : RequestId) (r : GatewayRequest) : GatewaySystem :=
  { s with requests := Function.update s.requests request (some r) }

def close (s : GatewaySystem) (request : RequestId) : GatewaySystem :=
  { s with requests := Function.update s.requests request none }

def reply (s : GatewaySystem) (request : RequestId) (owner : String) (key : RequestKey) (reply : GatewayReply) :
    GatewaySystem :=
  { s.close request with answers := ⟨owner,key,reply⟩::s.answers }

def store (s : GatewaySystem) (key : RequestKey) (saved : RecordValue) : GatewaySystem :=
  { s with records := Function.update s.records key (some saved) }

/-- A submission that meets a record of its owner. -/
def meet (s : GatewaySystem) (request : RequestId) (owner : String) (data : Submission) (message : String)
    (saved : RecordValue) : GatewaySystem :=
  if saved.hash ≠ submissionHash T data then
    s.reply request owner data.requestKey (.refused (detailsChanged message))
  else s.await request ⟨owner,data.requestKey,.answering saved 200⟩

def newRecord (owner : String) (data : Submission) (now : Time) : RecordValue :=
  ⟨owner,submissionHash T data,.pending,none,now,data.confirmation⟩

def submit (s : GatewaySystem) (request : RequestId) (owner : String) (data : Submission) : GatewaySystem :=
  match s.read data.requestKey owner with
  | some previous =>
    s.meet T request owner data "This reference belongs to different confirmed details." previous
  | none => s.await request ⟨owner,data.requestKey,.checking data⟩

def readAfter (s : GatewaySystem) (request : RequestId) (r : GatewayRequest) : Option GatewaySystem :=
  let after := (s.read r.key r.owner).filter (·.state = .complete)
  match r.stage with
  | .threw _ => match after with
    | some after => some (s.await request { r with stage := .answering after 200 })
    | none => some (s.reply request r.owner r.key (.refused (submissionUncertain
        "Receipt is unconfirmed. Check this same order reference; do not submit another.")))
  | .returned saved controllerStatus => match after with
    | some after => some (s.await request { r with stage := .answering after 201 })
    | none =>
      if 400 ≤ controllerStatus ∧ controllerStatus < 500 then
        some (s.await request { r with stage := .rejecting saved })
      else some (s.reply request r.owner r.key (.refused (submissionUncertain
        "Check this same order reference. Do not submit another.")))
  | _ => none

/-- The order and the completed record become visible together. -/
def commit (s : GatewaySystem) (request : RequestId) (r : GatewayRequest) (data : Submission) (saved : RecordValue)
    (order : Order) : GatewaySystem :=
  { (s.store r.key { saved with state := .complete, orderId := some order.id }).await request
      { r with stage := .committed saved } with
    orders := s.orders.put order
    commits := ⟨r.key,order.id,r.owner,data⟩::s.commits }

def advance (s : GatewaySystem) (request : RequestId) (r : GatewayRequest) : GatewayStep → Option GatewaySystem
  | .check conditions now => match r.stage with
    | .checking data =>
      match submissionChecks conditions data.confirmation.confirmedAt now with
      | some refusal => some (s.reply request r.owner r.key (.refused refusal))
      | none => some (s.await request { r with stage := .reserving data (newRecord T r.owner data now) })
    | _ => none
  | .reserve => match r.stage with
    | .reserving data saved =>
      if (s.records r.key).isSome then some (s.await request { r with stage := .conflicted data })
      else some ((s.store r.key saved).await request { r with stage := .creating data saved })
    | _ => none
  | .readConcurrent => match r.stage with
    | .conflicted data => match s.read r.key r.owner with
      | none => some (s.reply request r.owner r.key (.refused gatewayNotFound))
      | some concurrent => some (s.meet T request r.owner data "Order details changed." concurrent)
    | _ => none
  | .controllerReturns status => match r.stage with
    | .creating _ saved =>
      if 400 ≤ status then some (s.await request { r with stage := .returned saved status }) else none
    | .committed saved => some (s.await request { r with stage := .returned saved 201 })
    | _ => none
  | .controllerThrows => match r.stage with
    | .creating _ saved | .ordered _ saved _ | .committed saved =>
      some (s.await request { r with stage := .threw saved })
    | _ => none
  | .createOrder id input now => match r.stage with
    | .creating data saved =>
      if (s.records r.key).isNone then none
      else some (s.await request { r with stage := .ordered data saved (createdOrder id (gatewayOrder data input) now) })
    | _ => none
  | .commit => match r.stage with
    | .ordered data saved order =>
      if (s.orders.find order.id).isSome then none else some (s.commit request r data saved order)
    | _ => none
  | .readAfter => s.readAfter request r
  | .reject => match r.stage with
    | .rejecting saved =>
      some ((s.store r.key { saved with state := .rejected }).reply request r.owner r.key (.refused orderRejected))
    | _ => none
  | .answer => match r.stage with
    | .answering saved status =>
      match gatewayResult s.orders r.key saved with
      | none => some (s.reply request r.owner r.key (.refused gatewayUnavailable))
      | some result => some (s.reply request r.owner r.key (.result status result))
    | _ => none
  | .crash => some (s.close request)

def updateOrder (s : GatewaySystem) (id : OrderId) (f : Order → Order) : Option GatewaySystem :=
  match s.orders.find id with
  | none => none
  | some o => if o.privacyErasedAt = none then some { s with orders := s.orders.put (f o) } else none

def step (s : GatewaySystem) : GatewayAction → Option GatewaySystem
  | .submit request owner data => if (s.requests request).isSome then none else some (s.submit T request owner data)
  | .status request owner key =>
    if (s.requests request).isSome then none
    else match s.read key owner with
    | none => some (s.reply request owner key (.refused gatewayNotFound))
    | some saved => some (s.await request ⟨owner,key,.answering saved 200⟩)
  | .advance request next => (s.requests request).bind fun r => s.advance T request r next
  | .createOther id input now =>
    if (s.orders.find id).isSome then none else some { s with orders := s.orders.put (createdOrder id input now) }
  | .operate id data => s.updateOrder id data.apply
  | .edit id existingOrder details => s.updateOrder id (details.apply existingOrder)
  | .erase id now retainUntil =>
    if (s.orders.find id).all (·.orderStatus.final) then s.updateOrder id (eraseOrder now retainUntil) else none

abbrev Reachable : GatewaySystem → Prop := Transition.Reachable (step T) initial

end GatewaySystem
end SpeedySweeties
