import Mathlib.Data.List.Sort
import SpeedySweeties.Library.Table
import SpeedySweeties.Library.Transition
import SpeedySweeties.Schema

/-! Retention SMS: campaign runs, opt-outs and delivery callbacks over one database. The
setting of a phone is read and written under its row lock; a message is claimed in the same
transaction, sent outside of it and never retried. Every worker may crash at any point, and
each brings its own clock reading. -/
namespace SpeedySweeties
namespace Retention

def dayMs : Nat := 86400000

def normalizeRetentionPhone (value : String) : Option String :=
  let digits := value.toList.filter Char.isDigit
  if digits.length = 10 then some ("+1" ++ String.ofList digits)
  else if digits.length = 11 ∧ digits.head? = some '1' then some ("+" ++ String.ofList digits)
  else none

inductive SmsMode where | dryRun | test | live deriving DecidableEq, Repr

structure SmsConfig where
  mode : SmsMode
  startAt : Nat
  limit : Nat
  allowlist : List String
  body : String
  deriving DecidableEq, Repr

/-- What all workers share: the keyed hash with its secret, and the hour in Toronto. -/
structure Deployment where
  hmac : String → String → String
  suppressionKey : String
  torontoHour : Nat → Nat

def recipientKey (D : Deployment) (phone : String) : String := "retention-sms:" ++ D.hmac D.suppressionKey phone

def inRetentionWindow (D : Deployment) (now : Nat) : Bool := 10 ≤ D.torontoHour now && D.torontoHour now < 20

structure DeliveredOrder where
  createdAt : Nat
  deliveredAt : Option Nat
  deriving DecidableEq, Repr

structure RetentionCustomer where
  id : CustomerId
  phone : String
  normalizedPhone : String
  smsMarketingOptOut : Bool
  smsMarketingOptOutAt : Option Nat
  smsExpressConsentAt : Option Nat
  orders : List DeliveredOrder
  deriving DecidableEq, Repr

def eligibleRetentionCustomer (customer : RetentionCustomer) (anchor : Nat) (phone : String) (now : Nat) : Bool :=
  (customer.orders.map fun o => o.deliveredAt.getD o.createdAt).max?.any fun last =>
    !customer.smsMarketingOptOut && normalizeRetentionPhone customer.phone = some phone && last = anchor &&
      last + 90*dayMs ≤ now && (customer.smsExpressConsentAt.isSome || now ≤ last + 730*dayMs)

structure RecipientState where
  optedOut : Bool := false
  lastAttemptAt : Option Nat := none
  deriving DecidableEq, Repr

inductive RetentionMessageStatus where | dryRun | sent | failed deriving DecidableEq, Repr

structure RetentionMessage where
  id : String
  customerId : CustomerId
  inactivityAnchorAt : Nat
  eligibleAt : Nat
  phone : String
  messageBody : String
  status : RetentionMessageStatus := .dryRun
  provider : Option String := none
  providerMessageId : Option String := none
  providerStatus : Option String := none
  attemptedAt : Option Nat := none
  errorMessage : Option String := none
  sentAt : Option Nat := none
  deriving DecidableEq, Repr

abbrev RetentionMessages := Table RetentionMessage RetentionMessage.id

/-! ### The campaign -/

def unattempted (m : RetentionMessage) : Bool := m.status = .dryRun && m.attemptedAt.isNone

def findMessages (messages : RetentionMessages) (config : SmsConfig) (now : Nat) : List RetentionMessage :=
  ((messages.rows.filter fun m => unattempted m && config.startAt ≤ m.eligibleAt && m.eligibleAt ≤ now &&
      (config.mode ≠ .test || m.phone ∈ config.allowlist)).insertionSort fun a b =>
    a.eligibleAt < b.eligibleAt ∨ a.eligibleAt = b.eligibleAt ∧ a.id ≤ b.id).take config.limit

/-- A message of the list, with its phone as normalized. -/
structure Target where
  message : RetentionMessage
  phone : String
  deriving DecidableEq, Repr

/-- Both spellings under which a profile may store the phone. -/
def profilePhones (phone : String) : List String :=
  [String.ofList (phone.toList.drop 1),String.ofList (phone.toList.drop 2)]

def orderedSince (anchor : Nat) (o : DeliveredOrder) : Bool :=
  match o.deliveredAt with
  | some at_ => anchor < at_
  | none => anchor < o.createdAt

/-- Why the claim of a message is skipped, if it is. -/
def skipReason (customers : List RetentionCustomer) (privacyPending : List CustomerId) (t : Target) (state : RecipientState)
    (now : Nat) : Option String :=
  let profiles := customers.filter fun c => c.normalizedPhone ∈ profilePhones t.phone
  if state.optedOut then some "OPTED_OUT"
  else if state.lastAttemptAt.any fun at_ => now < at_ + 90*dayMs then some "PHONE_ALREADY_ATTEMPTED"
  else if profiles.any (·.smsMarketingOptOut) || t.message.customerId ∈ privacyPending ||
      profiles.any (fun c => c.orders.any (orderedSince t.message.inactivityAnchorAt)) ||
      !(customers.find? (·.id = t.message.customerId)).any fun c =>
        eligibleRetentionCustomer c t.message.inactivityAnchorAt t.phone now then some "NO_LONGER_ELIGIBLE"
  else none

def skipped (m : RetentionMessage) (reason : String) : RetentionMessage :=
  { m with status := .failed, providerStatus := some "suppressed", errorMessage := some reason }

def claimed (m : RetentionMessage) (body : String) (now : Nat) : RetentionMessage :=
  { m with
    status := .failed, attemptedAt := some now, provider := some "TWILIO", providerStatus := some "sending"
    errorMessage := some "SEND_IN_PROGRESS", messageBody := body }

def suppressedBeforeSend (m : RetentionMessage) : RetentionMessage :=
  { m with providerStatus := some "suppressed", errorMessage := some "OPTED_OUT_BEFORE_SEND" }

/-- The parsed answer of the message API; `code` where it is an integer. -/
structure TwilioResponse where
  status : Nat
  sid : Option String
  messageStatus : Option String
  code : Option Int
  deriving DecidableEq, Repr

structure Outcome where
  sid : Option String
  status : String
  error : Option String
  deriving DecidableEq, Repr

def isHex (c : Char) : Bool := c.isDigit || ( 'a' ≤ c && c ≤ 'f') || ( 'A' ≤ c && c ≤ 'F')

def validSid (sid : String) : Bool :=
  match sid.toList with
  | s::m::hex => (s = 'S' || s = 's') && (m = 'M' || m = 'm') && hex.length = 32 && hex.all isHex
  | _ => false

def acceptedStatuses : List String := ["accepted","queued","sending","sent"]

/-- What the sender makes of the answer; without one the outcome is unknown. -/
def outcomeOf : Option TwilioResponse → Outcome
  | none => ⟨none,"unknown",some "SEND_OUTCOME_UNKNOWN"⟩
  | some r =>
    match r.sid, r.messageStatus with
    | some sid, some status =>
      if 200 ≤ r.status ∧ r.status < 300 ∧ validSid sid ∧ status ∈ acceptedStatuses then ⟨some sid,status,none⟩ else refused r
    | _, _ => refused r
where
  refused (r : TwilioResponse) : Outcome :=
    if 400 ≤ r.status ∧ r.status < 500 then
      ⟨none,"rejected",some ("TWILIO_REJECTED_" ++ toString r.status ++ "_" ++ (r.code.elim "UNKNOWN" toString))⟩
    else ⟨none,"unknown",some "SEND_OUTCOME_UNKNOWN"⟩

/-- The number has opted out at the provider. -/
def unsubscribed (response : Option TwilioResponse) : Bool :=
  response.any fun r => (outcomeOf response).status = "rejected" && r.code = some 21610

def concluded (m : RetentionMessage) (outcome : Outcome) (now : Nat) : RetentionMessage :=
  { m with
    status := if outcome.sid.isSome then .sent else .failed
    providerMessageId := outcome.sid <|> m.providerMessageId
    providerStatus := some outcome.status
    sentAt := if outcome.sid.isSome then some now else none
    errorMessage := outcome.error }

/-! ### Delivery callbacks -/

def deliveryRanks : List (String × Nat) :=
  [("accepted",1),("queued",2),("sending",3),("sent",4),("delivered",5),("undelivered",5),("failed",5),("canceled",5)]

def deliveryRank (status : String) : Option Nat := deliveryRanks.lookup status

structure CallbackParams where
  messageStatus : String
  messageSid : String
  errorCode : String
  deriving DecidableEq, Repr

/-- The row shows a status of the provider of at least this rank. -/
def covers (row : RetentionMessage) (status : String) : Bool :=
  row.providerMessageId.isSome && (deliveryRank (row.providerStatus.getD "")).any fun stored => (deliveryRank status).any (· ≤ stored)

/-- Whether the handler goes on to write, from the record it has read. -/
def takesCallback (record : RetentionMessage) (params : CallbackParams) : Bool :=
  record.attemptedAt.isSome && record.provider = some "TWILIO" && record.providerMessageId.all (· = params.messageSid) &&
    !covers record params.messageStatus && !(record.providerStatus.getD "" ∈ ["suppressed","rejected"])

def failedDelivery (status : String) : Bool := status ∈ ["undelivered","failed","canceled"]

def errorCode (code : String) : String :=
  if code ≠ "" ∧ code.toList.all Char.isDigit then code else "UNKNOWN"

def delivered (row record : RetentionMessage) (params : CallbackParams) (now : Nat) : RetentionMessage :=
  { row with
    providerMessageId := some params.messageSid
    providerStatus := some params.messageStatus
    status := if failedDelivery params.messageStatus then .failed else .sent
    sentAt := some (record.sentAt.getD now)
    errorMessage :=
      if failedDelivery params.messageStatus then
        some ("TWILIO_DELIVERY_" ++ params.messageStatus ++ "_" ++ errorCode params.errorCode)
      else none }

end Retention
end SpeedySweeties
