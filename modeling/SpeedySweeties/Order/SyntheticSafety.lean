import SpeedySweeties.Loyalty.Service
import SpeedySweeties.Privacy.Reactivation

/-! `syntheticOrderSafety.service.ts`: the policy row and the decisions made on it. The
callers hold the policy lock where the source does; see `OrderingSystem`. -/
namespace SpeedySweeties
open JsText

/-- `none` for unit and buzz code where the body does not name them. -/
structure SyntheticProfile where
  customerName : String
  customerPhone : String
  customerEmail : String
  addressLine1 : String
  city : String
  province : String
  unitNumber : Option (Option String)
  buzzCode : Option (Option String)
  deriving DecidableEq, Repr

inductive SyntheticPolicyState where | active | closed deriving DecidableEq, Repr

structure ProfileFingerprints where
  profileHash : String
  phoneHash : String
  emailHash : String
  keyFingerprint : String
  deriving DecidableEq, Repr

/-- The columns of a policy that its enrolment fixes. -/
structure SyntheticTerms extends ProfileFingerprints where
  expiresAt : Time
  maxOrders : Nat
  maxEmails : Nat
  deriving DecidableEq, Repr

structure SyntheticPolicy extends SyntheticTerms where
  state : SyntheticPolicyState
  ordersCreated : Nat
  emailsClaimed : Nat
  customerId : Option CustomerId
  deriving DecidableEq, Repr

structure SyntheticService where
  digestKey : String
  hmac : String → String → String
  stringify : List String → String
  toLowerCase : String → String
  adminUserIds : List UserId

/-- The columns of a customer beside its identity. -/
structure CustomerColumns extends LoyaltyCustomer where
  fullName : String
  phone : String
  email : Option String
  addressLine1 : String
  unitNumber : Option String
  buzzCode : Option String
  city : String
  province : String
  smsMarketingOptOut : Bool
  deriving DecidableEq, Repr

structure EnrollmentInput where
  profile : SyntheticProfile
  ownerConfirmedSynthetic : Bool
  expiresAt : Option Time
  maxOrders : Option Nat
  maxEmails : Option Nat
  deriving DecidableEq, Repr

def syntheticStop (status : Nat) : Reply :=
  ⟨status,none,"Synthetic test safety is unavailable or the enrolled profile does not match. Stop and contact dispatch."⟩

def stopUnless (condition : Bool) (status : Nat) : Except Reply Unit :=
  if condition then .ok () else .error (syntheticStop status)

/-- `replace(/\s+/g, " ")`; `inSpace` after a replaced character. -/
def collapseSpaces (inSpace : Bool) : List Char → List Char
  | [] => []
  | c::text =>
    if isSpace c then if inSpace then collapseSpaces true text else ' '::collapseSpaces true text
    else c::collapseSpaces false text

/-- `/^(?:1)?[2-9]\d{9}$/`, on digits. -/
def syntheticPhone (digits : List Char) : Bool :=
  (nationalNumber digits).length = 10 && (nationalNumber digits).head?.any fun c => c ≠ '0' && c ≠ '1'

/-- `/^[^\s@]+@[^\s@]+\.[^\s@]+$/` -/
def syntheticEmail (text : List Char) : Bool :=
  let accepted := fun c => c ≠ '@' && !isSpace c
  text.takeWhile accepted ≠ [] && match text.dropWhile accepted with
    | '@'::domain => domain.all accepted && (domain.drop 1).dropLast.any (· = '.')
    | _ => false

/-- `/^[a-f0-9]{64}$/` -/
def hexDigest (text : String) : Bool :=
  text.toList.length = 64 && text.toList.all fun c => c.isDigit || c ∈ "abcdef".toList

/-- The digits of a phone without its country code. -/
def nationalPhone (phone : String) : String := String.ofList (nationalNumber (phoneDigits phone).toList)

variable (T : SyntheticService)

def syntheticText (v : String) : String := String.ofList (collapseSpaces false (T.toLowerCase (trim v)).toList)

def syntheticHash (value : String) : Except Reply String :=
  if length T.digestKey < 32 then .error (syntheticStop 503)
  else .ok (T.hmac T.digestKey ("synthetic-order-safety-v1:" ++ value))

def profileAccepted (p : SyntheticProfile) : Bool :=
  [p.customerName,p.customerPhone,p.customerEmail,p.addressLine1,p.city,p.province].all (fun x => length x ≤ 500) &&
    syntheticPhone (phoneDigits p.customerPhone).toList && syntheticEmail (syntheticText T p.customerEmail).toList &&
    syntheticText T p.customerName ≠ "" && syntheticText T p.addressLine1 ≠ "" &&
    syntheticText T p.city = "guelph" && (syntheticText T p.province = "ontario" || syntheticText T p.province = "on")

def profileFingerprints (p : SyntheticProfile) : Except Reply ProfileFingerprints := do
  stopUnless (profileAccepted T p) 409
  let optional := fun v : Option (Option String) => (v.join.map (syntheticText T)).getD ""
  let profileHash ← syntheticHash T (T.stringify [syntheticText T p.customerName,nationalPhone p.customerPhone,
    syntheticText T p.customerEmail,syntheticText T p.addressLine1,optional p.unitNumber,optional p.buzzCode,"guelph","on"])
  let phoneHash ← syntheticHash T ("phone:" ++ nationalPhone p.customerPhone)
  let emailHash ← syntheticHash T ("email:" ++ syntheticText T p.customerEmail)
  let keyFingerprint ← syntheticHash T "key-fingerprint"
  return { profileHash, phoneHash, emailHash, keyFingerprint }

/-- `parse`, on the policy that the value of the row encodes. -/
def parseSyntheticPolicy : Option SyntheticPolicy → Except Reply (Option SyntheticPolicy)
  | none => .ok none
  | some p => do
    stopUnless ([p.profileHash,p.phoneHash,p.emailHash,p.keyFingerprint].all hexDigest &&
      1 ≤ p.maxOrders && p.maxOrders ≤ 6 && p.ordersCreated ≤ p.maxOrders &&
      1 ≤ p.maxEmails && p.maxEmails ≤ 3 && p.emailsClaimed ≤ p.maxEmails) 503
    let current ← syntheticHash T "key-fingerprint"
    stopUnless (p.keyFingerprint = current) 503
    return some p

def classify (p : Option SyntheticPolicy) (profile : SyntheticProfile) (required : Bool) (now : Time) :
    Except Reply (Option SyntheticPolicy) :=
  match p with
  | none => if required then .error (syntheticStop 409) else .ok none
  | some p => do
    let phoneHash ← syntheticHash T ("phone:" ++ nationalPhone profile.customerPhone)
    let emailHash ← syntheticHash T ("email:" ++ syntheticText T profile.customerEmail)
    if p.phoneHash ≠ phoneHash ∧ p.emailHash ≠ emailHash then
      if required then .error (syntheticStop 409) else .ok none
    else do
      let f ← profileFingerprints T profile
      stopUnless (p.profileHash = f.profileHash && p.state = .active && now < p.expiresAt &&
        p.ordersCreated < p.maxOrders) 409
      return some p

/-- The customers `reserveSyntheticOrder` and the enrolment look for. -/
def syntheticMatches (db : PrivacyDb) (profile : SyntheticProfile) : List Customer :=
  db.customers.rows.filter fun c =>
    c.normalizedPhone = nationalPhone profile.customerPhone ||
    c.normalizedPhone = "1" ++ nationalPhone profile.customerPhone ||
    c.normalizedEmail = some (syntheticText T profile.customerEmail)

def CustomerColumns.profile (c : CustomerColumns) : SyntheticProfile where
  customerName := c.fullName
  customerPhone := c.phone
  customerEmail := c.email.getD ""
  addressLine1 := c.addressLine1
  city := c.city
  province := c.province
  unitNumber := some c.unitNumber
  buzzCode := some c.buzzCode

def syntheticOrder (o : Order) : Bool :=
  o.orderStatus = .cancelled && o.assignedDriverId = none &&
    o.cancellationReason = some syntheticCancellationReason && o.privacyErasedAt = none

def reserveSyntheticOrder (setting : Option SyntheticPolicy) (db : PrivacyDb) (columns : CustomerId → CustomerColumns)
    (profile : SyntheticProfile) (required : Bool) (now : Time) : Except Reply (Option SyntheticPolicy) := do
  let policy ← parseSyntheticPolicy T setting
  match ← classify T policy profile required now with
  | none => return none
  | some p =>
    let found := (syntheticMatches T db profile).take 2
    match p.customerId with
    | none =>
      stopUnless (found = []) 409
      return some p
    | some customerId =>
      stopUnless (found.map (·.id) = [customerId]) 409
      let c := columns customerId
      let stored ← profileFingerprints T c.profile
      stopUnless (stored.profileHash = p.profileHash && c.smsMarketingOptOut && c.loyaltyRewardBalance = 0 &&
        c.loyaltyRewardsEarned = 0 && c.loyaltyRewardsUsed = 0 && !c.loyaltyFreeDelivery && c.loyaltyCompletedOrders = 0) 409
      let orders := (db.other.orders.rows.filter fun r => r.order.customerId = some customerId).take (p.maxOrders + 1)
      stopUnless (orders.length = p.ordersCreated && orders.all fun r => syntheticOrder r.order) 409
      return some p

/-- The policy that `finishSyntheticOrder` writes. -/
def countSyntheticOrder (p : SyntheticPolicy) (customerId : CustomerId) : SyntheticPolicy :=
  { p with customerId := some customerId, ordersCreated := p.ordersCreated + 1 }

/-- The policy to claim from; `none` where the customer is not the policy's. -/
def claimSyntheticEmail (setting : Option SyntheticPolicy) (customerId : CustomerId) (channel : VerificationChannel)
    (destination : String) (now : Time) : Except Reply (Option SyntheticPolicy) := do
  match ← parseSyntheticPolicy T setting with
  | none => return none
  | some p =>
    if p.customerId ≠ some customerId then return none
    else do
      let emailHash ← syntheticHash T ("email:" ++ syntheticText T destination)
      stopUnless (p.state = .active && now < p.expiresAt && channel = .email && p.emailHash = emailHash &&
        p.emailsClaimed < p.maxEmails) 429
      return some p

def claimedEmail (p : SyntheticPolicy) : SyntheticPolicy := { p with emailsClaimed := p.emailsClaimed + 1 }

def assertOrdinaryOrderContact (setting : Option SyntheticPolicy) (profile : SyntheticProfile) (now : Time) :
    Except Reply Unit := do
  let policy ← parseSyntheticPolicy T setting
  let synthetic ← classify T policy profile false now
  stopUnless synthetic.isNone 409

def assertSyntheticOwner (actor : Option (UserId × UserRole)) : Except Reply Unit :=
  match actor with
  | some (userId,.admin) =>
    if T.adminUserIds = [userId] then .ok () else .error ⟨403,none,"Owner administrator required."⟩
  | _ => .error ⟨403,none,"Owner administrator required."⟩

/-- `enrollSyntheticProfile` up to its transaction: the policy it would store. -/
def requestEnrollment (actor : Option (UserId × UserRole)) (input : EnrollmentInput) (requestedAt : Time) :
    Except Reply SyntheticPolicy := do
  assertSyntheticOwner T actor
  stopUnless (input.ownerConfirmedSynthetic &&
    syntheticText T input.profile.customerEmail = "speedysweeties@hotmail.com") 409
  match input.expiresAt,input.maxOrders,input.maxEmails with
  | some expiresAt,some maxOrders,some maxEmails =>
    stopUnless (1 ≤ maxOrders && maxOrders ≤ 6 && 1 ≤ maxEmails && maxEmails ≤ 3 &&
      requestedAt < expiresAt && expiresAt ≤ requestedAt + 7*86400000) 409
    let f ← profileFingerprints T input.profile
    return { f with expiresAt, maxOrders, maxEmails, state := .active, ordersCreated := 0, emailsClaimed := 0
                    customerId := none }
  | _,_,_ => .error (syntheticStop 409)

def enrollSyntheticProfile (setting : Option SyntheticPolicy) (db : PrivacyDb) (profile : SyntheticProfile)
    (p : SyntheticPolicy) (now : Time) : Except Reply SyntheticPolicy := do
  let policy ← parseSyntheticPolicy T setting
  stopUnless policy.isNone 409
  stopUnless (now < p.expiresAt) 409
  stopUnless (syntheticMatches T db profile = []) 409
  return p

def closeSyntheticProfile (setting : Option SyntheticPolicy) (actor : Option (UserId × UserRole)) :
    Except Reply SyntheticPolicy := do
  assertSyntheticOwner T actor
  match ← parseSyntheticPolicy T setting with
  | none => .error (syntheticStop 409)
  | some p => return { p with state := .closed }

end SpeedySweeties
