import SpeedySweeties.Library.Calendar
import SpeedySweeties.Privacy.RecoveryState

/-! What a privacy request covers, and the checks that bind it to its customer: the
candidate scope, the retention decision, and the private intake grants of an
administrator. -/
namespace SpeedySweeties
open JsText

def phoneDigits (value : String) : String := String.ofList (value.toList.filter Char.isDigit)

def closedStatuses : List OrderStatus := [.delivered,.cancelled]

def cancellable (status : PrivacyStatus) : Bool := status ∈ [.submitted,.reviewing,.hold]

def requestUnavailable : PrivacyFailure := .privacy 404 "REQUEST_UNAVAILABLE"
def subjectUnavailable : PrivacyFailure := .privacy 409 "SUBJECT_UNAVAILABLE"
def intakeUnavailable : PrivacyFailure := .privacy 401 "INTAKE_UNAVAILABLE"
def ownershipReviewRequired : PrivacyFailure := .privacy 409 "INTAKE_OWNERSHIP_REVIEW_REQUIRED"
def verificationRequired : PrivacyFailure := .privacy 401 "VERIFICATION_REQUIRED"

variable {δ : Type} (S : PrivacyService δ)

def normalizedEmail (value : Option String) : String :=
  match value with
  | none => ""
  | some value => S.toLowerCase (trim value)

def e164Phone (value : String) : Except PrivacyFailure String :=
  let digits := phoneDigits value
  if digits.length = 10 then .ok ("+1" ++ digits)
  else if digits.length = 11 ∧ digits.toList.head? = some '1' then .ok ("+" ++ digits)
  else .error (.privacy 409 "MANUAL_REVIEW_REQUIRED")

structure CandidateScope where
  customer : Customer
  sourceOrder : Order
  orders : List OrderRows
  hash : String
  activeOrders : List OrderId
  unlinkedOrderIds : List OrderId
  conflictingLinkedOrderIds : List OrderId

def sourceIdentity (o : Order) : String × String × String :=
  (S.toLowerCase (trim o.customerName),phoneDigits o.phone,normalizedEmail S (some o.email))

def candidateScope (db : PrivacyDb) (subjectId : CustomerId) (sourceOrderId : OrderId) :
    Except PrivacyFailure CandidateScope := do
  let customer ← found (db.customers.find subjectId) subjectUnavailable
  let source ← found (db.other.orders.find sourceOrderId) (.privacy 409 "SOURCE_ORDER_UNAVAILABLE")
  let sourceOrder := source.order
  require (sourceOrder.customerId = some customer.id ∧ sourceOrder.privacyErasedAt = none)
    (.privacy 409 "SOURCE_ORDER_UNAVAILABLE")
  let orders := db.ordersOf customer.id
  let conflicting := (orders.filter fun o => o.id ≠ sourceOrder.id ∧
    sourceIdentity S o.order ≠ sourceIdentity S sourceOrder).map (·.id)
  let unlinked := (db.other.orders.rows.filter fun o => o.order.customerId = none ∧
    o.order.privacyErasedAt = none ∧ phoneDigits o.order.phone = phoneDigits sourceOrder.phone).map (·.id)
  pure {
    customer, sourceOrder, orders
    hash := S.scopeHash ⟨customer,sourceOrder,orders,unlinked,conflicting⟩
    activeOrders := (orders.filter fun o => o.order.orderStatus ∉ closedStatuses).map (·.id)
    unlinkedOrderIds := unlinked
    conflictingLinkedOrderIds := conflicting }

structure Preview extends CandidateScope where
  request : PrivacyDeletionRequest

def preview (db : PrivacyDb) (id : PrivacyRequestId) : Except PrivacyFailure Preview := do
  let r ← found (db.requests.find id) (.database "No PrivacyDeletionRequest found")
  let subjectId ← found r.subjectId subjectUnavailable
  let scope ← candidateScope S db subjectId r.sourceOrderId
  require (S.fingerprint scope.customer = r.contactFingerprint) (.privacy 409 "CONTACT_CHANGED_REVERIFY")
  pure { scope with request := r }

/-! ### The retention decision -/

/-- `retentionDecisionSchema.safeParse`, `none` where it does not succeed. -/
def parseDecision (raw : RetentionDecision) (now : Time) : Option RetentionDecision :=
  let decision := { raw with
    policyReference := trim raw.policyReference, justification := trim raw.justification }
  if 8 ≤ length decision.policyReference ∧ length decision.policyReference ≤ 200 ∧
      12 ≤ length decision.justification ∧ length decision.justification ≤ 600 ∧
      (Calendar.dateOnly decision.taxYearEnd).isSome ∧ now < decision.financialRetainUntil ∧
      decision.personalFields = [] ∧ decision.financialFields.length = retainedFinancialFields.length ∧
      decision.financialFields.Nodup ∧ decision.unlinkedRecordsReviewed ∧ decision.confirmed then
    some decision
  else none

def isMonthDay (text : String) : Bool :=
  match text.toList with
  | [a,b,'-',c,d] => [a,b,c,d].all Char.isDigit
  | _ => false

def invalidTaxYearEnd : PrivacyFailure := .privacy 400 "INVALID_TAX_YEAR_END"

def validateFinancialExpiry (orders : List OrderRows) (decision : RetentionDecision) :
    Except PrivacyFailure Unit := do
  require (isMonthDay S.fiscalYearEndMonthDay) (.privacy 503 "FISCAL_YEAR_END_REQUIRED")
  let taxYearEnd ← found ((Calendar.dateOnly decision.taxYearEnd).bind Calendar.endOfDay) invalidTaxYearEnd
  require (decision.taxYearEnd.toList.drop 5 = S.fiscalYearEndMonthDay.toList) invalidTaxYearEnd
  let latest : Int := (orders.foldl (fun value o => max value o.order.createdAt) 0 : Nat)
  let previousYearEnd := Calendar.setUTCFullYear taxYearEnd ((Calendar.civil taxYearEnd).year - 1)
  require (latest ≤ taxYearEnd ∧ previousYearEnd < latest) invalidTaxYearEnd
  let minimum := Calendar.setUTCFullYear taxYearEnd ((Calendar.civil taxYearEnd).year + 6)
  require (minimum ≤ decision.financialRetainUntil) (.privacy 400 "FINANCIAL_RETENTION_TOO_SHORT")

/-! ### Intake grants -/

structure Contact where
  channel : VerificationChannel
  destination : String

def destinationHash (channel : VerificationChannel) (destination : String) : String :=
  S.hash ("destination:" ++ (match channel with | .email => "EMAIL" | .phone => "PHONE") ++ ":" ++
    S.toLowerCase destination)

def contactFor (db : PrivacyDb) (customer : Customer) (sourceOrder : Order)
    (expected : Option VerificationChannel) : Except PrivacyFailure Contact :=
  let email := normalizedEmail S customer.normalizedEmail
  let emailEligible := email ≠ "" ∧ normalizedEmail S (some sourceOrder.email) = email ∧
    (db.customers.rows.filter (·.normalizedEmail = some email)).length = 1
  let phone := phoneDigits customer.normalizedPhone
  let phoneEligible := phone ≠ "" ∧ phoneDigits sourceOrder.phone = phone ∧
    (db.customers.rows.filter (·.normalizedPhone = phone)).length = 1
  if expected ≠ some .phone ∧ emailEligible then .ok ⟨.email,email⟩
  else if expected ≠ some .email ∧ phoneEligible then (e164Phone phone).map (Contact.mk .phone)
  else .error (.privacy 409 "MANUAL_REVIEW_REQUIRED")

def intakeGrantMs : Nat := 24*60*60*1000

def readIntakeGrant (grant : String) (now : Time) : Option IntakeClaims :=
  (S.decodeGrant grant).filter fun c =>
    c.expiresAt = c.issuedAt + intakeGrantMs ∧ c.issuedAt ≤ now ∧ now < c.expiresAt

def intakeClaims (grant : String) (now : Time) : Except PrivacyFailure IntakeClaims :=
  found (readIntakeGrant S grant now) intakeUnavailable

def intakeApprover (db : PrivacyDb) (userId : UserId) (authVersion : Nat) : Except PrivacyFailure StaffUser := do
  let user ← found (db.other.users userId) (.privacy 403 "PRIVACY_ADMIN_REQUIRED")
  require (S.adminUserIds = [userId] ∧ user.role = .admin ∧ user.isActive ∧ ¬ user.passwordChangeRequired ∧
    user.forceLogoutAt = none ∧ user.authVersion = authVersion) (.privacy 403 "PRIVACY_ADMIN_REQUIRED")
  pure user

def intakeScope (db : PrivacyDb) (subjectId : CustomerId) (sourceOrderId : OrderId) :
    Except PrivacyFailure CandidateScope := do
  let p ← candidateScope S db subjectId sourceOrderId
  let c := p.customer
  let o := p.sourceOrder
  let identities := (db.customers.rows.filter fun other => other.normalizedPhone = c.normalizedPhone ∨
    (c.normalizedEmail.any (· ≠ "") ∧ other.normalizedEmail = c.normalizedEmail)).length
  require (identities = 1 ∧ p.unlinkedOrderIds = [] ∧ p.conflictingLinkedOrderIds = [] ∧
    S.toLowerCase (trim o.customerName) = c.normalizedFullName ∧ phoneDigits o.phone = c.normalizedPhone ∧
    normalizedEmail S (some o.email) = normalizedEmail S c.normalizedEmail) ownershipReviewRequired
  pure p

def intakeHistoricalEmail (db : PrivacyDb) (p : CandidateScope) (priorId : ChallengeId) (receivedAt : Time) :
    Except PrivacyFailure String := do
  let contact ← contactFor S db p.customer p.sourceOrder (some .email)
  let old ← found (db.challenges.find priorId) ownershipReviewRequired
  require (old.purpose ≠ .adminIntake ∧ old.channel = some .email ∧ old.verifiedAt.any (· < receivedAt) ∧
    old.subjectId = some p.customer.id ∧ old.sourceOrderId = some p.sourceOrder.id ∧
    old.contactFingerprint = some (S.fingerprint p.customer) ∧
    old.destinationHash = some (destinationHash S .email contact.destination)) ownershipReviewRequired
  pure contact.destination

def intakeDestination (db : PrivacyDb) (subjectId : CustomerId) (destination : String) :
    Except PrivacyFailure Unit :=
  require (S.isEmail destination ∧ length destination ≤ 254 ∧
    db.customers.rows.all fun c => c.normalizedEmail ≠ some destination ∨ c.id = subjectId) intakeUnavailable

/-- An intake by a historical email is bound to that email. -/
def confirmIntakeMethod (db : PrivacyDb) (p : CandidateScope) (claims : IntakeClaims) :
    Except PrivacyFailure Unit :=
  match claims.method with
  | .priorPersonalRecognition => pure ()
  | .historicalVerifiedEmail priorId => do
    let email ← intakeHistoricalEmail S db p priorId claims.receivedAt
    require (destinationHash S .email email = claims.destinationHash) intakeUnavailable

def confirmIntakeDestination (db : PrivacyDb) (p : CandidateScope) (claims : IntakeClaims)
    (destination : Option String) : Except PrivacyFailure Unit :=
  match destination with
  | none => pure ()
  | some destination => do
    let email := normalizedEmail S (some destination)
    require (destinationHash S .email email = claims.destinationHash) intakeUnavailable
    intakeDestination S db p.customer.id email

structure IntakeBound extends CandidateScope where
  claims : IntakeClaims
  challenge : PrivacyChallenge

def intakeBound (db : PrivacyDb) (now : Time) (grant : String) (sent : Bool) (destination : Option String) :
    Except PrivacyFailure IntakeBound := do
  let claims ← intakeClaims S grant now
  let _ ← intakeApprover S db claims.actorId claims.authVersion
  let c ← found (db.challenges.find claims.id) intakeUnavailable
  let subjectId ← found c.subjectId intakeUnavailable
  let sourceOrderId ← found c.sourceOrderId intakeUnavailable
  require (c.purpose = .adminIntake ∧ c.channel = some .email ∧ c.accessId = none ∧ c.consumedAt = none ∧
    now < c.expiresAt ∧ c.contactFingerprint = some claims.fingerprint ∧
    c.destinationHash = some claims.destinationHash ∧ (sent → c.delivery = .sent)) intakeUnavailable
  let p ← intakeScope S db subjectId sourceOrderId
  require (p.hash = claims.scopeHash ∧ S.fingerprint p.customer = claims.fingerprint)
    (.privacy 409 "STALE_PREVIEW")
  confirmIntakeMethod S db p claims
  confirmIntakeDestination S db p claims destination
  pure { p with claims, challenge := c }

end SpeedySweeties
