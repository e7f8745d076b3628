import SpeedySweeties.Order.SyntheticSafety

/-! The verification challenges of the privacy service: what each of their
transactions reads, checks and writes. A code is handed to the transport between two
transactions, and judged between two others. -/
namespace SpeedySweeties
open JsText

structure ChallengeCredential where
  trackingToken : Option String
  loyaltyToken : Option String
  accessToken : Option String
  intakeGrant : Option String
  destination : Option String
  deriving DecidableEq, Repr

structure IntakeActor where
  userId : UserId
  authVersion : Nat
  deriving DecidableEq, Repr

/-- What `intakeIssueSchema` leaves of an issue it accepts; its confirmations are literals. -/
structure IntakeIssue where
  subjectId : CustomerId
  sourceOrderId : OrderId
  scopeHash : String
  receivedAt : Time
  destination : String
  privateReviewReference : String
  evidence : IntakeMethod
  deriving DecidableEq, Repr

/-- `loyaltySubject` is `verifyCustomerLoyaltyToken`, `reviewHash` the keyed hash of a
canonical issue and `signGrant` is `signIntakeGrant`. -/
structure ChallengeService (δ : Type) extends PrivacyService δ where
  synthetic : SyntheticService
  loyaltySubject : String → Option CustomerId
  reviewHash : IntakeIssue → String
  signGrant : IntakeClaims → String

inductive ChallengeFailure where
  | privacy (failure : PrivacyFailure)
  | synthetic (reply : Reply)
  deriving DecidableEq, Repr

abbrev Challenges := Table PrivacyChallenge fun c => c.id
abbrev AccessCredentials := Table PrivacyAccessCredential fun a => a.id

structure ChallengeTables where
  db : PrivacyDb
  setting : Option SyntheticPolicy

def hourMs : Nat := 3600000
def codeMs : Nat := 10*60000

def invalidRequest : PrivacyFailure := .privacy 400 "INVALID_REQUEST"
def invalidCode : PrivacyFailure := .privacy 400 "INVALID_OR_EXPIRED_CODE"
def tryLater : PrivacyFailure := .privacy 429 "TRY_LATER"
def alreadyRedeemed : PrivacyFailure := .privacy 409 "INTAKE_ALREADY_REDEEMED"
def deliveryUnavailable : PrivacyFailure := .privacy 503 "VERIFICATION_DELIVERY_UNAVAILABLE"
def uniqueViolation : PrivacyFailure := .database "Unique constraint failed"

/-- A value that JavaScript takes for true. -/
def supplied (value : Option String) : Option String := value.filter (· ≠ "")

def PrivacyDb.setChallenge (db : PrivacyDb) (c : PrivacyChallenge) : PrivacyDb :=
  { db with challenges := db.challenges.put c }

def PrivacyDb.setAccess (db : PrivacyDb) (a : PrivacyAccessCredential) : PrivacyDb :=
  { db with access := db.access.put a }

def PrivacyDb.insertChallenge (db : PrivacyDb) (c : PrivacyChallenge) : Except PrivacyFailure PrivacyDb := do
  require (db.challenges.find c.id = none) uniqueViolation
  pure (db.setChallenge c)

variable {δ : Type} (S : ChallengeService δ)

def codeHash (id : ChallengeId) (code : String) : String := S.hash (id ++ ":" ++ code)

/-- The challenges of the last hour for a destination or from a requester. -/
def recentChallenges (db : PrivacyDb) (now : Time) (phoneHash requesterHash : String)
    (except : Option ChallengeId) : Nat :=
  db.challenges.rows.countP fun c => some c.id ≠ except ∧ now - hourMs ≤ c.createdAt ∧
    (c.phoneHash = phoneHash ∨ c.requesterHash = requesterHash)

/-- The policy after `claimSyntheticEmail`. -/
def claimEmail (setting : Option SyntheticPolicy) (customerId : CustomerId) (contact : Contact) (now : Time) :
    Except ChallengeFailure (Option SyntheticPolicy) :=
  ((claimSyntheticEmail S.synthetic setting customerId contact.channel contact.destination now).map
    fun claimed => (claimed.map claimedEmail).or setting).mapError .synthetic

/-! ### An ordinary challenge -/

structure Bootstrap where
  customer : Customer
  sourceOrder : Order
  contact : Contact
  accessId : Option String
  purpose : ChallengePurpose

def bootstrapAccess (db : PrivacyDb) (now : Time) (token : String) :
    Except PrivacyFailure (PrivacyDb × Bootstrap) := do
  let access ← found (db.access.rows.find? (·.tokenHash = S.digest token)) verificationRequired
  require (access.revokedAt = none) verificationRequired
  let customer ← found (db.customers.find access.customerId) verificationRequired
  let source ← found (db.other.orders.find access.sourceOrderId) verificationRequired
  require (source.order.customerId = some customer.id ∧ source.order.privacyErasedAt = none) verificationRequired
  let contact ← contactFor S.toPrivacyService db customer source.order (some access.channel)
  require (destinationHash S.toPrivacyService contact.channel contact.destination = access.destinationHash)
    verificationRequired
  pure (db.setAccess { access with lastUsedAt := now },
    ⟨customer,source.order,contact,some access.id,.delete⟩)

def bootstrapTracking (db : PrivacyDb) (now : Time) (token : String) :
    Except PrivacyFailure (PrivacyDb × Bootstrap) := do
  let source ← found (db.other.orders.rows.find? (·.order.trackingTokenHash = some (S.digest token)))
    verificationRequired
  let sourceOrder := source.order
  let customerId ← found sourceOrder.customerId verificationRequired
  require (sourceOrder.privacyErasedAt = none ∧ sourceOrder.trackingTokenExpiresAt.any (now < ·)) verificationRequired
  let customer ← found (db.customers.find customerId) verificationRequired
  let contact ← contactFor S.toPrivacyService db customer sourceOrder none
  pure (db,⟨customer,sourceOrder,contact,none,.enrollDelete⟩)

/-- The newest order of the customer that has not been erased. -/
def newestOrder (db : PrivacyDb) (customer : CustomerId) : Option Order :=
  ((db.other.orders.rows.map (·.order)).filter fun o => o.customerId = some customer ∧ o.privacyErasedAt = none)
    |>.insertionSort (fun a b => b.createdAt < a.createdAt ∨ a.createdAt = b.createdAt ∧ b.id ≤ a.id)
    |>.head?

def bootstrapLoyalty (db : PrivacyDb) (token : String) : Except PrivacyFailure (PrivacyDb × Bootstrap) := do
  let subject ← found (S.loyaltySubject token) verificationRequired
  let customer ← found (db.customers.find subject) verificationRequired
  let sourceOrder ← found (newestOrder db customer.id) verificationRequired
  let contact ← contactFor S.toPrivacyService db customer sourceOrder none
  pure (db,⟨customer,sourceOrder,contact,none,.enrollDelete⟩)

def bootstrap (db : PrivacyDb) (now : Time) (credential : ChallengeCredential) :
    Except PrivacyFailure (PrivacyDb × Bootstrap) :=
  match supplied credential.trackingToken, supplied credential.loyaltyToken, supplied credential.accessToken with
  | none, none, some token => bootstrapAccess S db now token
  | some token, none, none => bootstrapTracking S db now token
  | none, some token, none => bootstrapLoyalty S db token
  | _, _, _ => .error invalidRequest

/-- A committed challenge whose code has not reached the customer yet. -/
structure ChallengeReservation where
  id : ChallengeId
  code : String
  contact : Contact
  subjectId : CustomerId
  grant : Option String

def newChallenge (now : Time) (id code requesterHash : String) (b : Bootstrap) : PrivacyChallenge where
  id := id
  subjectId := some b.customer.id
  sourceOrderId := some b.sourceOrder.id
  accessId := b.accessId
  purpose := b.purpose
  channel := some b.contact.channel
  destinationHash := some (destinationHash S.toPrivacyService b.contact.channel b.contact.destination)
  providerReference := none
  completionTimeframe := some (trim S.completionTimeframe)
  contactFingerprint := some (S.fingerprint b.customer)
  phoneHash := destinationHash S.toPrivacyService b.contact.channel b.contact.destination
  requesterHash := requesterHash
  codeHash := codeHash S id code
  delivery := .unavailable
  attempts := 0
  verifiedAt := none
  consumedAt := none
  expiresAt := now + codeMs
  createdAt := now

/-- The first transaction of `challenge` for an ordinary credential. -/
def reserveChallenge (t : ChallengeTables) (now : Time) (credential : ChallengeCredential)
    (requester id code : String) : Except ChallengeFailure (ChallengeTables × ChallengeReservation) := do
  let requesterHash := S.hash ("ip:" ++ requester)
  (require (supplied credential.destination = none) invalidRequest).mapError .privacy
  let (db,b) ← (bootstrap S t.db now credential).mapError .privacy
  let contactHash := destinationHash S.toPrivacyService b.contact.channel b.contact.destination
  (require (recentChallenges db now contactHash requesterHash none < 5) tryLater).mapError .privacy
  let setting ← claimEmail S t.setting b.customer.id b.contact now
  let db ← (db.insertChallenge (newChallenge S now id code requesterHash b)).mapError .privacy
  pure (⟨db,setting⟩,⟨id,code,b.contact,b.customer.id,none⟩)

/-- Only the newest challenge of a customer stays usable. -/
def supersede (keep : ChallengeId) (subject : CustomerId) (now : Time) (c : PrivacyChallenge) : PrivacyChallenge :=
  if c.subjectId = some subject ∧ c.id ≠ keep ∧ c.consumedAt = none then
    { c with consumedAt := some now, codeHash := "superseded" }
  else c

theorem supersedeId (keep : ChallengeId) (subject : CustomerId) (now : Time) (c : PrivacyChallenge) :
    (supersede keep subject now c).id = c.id := by
  unfold supersede
  split <;> rfl

def markSent (reference : Option String) (c : PrivacyChallenge) : PrivacyChallenge :=
  { c with delivery := .sent, providerReference := reference <|> c.providerReference }

/-- The second transaction of `challenge` for an ordinary credential. -/
def confirmDelivery (db : PrivacyDb) (now : Time) (r : ChallengeReservation) (reference : Option String) :
    Except PrivacyFailure PrivacyDb := do
  let current ← found (db.challenges.find r.id) deliveryUnavailable
  require (current.consumedAt = none) deliveryUnavailable
  pure { db with
    challenges := (db.challenges.update (supersede r.id r.subjectId now) (supersedeId r.id r.subjectId now)).put
      (markSent reference current) }

/-! ### An intake challenge -/

def intakeClaimsOf (now : Time) (id : ChallengeId) (actor : IntakeActor) (p : CandidateScope)
    (input : IntakeIssue) (destination : String) : IntakeClaims where
  id := id
  actorId := actor.userId
  authVersion := actor.authVersion
  scopeHash := p.hash
  destinationHash := destination
  fingerprint := S.fingerprint p.customer
  reviewHash := S.reviewHash { input with
    privateReviewReference := S.hash ("intake-private-reference:" ++ input.privateReviewReference)
    destination := destination }
  receivedAt := input.receivedAt
  method := input.evidence
  issuedAt := now
  expiresAt := now + intakeGrantMs

def intakeChallenge (now : Time) (requesterHash : String) (p : CandidateScope) (claims : IntakeClaims) :
    PrivacyChallenge where
  id := claims.id
  subjectId := some p.customer.id
  sourceOrderId := some p.sourceOrder.id
  accessId := none
  purpose := .adminIntake
  channel := some .email
  destinationHash := some claims.destinationHash
  providerReference := none
  completionTimeframe := some (trim S.completionTimeframe)
  contactFingerprint := some claims.fingerprint
  phoneHash := claims.destinationHash
  requesterHash := requesterHash
  codeHash := "unissued"
  delivery := .intakeReady
  attempts := 0
  verifiedAt := none
  consumedAt := none
  expiresAt := claims.expiresAt
  createdAt := now

def supersedeIntake (subject : CustomerId) (now : Time) (c : PrivacyChallenge) : PrivacyChallenge :=
  if c.subjectId = some subject ∧ c.purpose = .adminIntake ∧ c.consumedAt = none then
    { c with consumedAt := some now, codeHash := "superseded" }
  else c

theorem supersedeIntakeId (subject : CustomerId) (now : Time) (c : PrivacyChallenge) :
    (supersedeIntake subject now c).id = c.id := by
  unfold supersedeIntake
  split <;> rfl

/-- `assertNotSyntheticIntake` -/
def assertNotSyntheticIntake (setting : Option SyntheticPolicy) (subjectId : CustomerId) : Except Reply Unit := do
  let p ← parseSyntheticPolicy S.synthetic setting
  stopUnless (p.all fun p => p.customerId ≠ some subjectId) 409

/-- An intake by a historical email is sent to that email. -/
def confirmIssueMethod (db : PrivacyDb) (p : CandidateScope) (input : IntakeIssue) (destination : String) :
    Except PrivacyFailure Unit :=
  match input.evidence with
  | .priorPersonalRecognition => pure ()
  | .historicalVerifiedEmail priorId => do
    let email ← intakeHistoricalEmail S.toPrivacyService db p priorId input.receivedAt
    require (destination = email) ownershipReviewRequired

def issueIntake (t : ChallengeTables) (now : Time) (input : IntakeIssue) (actor : IntakeActor) (id : ChallengeId) :
    Except ChallengeFailure (PrivacyDb × String) := do
  let db := t.db
  (require (input.receivedAt ≤ now) (.privacy 400 "INTAKE_EVIDENCE_REQUIRED")).mapError .privacy
  let _ ← (intakeApprover S.toPrivacyService db actor.userId actor.authVersion).mapError .privacy
  (assertNotSyntheticIntake S t.setting input.subjectId).mapError .synthetic
  let p ← (intakeScope S.toPrivacyService db input.subjectId input.sourceOrderId).mapError .privacy
  (require (p.hash = input.scopeHash) (.privacy 409 "STALE_PREVIEW")).mapError .privacy
  let destination := normalizedEmail S.toPrivacyService (some input.destination)
  (confirmIssueMethod S db p input destination).mapError .privacy
  (intakeDestination S.toPrivacyService db p.customer.id destination).mapError .privacy
  let contactHash := destinationHash S.toPrivacyService .email destination
  let requesterHash := S.hash ("intake-admin:" ++ actor.userId)
  (require (recentChallenges db now contactHash requesterHash none < 5) tryLater).mapError .privacy
  let claims := intakeClaimsOf S now id actor p input contactHash
  let db := { db with
    challenges := db.challenges.update (supersedeIntake p.customer.id now) (supersedeIntakeId p.customer.id now) }
  let db ← (db.insertChallenge (intakeChallenge S now requesterHash p claims)).mapError .privacy
  pure (db,S.signGrant claims)

def reserveIntake (now : Time) (requesterHash code : String) (c : PrivacyChallenge) : PrivacyChallenge :=
  { c with
    delivery := .pending, requesterHash := requesterHash, codeHash := codeHash S c.id code
    expiresAt := now + codeMs }

/-- The first transaction of `redeemIntake`. -/
def redeemIntake (t : ChallengeTables) (now : Time) (grant rawDestination requester code : String) :
    Except ChallengeFailure (ChallengeTables × ChallengeReservation) := do
  let destination := normalizedEmail S.toPrivacyService (some rawDestination)
  let bound ← (intakeBound S.toPrivacyService t.db now grant false (some destination)).mapError .privacy
  let c := bound.challenge
  let setting ← claimEmail S t.setting bound.customer.id ⟨.email,destination⟩ now
  (require (c.delivery = .intakeReady) alreadyRedeemed).mapError .privacy
  let requesterHash := S.hash ("ip:" ++ requester)
  (require (recentChallenges t.db now c.phoneHash requesterHash (some c.id) < 5) tryLater).mapError .privacy
  pure (⟨t.db.setChallenge (reserveIntake S now requesterHash code c),setting⟩,
    ⟨c.id,code,⟨.email,destination⟩,bound.customer.id,some grant⟩)

/-- `challenge` up to its first commit. -/
def startChallenge (t : ChallengeTables) (now : Time) (credential : ChallengeCredential)
    (requester id code : String) : Except ChallengeFailure (ChallengeTables × ChallengeReservation) :=
  match supplied credential.intakeGrant with
  | some grant => do
    (require (supplied credential.accessToken = none ∧ supplied credential.trackingToken = none ∧
      supplied credential.loyaltyToken = none) invalidRequest).mapError .privacy
    redeemIntake S t now grant (credential.destination.getD "") requester code
  | none => reserveChallenge S t now credential requester id code

/-- The second transaction of `redeemIntake`. -/
def confirmRedemption (db : PrivacyDb) (now : Time) (r : ChallengeReservation) (grant : String) (reference : Option String) :
    Except PrivacyFailure PrivacyDb := do
  let bound ← intakeBound S.toPrivacyService db now grant false (some r.contact.destination)
  require (bound.challenge.delivery = .pending) alreadyRedeemed
  let current ← found (db.challenges.find r.id) (.database "No record was found for an update")
  pure (db.setChallenge (markSent reference current))

def confirmReservation (db : PrivacyDb) (now : Time) (r : ChallengeReservation) (reference : Option String) :
    Except PrivacyFailure PrivacyDb :=
  match r.grant with
  | some grant => confirmRedemption S db now r grant reference
  | none => confirmDelivery db now r reference

/-! ### Verification -/

inductive VerifyMode where
  | ordinary (accessToken : Option String) (contact : Contact)
  | intake (grant destination : String)

/-- A verification whose attempt is counted, with the challenge as it was before. -/
structure Verification where
  challenge : PrivacyChallenge
  code : String
  mode : VerifyMode

def countAttempt (c : PrivacyChallenge) : PrivacyChallenge := { c with attempts := c.attempts + 1 }

def verifiable (now : Time) (c : PrivacyChallenge) : Bool :=
  c.purpose ≠ .adminIntake ∧ now < c.expiresAt ∧ c.consumedAt = none ∧ c.attempts < 5 ∧ c.delivery = .sent ∧
    c.subjectId.isSome ∧ c.sourceOrderId.isSome ∧ c.channel.isSome ∧ c.destinationHash.isSome

def boundTo (c : PrivacyChallenge) (customer : Customer) (sourceOrder : Order) : Bool :=
  sourceOrder.customerId = some customer.id ∧ sourceOrder.privacyErasedAt = none ∧
    c.contactFingerprint = some (S.fingerprint customer)

/-- The token of the credential of the challenge, or a new token to enrol. -/
def presentsAccess (db : PrivacyDb) (c : PrivacyChallenge) (customer : Customer) (accessToken : Option String) : Bool :=
  match c.accessId with
  | some accessId => (supplied accessToken).any fun token =>
      (db.access.rows.find? (·.tokenHash = S.digest token)).any fun a =>
        a.id = accessId ∧ a.customerId = customer.id ∧ a.revokedAt = none
  | none => (supplied accessToken).any hexDigest

/-- The contact to verify, where the challenge still belongs to its customer. -/
def verifiedContact (db : PrivacyDb) (c : PrivacyChallenge) (accessToken : Option String) :
    Except PrivacyFailure (Option Contact) :=
  match c.subjectId.bind db.customers.find, (c.sourceOrderId.bind db.other.orders.find).map (·.order) with
  | some customer, some sourceOrder =>
    if boundTo S c customer sourceOrder then do
      let contact ← contactFor S.toPrivacyService db customer sourceOrder c.channel
      if some (destinationHash S.toPrivacyService contact.channel contact.destination) = c.destinationHash ∧
          presentsAccess S db c customer accessToken then pure (some contact)
      else pure none
    else pure none
  | _, _ => pure none

/-- The first transaction of `verify`. A refused attempt is still counted. -/
def prepareVerification (db : PrivacyDb) (now : Time) (id : ChallengeId) (code : String)
    (accessToken : Option String) : Except PrivacyFailure (PrivacyDb × Option Verification) :=
  match db.challenges.find id with
  | none => pure (db,none)
  | some c =>
    if verifiable now c then do
      let contact ← verifiedContact S db c accessToken
      pure (db.setChallenge (countAttempt c),contact.map fun contact => ⟨c,code,.ordinary accessToken contact⟩)
    else pure (db,none)

/-- The first transaction of `verifyIntake`. -/
def prepareIntake (db : PrivacyDb) (now : Time) (id : ChallengeId) (code grant destination : String) :
    Except PrivacyFailure (PrivacyDb × Option Verification) := do
  let bound ← intakeBound S.toPrivacyService db now grant true (some destination)
  let c := bound.challenge
  if c.id ≠ id ∨ 5 ≤ c.attempts then pure (db,none)
  else pure (db.setChallenge (countAttempt c),some ⟨c,code,.intake grant destination⟩)

structure VerifyInput where
  id : ChallengeId
  code : String
  accessToken : Option String
  intakeGrant : Option String
  intakeDestination : Option String
  deriving DecidableEq, Repr

/-- `verify` up to its first commit. -/
def startVerification (db : PrivacyDb) (now : Time) (input : VerifyInput) :
    Except PrivacyFailure (PrivacyDb × Option Verification) :=
  match supplied input.intakeGrant with
  | some grant => do
    require (supplied input.accessToken = none) invalidRequest
    let destination ← found (supplied input.intakeDestination) invalidRequest
    prepareIntake S db now input.id input.code grant destination
  | none => prepareVerification S db now input.id input.code input.accessToken

/-- Whether the code is right; a phone code is judged by its `provider`. -/
def Verification.approved (v : Verification) (provider : Bool) : Bool :=
  let right := decide (v.challenge.codeHash = codeHash S v.challenge.id v.code)
  match v.mode with
  | .intake _ _ => right
  | .ordinary _ _ => if v.challenge.channel = some .email then right else provider

def revokeAccess (customer : CustomerId) (now : Time) (a : PrivacyAccessCredential) : PrivacyAccessCredential :=
  if a.customerId = customer ∧ a.revokedAt = none then { a with revokedAt := some now } else a

theorem revokeAccessId (customer : CustomerId) (now : Time) (a : PrivacyAccessCredential) :
    (revokeAccess customer now a).id = a.id := by
  unfold revokeAccess
  split <;> rfl

def newAccess (now : Time) (id tokenHash : String) (customer : Customer) (sourceOrder : Order) (contact : Contact)
    (destinationHash : String) : PrivacyAccessCredential :=
  ⟨id,customer.id,sourceOrder.id,tokenHash,contact.channel,destinationHash,now,now,none⟩

/-- A token replaces the other credentials of its customer. -/
def enrolAccess (access : AccessCredentials) (now : Time) (id tokenHash : String) (customer : Customer)
    (sourceOrder : Order) (contact : Contact) (destinationHash : String) :
    Except PrivacyFailure (AccessCredentials × String) :=
  let revoked := access.update (revokeAccess customer.id now) (revokeAccessId customer.id now)
  match access.rows.find? (·.tokenHash = tokenHash) with
  | some existing => do
    require (existing.customerId = customer.id) (.privacy 409 "MANUAL_REVIEW_REQUIRED")
    pure (revoked.put { existing with
      sourceOrderId := sourceOrder.id, channel := contact.channel, destinationHash := destinationHash
      revokedAt := none, lastUsedAt := now },existing.id)
  | none => do
    require (access.find id = none) uniqueViolation
    pure (revoked.put (newAccess now id tokenHash customer sourceOrder contact destinationHash),id)

/-- The credential of a verified challenge: its own, or the one enrolled for it. -/
def verifiedAccess (db : PrivacyDb) (now : Time) (c : PrivacyChallenge) (newId : String)
    (accessToken : Option String) (customer : Customer) (sourceOrder : Order) (contact : Contact)
    (destinationHash : String) : Except PrivacyFailure (AccessCredentials × String) :=
  match c.accessId with
  | some accessId => pure (db.access,accessId)
  | none => do
    let token ← found accessToken invalidCode
    enrolAccess db.access now newId (S.digest token) customer sourceOrder contact destinationHash

def markVerified (now : Time) (accessId : Option String) (c : PrivacyChallenge) : PrivacyChallenge :=
  { c with accessId := accessId, verifiedAt := some now }

/-- The second transaction of `verify`. -/
def acceptVerification (db : PrivacyDb) (now : Time) (id : ChallengeId) (accessToken : Option String)
    (newId : String) : Except PrivacyFailure PrivacyDb := do
  let c ← found (db.challenges.find id) invalidCode
  let customer ← found (c.subjectId.bind db.customers.find) invalidCode
  let source ← found (c.sourceOrderId.bind db.other.orders.find) invalidCode
  let destination ← found c.destinationHash invalidCode
  require (c.consumedAt = none ∧ now < c.expiresAt ∧ boundTo S c customer source.order ∧ c.channel.isSome) invalidCode
  let contact ← contactFor S.toPrivacyService db customer source.order c.channel
  require (destinationHash S.toPrivacyService contact.channel contact.destination = destination) invalidCode
  let (access,accessId) ← verifiedAccess S db now c newId accessToken customer source.order contact destination
  pure { db with access := access, challenges := db.challenges.put (markVerified now (some accessId) c) }

/-- The second transaction of `verifyIntake`. -/
def acceptIntake (db : PrivacyDb) (now : Time) (id : ChallengeId) (grant destination : String) :
    Except PrivacyFailure PrivacyDb := do
  let bound ← intakeBound S.toPrivacyService db now grant true (some destination)
  let c := bound.challenge
  require (c.id = id ∧ c.attempts ≤ 5) invalidCode
  pure (db.setChallenge (markVerified now c.accessId c))

def Verification.accept (db : PrivacyDb) (now : Time) (newId : String) (v : Verification) :
    Except PrivacyFailure PrivacyDb :=
  match v.mode with
  | .ordinary accessToken _ => acceptVerification S db now v.challenge.id accessToken newId
  | .intake grant destination => acceptIntake S db now v.challenge.id grant destination

end SpeedySweeties
