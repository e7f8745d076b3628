import Mathlib.Data.List.Sort
import SpeedySweeties.Library.Fallible
import SpeedySweeties.Privacy.Schema

/-! The privacy tables, the recovery state that the journal keeps of a request, and
the evidence that tells whether a transition has been committed. Texts that are
hashed (canonical JSON under a keyed hash) enter only through their hashes. -/
namespace SpeedySweeties

/-- Tables whose writers do not take the privacy lock. -/
structure OtherTables where
  orders : Table OrderRows OrderRows.id
  users : UserId → Option StaffUser
  retention : List RetentionMessage

/-- Ghost: a verification challenge accepted for a request of a customer. -/
structure Consumption where
  challenge : ChallengeId
  request : PrivacyRequestId
  customer : CustomerId
  deriving DecidableEq, Repr

structure PrivacyDb where
  requests : Table PrivacyDeletionRequest fun r => r.id
  challenges : Table PrivacyChallenge fun c => c.id
  access : Table PrivacyAccessCredential fun a => a.id
  identities : Table PrivacyDeletedIdentity fun i => i.phoneHash
  customers : Table Customer fun c => c.id
  other : OtherTables
  /-- Ghost: the first one of a request is its submission, later ones recover its credential. -/
  consumptions : List Consumption

inductive PrivacyFailure where
  | privacy (status : Nat) (code : String)
  | recovery (code : String)
  | database (reason : String)
  deriving DecidableEq, Repr

def require (condition : Bool) (failure : PrivacyFailure) : Except PrivacyFailure Unit :=
  if condition then .ok () else .error failure

def found {α : Type} (row : Option α) (failure : PrivacyFailure) : Except PrivacyFailure α :=
  match row with
  | some row => .ok row
  | none => .error failure

theorem requireOk {condition : Bool} {failure : PrivacyFailure} {u : Unit} :
    require condition failure = .ok u ↔ condition = true := by
  unfold require
  split <;> simp_all

theorem foundOk {α : Type} {row : Option α} {failure : PrivacyFailure} {a : α} :
    found row failure = .ok a ↔ row = some a := by
  cases row <;> simp [found]

structure ScopedOrder where
  id : OrderId
  identityHash : String
  financialHash : String
  deriving DecidableEq, Repr

structure RecoveryScope where
  subjectId : CustomerId
  contactFingerprint : String
  ownerHash : String
  phoneHash : String
  orders : List ScopedOrder
  deriving DecidableEq, Repr

structure RecoveryDecision where
  policyReference : String
  taxYearEnd : String
  financialRetainUntil : Time
  justificationHash : String
  deriving DecidableEq, Repr

structure RecoveryTask where
  system : ExternalSystem
  status : ExternalTaskStatus
  evidenceHash : Option String
  retainUntil : Option Time
  reviewedAt : Option Time
  deriving DecidableEq, Repr

structure RecoveryReview where
  reviewedAt : Time
  justificationHash : String
  nextReviewAt : Time
  deriving DecidableEq, Repr

structure RecoveryState where
  request : RequestColumns
  decision : Option RecoveryDecision
  scope : RecoveryScope
  marker : Option PrivacyDeletedIdentity
  tasks : List RecoveryTask
  recoveryReview : Option RecoveryReview := none
  deriving DecidableEq, Repr

structure EvidenceOrder where
  order : Order
  items : List OrderItem
  digitalReceipt : Option DigitalReceipt
  helpRequest : Option DeliveryHelpRequest
  deriving DecidableEq, Repr

inductive RecoveryEvidence where
  | requestAbsent (id : PrivacyRequestId)
  | requestRows (request : Option PrivacyDeletionRequest) (customer : Option Customer) (orders : List EvidenceOrder)
      (access : List PrivacyAccessCredential) (challenges : List PrivacyChallenge)
      (marker : Option PrivacyDeletedIdentity) (retention : List RetentionMessage)
      (dispatch : List DispatchEvent) (editPauses : List OrderEditPause)
      (pickupStops : List OrderPickupStop) (checkIns : List DeliveryCheckInEvent)
  deriving DecidableEq, Repr

/-- What `candidateScope` has read, as its hash binds it. -/
structure ScopeContent where
  customer : Customer
  sourceOrder : Order
  orders : List OrderRows
  unlinked : List OrderId
  conflictingLinkedOrderIds : List OrderId
  deriving DecidableEq, Repr

inductive IntakeMethod where
  | historicalVerifiedEmail (priorChallengeId : ChallengeId)
  | priorPersonalRecognition
  deriving DecidableEq, Repr

structure IntakeClaims where
  id : ChallengeId
  actorId : UserId
  authVersion : Nat
  scopeHash : String
  destinationHash : String
  fingerprint : String
  reviewHash : String
  receivedAt : Time
  method : IntakeMethod
  issuedAt : Time
  expiresAt : Time
  deriving DecidableEq, Repr

/-- The configuration of the service, and the library functions it calls.
`δ` is the type of evidence digests. -/
structure PrivacyService (δ : Type) where
  hash : String → String
  digest : String → String
  keyFingerprint : String
  fingerprint : Customer → String
  ownerHash : Customer → String
  identityHash : Order → String
  financialHash : OrderRows → String
  scopeHash : ScopeContent → String
  intakeProof : IntakeClaims → String
  evidenceDigest : RecoveryEvidence → δ
  /-- Signature check and decoding of an intake grant. -/
  decodeGrant : String → Option IntakeClaims
  isEmail : String → Bool
  toLowerCase : String → String
  toISOString : Time → String
  canFulfill : RetentionDecision → Bool
  completionTimeframe : String
  fiscalYearEndMonthDay : String
  adminUserIds : List UserId

variable {δ : Type} (S : PrivacyService δ)

def sortById {α : Type} (id : α → String) (rows : List α) : List α :=
  rows.insertionSort fun a b => id a ≤ id b

def PrivacyDb.ordersOf (db : PrivacyDb) (customer : CustomerId) : List OrderRows :=
  sortById OrderRows.id (db.other.orders.rows.filter fun r => r.order.customerId = some customer)

def reconciledLabel : String := "recovery-evidence-sha256:"

/-- Evidence that a reconciliation has put in place of the original text. -/
def reconciledEvidence (evidence : String) : Option String :=
  let rest := evidence.toList.drop reconciledLabel.length
  if evidence.toList.take reconciledLabel.length = reconciledLabel.toList ∧ rest.length = 64 ∧
      rest.all (fun c => c.isDigit || ('a' ≤ c && c ≤ 'f')) then some (String.ofList rest) else none

def recoveryTask (task : PrivacyExternalTask) : RecoveryTask where
  system := task.system
  status := task.status
  evidenceHash := task.evidence.bind fun text =>
    if text = "" then none else some ((reconciledEvidence text).getD (S.hash text))
  retainUntil := task.retainUntil
  reviewedAt := task.reviewedAt

def recoveryDecision (decision : RetentionDecision) : RecoveryDecision where
  policyReference := decision.policyReference
  taxYearEnd := decision.taxYearEnd
  financialRetainUntil := decision.financialRetainUntil
  justificationHash := S.hash decision.justification

/-- The scope of a request that still has its subject is read anew. -/
def recoveryScope (db : PrivacyDb) (r : PrivacyDeletionRequest) (prior : Option RecoveryScope) :
    Except PrivacyFailure (Option RecoveryScope) :=
  match r.subjectId with
  | none => pure prior
  | some subject => do
    let c ← found (db.customers.find subject) (.recovery "RECOVERY_SUBJECT_UNAVAILABLE")
    pure (some {
      subjectId := c.id, contactFingerprint := S.fingerprint c, ownerHash := S.ownerHash c
      phoneHash := S.hash ("phone:" ++ c.normalizedPhone)
      orders := (db.ordersOf c.id).map fun o => ⟨o.id,S.identityHash o.order,S.financialHash o⟩ })

def recoveryState (db : PrivacyDb) (id : PrivacyRequestId) (prior : Option RecoveryScope) :
    Except PrivacyFailure (Option RecoveryState) :=
  match db.requests.find id with
  | none => .ok none
  | some r => do
    let scope ← recoveryScope S db r prior
    let scope ← found scope (.recovery "RECOVERY_SCOPE_REQUIRED")
    pure (some {
      request := r.toRequestColumns, scope
      marker := db.identities.find scope.phoneHash
      decision := r.decision.map (recoveryDecision S)
      tasks := r.tasks.map (recoveryTask S) })

def scopedRecoveryEvidence (db : PrivacyDb) (id : PrivacyRequestId) (scope : RecoveryScope) : δ :=
  let ids := scope.orders.map (·.id)
  let inScope := sortById OrderRows.id (db.other.orders.rows.filter (·.id ∈ ids))
  let owned := db.other.orders.rows.filter fun r => r.order.customerId = some scope.subjectId ∨ r.id ∈ ids
  S.evidenceDigest (.requestRows (db.requests.find id) (db.customers.find scope.subjectId)
    ((sortById OrderRows.id owned).map fun r => ⟨r.order,r.items,r.digitalReceipt,r.helpRequest⟩)
    (sortById (·.id) (db.access.rows.filter (·.customerId = scope.subjectId)))
    (sortById (·.id) (db.challenges.rows.filter fun c =>
      c.subjectId = some scope.subjectId ∨ c.phoneHash = scope.phoneHash ∨ c.sourceOrderId.any (· ∈ ids)))
    (db.identities.find scope.phoneHash)
    (sortById (·.id) (db.other.retention.filter (·.customerId = scope.subjectId)))
    (inScope.flatMap (·.dispatchEvents)) (inScope.flatMap (·.editPauses))
    (inScope.flatMap (·.pickupStops)) (inScope.flatMap (·.checkIns)))

/-- What the operator digests for the request of a pending intent. -/
def observedEvidence (db : PrivacyDb) (id : PrivacyRequestId) (scope : RecoveryScope) : δ :=
  match db.requests.find id with
  | none => S.evidenceDigest (.requestAbsent id)
  | some _ => scopedRecoveryEvidence S db id scope

end SpeedySweeties
