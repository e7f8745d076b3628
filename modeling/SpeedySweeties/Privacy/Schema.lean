import SpeedySweeties.Library.Table
import SpeedySweeties.Order.System

/-! The rows of the privacy tables, and of the other tables the privacy service
reads. An order is kept with the rows of the tables that reference it. -/
namespace SpeedySweeties

inductive PrivacyStatus where
  | submitted | reviewing | hold | cancelled | fulfilling | completed
  deriving DecidableEq, Repr

inductive ExternalTaskStatus where | pending | resolved | retainedWithExpiry deriving DecidableEq, Repr

inductive ExternalSystem where
  | phonesAndSyncedContacts | messagesAndEmail | staffNotesAndExports | logsAndProviders | backupsAndRestore
  deriving DecidableEq, Repr

inductive VerificationChannel where | email | phone deriving DecidableEq, Repr

inductive ChallengePurpose where | delete | enrollDelete | adminIntake deriving DecidableEq, Repr

inductive ChallengeDelivery where | unavailable | intakeReady | pending | sent deriving DecidableEq, Repr

inductive RetainedFinancialField where
  | recordIds | orderNumber | createdAt | updatedAt | paymentMethod | orderStatus | itemDescription | quantity
  | price | receiptNumber | itemTotal | deliveryCharge | taxOrFees | grandTotal | receiptChargeEvidence
  deriving DecidableEq, Repr

def externalSystems : List ExternalSystem :=
  [.phonesAndSyncedContacts,.messagesAndEmail,.staffNotesAndExports,.logsAndProviders,.backupsAndRestore]

def retainedFinancialFields : List RetainedFinancialField :=
  [.recordIds,.orderNumber,.createdAt,.updatedAt,.paymentMethod,.orderStatus,.itemDescription,.quantity,
   .price,.receiptNumber,.itemTotal,.deliveryCharge,.taxOrFees,.grandTotal,.receiptChargeEvidence]

def ExternalSystem.name : ExternalSystem → String
  | .phonesAndSyncedContacts => "phones_and_synced_contacts"
  | .messagesAndEmail => "messages_and_email"
  | .staffNotesAndExports => "staff_notes_and_exports"
  | .logsAndProviders => "logs_and_providers"
  | .backupsAndRestore => "backups_and_restore"

def RetainedFinancialField.name : RetainedFinancialField → String
  | .recordIds => "recordIds"
  | .orderNumber => "orderNumber"
  | .createdAt => "createdAt"
  | .updatedAt => "updatedAt"
  | .paymentMethod => "paymentMethod"
  | .orderStatus => "orderStatus"
  | .itemDescription => "itemDescription"
  | .quantity => "quantity"
  | .price => "price"
  | .receiptNumber => "receiptNumber"
  | .itemTotal => "itemTotal"
  | .deliveryCharge => "deliveryCharge"
  | .taxOrFees => "taxOrFees"
  | .grandTotal => "grandTotal"
  | .receiptChargeEvidence => "receiptChargeEvidence"

abbrev PrivacyRequestId := String
abbrev ChallengeId := String

structure RetentionDecision where
  policyReference : String
  justification : String
  taxYearEnd : String
  financialRetainUntil : Time
  personalFields : List String
  financialFields : List RetainedFinancialField
  unlinkedRecordsReviewed : Bool
  confirmed : Bool
  deriving DecidableEq, Repr

/-- The columns of `model PrivacyDeletionRequest` that the recovery journal copies. -/
structure RequestColumns where
  id : PrivacyRequestId
  subjectId : Option CustomerId
  sourceOrderId : OrderId
  activeSubject : Option CustomerId
  challengeId : ChallengeId
  tokenHash : String
  status : PrivacyStatus
  version : Nat
  contactFingerprint : String
  completionTimeframe : String
  dueAt : Time
  createdAt : Time
  updatedAt : Time
  databaseErasedAt : Option Time
  completedAt : Option Time
  closedAt : Option Time
  requestAuditReviewAt : Option Time
  deriving DecidableEq, Repr

structure PrivacyExternalTask where
  system : ExternalSystem
  status : ExternalTaskStatus
  evidence : Option String
  retainUntil : Option Time
  reviewedAt : Option Time
  updatedAt : Time
  deriving DecidableEq, Repr

structure PrivacyAudit where
  actorId : String
  event : String
  createdAt : Time
  deriving DecidableEq, Repr

/-- A request with the task and audit rows that reference it. -/
structure PrivacyDeletionRequest extends RequestColumns where
  decision : Option RetentionDecision
  summary : Option String
  tasks : List PrivacyExternalTask
  audit : List PrivacyAudit
  deriving DecidableEq, Repr

structure PrivacyChallenge where
  id : ChallengeId
  subjectId : Option CustomerId
  sourceOrderId : Option OrderId
  accessId : Option String
  purpose : ChallengePurpose
  channel : Option VerificationChannel
  destinationHash : Option String
  providerReference : Option String
  completionTimeframe : Option String
  contactFingerprint : Option String
  phoneHash : String
  requesterHash : String
  codeHash : String
  delivery : ChallengeDelivery
  attempts : Nat
  verifiedAt : Option Time
  consumedAt : Option Time
  expiresAt : Time
  createdAt : Time
  deriving DecidableEq, Repr

structure PrivacyAccessCredential where
  id : String
  customerId : CustomerId
  sourceOrderId : OrderId
  tokenHash : String
  channel : VerificationChannel
  destinationHash : String
  createdAt : Time
  lastUsedAt : Time
  revokedAt : Option Time
  deriving DecidableEq, Repr

structure PrivacyDeletedIdentity where
  phoneHash : String
  keyFingerprint : String
  reviewAt : Time
  createdAt : Time
  deriving DecidableEq, Repr

structure Customer where
  id : CustomerId
  normalizedFullName : String
  normalizedPhone : String
  normalizedEmail : Option String
  privacyVerifiedEmail : Option String
  privacyVerifiedEmailAt : Option Time
  deriving DecidableEq, Repr

structure StaffUser where
  id : UserId
  role : UserRole
  isActive : Bool
  passwordChangeRequired : Bool
  forceLogoutAt : Option Time
  authVersion : Nat
  deriving DecidableEq, Repr

structure RetentionMessage where
  id : String
  customerId : CustomerId
  phone : String
  messageBody : String
  status : String
  deriving DecidableEq, Repr

/-! ### Orders with the rows that reference them -/

inductive DeliveryHelpStatus where | open | handled deriving DecidableEq, Repr

inductive DeliveryCheckInEventType where
  | viewed | reviewClick | shareClick | shareCompleted
  deriving DecidableEq, Repr

structure DeliveryHelpRequest where
  id : String
  message : String
  status : DeliveryHelpStatus
  createdAt : Time
  handledAt : Option Time
  handledByUserId : Option UserId
  resolutionNote : Option String
  deriving DecidableEq, Repr

structure DeliveryCheckInEvent where
  id : String
  type : DeliveryCheckInEventType
  createdAt : Time
  deriving DecidableEq, Repr

structure OrderEditPause where
  id : String
  actorUserId : UserId
  startedAt : Time
  expiresAt : Time
  endedAt : Option Time
  deriving DecidableEq, Repr

structure OrderPickupStop where
  id : String
  pickupLocationId : String
  pickupType : String
  sequence : Nat
  plannedForDriverId : Option UserId
  storeName : String
  deriving DecidableEq, Repr

structure OrderRows where
  order : Order
  items : List OrderItem
  digitalReceipt : Option DigitalReceipt
  helpRequest : Option DeliveryHelpRequest
  dispatchEvents : List DispatchEvent
  editPauses : List OrderEditPause
  pickupStops : List OrderPickupStop
  checkIns : List DeliveryCheckInEvent
  deriving DecidableEq, Repr

abbrev OrderRows.id (r : OrderRows) : OrderId := r.order.id

/-- What `eraseScoped` leaves of an order and of the rows that reference it. -/
def eraseRows (now retainUntil : Time) (r : OrderRows) : OrderRows where
  order := eraseOrder now retainUntil r.order
  items := r.items.map eraseItem
  digitalReceipt := r.digitalReceipt.map fun receipt => eraseReceipt receipt.notes receipt
  helpRequest := none
  dispatchEvents := []
  editPauses := []
  pickupStops := []
  checkIns := []

end SpeedySweeties
