import SpeedySweeties.Privacy.RecoveryJournal
import SpeedySweeties.Privacy.Scope

/-! The transitions of a deletion request, as their transactions run them under the
privacy lock: each reads the tables and either fails, leaves them as they are, or
returns what it has written. -/
namespace SpeedySweeties
open JsText

structure PublicStatus where
  id : PrivacyRequestId
  status : PrivacyStatus
  version : Nat
  canCancel : Bool
  message : String
  completionTimeframe : String
  dueAt : Time
  retentionSummary : Option String
  deriving DecidableEq, Repr

inductive PrivacyReply where
  | status (status : PublicStatus)
  | success
  deriving DecidableEq, Repr

abbrev Worked := PrivacyDb × PrivacyReply

def dayMs : Nat := 24*60*60*1000
def adoptedRequestAuditReviewMonths : Nat := 24
def adoptedAntiReactivationReviewMonths : Nat := 24
def intakePolicy : String := "SS-PRIVACY-INTAKE-1.0"

def reviewAfter (now : Time) (months : Nat) : Time := (Calendar.addCalendarMonths now months).toNat

def PrivacyStatus.message : PrivacyStatus → String
  | .completed => "Deletion completed for eligible records. Retention details are below."
  | .cancelled => "Request cancelled. Your account was not deleted by this request."
  | .fulfilling =>
    "Fulfillment has started. Required external-system checks are still pending; deletion is not complete."
  | _ => "Request received. Your account has not been deleted. " ++
    "We will review identity, active deliveries and required retention."

def publicStatus (r : PrivacyDeletionRequest) : PublicStatus where
  id := r.id
  status := r.status
  version := r.version
  canCancel := cancellable r.status
  message := r.status.message
  completionTimeframe := r.completionTimeframe
  dueAt := r.dueAt
  retentionSummary := r.summary

def PrivacyDb.store (db : PrivacyDb) (r : PrivacyDeletionRequest) : Worked :=
  ({ db with requests := db.requests.put r },.status (publicStatus r))

/-- The part every update of a request shares. -/
def PrivacyDeletionRequest.advance (r : PrivacyDeletionRequest) (now : Time) (audit : List (String × String)) :
    PrivacyDeletionRequest :=
  { r with
    version := r.version + 1, updatedAt := now
    audit := r.audit ++ audit.map fun (actorId,event) => ⟨actorId,event,now⟩ }

variable {δ : Type} (S : PrivacyService δ) (J : PrivacyRecoveryJournal δ)

def authorize (expected token : String) : Except PrivacyFailure Unit :=
  require (expected = S.digest token) requestUnavailable

/-! ### Submit -/

structure SubmitInput where
  id : PrivacyRequestId
  token : String
  challengeId : ChallengeId
  proof : String
  accessToken : String
  intakeGrant : Option String
  intakeDestination : Option String
  confirmed : Bool
  deriving DecidableEq, Repr

structure SubmitReads where
  challenge : Option PrivacyChallenge
  customer : Option Customer
  sourceOrder : Option Order
  access : Option PrivacyAccessCredential
  active : Option PrivacyDeletionRequest

def submitReads (db : PrivacyDb) (input : SubmitInput) : SubmitReads :=
  let challenge := db.challenges.find input.challengeId
  let customer := (challenge.bind (·.subjectId)).bind db.customers.find
  { challenge, customer
    sourceOrder := ((challenge.bind (·.sourceOrderId)).bind db.other.orders.find).map (·.order)
    access := (challenge.bind (·.accessId)).bind fun _ =>
      db.access.rows.find? (·.tokenHash = S.digest input.accessToken)
    active := customer.bind fun c => db.requests.rows.find? (·.activeSubject = some c.id) }

/-- The active request must be the one the journal has decided. -/
def assertRecorded [DecidableEq δ] (entries : List (RecoveryEntry δ)) (db : PrivacyDb)
    (active : PrivacyDeletionRequest) : Except PrivacyFailure Unit := do
  let history ← J.ready entries
  let recorded := history.cases.find active.id
  let current ← recoveryState S db active.id (recorded.map (·.scope))
  match recorded, current with
  | some recorded, some current =>
    require (current.request = recorded.request ∧ current.tasks = recorded.tasks)
      (.recovery "RECOVERY_UNRECORDED_DECISION")
  | _, _ => .error (.recovery "RECOVERY_UNRECORDED_DECISION")

def verifyIntakeSubmission (db : PrivacyDb) (now : Time) (input : SubmitInput) (reads : SubmitReads)
    (grant : String) : Except PrivacyFailure (List (String × String)) := do
  let bound ← intakeBound S db now grant true input.intakeDestination
  let c ← found reads.challenge verificationRequired
  require (bound.challenge.id = c.id ∧ c.verifiedAt.isSome ∧ S.intakeProof bound.claims = input.proof ∧
    reads.active.all fun a => some a.sourceOrderId = reads.sourceOrder.map (·.id)) verificationRequired
  pure [(bound.claims.actorId,"ADMIN_INTAKE:" ++ intakePolicy ++ ":" ++ bound.claims.reviewHash)]

def verifySubmission (now : Time) (input : SubmitInput) (reads : SubmitReads) :
    Except PrivacyFailure (List (String × String)) := do
  let c ← found reads.challenge verificationRequired
  let customer ← found reads.customer verificationRequired
  let sourceOrder ← found reads.sourceOrder verificationRequired
  let access ← found reads.access verificationRequired
  require (c.verifiedAt.isSome ∧ c.consumedAt = none ∧ now < c.expiresAt ∧
    sourceOrder.customerId = some customer.id ∧ sourceOrder.privacyErasedAt = none ∧
    access.revokedAt = none ∧ c.accessId = some access.id ∧ access.customerId = customer.id ∧
    c.contactFingerprint = some (S.fingerprint customer) ∧ S.hash ("proof:" ++ c.id) = input.proof)
    verificationRequired
  pure []

/-- The audit entries of an intake, none for an ordinary submission. -/
def verified (db : PrivacyDb) (now : Time) (input : SubmitInput) (reads : SubmitReads) :
    Except PrivacyFailure (List (String × String)) :=
  match input.intakeGrant with
  | some grant => verifyIntakeSubmission S db now input reads grant
  | none => verifySubmission S now input reads

def PrivacyDb.consume (db : PrivacyDb) (c : PrivacyChallenge) (request : PrivacyRequestId)
    (customer : CustomerId) (now : Time) : PrivacyDb :=
  { db with
    challenges := db.challenges.put { c with consumedAt := some now }
    consumptions := db.consumptions ++ [⟨c.id,request,customer⟩] }

def recoveredRequest (input : SubmitInput) (now : Time) (audit : List (String × String))
    (active : PrivacyDeletionRequest) : PrivacyDeletionRequest :=
  { active.advance now (audit ++ [("customer","STATUS_CREDENTIAL_RECOVERED")]) with
    tokenHash := S.digest input.token }

def newRequest (input : SubmitInput) (now : Time) (audit : List (String × String)) (c : PrivacyChallenge)
    (customer : Customer) (sourceOrder : Order) (completionTimeframe : String) : PrivacyDeletionRequest where
  id := input.id
  subjectId := some customer.id
  sourceOrderId := sourceOrder.id
  activeSubject := some customer.id
  challengeId := c.id
  tokenHash := S.digest input.token
  status := .submitted
  version := 0
  contactFingerprint := S.fingerprint customer
  completionTimeframe := completionTimeframe
  dueAt := now + 30*dayMs
  createdAt := now
  updatedAt := now
  databaseErasedAt := none
  completedAt := none
  closedAt := none
  requestAuditReviewAt := none
  decision := none
  summary := none
  tasks := []
  audit := (audit ++ [("customer","SUBMITTED")]).map fun (actorId,event) => ⟨actorId,event,now⟩

/-- The unique indexes on `activeSubject` and `challengeId`. -/
def PrivacyDb.insertRequest (db : PrivacyDb) (r : PrivacyDeletionRequest) : Except PrivacyFailure Worked := do
  require (db.requests.rows.all fun other =>
    other.challengeId ≠ r.challengeId ∧ (r.activeSubject = none ∨ other.activeSubject ≠ r.activeSubject))
    (.database "Unique constraint failed")
  pure (db.store r)

/-- The submission of a verified challenge: it recovers the credential of the active
request, or creates the request. -/
def recordSubmission (db : PrivacyDb) (now : Time) (input : SubmitInput) (reads : SubmitReads)
    (audit : List (String × String)) : Except PrivacyFailure Worked := do
  let c ← found reads.challenge verificationRequired
  let customer ← found reads.customer verificationRequired
  let sourceOrder ← found reads.sourceOrder verificationRequired
  match reads.active with
  | some active =>
    pure ((db.consume c active.id customer.id now).store (recoveredRequest S input now audit active))
  | none =>
    let timeframe ← found c.completionTimeframe (.database "completionTimeframe must not be null")
    (db.consume c input.id customer.id now).insertRequest
      (newRequest S input now audit c customer sourceOrder timeframe)

def submit [DecidableEq δ] (entries : List (RecoveryEntry δ)) (db : PrivacyDb) (now : Time)
    (input : SubmitInput) : Except PrivacyFailure Worked :=
  match db.requests.find input.id with
  | some existing => do
    authorize S existing.tokenHash input.token
    pure (db,.status (publicStatus existing))
  | none => do
    let reads := submitReads S db input
    match reads.active with
    | none =>
      let audit ← verified S db now input reads
      recordSubmission S db now input reads audit
    | some active =>
      assertRecorded S J entries db active
      if active.tokenHash = S.digest input.token then pure (db,.status (publicStatus active))
      else
        let audit ← verified S db now input reads
        recordSubmission S db now input reads audit

/-! ### Cancel and hold -/

def cancelledRequest (now : Time) (r : PrivacyDeletionRequest) : PrivacyDeletionRequest :=
  { r.advance now [("customer","CANCELLED")] with
    status := .cancelled, activeSubject := none, closedAt := some now
    requestAuditReviewAt := some (reviewAfter now adoptedRequestAuditReviewMonths) }

def cancel (db : PrivacyDb) (now : Time) (id : PrivacyRequestId) (token : String) :
    Except PrivacyFailure Worked := do
  let r ← found (db.requests.find id) requestUnavailable
  authorize S r.tokenHash token
  if r.status = .cancelled then pure (db,.status (publicStatus r))
  else
    require (cancellable r.status) (.privacy 409 "FULFILLMENT_ALREADY_STARTED")
    pure (db.store (cancelledRequest now r))

def heldRequest (now : Time) (actor : String) (r : PrivacyDeletionRequest) : PrivacyDeletionRequest :=
  { r.advance now [(actor,"HOLD")] with status := .hold }

def hold (db : PrivacyDb) (now : Time) (id : PrivacyRequestId) (actor : String) :
    Except PrivacyFailure Worked := do
  let r ← found (db.requests.find id) (.database "No PrivacyDeletionRequest found")
  require (cancellable r.status ∧ r.databaseErasedAt = none) (.privacy 409 "INVALID_STATE")
  pure (db.store (heldRequest now actor r))

/-! ### Fulfil -/

def erasureSummary (decision : RetentionDecision) (reviewAt : Time) : String :=
  "Restricted financial evidence retained: " ++
    ", ".intercalate (decision.financialFields.map RetainedFinancialField.name) ++
  ". Related tax year ended " ++ decision.taxYearEnd ++ ". Basis: " ++ decision.justification ++
  ". Retain until " ++ S.toISOString decision.financialRetainUntil ++
  ", subject to review and any longer applicable hold. Minimized request/audit evidence will be " ++
  "reviewed 24 months after closure. Anti-reactivation identifier first review: " ++
  S.toISOString reviewAt ++
  ". These are review dates, not automatic deletion dates. External-system checks pending."

def erasedRequest (decision : RetentionDecision) (now : Time) (actor : String) (r : PrivacyDeletionRequest) :
    PrivacyDeletionRequest :=
  { r.advance now [(actor,"DATABASE_ERASED_EXTERNAL_PENDING")] with
    subjectId := none, activeSubject := none, contactFingerprint := "revoked", databaseErasedAt := some now
    status := .fulfilling, decision := some decision
    summary := some (erasureSummary S decision (reviewAfter now adoptedAntiReactivationReviewMonths))
    tasks := r.tasks ++ externalSystems.map fun system => ⟨system,.pending,none,none,none,now⟩ }

/-- An upsert: a marker that exists only gets the new review date. -/
def deletedIdentity (identities : Table PrivacyDeletedIdentity fun i => i.phoneHash) (phoneHash : String)
    (reviewAt now : Time) : PrivacyDeletedIdentity :=
  match identities.find phoneHash with
  | some marker => { marker with reviewAt }
  | none => ⟨phoneHash,S.keyFingerprint,reviewAt,now⟩

def revokedChallenge (customer : CustomerId) (now : Time) (c : PrivacyChallenge) : PrivacyChallenge :=
  if c.subjectId = some customer then
    { c with subjectId := none, contactFingerprint := none, codeHash := "revoked", consumedAt := some now }
  else c

theorem revokedChallengeId (customer : CustomerId) (now : Time) (c : PrivacyChallenge) :
    (revokedChallenge customer now c).id = c.id := by
  unfold revokedChallenge
  split <;> rfl

def eraseOrders (ids : List OrderId) (now retainUntil : Time) (r : OrderRows) : OrderRows :=
  if r.id ∈ ids then eraseRows now retainUntil r else r

theorem eraseOrdersId (ids : List OrderId) (now retainUntil : Time) (r : OrderRows) :
    (eraseOrders ids now retainUntil r).id = r.id := by
  unfold eraseOrders
  split <;> rfl

/-- The statements of the erasure other than the last one. Deleting the customer
cascades to its access credentials and retention messages. -/
def PrivacyDb.eraseCustomer (db : PrivacyDb) (p : Preview) (decision : RetentionDecision) (now : Time) :
    PrivacyDb :=
  let phoneHash := S.hash ("phone:" ++ p.customer.normalizedPhone)
  let reviewAt := reviewAfter now adoptedAntiReactivationReviewMonths
  { db with
    identities := db.identities.put (deletedIdentity S db.identities phoneHash reviewAt now)
    customers := db.customers.delete p.customer.id
    access := ⟨db.access.rows.filter (·.customerId ≠ p.customer.id),
      db.access.unique.sublist (List.filter_sublist.map _)⟩
    challenges := db.challenges.update (revokedChallenge p.customer.id now)
      (revokedChallengeId p.customer.id now)
    other := { db.other with
      orders := db.other.orders.update
        (eraseOrders (p.orders.map (·.id)) now decision.financialRetainUntil)
        (eraseOrdersId _ now decision.financialRetainUntil)
      retention := db.other.retention.filter (·.customerId ≠ p.customer.id) } }

def requireErasable (p : Preview) (decision : RetentionDecision) : Except PrivacyFailure Unit := do
  require (p.activeOrders = []) (.privacy 409 "ACTIVE_ORDERS_HOLD")
  require (p.unlinkedOrderIds = []) (.privacy 409 "UNLINKED_RECORDS_REQUIRE_REVIEW")
  require (p.conflictingLinkedOrderIds = []) (.privacy 409 "HISTORICAL_SCOPE_REVIEW_REQUIRED")
  validateFinancialExpiry S p.orders decision

def eraseScoped (db : PrivacyDb) (p : Preview) (decision : RetentionDecision) (now : Time) (actor : String) :
    Except PrivacyFailure Worked := do
  requireErasable S p decision
  -- the unique index on a request's tasks
  require (p.request.tasks = []) (.database "Unique constraint failed")
  pure ((db.eraseCustomer S p decision now).store (erasedRequest S decision now actor p.request))

def fulfill (db : PrivacyDb) (now : Time) (id : PrivacyRequestId) (actor : String) (version : Nat)
    (previewHash : String) (decision : RetentionDecision) : Except PrivacyFailure Worked := do
  let r ← found (db.requests.find id) (.database "No PrivacyDeletionRequest found")
  -- a retry after a lost reply does not erase twice
  if r.databaseErasedAt.isSome then pure (db,.status (publicStatus r))
  else
    require (r.status ≠ .hold) (.privacy 409 "REQUEST_ON_HOLD")
    require (cancellable r.status ∧ r.version = version) (.privacy 409 "STALE_REQUEST")
    let p ← preview S db id
    require (p.hash = previewHash) (.privacy 409 "STALE_PREVIEW")
    requireErasable S p decision
    eraseScoped S db p decision now actor

/-! ### External outcomes and completion -/

def resolvedTask (outcome : ExternalTaskStatus) (evidence : String) (retainUntil : Option Time) (now : Time)
    (task : PrivacyExternalTask) : PrivacyExternalTask :=
  { task with
    status := outcome, evidence := some evidence, retainUntil, reviewedAt := some now, updatedAt := now }

/-- Task and audit rows are written, the request row is not. -/
def externallyResolved (system : String) (actor : String) (outcome : ExternalTaskStatus) (evidence : String)
    (retainUntil : Option Time) (now : Time) (r : PrivacyDeletionRequest) : PrivacyDeletionRequest :=
  { r with
    tasks := r.tasks.map fun task =>
      if task.system.name = system then resolvedTask outcome evidence retainUntil now task else task
    audit := r.audit ++ [⟨actor,"EXTERNAL_RESOLVED:" ++ system,now⟩] }

def resolveExternal (db : PrivacyDb) (now : Time) (id : PrivacyRequestId) (actor system evidence : String)
    (retainUntil : Option (String × Time)) : Except PrivacyFailure Worked := do
  let r ← found (db.requests.find id) (.database "No PrivacyDeletionRequest found")
  require (r.status = .fulfilling) (.privacy 409 "INVALID_STATE")
  let existing ← found (r.tasks.find? (·.system.name = system)) (.database "No PrivacyExternalTask found")
  let outcome : ExternalTaskStatus := if retainUntil.isSome then .retainedWithExpiry else .resolved
  let recordedEvidence := match retainUntil with
    | some (text,_) => evidence ++ " Retain until " ++ text
    | none => evidence
  if existing.status = .pending then
    let updated := externallyResolved system actor outcome recordedEvidence (retainUntil.map (·.2)) now r
    pure ({ db with requests := db.requests.put updated },.success)
  else
    require (existing.status = outcome ∧ existing.evidence = some recordedEvidence)
      (.privacy 409 "EVIDENCE_ALREADY_RECORDED")
    pure (db,.success)

def completionSummary (r : PrivacyDeletionRequest) (reviewAt : Time) : String :=
  let reviewed := (r.summary.map fun text => replace (replace text
    "Minimized request/audit evidence will be reviewed 24 months after closure."
    ("Minimized request/audit evidence first review: " ++ S.toISOString reviewAt ++ "."))
    "External-system checks pending." "External-system checks recorded.").getD "undefined"
  reviewed ++ " " ++ " ".intercalate ((r.tasks.filter (·.status = .retainedWithExpiry)).map fun t =>
    t.system.name ++ ": retained until " ++ (t.retainUntil.map S.toISOString).getD "review required" ++ ".")

def completedRequest (now : Time) (actor : String) (r : PrivacyDeletionRequest) : PrivacyDeletionRequest :=
  let reviewAt := reviewAfter now adoptedRequestAuditReviewMonths
  { r.advance now [(actor,"COMPLETED_CUSTOMER_STATUS_AVAILABLE")] with
    status := .completed, completedAt := some now, closedAt := some now
    requestAuditReviewAt := some reviewAt, summary := some (completionSummary S r reviewAt) }

def complete (db : PrivacyDb) (now : Time) (id : PrivacyRequestId) (actor : String) :
    Except PrivacyFailure Worked := do
  let r ← found (db.requests.find id) (.database "No PrivacyDeletionRequest found")
  if r.status = .completed then pure (db,.status (publicStatus r))
  else
    require (r.status = .fulfilling ∧ r.tasks.length = externalSystems.length ∧
      r.tasks.all (·.status ≠ .pending)) (.privacy 409 "EXTERNAL_WORK_INCOMPLETE")
    pure (db.store (completedRequest S now actor r))

/-! ### The operations of the service -/

inductive PrivacyOperation where
  | submit (input : SubmitInput)
  | cancel (id : PrivacyRequestId) (token : String)
  | hold (id : PrivacyRequestId) (actor : String)
  | fulfill (id : PrivacyRequestId) (actor : String) (version : Nat) (previewHash : String)
      (decision : RetentionDecision)
  | resolveExternal (id : PrivacyRequestId) (actor system evidence : String)
      (retainUntil : Option (String × Time))
  | complete (id : PrivacyRequestId) (actor : String)
  deriving DecidableEq, Repr

def PrivacyOperation.id : PrivacyOperation → PrivacyRequestId
  | .submit input => input.id
  | .cancel id _ | .hold id _ | .fulfill id _ _ _ _ | .resolveExternal id _ _ _ _ | .complete id _ => id

def PrivacyOperation.event : PrivacyOperation → String
  | .submit _ => "SUBMIT"
  | .cancel .. => "CANCEL"
  | .hold .. => "HOLD"
  | .fulfill .. => "FULFILL"
  | .resolveExternal .. => "EXTERNAL"
  | .complete .. => "COMPLETE"

/-- The checks before the transition, with the decision as parsed. -/
def PrivacyOperation.admit (now : Time) : PrivacyOperation → Except PrivacyFailure PrivacyOperation
  | .submit input => do
    require (input.intakeGrant.isNone ∨ (input.confirmed ∧ input.accessToken = "" ∧
      input.intakeDestination.any (· ≠ ""))) (.privacy 400 "EXPLICIT_CONFIRMATION_REQUIRED")
    pure (.submit input)
  | .fulfill id actor version previewHash raw => do
    let decision ← found (parseDecision raw now) (.privacy 400 "VALIDATED_RETENTION_DECISION_REQUIRED")
    require (S.canFulfill decision) (.privacy 503 "FULFILLMENT_DISABLED")
    pure (.fulfill id actor version previewHash decision)
  | .resolveExternal id actor system evidence retainUntil => do
    require (system ∈ externalSystems.map ExternalSystem.name ∧ 12 ≤ length (trim evidence) ∧
      length evidence ≤ 600 ∧ retainUntil.all (now < ·.2)) (.privacy 400 "EVIDENCE_REQUIRED")
    pure (.resolveExternal id actor system evidence retainUntil)
  | operation => pure operation

def PrivacyOperation.work [DecidableEq δ] (entries : List (RecoveryEntry δ)) (db : PrivacyDb) (now : Time) :
    PrivacyOperation → Except PrivacyFailure Worked
  | .submit input => SpeedySweeties.submit S J entries db now input
  | .cancel id token => SpeedySweeties.cancel S db now id token
  | .hold id actor => SpeedySweeties.hold db now id actor
  | .fulfill id actor version previewHash decision =>
    SpeedySweeties.fulfill S db now id actor version previewHash decision
  | .resolveExternal id actor system evidence retainUntil =>
    SpeedySweeties.resolveExternal db now id actor system evidence retainUntil
  | .complete id actor => SpeedySweeties.complete S db now id actor

/-- `result.id || id` -/
def PrivacyReply.requestId (id : PrivacyRequestId) : PrivacyReply → PrivacyRequestId
  | .status reported => reported.id
  | .success => id

end SpeedySweeties
