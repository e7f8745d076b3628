import SpeedySweeties.Privacy.Requests

/-! The replay of the decisions of the protected history on a restored database. A case
is judged before it writes anything; a dry run only judges. -/
namespace SpeedySweeties

def unrecordedDecision : PrivacyFailure := .recovery "RECOVERY_UNRECORDED_DECISION"
def scopeRequiresReview : PrivacyFailure := .recovery "RECOVERY_SCOPE_REQUIRES_REVIEW"
def decisionInvalid : PrivacyFailure := .recovery "RECOVERY_DECISION_INVALID"
def uniqueViolated : PrivacyFailure := .database "Unique constraint failed"

/-- The tables of a restored database. A decision that a replay has stored has the hash
of its justification in place of the text; those decisions are in `replayed`. -/
structure RestoredDb where
  db : PrivacyDb
  replayed : PrivacyRequestId → Option RecoveryDecision

/-- Whether a date that may be absent is later than the recorded one. -/
def laterDate (date recorded : Option Time) : Bool :=
  match date,recorded with
  | none,_ => false
  | some _,none => true
  | some date,some recorded => recorded < date

def erasedRow (o : OrderRows) : Bool := o.order.privacyErasedAt.isSome

namespace RecoveryState
variable (state : RecoveryState)

abbrev id : PrivacyRequestId := state.request.id
def orderIds : List OrderId := state.scope.orders.map (·.id)
def task? (system : ExternalSystem) : Option RecoveryTask := state.tasks.find? (·.system = system)
def ordersIn (db : PrivacyDb) : List OrderRows := db.other.orders.rows.filter (·.id ∈ state.orderIds)

end RecoveryState

section
variable {δ : Type} (S : PrivacyService δ) (digestKey : String)

/-! ### What a case must satisfy -/

def judgeRequest (current : Option PrivacyDeletionRequest) (state : RecoveryState) : Except PrivacyFailure Unit :=
  match current with
  | none => pure ()
  | some current => do
    require (¬ (state.request.version < current.version ∨ state.request.updatedAt < current.updatedAt))
      (.recovery "RECOVERY_NEWER_DATABASE_DECISION")
    require (¬ (current.status ∈ [.cancelled,.hold] ∧ state.request.databaseErasedAt.isSome))
      (.recovery "RECOVERY_DATABASE_HOLD_OR_CANCELLATION")

/-- External outcomes do not advance the version of their request. -/
def judgeTask (state : RecoveryState) (task : PrivacyExternalTask) : Except PrivacyFailure Unit :=
  require ((state.task? task.system).any fun recorded =>
      ¬ laterDate task.reviewedAt recorded.reviewedAt ∧ ¬ laterDate task.retainUntil recorded.retainUntil)
    (.recovery "RECOVERY_NEWER_EXTERNAL_DECISION")

def judgeOrder (state : RecoveryState) (o : OrderRows) : Except PrivacyFailure Unit := do
  let bound ← found (state.scope.orders.find? (·.id = o.id)) (.database "undefined")
  require (S.financialHash o = bound.financialHash) (.recovery "RECOVERY_FINANCIAL_EVIDENCE_CHANGED")
  require (erasedRow o ∨ o.order.customerId = some state.scope.subjectId ∧ S.identityHash o.order = bound.identityHash)
    (.recovery "RECOVERY_OWNERSHIP_CHANGED")
  require (¬ state.decision.any fun decision => o.order.privacyRetainUntil.any (decision.financialRetainUntil < ·))
    (.recovery "RECOVERY_NEWER_FINANCIAL_HOLD")

def judgeScope (db : PrivacyDb) (state : RecoveryState) : Except PrivacyFailure Unit := do
  require ((state.ordersIn db).length = state.scope.orders.length) (.recovery "RECOVERY_FINANCIAL_SCOPE_INCOMPLETE")
  require ((db.customers.find state.scope.subjectId).all (S.ownerHash · = state.scope.ownerHash))
    (.recovery "RECOVERY_OWNERSHIP_CHANGED")
  require (db.other.orders.rows.all fun o => ¬ (o.order.customerId = some state.scope.subjectId ∧ o.id ∉ state.orderIds))
    (.recovery "RECOVERY_SCOPE_CHANGED")

/-- A later case of the same customer has erased what the cancelled one covers. -/
def laterErasure (states : List RecoveryState) (state : RecoveryState) : Bool :=
  state.request.status = .cancelled ∧ state.request.closedAt.any fun closedAt =>
    states.any fun s => s.scope.subjectId = state.scope.subjectId ∧ s.request.databaseErasedAt.any (closedAt ≤ ·)

inductive CaseVerdict where
  | preserved
  | erased (marker : PrivacyDeletedIdentity)
  | replay (customer : Customer) (erasedAt : Time) (decision : RecoveryDecision) (marker : PrivacyDeletedIdentity)

def judgeErased (db : PrivacyDb) (state : RecoveryState) (erasedAt : Time) : Except PrivacyFailure CaseVerdict := do
  let orders := state.ordersIn db
  let decision ← found state.decision decisionInvalid
  let marker ← found state.marker decisionInvalid
  require (marker.keyFingerprint = S.digest digestKey ∧ state.request.status ∉ [.cancelled,.hold]) decisionInvalid
  require ((db.identities.find state.scope.phoneHash).all fun prior =>
      prior.createdAt = marker.createdAt ∧ prior.reviewAt ≤ marker.reviewAt)
    (.recovery "RECOVERY_NEWER_MARKER_REVIEW")
  match db.customers.find state.scope.subjectId with
  | some customer =>
    require (¬ orders.any erasedRow ∧ state.request.sourceOrderId ∈ orders.map (·.id))
      (.recovery "RECOVERY_PARTIAL_SCOPE_REQUIRES_REVIEW")
    require (db.other.orders.rows.all (fun o => ¬ (o.order.customerId = none ∧ o.order.privacyErasedAt = none ∧
        phoneDigits o.order.phone = customer.normalizedPhone)) ∧ orders.all (·.order.orderStatus ∈ closedStatuses))
      scopeRequiresReview
    pure (.replay customer erasedAt decision marker)
  | none =>
    require (orders.all erasedRow) (.recovery "RECOVERY_ORPHANED_SCOPE")
    pure (.erased marker)

def judgeCase (states : List RecoveryState) (db : PrivacyDb) (state : RecoveryState) : Except PrivacyFailure CaseVerdict := do
  let current := db.requests.find state.id
  judgeRequest current state
  ((current.map (·.tasks)).getD []).forM (judgeTask state)
  judgeScope S db state
  (state.ordersIn db).forM (judgeOrder S state)
  match state.request.databaseErasedAt with
  | none =>
    require (((db.customers.find state.scope.subjectId).isSome ∧ ¬ (state.ordersIn db).any erasedRow) ∨
      laterErasure states state) (.recovery "RECOVERY_NON_ERASURE_CONFLICT")
    pure .preserved
  | some erasedAt => judgeErased S digestKey db state erasedAt

end

/-! ### What a case writes -/

def replayedSummary : String :=
  "Historical deletion decision reconciled from protected history. Financial evidence retained; " ++
    "external outcomes require operator verification before reopening."

/-- An upsert of the columns; task and audit rows stay. -/
def storedRequest (current : Option PrivacyDeletionRequest) (r : RequestColumns) (summary : Option String) :
    PrivacyDeletionRequest where
  toRequestColumns := r
  decision := none
  summary := summary
  tasks := (current.map (·.tasks)).getD []
  audit := (current.map (·.audit)).getD []

namespace RestoredDb

def upsertRequest (t : RestoredDb) (r : RequestColumns) (decision : Option RecoveryDecision) (summary : Option String) :
    Except PrivacyFailure RestoredDb := do
  require (t.db.requests.rows.all fun other => other.id = r.id ∨
    other.challengeId ≠ r.challengeId ∧ (r.activeSubject = none ∨ other.activeSubject ≠ r.activeSubject)) uniqueViolated
  pure {
    db := { t.db with requests := t.db.requests.put (storedRequest (t.db.requests.find r.id) r summary) }
    replayed := Function.update t.replayed r.id decision }

def mark (t : RestoredDb) (marker : PrivacyDeletedIdentity) : RestoredDb :=
  { t with db := { t.db with identities := t.db.identities.put marker } }

end RestoredDb

def replayedTask (now : Time) (task : RecoveryTask) : PrivacyExternalTask where
  system := task.system
  status := task.status
  evidence := (task.evidenceHash.filter (· ≠ "")).map (reconciledLabel ++ ·)
  retainUntil := task.retainUntil
  reviewedAt := task.reviewedAt
  updatedAt := now

def replayTasks (now : Time) (tasks : List RecoveryTask) (rows : List PrivacyExternalTask) : List PrivacyExternalTask :=
  tasks.foldl (fun rows task => Table.putRow PrivacyExternalTask.system (replayedTask now task) rows) rows

/-- The decision that the shared erasure is run with. -/
def replayDecision (decision : RecoveryDecision) : RetentionDecision where
  policyReference := decision.policyReference
  justification := "Replay of independently recorded approved financial-retention decision."
  taxYearEnd := decision.taxYearEnd
  financialRetainUntil := decision.financialRetainUntil
  personalFields := []
  financialFields := retainedFinancialFields
  unlinkedRecordsReviewed := true
  confirmed := true

section
variable {δ : Type} (S : PrivacyService δ) (J : PrivacyRecoveryJournal δ)

/-- A temporary request that the erasure finds as if it had not happened. -/
def pendingRequest (state : RecoveryState) (customer : Customer) : RequestColumns :=
  { state.request with
    subjectId := some state.scope.subjectId, activeSubject := some state.scope.subjectId
    contactFingerprint := S.fingerprint customer, databaseErasedAt := none, completedAt := none, status := .submitted }

def replayErasure (t : RestoredDb) (state : RecoveryState) (customer : Customer) (erasedAt : Time)
    (decision : RecoveryDecision) : Except PrivacyFailure RestoredDb := do
  let t ← t.upsertRequest (pendingRequest S state customer) none none
  let p ← preview S t.db state.id
  require (p.activeOrders = [] ∧ p.unlinkedOrderIds = [] ∧ p.conflictingLinkedOrderIds = []) scopeRequiresReview
  -- the tasks of a partially restored case are deleted first
  let request := { p.request with tasks := [] }
  let (db,_) ← eraseScoped S { t.db with requests := t.db.requests.put request } { p with request }
    (replayDecision decision) erasedAt "offline-recovery"
  pure { t with db }

def finishCase (now : Time) (t : RestoredDb) (state : RecoveryState) : Except PrivacyFailure RestoredDb := do
  let t ← t.upsertRequest state.request state.decision (state.request.databaseErasedAt.map fun _ => replayedSummary)
  let r ← found (t.db.requests.find state.id) (.database "No PrivacyDeletionRequest found")
  pure { t with db := { t.db with requests := t.db.requests.put { r with tasks := replayTasks now state.tasks r.tasks } } }

def writeCase (now : Time) (t : RestoredDb) (state : RecoveryState) : CaseVerdict → Except PrivacyFailure RestoredDb
  | .preserved => finishCase now t state
  | .erased marker => finishCase now (t.mark marker) state
  | .replay customer erasedAt decision marker => do
    let t ← replayErasure S t state customer erasedAt decision
    finishCase now (t.mark marker) state

/-! ### The transaction -/

structure Reconciled where
  cases : Nat
  erased : Nat
  preserved : Nat
  databaseReconciled : Bool
  deriving DecidableEq, Repr

def CaseVerdict.erases : CaseVerdict → Nat
  | .replay .. => 1
  | _ => 0

def CaseVerdict.preserves : CaseVerdict → Nat
  | .preserved => 1
  | _ => 0

def reconcileCase (digestKey : String) (dryRun : Bool) (now : Time) (states : List RecoveryState)
    (run : RestoredDb × Nat × Nat) (state : RecoveryState) : Except PrivacyFailure (RestoredDb × Nat × Nat) := do
  let (t,erased,preserved) := run
  let verdict ← judgeCase S digestKey states t.db state
  let t ← if dryRun then pure t else writeCase S now t state verdict
  pure (t,erased + verdict.erases,preserved + verdict.preserves)

/-- Every request and every marker of the database is in the history, under this key. -/
def judgeKnown (digestKey : String) (db : PrivacyDb) (cases : RecoveryCases) : Except PrivacyFailure Unit := do
  require (db.requests.rows.all fun r => (cases.find r.id).isSome) unrecordedDecision
  require (db.identities.rows.all (·.keyFingerprint = S.digest digestKey)) (.recovery "RECOVERY_KEY_MISMATCH")
  require (db.identities.rows.all fun m => cases.rows.any fun s => s.marker.any (·.phoneHash = m.phoneHash))
    unrecordedDecision

/-- `entries` and `advanced` are what the store holds at the two reads of the history. -/
def reconcileRecoveryTransaction [DecidableEq δ] (entries advanced : List (RecoveryEntry δ)) (digestKey : String)
    (dryRun : Bool) (now : Time) (t : RestoredDb) : Except PrivacyFailure (RestoredDb × Reconciled) := do
  let history ← J.ready entries
  let states := history.cases.rows
  judgeKnown S digestKey t.db history.cases
  let (t,erased,preserved) ← states.foldlM (reconcileCase S digestKey dryRun now states) (t,0,0)
  let current ← J.ready advanced
  require (current.prior = history.prior) (.recovery "RECOVERY_HISTORY_ADVANCED")
  pure (t,⟨states.length,erased,preserved,!dryRun⟩)

end
end SpeedySweeties
