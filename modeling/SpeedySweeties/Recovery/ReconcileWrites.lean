import SpeedySweeties.Privacy.IdentityGuard
import SpeedySweeties.Recovery.ReconcileSteps

/-! What the writes of one case of a reconciliation leave in each table. -/
namespace SpeedySweeties

variable {δ : Type} {S : PrivacyService δ} {digestKey : String} {states : List RecoveryState}
  {t t' : RestoredDb} {state : RecoveryState} {verdict : CaseVerdict} {now : Time}

/-- The columns fit in beside the other requests. -/
def Admits (t : RestoredDb) (r : RequestColumns) : Prop :=
  ∀ other ∈ t.db.requests.rows, other.id ≠ r.id →
    other.challengeId ≠ r.challengeId ∧ (r.activeSubject = none ∨ other.activeSubject ≠ r.activeSubject)

theorem putRequestOther {requests : Table PrivacyDeletionRequest fun r => r.id} {r : PrivacyDeletionRequest}
    {id : PrivacyRequestId} (differ : id ≠ r.id) : (requests.put r).find id = requests.find id :=
  Table.find_put_other differ

def RestoredDb.upserted (t : RestoredDb) (r : RequestColumns) (decision : Option RecoveryDecision)
    (summary : Option String) : RestoredDb :=
  { db := { t.db with requests := t.db.requests.put (storedRequest (t.db.requests.find r.id) r summary) }
    replayed := Function.update t.replayed r.id decision }

theorem upsertedRow {r : RequestColumns} {decision : Option RecoveryDecision} {summary : Option String} :
    (t.upserted r decision summary).db.requests.find r.id = some (storedRequest (t.db.requests.find r.id) r summary) :=
  Table.find_put_self _ (storedRequest (t.db.requests.find r.id) r summary)

theorem upsertRequestOk {r : RequestColumns} {decision : Option RecoveryDecision} {summary : Option String} :
    t.upsertRequest r decision summary = .ok t' ↔ Admits t r ∧ t' = t.upserted r decision summary := by
  simp only [RestoredDb.upsertRequest,bindOk,requireOk,pureOk,List.all_eq_true,decide_eq_true_eq,Admits]
  constructor
  · rintro ⟨_,unique,rfl⟩
    exact ⟨fun other mem differ => (unique other mem).resolve_left differ,rfl⟩
  · rintro ⟨unique,rfl⟩
    exact ⟨(),fun other mem => or_iff_not_imp_left.mpr (unique other mem),rfl⟩

/-! ### The end of a case -/

def finalSummary (state : RecoveryState) : Option String := state.request.databaseErasedAt.map fun _ => replayedSummary

/-- The row of a case, over the tasks and the audit it finds. -/
def finishedRequest (now : Time) (state : RecoveryState) (tasks : List PrivacyExternalTask) (audit : List PrivacyAudit) :
    PrivacyDeletionRequest where
  toRequestColumns := state.request
  decision := none
  summary := finalSummary state
  tasks := replayTasks now state.tasks tasks
  audit := audit

def finishedRow (now : Time) (t : RestoredDb) (state : RecoveryState) : PrivacyDeletionRequest :=
  let current := t.db.requests.find state.id
  finishedRequest now state ((current.map (·.tasks)).getD []) ((current.map (·.audit)).getD [])

def RestoredDb.finished (now : Time) (t : RestoredDb) (state : RecoveryState) : RestoredDb :=
  { db := { t.db with requests := t.db.requests.put (finishedRow now t state) }
    replayed := Function.update t.replayed state.id state.decision }

theorem finishCaseOk : finishCase now t state = .ok t' ↔ Admits t state.request ∧ t' = t.finished now state := by
  have finished : ({ t.upserted state.request state.decision (finalSummary state) with
      db := { (t.upserted state.request state.decision (finalSummary state)).db with
        requests := (t.upserted state.request state.decision (finalSummary state)).db.requests.put
          (finishedRow now t state) } } : RestoredDb) = t.finished now state := by
    simp only [RestoredDb.upserted,RestoredDb.finished]
    rw [Table.put_put]
    rfl
  simp only [finishCase,bindOk,upsertRequestOk,foundOk,pureOk]
  constructor
  · rintro ⟨_,⟨unique,rfl⟩,r,own,rfl⟩
    cases Option.some.inj (upsertedRow.symm.trans own)
    exact ⟨unique,finished⟩
  · rintro ⟨unique,rfl⟩
    exact ⟨_,⟨unique,rfl⟩,_,upsertedRow,finished⟩

/-! ### The replay of an erasure -/

/-- What an erased case leaves of an order of its customer. -/
def replayedRow (state : RecoveryState) (erasedAt : Time) (decision : RecoveryDecision) (o : OrderRows) : OrderRows :=
  if o.order.customerId = some state.scope.subjectId then eraseRows erasedAt decision.financialRetainUntil o else o

theorem replayedRowId (state : RecoveryState) (erasedAt : Time) (decision : RecoveryDecision) (o : OrderRows) :
    (replayedRow state erasedAt decision o).id = o.id := by
  unfold replayedRow
  split <;> rfl

def newTasks (now : Time) : List PrivacyExternalTask := externalSystems.map fun system => ⟨system,.pending,none,none,none,now⟩

theorem previewOrders {db : PrivacyDb} {id : PrivacyRequestId} {p : Preview} (ok : preview S db id = .ok p) :
    p.orders = db.ordersOf p.customer.id := by
  simp only [preview,bindOk,foundOk,pureOk] at ok
  obtain ⟨r,_,subject,_,scope,ok,_,_,rfl⟩ := ok
  simp only [candidateScope,bindOk,foundOk,pureOk] at ok
  obtain ⟨_,_,_,_,_,_,rfl⟩ := ok
  rfl

theorem memOrdersOf {db : PrivacyDb} {customer : CustomerId} {o : OrderRows} :
    o ∈ db.ordersOf customer ↔ o ∈ db.other.orders.rows ∧ o.order.customerId = some customer := by
  simp [PrivacyDb.ordersOf,sortById,List.mem_insertionSort,List.mem_filter]

theorem eraseOrdersRow {db : PrivacyDb} {erasedAt : Time} {decision : RecoveryDecision} {o : OrderRows}
    (mem : o ∈ db.other.orders.rows) :
    eraseOrders ((db.ordersOf state.scope.subjectId).map (·.id)) erasedAt decision.financialRetainUntil o =
      replayedRow state erasedAt decision o := by
  have here : o.id ∈ (db.ordersOf state.scope.subjectId).map (·.id) ↔ o.order.customerId = some state.scope.subjectId := by
    constructor
    · intro listed
      obtain ⟨other,owned,same⟩ := List.mem_map.mp listed
      obtain ⟨there,owner⟩ := memOrdersOf.mp owned
      have found := Table.find_of_mem there
      rw [show OrderRows.id other = o.id from same,Table.find_of_mem mem] at found
      cases found
      exact owner
    · exact fun owner => List.mem_map_of_mem (memOrdersOf.mpr ⟨mem,owner⟩)
  unfold eraseOrders replayedRow
  by_cases owner : o.order.customerId = some state.scope.subjectId
  · rw [if_pos (here.mpr owner),if_pos owner]
  · rw [if_neg (here.not.mpr owner),if_neg owner]

structure ReplayWritten (S : PrivacyService δ) (t : RestoredDb) (state : RecoveryState) (customer : Customer)
    (erasedAt : Time) (decision : RecoveryDecision) (t' : RestoredDb) : Prop where
  row : ∃ r, t'.db.requests.find state.id = some r ∧ r.tasks = newTasks erasedAt
  others : ∀ id, id ≠ state.id → t'.db.requests.find id = t.db.requests.find id
  replayed : ∀ id, id ≠ state.id → t'.replayed id = t.replayed id
  customers : t'.db.customers = t.db.customers.delete state.scope.subjectId
  identities : ∃ marker, marker.phoneHash = S.hash ("phone:" ++ customer.normalizedPhone) ∧
    t'.db.identities = t.db.identities.put marker
  orders : t'.db.other.orders.rows = t.db.other.orders.rows.map (replayedRow state erasedAt decision)

theorem eraseScopedDb {db db' : PrivacyDb} {p : Preview} {decision : RetentionDecision} {actor : String} {reply : PrivacyReply}
    (ok : eraseScoped S db p decision now actor = .ok (db',reply)) :
    db' = (db.eraseCustomer S p decision now).setRequest (erasedRequest S decision now actor p.request) := by
  simp only [eraseScoped,bindOk,pureOk] at ok
  obtain ⟨_,_,_,_,same⟩ := ok
  cases same
  rfl

theorem replayErasureSource {customer : Customer} {erasedAt : Time} {decision : RecoveryDecision}
    (present : t.db.customers.find state.scope.subjectId = some customer)
    (ok : replayErasure S t state customer erasedAt decision = .ok t') :
    ReplayWritten S t state customer erasedAt decision t' := by
  simp only [replayErasure,bindOk,upsertRequestOk,pureOk,Prod.exists] at ok
  obtain ⟨_,⟨_,rfl⟩,p,previewed,_,_,db,_,erased,rfl⟩ := ok
  have erased := eraseScopedDb erased
  obtain ⟨row,subject,found⟩ := previewSource previewed
  have orders := previewOrders previewed
  have own := Option.some.inj (upsertedRow.symm.trans row)
  have subject' : p.customer.id = state.scope.subjectId := by
    rw [← own] at subject
    exact (Option.some.inj subject).symm
  have customer' : p.customer = customer := by
    rw [subject'] at found
    exact Option.some.inj (found.symm.trans present)
  have key : p.request.id = state.id := by rw [← own]; rfl
  generalize written : erasedRequest S (replayDecision decision) erasedAt "offline-recovery"
    { p.request with tasks := [] } = r at erased
  have id : r.id = state.id := by rw [← written,← key]; rfl
  have identity : (deletedIdentity S t.db.identities (S.hash ("phone:" ++ customer.normalizedPhone))
      (reviewAfter erasedAt adoptedAntiReactivationReviewMonths) erasedAt).phoneHash = _ := deletedIdentityKey _ _ _
  subst erased
  refine ⟨⟨r,?_,by rw [← written]; exact List.nil_append _⟩,?_,?_,?_,⟨_,identity,?_⟩,?_⟩
  · rw [← id]
    exact Table.find_put_self _ _
  · intro other differ
    exact (putRequestOther (id ▸ differ)).trans ((putRequestOther (key ▸ differ)).trans (putRequestOther differ))
  · exact fun other differ => Function.update_of_ne differ _ _
  · exact congrArg t.db.customers.delete subject'
  · rw [← customer']
    rfl
  · change t.db.other.orders.rows.map _ = _
    rw [orders,subject']
    exact List.map_congr_left fun o mem => eraseOrdersRow mem

/-! ### One case -/

namespace CaseVerdict

def rewrite (state : RecoveryState) : CaseVerdict → OrderRows → OrderRows
  | .replay _ erasedAt decision _ => replayedRow state erasedAt decision
  | _ => id

def removes (state : RecoveryState) : CaseVerdict → Option CustomerId
  | .replay .. => some state.scope.subjectId
  | _ => none

def marker : CaseVerdict → Option PrivacyDeletedIdentity
  | .preserved => none
  | .erased marker | .replay _ _ _ marker => some marker

/-- The tasks that the replay of a case finds. -/
def tasks (current : Option PrivacyDeletionRequest) : CaseVerdict → List PrivacyExternalTask
  | .replay _ erasedAt _ _ => newTasks erasedAt
  | _ => (current.map (·.tasks)).getD []

theorem rewriteId (state : RecoveryState) (verdict : CaseVerdict) (o : OrderRows) :
    (verdict.rewrite state o).id = o.id := by
  cases verdict <;> first | rfl | exact replayedRowId ..

end CaseVerdict

/-- A case as the service records it: what it says of a customer is bound by the hash of
the customer, its tasks have one row for each system, and an erasure has all of them. -/
structure RecordedCase (S : PrivacyService δ) (state : RecoveryState) : Prop where
  phone : ∀ c, S.ownerHash c = state.scope.ownerHash → S.hash ("phone:" ++ c.normalizedPhone) = state.scope.phoneHash
  marker : ∀ marker, state.marker = some marker → marker.phoneHash = state.scope.phoneHash
  systems : (state.tasks.map (·.system)).Nodup
  external : state.request.databaseErasedAt.isSome → ∀ system ∈ externalSystems, system ∈ state.tasks.map (·.system)
  evidence : ∀ task ∈ state.tasks, ∀ hash, task.evidenceHash = some hash →
    hash ≠ "" ∧ reconciledEvidence (reconciledLabel ++ hash) = some hash

structure CaseWritten (now : Time) (t : RestoredDb) (state : RecoveryState) (verdict : CaseVerdict) (t' : RestoredDb) :
    Prop where
  admitted : Admits t state.request
  row : ∃ audit, t'.db.requests.find state.id =
    some (finishedRequest now state (verdict.tasks (t.db.requests.find state.id)) audit)
  others : ∀ id, id ≠ state.id → t'.db.requests.find id = t.db.requests.find id
  decision : t'.replayed state.id = state.decision
  replayed : ∀ id, id ≠ state.id → t'.replayed id = t.replayed id
  customers : ∀ k, t'.db.customers.find k = if verdict.removes state = some k then none else t.db.customers.find k
  identities : ∀ k, t'.db.identities.find k =
    (verdict.marker.filter (·.phoneHash = k)).or (t.db.identities.find k)
  orders : t'.db.other.orders.rows = t.db.other.orders.rows.map (verdict.rewrite state)

theorem finishedWritten {mid : RestoredDb} (admitted : Admits t state.request)
    (tasks : ((mid.db.requests.find state.id).map (·.tasks)).getD [] = verdict.tasks (t.db.requests.find state.id))
    (others : ∀ id, id ≠ state.id → mid.db.requests.find id = t.db.requests.find id)
    (replayed : ∀ id, id ≠ state.id → mid.replayed id = t.replayed id)
    (customers : ∀ k, mid.db.customers.find k = if verdict.removes state = some k then none else t.db.customers.find k)
    (identities : ∀ k, mid.db.identities.find k = (verdict.marker.filter (·.phoneHash = k)).or (t.db.identities.find k))
    (orders : mid.db.other.orders.rows = t.db.other.orders.rows.map (verdict.rewrite state)) :
    CaseWritten now t state verdict (mid.finished now state) where
  admitted := admitted
  row := ⟨((mid.db.requests.find state.id).map (·.audit)).getD [],by rw [← tasks]; exact Table.find_put_self _ _⟩
  others := fun id differ => (putRequestOther (r := finishedRow now mid state) differ).trans (others id differ)
  decision := Function.update_self _ _ _
  replayed := fun id differ => (Function.update_of_ne differ _ _).trans (replayed id differ)
  customers := customers
  identities := identities
  orders := orders

theorem Admits.others {mid : RestoredDb} (h : Admits mid state.request)
    (others : ∀ id, id ≠ state.id → mid.db.requests.find id = t.db.requests.find id) : Admits t state.request := by
  intro other mem differ
  have kept := others other.id differ
  rw [Table.find_of_mem mem] at kept
  exact h other (Table.find_some kept).1 differ

theorem putMarker (identities : Table PrivacyDeletedIdentity fun i => i.phoneHash) (marker : PrivacyDeletedIdentity)
    (k : String) : (identities.put marker).find k = ((some marker).filter (·.phoneHash = k)).or (identities.find k) := by
  rw [Table.find_put]
  by_cases here : marker.phoneHash = k <;> simp [Option.filter,here]

theorem writeCaseSource (recorded : RecordedCase S state) (judged : CaseJudged S digestKey states state t.db verdict)
    (ok : writeCase S now t state verdict = .ok t') : CaseWritten now t state verdict t' := by
  cases judged.verdict with
  | preserved =>
    obtain ⟨admitted,rfl⟩ := finishCaseOk.mp ok
    exact finishedWritten admitted rfl (fun _ _ => rfl) (fun _ _ => rfl) (fun _ => rfl) (fun _ => rfl) (List.map_id _).symm
  | erased marker =>
    obtain ⟨admitted,rfl⟩ := finishCaseOk.mp ok
    exact finishedWritten admitted rfl (fun _ _ => rfl) (fun _ _ => rfl) (fun _ => rfl) (putMarker _ _) (List.map_id _).symm
  | replay customer erasedAt decision marker since decided judged' replay =>
    obtain ⟨mid,erased,ok⟩ := bindOk.mp ok
    obtain ⟨admitted,rfl⟩ := finishCaseOk.mp ok
    have written := replayErasureSource replay.present erased
    obtain ⟨r,row,tasks⟩ := written.row
    obtain ⟨first,phone,identities⟩ := written.identities
    refine finishedWritten (admitted.others written.others) ?_ written.others written.replayed ?_ ?_ written.orders
    · change ((mid.db.requests.find state.id).map (·.tasks)).getD [] = newTasks erasedAt
      rw [row]
      exact tasks
    · intro k
      change mid.db.customers.find k = if some state.scope.subjectId = some k then none else _
      rw [written.customers,Table.find_delete]
      simp only [Option.some.injEq,eq_comm]
    · intro k
      have same : first.phoneHash = marker.phoneHash := by
        rw [phone,recorded.phone customer (judged.scope.owner customer replay.present),recorded.marker marker judged'.marked]
      change (mid.db.identities.put marker).find k = _
      rw [identities,Table.put_put _ same,putMarker]
      rfl

end SpeedySweeties
