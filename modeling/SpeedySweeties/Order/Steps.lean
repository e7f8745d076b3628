import Mathlib.Data.List.Basic
import SpeedySweeties.Order.System

/-! What one step can do, said once: to the record of one order, to one pending
request and to the clock. Every later invariant is derived from these three
inversions and never unfolds the step function. -/
namespace SpeedySweeties

/-- What the tables hold about one order. -/
structure OrderRecord where
  order : Option Order
  synthetic : Bool
  receipt : Option DigitalReceipt
  locked : Option Time
  events : List DispatchEvent
  changes : Changes

def System.record (s : System) (id : OrderId) : OrderRecord :=
  ⟨s.orders id,s.synthetic id,s.receipts id,s.locked id,s.events.filter (·.orderId = id),
    s.changes id⟩

def OrderRecord.store (r : OrderRecord) (id : OrderId) (now : Time) (before after : Order)
    (event : Option RecordDispatchEventInput) : OrderRecord :=
  { r with
    order := some after
    events := r.events ++ (event.map (recordedEvent id now)).toList
    changes := r.changes.count before after }

@[simp] theorem recordClose {s : System} {request id} : (s.close request).record id = s.record id := rfl

@[simp] theorem recordAwait {s : System} {request id p} : (s.await request p).record id = s.record id := rfl

@[simp] theorem recordRelease {s : System} {id} :
    (s.release id).record id = { s.record id with locked := none } := by
  simp [System.release,System.record]

theorem recordReleaseOther {s : System} {id other} (different : id ≠ other) :
    (s.release other).record id = s.record id := by
  simp [System.release,System.record,Function.update_of_ne different]

@[simp] theorem recordedEventOrder {id now event} : (recordedEvent id now event).orderId = id := rfl

theorem recordStore {s : System} {id before after event} :
    (s.store id before after event).record id = (s.record id).store id s.now before after event := by
  cases event <;> simp [System.store,System.record,OrderRecord.store]

theorem recordStoreOther {s : System} {id other before after event} (different : id ≠ other) :
    (s.store other before after event).record id = s.record id := by
  cases event <;> simp [System.store,System.record,Function.update_of_ne different,different.symm]

inductive RecordStep (s : System) (a : Action) (id : OrderId) : OrderRecord → Prop where
  | same : RecordStep s a id (s.record id)
  | created {input synthetic} (absent : s.orders id = none) :
      RecordStep s a id { s.record id with
        order := some (if synthetic then finishSyntheticOrder (createdOrder id input s.now) s.now
          else createdOrder id input s.now)
        synthetic := synthetic }
  | written {request assignable p u o} (action : a = .write request assignable)
      (sent : s.pending request = some p) (target : p.id = id) (decided : p.update = some u) (free : s.locked id = none) (row : s.orders id = some o)
      (updatable : Updatable u.guard o) :
      RecordStep s a id ((s.record id).store id s.now o (u.data.apply o) u.event)
  | locked {o} (row : s.orders id = some o) (free : s.locked id = none) :
      RecordStep s a id { s.record id with locked := some s.now }
  | released : RecordStep s a id { s.record id with locked := none }
  | allocated {o driver held} (lock : s.locked id = some held) (row : s.orders id = some o)
      (placed : o.orderStatus = .placed) (free : o.assignedDriverId = none)
      (kept : o.privacyErasedAt = none) :
      RecordStep s a id { (s.record id).store id s.now o ((autoDispatchUpdate o driver held).apply o)
        (some (autoDispatchEvent driver)) with locked := none }
  | receiptSaved {receipt} (real : s.synthetic id = false) :
      RecordStep s a id { s.record id with receipt := some receipt, locked := none }
  | receiptStored {o data receipt held} (lock : s.locked id = some held) (row : s.orders id = some o)
      (real : s.synthetic id = false) (kept : o.privacyErasedAt = none)
      (update : receiptUpdate o held = some data) :
      RecordStep s a id { (s.record id).store id s.now o (data.apply o) none with
        receipt := some receipt, locked := none }
  | edited {o existingOrder details} (row : s.orders id = some o) (free : s.locked id = none)
      (kept : o.privacyErasedAt = none) :
      RecordStep s a id ((s.record id).store id s.now o (OrderDetails.apply details existingOrder o) none)
  | prioritized {o priority} (row : s.orders id = some o) (free : s.locked id = none) :
      RecordStep s a id ((s.record id).store id s.now o { o with priority := priority } none)
  | erased {o retainUntil} (row : s.orders id = some o) (free : s.locked id = none)
      (closed : o.orderStatus.final = true) :
      RecordStep s a id { (s.record id).store id s.now o (eraseOrder s.now retainUntil o) none with
        receipt := (s.receipts id).map fun r => eraseReceipt r.notes r, events := [] }

theorem RecordStep.unchanged {s t : System} {a id} (h : t.record id = s.record id) :
    RecordStep s a id (t.record id) := h ▸ .same

theorem writeUpdateStep {s : System} {request p u assignable id}
    (sent : s.pending request = some p) (decided : p.update = some u) (free : s.locked p.id = none) :
    RecordStep s (.write request assignable) id ((s.writeUpdate p.id u assignable).record id) := by
  unfold System.writeUpdate
  split; · exact .same
  rename_i o row
  split <;> try exact .same
  rename_i ok
  by_cases here : id = p.id
  · subst here
    rw [recordStore]
    exact .written rfl sent rfl decided free row ok.2
  · rw [recordStoreOther here]
    exact .same

theorem autoDispatchTransactionSource {o selected held data driver}
    (ok : autoDispatchTransaction o selected held = .ok data) (chosen : selected = some driver) :
    o.orderStatus = .placed ∧ o.assignedDriverId = none ∧ data = autoDispatchUpdate o driver held := by
  subst chosen
  unfold autoDispatchTransaction at ok
  split at ok <;> try contradiction
  rename_i source
  split at ok <;> try contradiction
  cases Except.ok.inj ok
  push Not at source
  exact ⟨source.1,source.2,rfl⟩

theorem allocateStep {s : System} {a id target selected held} (lock : s.locked target = some held) :
    RecordStep s a id (((s.allocateOrder target selected held).release target).record id) := by
  by_cases here : id = target
  · subst here
    rw [recordRelease]
    unfold System.allocateOrder
    split <;> try exact .released
    rename_i o driver row
    split <;> try exact .released
    rename_i data transaction
    split <;> try exact .released
    rename_i updatable
    obtain ⟨placed,free,rfl⟩ := autoDispatchTransactionSource transaction rfl
    rw [recordStore]
    exact .allocated lock row placed free updatable.2
  · rw [recordReleaseOther here]
    unfold System.allocateOrder
    split <;> try exact .same
    split <;> try exact .same
    split <;> try exact .same
    rw [recordStoreOther here]
    exact .same

theorem saveReceiptStep {s saved : System} {a id target receiptId user role body held}
    (lock : s.locked target = some held)
    (ok : s.saveReceipt target receiptId user role body held = some saved) :
    RecordStep s a id ((saved.release target).record id) := by
  obtain ⟨o,row,ok⟩ := Option.bind_eq_some_iff.mp ok
  split at ok <;> try contradiction
  rename_i open_
  simp only [not_or,Bool.not_eq_true,Option.isSome_eq_false_iff,Option.isNone_iff_eq_none] at open_
  have other : id ≠ target → (saved.release target).record id = s.record id := by
    intro different
    rw [recordReleaseOther different]
    split at ok
    · cases Option.some.inj ok
      simp [System.record,Function.update_of_ne different]
    · split at ok <;> try contradiction
      obtain ⟨data,_,ok⟩ := Option.bind_eq_some_iff.mp ok
      cases Option.some.inj ok
      rw [recordStoreOther different]
      simp [System.record,Function.update_of_ne different]
  by_cases here : id = target
  · subst here
    rw [recordRelease]
    split at ok
    · cases Option.some.inj ok
      simpa [System.record] using RecordStep.receiptSaved open_.1
    · split at ok <;> try contradiction
      obtain ⟨data,update,ok⟩ := Option.bind_eq_some_iff.mp ok
      cases Option.some.inj ok
      rw [recordStore]
      simpa [System.record,OrderRecord.store] using
        RecordStep.receiptStored lock row open_.1 open_.2 update
  · rw [other here]
    exact .same

theorem editStep {s : System} {a id target existingOrder details} (free : s.locked target = none) :
    RecordStep s a id ((s.editOrder target existingOrder details).record id) := by
  unfold System.editOrder
  split; · exact .same
  rename_i o row
  split <;> try exact .same
  rename_i kept
  by_cases here : id = target
  · subst here
    rw [recordStore]
    exact .edited row free kept
  · rw [recordStoreOther here]
    exact .same

theorem eraseStep {s t : System} {a id target retainUntil} (free : s.locked target = none)
    (ok : s.eraseOrder target retainUntil = some t) : RecordStep s a id (t.record id) := by
  obtain ⟨o,row,ok⟩ := Option.bind_eq_some_iff.mp ok
  split at ok <;> try contradiction
  rename_i closed
  cases Option.some.inj ok
  by_cases here : id = target
  · subst here
    have erased : RecordStep s a id { (s.record id).store id s.now o (eraseOrder s.now retainUntil o) none with
        receipt := (s.receipts id).map fun r => eraseReceipt r.notes r, events := [] } :=
      .erased row free closed.1
    simpa [System.record,System.store,OrderRecord.store] using erased
  · have sameEvents : (s.events.filter (·.orderId ≠ target)).filter (·.orderId = id) =
        s.events.filter (·.orderId = id) := by
      rw [List.filter_filter]
      refine List.filter_congr fun e _ => ?_
      by_cases mine : e.orderId = id <;> simp [mine,here]
    refine .unchanged ?_
    simp only [System.record,System.store,Function.update_of_ne here,sameEvents]

theorem recordStep {s a t} (taken : System.step s a = some t) (id : OrderId) :
    RecordStep s a id (t.record id) := by
  cases a with
  | tick elapsed => cases Option.some.inj taken; exact .same
  | createOrder target input synthetic =>
    simp only [System.step] at taken
    split at taken <;> try contradiction
    rename_i absent
    cases Option.some.inj taken
    by_cases here : id = target
    · subst here
      have created : RecordStep s (.createOrder id input synthetic) id { s.record id with
          order := some (if synthetic then finishSyntheticOrder (createdOrder id input s.now) s.now
            else createdOrder id input s.now)
          synthetic := synthetic } := .created (by simpa using absent)
      simpa [System.record] using created
    · exact .unchanged (by simp [System.record,Function.update_of_ne here])
  | read request target handler =>
    simp only [System.step] at taken
    split at taken <;> try contradiction
    cases Option.some.inj taken; exact .same
  | readReceipt request =>
    obtain ⟨p,sent,taken⟩ := Option.bind_eq_some_iff.mp taken
    split at taken <;> try contradiction
    cases Option.some.inj taken; exact .same
  | decide request driver =>
    obtain ⟨p,sent,taken⟩ := Option.bind_eq_some_iff.mp taken
    split at taken <;> try contradiction
    split at taken <;> try contradiction
    all_goals cases Option.some.inj taken; exact .same
  | write request assignable =>
    obtain ⟨p,sent,taken⟩ := Option.bind_eq_some_iff.mp taken
    obtain ⟨u,decided,taken⟩ := Option.bind_eq_some_iff.mp taken
    split at taken <;> try contradiction
    rename_i free
    cases Option.some.inj taken
    exact writeUpdateStep sent decided (by simpa using free)
  | lock target =>
    simp only [System.step] at taken
    split at taken <;> try contradiction
    rename_i free
    simp only [not_or,Option.isNone_iff_eq_none,Bool.not_eq_true,Option.isSome_eq_false_iff] at free
    cases Option.some.inj taken
    by_cases here : id = target
    · subst here
      obtain ⟨o,row⟩ := Option.ne_none_iff_exists'.mp free.1
      simpa [System.record] using RecordStep.locked row free.2
    · exact .unchanged (by simp [System.record,Function.update_of_ne here])
  | allocate request selected =>
    obtain ⟨p,sent,taken⟩ := Option.bind_eq_some_iff.mp taken
    obtain ⟨held,lock,taken⟩ := Option.bind_eq_some_iff.mp taken
    split at taken <;> try contradiction
    cases Option.some.inj taken
    exact allocateStep lock
  | saveReceipt target receiptId user role body =>
    obtain ⟨held,lock,taken⟩ := Option.bind_eq_some_iff.mp taken
    obtain ⟨saved,ok,taken⟩ := Option.bind_eq_some_iff.mp taken
    cases Option.some.inj taken
    exact saveReceiptStep lock ok
  | rollback target =>
    cases Option.some.inj taken
    by_cases here : id = target
    · subst here; rw [recordRelease]; exact .released
    · rw [recordReleaseOther here]; exact .same
  | edit request =>
    obtain ⟨p,sent,taken⟩ := Option.bind_eq_some_iff.mp taken
    split at taken <;> try contradiction
    split at taken
    · cases Option.some.inj taken; exact .same
    · split at taken <;> try contradiction
      rename_i free
      cases Option.some.inj taken
      exact editStep (by simpa using free)
  | setPriority target priority =>
    obtain ⟨o,row,taken⟩ := Option.bind_eq_some_iff.mp taken
    split at taken <;> try contradiction
    rename_i free
    simp only [not_or,Bool.not_eq_true,Option.isSome_eq_false_iff,Option.isNone_iff_eq_none] at free
    cases Option.some.inj taken
    by_cases here : id = target
    · subst here; rw [recordStore]; exact .prioritized row free.2
    · rw [recordStoreOther here]; exact .same
  | erase target retainUntil =>
    simp only [System.step] at taken
    split at taken <;> try contradiction
    rename_i free
    exact eraseStep (by simpa using free) taken
  | abandon request => cases Option.some.inj taken; exact .same

/-! ### Requests and the clock -/

inductive PendingStep (s : System) (request : RequestId) : Pending → Prop where
  | kept {p} (sent : s.pending request = some p) : PendingStep s request p
  | read {id handler} : PendingStep s request ⟨id,handler,s.orders id,none,none,s.changes id⟩
  | receiptRead {p} (sent : s.pending request = some p) (undecided : p.update = none) :
      PendingStep s request { p with receipt := some (s.receipts p.id).isSome }
  | decided {p u driver} (sent : s.pending request = some p) (undecided : p.update = none)
      (decision : p.handler.decide p.order driver (p.receipt.getD false) s.now = some (.update u)) :
      PendingStep s request { p with update := some u }

theorem pendingClose {s : System} {closed request p}
    (after : (s.close closed).pending request = some p) : s.pending request = some p := by
  by_cases here : request = closed
  · simp [System.close,here] at after
  · simpa [System.close,Function.update_of_ne here] using after

theorem pendingAwait {s : System} {awaited request p q}
    (after : (s.await awaited q).pending request = some p) :
    request = awaited ∧ p = q ∨ s.pending request = some p := by
  by_cases here : request = awaited
  · refine .inl ⟨here,?_⟩
    simpa [System.await,here,eq_comm] using after
  · refine .inr ?_
    simpa [System.await,Function.update_of_ne here] using after

theorem writeUpdateFrame {s : System} {id u assignable} :
    (s.writeUpdate id u assignable).now = s.now ∧ (s.writeUpdate id u assignable).pending = s.pending := by
  unfold System.writeUpdate
  split
  · exact ⟨rfl,rfl⟩
  · split <;> exact ⟨rfl,rfl⟩

theorem allocateOrderFrame {s : System} {id selected held} :
    (s.allocateOrder id selected held).now = s.now ∧
      (s.allocateOrder id selected held).pending = s.pending := by
  unfold System.allocateOrder
  split
  · split
    · exact ⟨rfl,rfl⟩
    · split <;> exact ⟨rfl,rfl⟩
  · exact ⟨rfl,rfl⟩

theorem saveReceiptFrame {s saved : System} {id receiptId user role body held}
    (ok : s.saveReceipt id receiptId user role body held = some saved) :
    saved.now = s.now ∧ saved.pending = s.pending := by
  obtain ⟨o,row,ok⟩ := Option.bind_eq_some_iff.mp ok
  split at ok <;> try contradiction
  split at ok
  · cases Option.some.inj ok; exact ⟨rfl,rfl⟩
  · split at ok <;> try contradiction
    obtain ⟨data,_,ok⟩ := Option.bind_eq_some_iff.mp ok
    cases Option.some.inj ok; exact ⟨rfl,rfl⟩

theorem editOrderFrame {s : System} {id existingOrder details} :
    (s.editOrder id existingOrder details).now = s.now ∧
      (s.editOrder id existingOrder details).pending = s.pending := by
  unfold System.editOrder
  split
  · exact ⟨rfl,rfl⟩
  · split <;> exact ⟨rfl,rfl⟩

theorem eraseOrderFrame {s t : System} {id retainUntil} (ok : s.eraseOrder id retainUntil = some t) :
    t.now = s.now ∧ t.pending = s.pending := by
  obtain ⟨o,row,ok⟩ := Option.bind_eq_some_iff.mp ok
  split at ok <;> try contradiction
  cases Option.some.inj ok; exact ⟨rfl,rfl⟩

theorem pendingStep {s a t} (taken : System.step s a = some t) {request p}
    (after : t.pending request = some p) : PendingStep s request p := by
  cases a with
  | tick elapsed => cases Option.some.inj taken; exact .kept after
  | createOrder target input synthetic =>
    simp only [System.step] at taken
    split at taken <;> try contradiction
    cases Option.some.inj taken; exact .kept after
  | read reader target handler =>
    simp only [System.step] at taken
    split at taken <;> try contradiction
    cases Option.some.inj taken
    rcases pendingAwait after with ⟨rfl,rfl⟩ | kept
    · exact .read
    · exact .kept kept
  | readReceipt reader =>
    obtain ⟨q,sent,taken⟩ := Option.bind_eq_some_iff.mp taken
    split at taken <;> try contradiction
    rename_i undecided
    cases Option.some.inj taken
    rcases pendingAwait after with ⟨rfl,rfl⟩ | kept
    · exact .receiptRead sent (by simpa using undecided)
    · exact .kept kept
  | decide reader driver =>
    obtain ⟨q,sent,taken⟩ := Option.bind_eq_some_iff.mp taken
    split at taken <;> try contradiction
    rename_i undecided
    split at taken <;> try contradiction
    · cases Option.some.inj taken
      exact .kept (pendingClose after)
    · rename_i u decision
      cases Option.some.inj taken
      rcases pendingAwait after with ⟨rfl,rfl⟩ | kept
      · exact .decided sent (by simpa using undecided) decision
      · exact .kept kept
  | write writer assignable =>
    obtain ⟨q,sent,taken⟩ := Option.bind_eq_some_iff.mp taken
    obtain ⟨u,decided,taken⟩ := Option.bind_eq_some_iff.mp taken
    split at taken <;> try contradiction
    cases Option.some.inj taken
    have kept := pendingClose after
    rw [writeUpdateFrame.2] at kept
    exact .kept kept
  | lock target =>
    simp only [System.step] at taken
    split at taken <;> try contradiction
    cases Option.some.inj taken; exact .kept after
  | allocate writer selected =>
    obtain ⟨q,sent,taken⟩ := Option.bind_eq_some_iff.mp taken
    obtain ⟨held,lock,taken⟩ := Option.bind_eq_some_iff.mp taken
    split at taken <;> try contradiction
    cases Option.some.inj taken
    have kept := pendingClose after
    exact .kept (allocateOrderFrame.2 ▸ kept)
  | saveReceipt target receiptId user role body =>
    obtain ⟨held,lock,taken⟩ := Option.bind_eq_some_iff.mp taken
    obtain ⟨saved,ok,taken⟩ := Option.bind_eq_some_iff.mp taken
    cases Option.some.inj taken
    have kept : saved.pending request = some p := after
    rw [(saveReceiptFrame ok).2] at kept
    exact .kept kept
  | rollback target => cases Option.some.inj taken; exact .kept after
  | edit writer =>
    obtain ⟨q,sent,taken⟩ := Option.bind_eq_some_iff.mp taken
    split at taken <;> try contradiction
    split at taken
    · cases Option.some.inj taken; exact .kept (pendingClose after)
    · split at taken <;> try contradiction
      cases Option.some.inj taken
      have kept := pendingClose after
      rw [editOrderFrame.2] at kept
      exact .kept kept
  | setPriority target priority =>
    obtain ⟨o,row,taken⟩ := Option.bind_eq_some_iff.mp taken
    split at taken <;> try contradiction
    cases Option.some.inj taken; exact .kept after
  | erase target retainUntil =>
    simp only [System.step] at taken
    split at taken <;> try contradiction
    rw [(eraseOrderFrame taken).2] at after
    exact .kept after
  | abandon closer => cases Option.some.inj taken; exact .kept (pendingClose after)

theorem clockStep {s a t} (taken : System.step s a = some t) : s.now ≤ t.now := by
  cases a with
  | tick elapsed => cases Option.some.inj taken; exact Nat.le_add_right ..
  | createOrder | read | lock =>
    simp only [System.step] at taken
    split at taken <;> try contradiction
    cases Option.some.inj taken; exact le_rfl
  | readReceipt request =>
    obtain ⟨p,sent,taken⟩ := Option.bind_eq_some_iff.mp taken
    split at taken <;> try contradiction
    cases Option.some.inj taken; exact le_rfl
  | decide request driver =>
    obtain ⟨p,sent,taken⟩ := Option.bind_eq_some_iff.mp taken
    split at taken <;> try contradiction
    split at taken <;> try contradiction
    all_goals cases Option.some.inj taken; exact le_rfl
  | write request assignable =>
    obtain ⟨p,sent,taken⟩ := Option.bind_eq_some_iff.mp taken
    obtain ⟨u,decided,taken⟩ := Option.bind_eq_some_iff.mp taken
    split at taken <;> try contradiction
    cases Option.some.inj taken
    exact writeUpdateFrame.1.ge
  | allocate request selected =>
    obtain ⟨p,sent,taken⟩ := Option.bind_eq_some_iff.mp taken
    obtain ⟨held,lock,taken⟩ := Option.bind_eq_some_iff.mp taken
    split at taken <;> try contradiction
    cases Option.some.inj taken
    exact allocateOrderFrame.1.ge
  | saveReceipt target receiptId user role body =>
    obtain ⟨held,lock,taken⟩ := Option.bind_eq_some_iff.mp taken
    obtain ⟨saved,ok,taken⟩ := Option.bind_eq_some_iff.mp taken
    cases Option.some.inj taken
    exact (saveReceiptFrame ok).1.ge
  | edit request =>
    obtain ⟨p,sent,taken⟩ := Option.bind_eq_some_iff.mp taken
    split at taken <;> try contradiction
    split at taken
    · cases Option.some.inj taken; exact le_rfl
    · split at taken <;> try contradiction
      cases Option.some.inj taken
      exact editOrderFrame.1.ge
  | setPriority target priority =>
    obtain ⟨o,row,taken⟩ := Option.bind_eq_some_iff.mp taken
    split at taken <;> try contradiction
    cases Option.some.inj taken; exact le_rfl
  | erase target retainUntil =>
    simp only [System.step] at taken
    split at taken <;> try contradiction
    exact (eraseOrderFrame taken).1.ge
  | rollback | abandon => cases Option.some.inj taken; exact le_rfl

/-! ### Where an update comes from -/

/-- Every update a request can decide on, as a function of the order it read. -/
inductive DecisionSource (o : Order) (receipt : Bool) (now : Time) : GuardedUpdate → Prop where
  | assigned (driver priority user role) (operational : o.orderStatus.final = false) :
      DecisionSource o receipt now (assignmentUpdate o driver priority user role now)
  | unassigned (priority user) (operational : o.orderStatus.final = false) :
      DecisionSource o receipt now (unassignmentUpdate o priority user)
  | acted {user target} (mine : o.assignedDriverId = some user)
      (allowed : evaluateOrderStatusTransition .driverAction o.orderStatus target
        (target.needsReceipt && receipt) = .allowed) :
      DecisionSource o receipt now (driverActionUpdate o user target now)
  | cancelled {target receipt'} (reason)
      (allowed : evaluateOrderStatusTransition .staffCancellation o.orderStatus target receipt' = .allowed) :
      DecisionSource o receipt now (cancellationUpdate o reason now)

theorem unassignSource {o priority user u} (ok : unassignDriver o priority user = .update u) :
    u = unassignmentUpdate o priority user := by
  by_cases dispatched : o.orderStatus = .dispatched
  · simp only [unassignDriver,dispatched,if_true] at ok
    split at ok; · contradiction
    split at ok <;> try contradiction
    exact (Decision.update.inj ok).symm
  · simp only [unassignDriver,dispatched,if_false,if_true] at ok
    exact (Decision.update.inj ok).symm

theorem assignSource {order body user driver now u} {receipt : Bool}
    (ok : assignDriverToOrder order body user driver now = .update u) :
    ∃ o, order = some o ∧ DecisionSource o receipt now u := by
  unfold assignDriverToOrder at ok
  split at ok; · contradiction
  split at ok; · contradiction
  rename_i o
  split at ok; · contradiction
  rename_i operational
  refine ⟨o,rfl,?_⟩
  have operational : o.orderStatus.final = false := by simpa using operational
  split at ok
  · rw [unassignSource ok]
    exact .unassigned _ _ operational
  · split at ok; · contradiction
    split at ok; · contradiction
    split at ok; · contradiction
    split at ok
    · split at ok <;> try contradiction
      cases Decision.update.inj ok; exact .assigned _ _ _ _ operational
    · cases Decision.update.inj ok; exact .assigned _ _ _ _ operational

theorem driverActionSource {order user action receipt now u}
    (ok : driverAction order user action receipt now = .update u) :
    ∃ o, order = some o ∧ DecisionSource o receipt now u := by
  unfold driverAction at ok
  split at ok; · contradiction
  split at ok; · contradiction
  split at ok; · contradiction
  rename_i mine
  split at ok; · contradiction
  split at ok <;> try contradiction
  rename_i allowed
  cases Decision.update.inj ok
  exact ⟨_,rfl,.acted (by simpa using mine) allowed⟩

theorem cancelSource {order role target reason now u} {receipt : Bool}
    (ok : updateOrderStatus order role target reason now = .update u) :
    ∃ o, order = some o ∧ DecisionSource o receipt now u := by
  unfold updateOrderStatus at ok
  split at ok; · contradiction
  split at ok; · contradiction
  split at ok; · contradiction
  split at ok <;> try contradiction
  rename_i allowed
  cases Decision.update.inj ok
  exact ⟨_,rfl,.cancelled _ allowed⟩

theorem decisionSource {handler : Handler} {order driver receipt now u}
    (ok : handler.decide order driver receipt now = some (.update u)) :
    ∃ o, order = some o ∧ DecisionSource o receipt now u := by
  cases handler with
  | assign body user => exact assignSource (Option.some.inj ok)
  | driverAction user action => exact driverActionSource (Option.some.inj ok)
  | cancel role target reason => exact cancelSource (Option.some.inj ok)
  | autoDispatch | edit => contradiction

end SpeedySweeties
