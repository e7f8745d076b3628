import SpeedySweeties.Order.Steps

/-! The lifecycle of an order over whole runs. A decision may be stale, but its
guard repeats the status it was made on, so each write still moves along the
graph; a receipt a request has seen is never deleted, so it is still there when
the request writes. -/
namespace SpeedySweeties

/-- Synthetic orders are created closed and stay outside the lifecycle. -/
def System.liveStatus (s : System) (id : OrderId) : Option OrderStatus :=
  if s.synthetic id then none else (s.orders id).map (·.orderStatus)

@[simp] theorem applyOrderStatus {d : OrderData} {o : Order} :
    (d.apply o).orderStatus = d.orderStatus.getD o.orderStatus := rfl

theorem decisionGuard {o receipt now u} (source : DecisionSource o receipt now u) :
    u.guard.orderStatus = some o.orderStatus := by
  cases source <;> rfl

theorem guardStatus {o o' receipt now u} (source : DecisionSource o receipt now u)
    (updatable : Updatable u.guard o') : o'.orderStatus = o.orderStatus :=
  updatable.1.1 _ (decisionGuard source)

theorem decisionOperational {o receipt now u} (source : DecisionSource o receipt now u) :
    o.orderStatus.final = false := by
  cases source with
  | assigned _ _ _ _ operational => exact operational
  | unassigned _ _ operational => exact operational
  | acted mine allowed =>
    rcases driverTransitions allowed with ⟨_,status | status⟩ | ⟨_,status⟩ | ⟨_,status⟩ <;>
      simp [status,OrderStatus.final]
  | cancelled reason allowed => exact (cancellationTarget allowed).2

theorem assignmentStatus {o driver priority user role now target}
    (moved : target ∈ (assignmentUpdate o driver priority user role now).data.orderStatus) :
    shouldMarkDispatched o = true ∧ target = .dispatched := by
  obtain ⟨_,_,_,_,times⟩ := timestampColumns o.toOrderLifecycleSnapshot .dispatched now
  obtain ⟨_,_,credit⟩ := attributionColumns o.dispatchedAt ⟨some user,some role⟩
  by_cases mark : shouldMarkDispatched o = true
  · have same : OrderStatus.dispatched = target := by
      simpa [assignmentUpdate,OrderData.spread,times,credit,mark] using moved
    exact ⟨mark,same.symm⟩
  · simp [assignmentUpdate,OrderData.spread,mark] at moved

theorem driverActionStatus {o user target now} :
    (driverActionUpdate o user target now).data.orderStatus = some target := by
  obtain ⟨_,_,_,_,times⟩ := timestampColumns o.toOrderLifecycleSnapshot target now
  obtain ⟨_,_,credit⟩ := attributionColumns o.dispatchedAt ⟨some user,some .driver⟩
  simp [driverActionUpdate,OrderData.spread,times,credit]

theorem decisionStatus {o receipt now u} (source : DecisionSource o receipt now u) :
    ∀ target ∈ u.data.orderStatus, target = o.orderStatus ∨
      Follows o.orderStatus target ∧ (target.needsReceipt = true → receipt = true) := by
  intro target moved
  cases source with
  | assigned driver priority user role operational =>
    obtain ⟨mark,rfl⟩ := assignmentStatus moved
    have early : o.orderStatus = .placed ∨ o.orderStatus = .dispatched := by
      simpa [shouldMarkDispatched] using mark
    rcases early with placed | dispatched
    · exact .inr ⟨placed ▸ .dispatch,by simp [OrderStatus.needsReceipt]⟩
    · exact .inl dispatched.symm
  | unassigned priority user operational =>
    by_cases dispatched : o.orderStatus = .dispatched
    · simp [unassignmentUpdate,OrderData.spread,dispatched] at moved
      subst moved
      exact .inr ⟨dispatched ▸ .unassign,by simp [OrderStatus.needsReceipt]⟩
    · simp [unassignmentUpdate,OrderData.spread,dispatched] at moved
  | acted mine allowed =>
    rw [driverActionStatus] at moved
    cases Option.some.inj moved
    obtain ⟨follows,needs⟩ := allowedFollows allowed
    exact .inr ⟨follows,fun need => by simpa [need] using needs need⟩
  | cancelled reason allowed =>
    cases Option.some.inj moved
    obtain ⟨rfl,_⟩ := cancellationTarget allowed
    obtain ⟨follows,_⟩ := allowedFollows allowed
    exact .inr ⟨follows,by simp [OrderStatus.needsReceipt]⟩

@[simp] theorem autoDispatchStatus {o driver held} :
    (autoDispatchUpdate o driver held).orderStatus = some .dispatched := by
  simp [autoDispatchUpdate,OrderData.spread]

theorem receiptUpdateSource {o now data} (ok : receiptUpdate o now = some data) :
    o.orderStatus ≠ .accepted ∧ data = {} ∨
    o.orderStatus = .accepted ∧ data = ({ orderStatus := some .outForDelivery } : OrderData).spread
      (buildOrderTransitionTimestampData o.toOrderLifecycleSnapshot .outForDelivery now) := by
  unfold receiptUpdate at ok
  split at ok
  · rename_i other
    exact .inl ⟨other,(Option.some.inj ok).symm⟩
  · rename_i accepted
    split at ok <;> try contradiction
    exact .inr ⟨not_not.mp accepted,(Option.some.inj ok).symm⟩

theorem receiptStatus {o now data} (ok : receiptUpdate o now = some data) :
    (data.apply o).orderStatus = o.orderStatus ∨
      Follows o.orderStatus (data.apply o).orderStatus := by
  rcases receiptUpdateSource ok with ⟨_,rfl⟩ | ⟨accepted,rfl⟩
  · exact .inl rfl
  · obtain ⟨_,_,_,_,times⟩ := timestampColumns o.toOrderLifecycleSnapshot .outForDelivery now
    simp only [applyOrderStatus,OrderData.spread,times,accepted]
    exact .inr .pickUp

/-! ### The invariant -/

structure LifecyclePending (s : System) (p : Pending) : Prop where
  receiptSeen : p.receipt = some true → (s.receipts p.id).isSome
  decision : ∀ u ∈ p.update, ∃ o receipt decidedAt, p.order = some o ∧
    DecisionSource o receipt decidedAt u ∧ (receipt = true → (s.receipts p.id).isSome)

structure Lifecycle (s : System) : Prop where
  receiptRow : ∀ id o, s.orders id = some o → o.orderStatus.needsReceipt = true → (s.receipts id).isSome
  requests : ∀ request p, s.pending request = some p → LifecyclePending s p

theorem receiptStep {s a id r} (step : RecordStep s a id r) (present : (s.receipts id).isSome) :
    r.receipt.isSome := by
  cases step with
  | receiptSaved | receiptStored => rfl
  | erased => simpa using present
  | _ => exact present

theorem receiptsKept {s a t} (taken : System.step s a = some t) {id} (present : (s.receipts id).isSome) :
    (t.receipts id).isSome := receiptStep (recordStep taken id) present

theorem syntheticStep {s a id r o} (step : RecordStep s a id r) (row : s.orders id = some o) :
    r.synthetic = s.synthetic id := by
  cases step with
  | created absent => simp [row] at absent
  | _ => rfl

theorem statusStep {s a id r o} (inv : Lifecycle s) (step : RecordStep s a id r)
    (row : s.orders id = some o) :
    ∃ o', r.order = some o' ∧ (o'.orderStatus = o.orderStatus ∨
      Follows o.orderStatus o'.orderStatus ∧
        (o'.orderStatus.needsReceipt = true → r.receipt.isSome)) := by
  cases step with
  | same | locked | released | receiptSaved => exact ⟨o,row,.inl rfl⟩
  | created absent => simp [row] at absent
  | @written request assignable p u o' action sent target decided free here updatable =>
    cases row.symm.trans here
    obtain ⟨before,receipt,decidedAt,_,source,seen⟩ := (inv.requests _ _ sent).decision u decided
    refine ⟨_,rfl,?_⟩
    have current := guardStatus source updatable
    cases moved : u.data.orderStatus with
    | none => exact .inl (by simp [moved])
    | some status =>
      rcases decisionStatus source status moved with same | ⟨follows,needs⟩
      · exact .inl (by simp [moved,same,current])
      · refine .inr ⟨by simpa [moved,current] using follows,fun need => ?_⟩
        exact target ▸ seen (needs (by simpa [moved] using need))
  | allocated lock here placed =>
    cases row.symm.trans here
    refine ⟨_,rfl,.inr ⟨?_,by simp [OrderStatus.needsReceipt]⟩⟩
    simpa [placed] using Follows.dispatch
  | receiptStored lock here real kept update =>
    cases row.symm.trans here
    refine ⟨_,rfl,?_⟩
    rcases receiptStatus update with same | follows
    · exact .inl same
    · exact .inr ⟨follows,fun _ => rfl⟩
  | edited here => cases row.symm.trans here; exact ⟨_,rfl,.inl rfl⟩
  | prioritized here => cases row.symm.trans here; exact ⟨_,rfl,.inl rfl⟩
  | erased here => cases row.symm.trans here; exact ⟨_,rfl,.inl rfl⟩

theorem lifecycleInitial (start) : Lifecycle (System.initial start) where
  receiptRow := by intro id o row; contradiction
  requests := by intro request p sent; contradiction

theorem LifecyclePending.mono {s a t p} (taken : System.step s a = some t)
    (h : LifecyclePending s p) : LifecyclePending t p where
  receiptSeen seen := receiptsKept taken (h.receiptSeen seen)
  decision u decided := by
    obtain ⟨o,receipt,decidedAt,read,source,seen⟩ := h.decision u decided
    exact ⟨o,receipt,decidedAt,read,source,fun need => receiptsKept taken (seen need)⟩

theorem createdStatus {id input synthetic now} :
    (if synthetic = true then finishSyntheticOrder (createdOrder id input now) now
      else createdOrder id input now).orderStatus = if synthetic = true then .cancelled else .placed := by
  cases synthetic <;> rfl

theorem createdFrom {s a id r o} (step : RecordStep s a id r) (absent : s.orders id = none)
    (row : r.order = some o) : ∃ input synthetic, r.synthetic = synthetic ∧
      o = if synthetic = true then finishSyntheticOrder (createdOrder id input s.now) s.now
        else createdOrder id input s.now := by
  cases step with
  | same | released | receiptSaved => simp [System.record,absent] at row
  | created => exact ⟨_,_,rfl,(Option.some.inj row).symm⟩
  | written _ _ _ _ _ here | locked here | allocated _ here | receiptStored _ here
  | edited here | prioritized here | erased here => simp [absent] at here

theorem lifecycleStep {s a t} (inv : Lifecycle s) (taken : System.step s a = some t) : Lifecycle t where
  receiptRow id o row need := by
    have step := recordStep taken id
    cases before : s.orders id with
    | some old =>
      obtain ⟨o',after,moved⟩ := statusStep inv step before
      cases Option.some.inj (row.symm.trans after)
      rcases moved with same | ⟨_,needs⟩
      · exact receiptsKept taken (inv.receiptRow id old before (same ▸ need))
      · exact needs need
    | none =>
      obtain ⟨input,synthetic,_,rfl⟩ := createdFrom step before row
      rw [createdStatus] at need
      cases synthetic <;> simp [OrderStatus.needsReceipt] at need
  requests request p sent := by
    cases pendingStep taken sent with
    | kept before => exact (inv.requests _ _ before).mono taken
    | read => exact ⟨by simp,by simp⟩
    | receiptRead before undecided =>
      have old := (inv.requests _ _ before).mono taken
      refine ⟨fun seen => ?_,old.decision⟩
      exact receiptsKept taken (by simpa using seen)
    | @decided q u driver before undecided decision =>
      have old := (inv.requests _ _ before).mono taken
      refine ⟨old.receiptSeen,?_⟩
      intro u' decided
      cases Option.some.inj decided
      obtain ⟨o,read,source⟩ := decisionSource decision
      refine ⟨o,_,_,read,source,fun seen => old.receiptSeen ?_⟩
      cases receipt : q.receipt with
      | none => simp [receipt] at seen
      | some present => simpa [receipt] using seen

/-! ### Whole runs -/

theorem liveStatusSource {s : System} {id status} (live : s.liveStatus id = some status) :
    s.synthetic id = false ∧ ∃ o, s.orders id = some o ∧ o.orderStatus = status := by
  unfold System.liveStatus at live
  split at live; · contradiction
  rename_i real
  exact ⟨by simpa using real,Option.map_eq_some_iff.mp live⟩

theorem liveStatusOf {s : System} {id o} (real : s.synthetic id = false) (row : s.orders id = some o) :
    s.liveStatus id = some o.orderStatus := by
  simp [System.liveStatus,real,row]

theorem liveStatusMoves {s a t id status} (inv : Lifecycle s) (taken : System.step s a = some t)
    (live : s.liveStatus id = some status) :
    ∃ after, t.liveStatus id = some after ∧ (after = status ∨ Follows status after) := by
  obtain ⟨real,o,row,rfl⟩ := liveStatusSource live
  have step := recordStep taken id
  obtain ⟨o',row',moved⟩ := statusStep inv step row
  have real' : t.synthetic id = false := (syntheticStep step row).trans real
  exact ⟨_,liveStatusOf real' row',moved.imp_right And.left⟩

theorem liveStatusBorn {s a t id} (taken : System.step s a = some t) (unborn : s.liveStatus id = none) :
    t.liveStatus id = none ∨ t.liveStatus id = some initialOrderStatus := by
  have step := recordStep taken id
  cases after : t.orders id with
  | none => exact .inl (by simp [System.liveStatus,after])
  | some o' =>
    cases before : s.orders id with
    | some o =>
      have kept : t.synthetic id = s.synthetic id := syntheticStep step before
      have synthetic : s.synthetic id = true := by
        by_contra real
        simp [System.liveStatus,real,before] at unborn
      exact .inl (by simp [System.liveStatus,kept,synthetic])
    | none =>
      obtain ⟨input,synthetic,flag,rfl⟩ := createdFrom step before after
      have flag : t.synthetic id = synthetic := flag
      cases synthetic
      · exact .inr ((liveStatusOf flag after).trans (congrArg some createdStatus))
      · exact .inl (by simp [System.liveStatus,flag])

theorem lifecycleReachable {start s} (reached : System.Reachable start s) : Lifecycle s :=
  Transition.Reachable.invariant reached (lifecycleInitial start) fun _ _ _ => lifecycleStep

/-- In every run each real order starts as placed, moves along the lifecycle
graph, never leaves a final status and is under way or delivered only with a
stored receipt. Erasure keeps the status, so the history goes on across it. -/
theorem orderLifecycle {start actions states}
    (ran : Transition.visited System.step (System.initial start) actions = some states) (id : OrderId) :
    let statuses := Transition.history (fun s => s.liveStatus id) states
    statuses.IsChain Follows ∧
    (statuses = [] ∨ ∃ later, statuses = initialOrderStatus::later) ∧
    (∀ before status after, statuses = before ++ status::after → status.final = true → after = []) ∧
    ∀ s ∈ states, ∀ o, s.orders id = some o → o.orderStatus.needsReceipt = true →
      (s.receipts id).isSome := by
  intro statuses
  obtain ⟨later,rfl⟩ := Transition.visitedHead ran
  have chain := Transition.visitedChain .start ran
  have born : ∀ s t, (System.Reachable start s ∧ ∃ a, System.step s a = some t) →
      s.liveStatus id = none → t.liveStatus id = none ∨ t.liveStatus id = some initialOrderStatus :=
    fun s t ⟨_,_,taken⟩ => liveStatusBorn taken
  have moves : ∀ s t status, (System.Reachable start s ∧ ∃ a, System.step s a = some t) →
      s.liveStatus id = some status →
      ∃ after, t.liveStatus id = some after ∧ (after = status ∨ Follows status after) :=
    fun s t status ⟨reached,_,taken⟩ => liveStatusMoves (lifecycleReachable reached) taken
  have path := Transition.historyPath born moves rfl chain
  have edges : statuses.IsChain Follows := path.1
  refine ⟨edges,path.2,?_,?_⟩
  · intro before status after split
    rw [split] at edges
    exact fun final => Transition.pathEnds edges.right_of_append fun _ => finalNeverLeft final
  · intro s mem o row
    exact (lifecycleReachable (Transition.visitedReachable .start ran s mem)).receiptRow id o row

def sampleOrder : NewOrder where
  orderNumber := 7
  contact := ⟨some "customer","Jo","416 555 0100","jo@example.com","1 King St",none,none,"Toronto","ON",none⟩
  content := ⟨"Fudge",none,.cash,.iosApp,none,none,none,none,none⟩
  location := ⟨none,none,none,none,none,none⟩
  campaign := ⟨none,none,none,none,none,none⟩

def sampleReceipt : ReceiptBody where
  toReceiptAmounts := ⟨1200,500,300,2000⟩
  notes := some "Extra stops: 1"
  positive := by decide
  sums := by decide
  bounded := by decide

def deliveryRun : List Action :=
  [.createOrder "order" sampleOrder false,
   .read 0 "order" (.assign ⟨some "driver",none⟩ (some ("staff",.dispatcher))),.tick 5,
   .decide 0 (some ⟨"driver",true,some 5⟩),.write 0 true,
   .read 1 "order" (.driverAction (some "driver") .accepted),.tick 5,.decide 1 none,.write 1 true,
   .lock "order",.saveReceipt "order" "receipt" "driver" .driver sampleReceipt,
   .read 2 "order" (.driverAction (some "driver") .delivered),.readReceipt 2,.tick 5,
   .decide 2 none,.write 2 true]

theorem deliveryRunLifecycle : ∃ states,
    Transition.visited System.step (System.initial 0) deliveryRun = some states ∧
    Transition.history (fun s => s.liveStatus "order") states =
      [.placed,.dispatched,.accepted,.outForDelivery,.delivered] ∧
    (Transition.history (fun s => s.liveStatus "order") states).IsChain Follows :=
  ⟨_,rfl,rfl,(orderLifecycle
    (show Transition.visited System.step (System.initial 0) deliveryRun = some _ from rfl) "order").1⟩

end SpeedySweeties
