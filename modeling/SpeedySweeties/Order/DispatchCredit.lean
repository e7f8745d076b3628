import SpeedySweeties.Order.Milestones

/-! Who dispatched an order and when. The dispatch time is copied from what a request has
read, source and user are written only by a request that read an order not yet dispatched.
The log keeps, for each dispatch, the time, the source and the user it used itself. -/
namespace SpeedySweeties

structure DispatchCredit where
  dispatchedAt : Time
  dispatchSource : Option DispatchSource
  dispatchedByUserId : Option UserId
  deriving DecidableEq, Repr

def Order.credit (o : Order) : Option DispatchCredit :=
  o.dispatchedAt.map fun time => ⟨time,o.dispatchSource,o.dispatchedByUserId⟩

def OrderData.credit (data : OrderData) : Option DispatchCredit :=
  data.dispatchedAt.join.map fun time => ⟨time,data.dispatchSource.join,data.dispatchedByUserId.join⟩

abbrev CreditLog := List (OrderId × DispatchCredit)

/-- The dispatch a step commits: the write of a request that read an order not yet
dispatched, or an allocation. -/
def System.dispatches (s : System) : Action → CreditLog
  | .write request assignable => match s.pending request with
    | none => []
    | some p => match p.update,p.order,s.orders p.id with
      | some u,some read,some o =>
        if (u.locksDriver.isSome → assignable = true) ∧ Updatable u.guard o ∧ read.dispatchedAt = none then
          (u.data.credit.map (p.id,·)).toList
        else []
      | _,_,_ => []
  | .allocate request selected => match s.pending request with
    | none => []
    | some p => match s.locked p.id,s.orders p.id with
      | some allocationTime,some o => match autoDispatchTransaction o selected allocationTime with
        | .error _ => []
        | .ok data => if o.privacyErasedAt = none then (data.credit.map (p.id,·)).toList else []
      | _,_ => []
  | _ => []

structure CreditedSystem where
  system : System
  log : CreditLog

def CreditedSystem.step (s : CreditedSystem) (a : Action) : Option CreditedSystem :=
  (s.system.step a).map fun t => ⟨t,s.system.dispatches a ++ s.log⟩

/-- The stored time, source and user are those of one dispatch. -/
def CreditedSystem.SingleDispatch (s : CreditedSystem) : Prop :=
  ∀ id o c, s.system.orders id = some o → o.credit = some c → (id,c) ∈ s.log

/-- A write that copies the dispatch time its request read finds that time in the row, or
the source and the user that go with it. -/
def CreditedSystem.SameDispatch (s : CreditedSystem) : Action → Prop
  | .write request _ => match s.system.pending request with
    | none => True
    | some p => match p.update,p.order,s.system.orders p.id with
      | some u,some read,some o =>
        Updatable u.guard o → read.dispatchedAt.isSome → u.data.dispatchedAt = some read.dispatchedAt →
          o.dispatchedAt = read.dispatchedAt ∨
          o.dispatchSource = read.dispatchSource ∧ o.dispatchedByUserId = read.dispatchedByUserId
      | _,_,_ => True
  | _ => True

instance (s : CreditedSystem) (a : Action) : Decidable (s.SameDispatch a) := by
  unfold CreditedSystem.SameDispatch
  split
  · split
    · infer_instance
    · split <;> infer_instance
  · infer_instance

/-! ### What an update writes of the three columns -/

inductive CreditWrite (read : Order) (data : OrderData) : Prop where
  | kept (time : data.dispatchedAt = none) (source : data.dispatchSource = none) (user : data.dispatchedByUserId = none)
      (status : data.orderStatus ≠ some .placed)
  | cleared (time : data.dispatchedAt = some none) (source : data.dispatchSource = some none)
      (user : data.dispatchedByUserId = some none)
  | dispatched {now} (placed : read.orderStatus = .placed) (unset : read.dispatchedAt = none)
      (time : data.dispatchedAt = some (some now)) (status : data.orderStatus = some .dispatched)
  | copied {time} (set : read.dispatchedAt = some time) (copies : data.dispatchedAt = some (some time))
      (source : data.dispatchSource = none) (user : data.dispatchedByUserId = none)
      (status : data.orderStatus ≠ some .placed)

theorem assignmentCredit {o : Order} {driver : UserId} {priority : Option OrderPriority} {user : UserId} {role : UserRole}
    {now later : Time} (read : Milestones o.toOrderDispatch later) :
    CreditWrite o (assignmentUpdate o driver priority user role now).data := by
  obtain ⟨_,_,credit⟩ := attributionColumns o.dispatchedAt ⟨some user,some role⟩
  cases status : o.orderStatus with
  | placed =>
    have unset := (read.placed status).2
    rw [unset] at credit
    refine @CreditWrite.dispatched _ _ now status unset ?_ ?_ <;>
      simp [assignmentUpdate,OrderData.spread,shouldMarkDispatched,status,credit,buildOrderTransitionTimestampData,unset]
  | dispatched =>
    obtain ⟨d,set⟩ := Option.ne_none_iff_exists'.mp (read.dispatched status).2.1
    refine .copied set ?_ ?_ ?_ ?_ <;>
      simp [assignmentUpdate,OrderData.spread,shouldMarkDispatched,status,getFirstDispatchAttribution,
        buildOrderTransitionTimestampData,set]
  | _ => refine .kept ?_ ?_ ?_ ?_ <;> simp [assignmentUpdate,OrderData.spread,shouldMarkDispatched,status]

theorem unassignmentCredit {o : Order} {priority : Option OrderPriority} {user : UserId} :
    CreditWrite o (unassignmentUpdate o priority user).data := by
  by_cases dispatched : o.orderStatus = .dispatched
  · refine .cleared ?_ ?_ ?_ <;> simp [unassignmentUpdate,OrderData.spread,dispatched]
  · refine .kept ?_ ?_ ?_ ?_ <;> simp [unassignmentUpdate,OrderData.spread,dispatched]

theorem Milestones.actedSet {o : OrderDispatch} {now : Time} {user : UserId} {target : OrderStatus} {receipt : Bool}
    (read : Milestones o now) (mine : o.assignedDriverId = some user)
    (allowed : evaluateOrderStatusTransition .driverAction o.orderStatus target receipt = .allowed) :
    ∃ d, o.dispatchedAt = some d := by
  rcases driverTransitions allowed with ⟨_,placed | dispatched⟩ | ⟨_,accepted⟩ | ⟨_,out⟩
  · simp [(read.placed placed).1] at mine
  · exact Option.ne_none_iff_exists'.mp (read.dispatched dispatched).2.1
  · obtain ⟨d,_,set,_⟩ := read.acceptedTimes accepted
    exact ⟨d,set⟩
  · obtain ⟨d,_,_,set,_⟩ := read.outTimes out
    exact ⟨d,set⟩

theorem driverActionCredit {o : Order} {user : UserId} {target : OrderStatus} {now later : Time} {receipt : Bool}
    (read : Milestones o.toOrderDispatch later) (mine : o.assignedDriverId = some user)
    (allowed : evaluateOrderStatusTransition .driverAction o.orderStatus target receipt = .allowed) :
    CreditWrite o (driverActionUpdate o user target now).data := by
  obtain ⟨d,set⟩ := read.actedSet mine allowed
  refine .copied set ?_ ?_ ?_ ?_ <;>
    rcases driverTransitions allowed with ⟨rfl,_⟩ | ⟨rfl,_⟩ | ⟨rfl,_⟩ <;>
      simp [driverActionUpdate,OrderData.spread,getFirstDispatchAttribution,buildOrderTransitionTimestampData,set]

theorem decisionCredit {o : Order} {receipt : Bool} {now later : Time} {u : GuardedUpdate}
    (source : DecisionSource o receipt now u) (read : Milestones o.toOrderDispatch later) : CreditWrite o u.data := by
  cases source with
  | assigned => exact assignmentCredit read
  | unassigned => exact unassignmentCredit
  | acted mine allowed => exact driverActionCredit read mine allowed
  | cancelled reason allowed =>
    refine .kept rfl rfl rfl ?_
    simp [cancellationUpdate]

/-! ### Rows, snapshots and the log -/

structure Credited (orders : OrderId → Option Order) (pending : RequestId → Option Pending) (log : CreditLog) : Prop where
  rows : ∀ id o c, orders id = some o → o.credit = some c → (id,c) ∈ log
  reads : ∀ request p read c, pending request = some p → p.order = some read → read.credit = some c → (p.id,c) ∈ log
  /-- A placed order carries no attribution. -/
  placed : ∀ id o, orders id = some o → o.orderStatus = .placed → o.dispatchSource = none ∧ o.dispatchedByUserId = none

namespace Credited
variable {orders : OrderId → Option Order} {pending : RequestId → Option Pending} {log new : CreditLog} {id : OrderId}
  {request : RequestId} {o after : Order} {p q : Pending}

theorem store (h : Credited orders pending log) (new : CreditLog) (credit : ∀ c, after.credit = some c → (id,c) ∈ new ++ log)
    (placed : after.orderStatus = .placed → after.dispatchSource = none ∧ after.dispatchedByUserId = none) :
    Credited (Function.update orders id (some after)) pending (new ++ log) where
  rows k o c row set := by
    rw [Function.update_apply] at row
    split at row
    · rename_i same
      cases row
      exact same ▸ credit c set
    · exact List.mem_append_right _ (h.rows k o c row set)
  reads x q read c sent was set := List.mem_append_right _ (h.reads x q read c sent was set)
  placed k o row status := by
    rw [Function.update_apply] at row
    split at row
    · cases row
      exact placed status
    · exact h.placed k o row status

theorem storeKept (h : Credited orders pending log) (after : Order) (row : orders id = some o)
    (credit : after.credit = o.credit ∨ after.credit = none)
    (placed : after.orderStatus = .placed → o.orderStatus = .placed ∧ after.dispatchSource = o.dispatchSource ∧
      after.dispatchedByUserId = o.dispatchedByUserId) :
    Credited (Function.update orders id (some after)) pending log := by
  refine h.store [] (fun c set => ?_) fun status => ?_
  · rcases credit with same | unset
    · exact h.rows id o c row (same.symm.trans set)
    · rw [unset] at set
      contradiction
  · obtain ⟨before,source,user⟩ := placed status
    rw [source,user]
    exact h.placed id o row before

theorem grow (h : Credited orders pending log) : Credited orders pending (new ++ log) where
  rows k o c row set := List.mem_append_right _ (h.rows k o c row set)
  reads x q read c sent was set := List.mem_append_right _ (h.reads x q read c sent was set)
  placed := h.placed

theorem close (h : Credited orders pending log) : Credited orders (Function.update pending request none) log where
  rows := h.rows
  reads x q read c sent was set := by
    rw [Function.update_apply] at sent
    split at sent
    · contradiction
    · exact h.reads x q read c sent was set
  placed := h.placed

theorem await (h : Credited orders pending log) (known : ∀ read c, q.order = some read → read.credit = some c →
    (q.id,c) ∈ log) : Credited orders (Function.update pending request (some q)) log where
  rows := h.rows
  reads x r read c sent was set := by
    rw [Function.update_apply] at sent
    split at sent
    · cases sent
      exact known read c was set
    · exact h.reads x r read c sent was set
  placed := h.placed

theorem unmoved {data : OrderData} (target : data.orderStatus ≠ some .placed)
    (placed : (data.apply o).orderStatus = .placed) : o.orderStatus = .placed := by
  rw [applyOrderStatus] at placed
  cases status : data.orderStatus with
  | none => simpa [status] using placed
  | some moved =>
    rw [status] at target placed
    exact absurd (congrArg some placed) target

theorem write {u : GuardedUpdate} {read : Order} (h : Credited orders pending log) (sent : pending request = some p)
    (was : p.order = some read) (row : orders p.id = some o) (status : o.orderStatus = read.orderStatus)
    (writes : CreditWrite read u.data)
    (same : read.dispatchedAt.isSome → u.data.dispatchedAt = some read.dispatchedAt → o.dispatchedAt = read.dispatchedAt ∨
      o.dispatchSource = read.dispatchSource ∧ o.dispatchedByUserId = read.dispatchedByUserId) :
    Credited (Function.update orders p.id (some (u.data.apply o))) pending
      ((if read.dispatchedAt = none then (u.data.credit.map (p.id,·)).toList else []) ++ log) := by
  cases writes with
  | kept time source user target =>
    refine h.storeKept _ row (.inl ?_) (fun placed => ?_) |>.grow
    · simp [Order.credit,OrderData.apply,OrderData.applyDispatch,time,source,user]
    · exact ⟨unmoved target placed,by simp [OrderData.apply,OrderData.applyDispatch,source],
        by simp [OrderData.apply,OrderData.applyDispatch,user]⟩
  | cleared time source user =>
    refine h.store _ (fun c set => ?_) fun _ => ?_
    · simp [Order.credit,OrderData.apply,OrderData.applyDispatch,time] at set
    · simp [OrderData.apply,OrderData.applyDispatch,source,user]
  | @dispatched now placed unset time target =>
    obtain ⟨noSource,noUser⟩ := h.placed p.id o row (status.trans placed)
    refine h.store _ (fun c set => List.mem_append_left _ ?_) fun status => ?_
    · rw [if_pos unset]
      simp only [Order.credit,OrderData.apply,OrderData.applyDispatch,time,noSource,noUser,Option.getD_some,
        Option.map_some,Option.some.injEq] at set
      subst set
      cases source : u.data.dispatchSource <;> cases user : u.data.dispatchedByUserId <;>
        simp [OrderData.credit,time,source,user]
    · simp [OrderData.apply,OrderData.applyDispatch,target] at status
  | @copied time set copies source user target =>
    have after : (u.data.apply o).credit = some ⟨time,o.dispatchSource,o.dispatchedByUserId⟩ := by
      simp [Order.credit,OrderData.apply,OrderData.applyDispatch,copies,source,user]
    refine h.store _ (fun c credit => List.mem_append_right _ ?_) fun placed => ?_
    · cases Option.some.inj (after.symm.trans credit)
      rcases same (by simp [set]) (by rw [copies,set]) with sameTime | ⟨sameSource,sameUser⟩
      · exact h.rows p.id o _ row (by simp [Order.credit,sameTime,set])
      · exact h.reads request p read _ sent was (by simp [Order.credit,set,sameSource,sameUser])
    · obtain ⟨noSource,noUser⟩ := h.placed p.id o row (unmoved target placed)
      simp [OrderData.apply,OrderData.applyDispatch,source,user,noSource,noUser]

end Credited

/-! ### Runs -/

namespace CreditedSystem
variable {s t : CreditedSystem} {a : Action}

def initial (start : Time) : CreditedSystem := ⟨System.initial start,[]⟩

abbrev Sound (s : CreditedSystem) : Prop := Credited s.system.orders s.system.pending s.log

theorem allocateCredited {request : RequestId} {selected : Option UserId} {p : Pending} {held : Time}
    (stamped : StampedSystem s.system) (h : Sound s) (sent : s.system.pending request = some p)
    (lock : s.system.locked p.id = some held) :
    Credited (s.system.allocateOrder p.id selected held).orders (s.system.allocateOrder p.id selected held).pending
      (s.system.dispatches (.allocate request selected) ++ s.log) := by
  cases row : s.system.orders p.id with
  | none =>
    simp only [System.allocateOrder,System.dispatches,sent,lock,row]
    exact h
  | some o =>
    cases ok : autoDispatchTransaction o selected held with
    | error _ =>
      cases selected <;> simp only [System.allocateOrder,System.dispatches,sent,lock,row,ok] <;> exact h
    | ok data =>
      cases selected with
      | none =>
        simp only [System.allocateOrder,System.dispatches,sent,lock,row,ok]
        split
        · exact h.grow
        · exact h
      | some driver =>
        obtain ⟨placed,free,rfl⟩ := autoDispatchTransactionSource ok rfl
        simp only [System.allocateOrder,System.dispatches,sent,lock,row,ok]
        split
        · rename_i updatable
          rw [if_pos updatable.2]
          have unset := (((stamped.rows p.id o row).milestones updatable.2).placed placed).2
          have credit : (autoDispatchUpdate o driver held).credit = some ⟨held,some .auto,none⟩ := by
            simp [OrderData.credit,autoDispatchUpdate,OrderData.spread,buildOrderTransitionTimestampData,unset]
          refine h.store _ (fun c set => List.mem_append_left _ ?_) fun status => ?_
          · have after : ((autoDispatchUpdate o driver held).apply o).credit = some ⟨held,some .auto,none⟩ := by
              simp [Order.credit,OrderData.apply,OrderData.applyDispatch,autoDispatchUpdate,OrderData.spread,
                buildOrderTransitionTimestampData,unset]
            cases Option.some.inj (after.symm.trans set)
            simp [credit]
          · simp [OrderData.apply,OrderData.applyDispatch,autoDispatchUpdate,OrderData.spread] at status
        · rename_i refused
          rw [if_neg fun kept => refused ⟨⟨by simp [placed],by simp [free]⟩,kept⟩]
          exact h

theorem saveReceiptCredited {id : OrderId} {receiptId : String} {user : UserId} {role : UserRole} {body : ReceiptBody}
    {now : Time} {saved : System} (stamped : StampedSystem s.system) (h : Sound s)
    (done : s.system.saveReceipt id receiptId user role body now = some saved) :
    Credited saved.orders saved.pending s.log := by
  obtain ⟨o,row,done⟩ := Option.bind_eq_some_iff.mp done
  split at done
  · contradiction
  rename_i allowed
  have kept : o.privacyErasedAt = none := by simpa using (not_or.mp allowed).2
  split at done
  · cases done
    exact h
  split at done
  · contradiction
  obtain ⟨data,update,done⟩ := Option.bind_eq_some_iff.mp done
  cases done
  rcases receiptUpdateSource update with ⟨_,rfl⟩ | ⟨accepted,rfl⟩
  · exact h.storeKept _ row (.inl rfl) fun placed => ⟨placed,rfl,rfl⟩
  · obtain ⟨d,_,set,_⟩ := ((stamped.rows id o row).milestones kept).acceptedTimes accepted
    refine h.storeKept _ row (.inl ?_) fun placed => ?_
    · simp [Order.credit,OrderData.apply,OrderData.applyDispatch,OrderData.spread,buildOrderTransitionTimestampData,set]
    · simp [OrderData.apply,OrderData.applyDispatch,OrderData.spread,buildOrderTransitionTimestampData] at placed

theorem soundStep {after : System} (stamped : StampedSystem s.system) (lifecycle : Lifecycle s.system) (h : Sound s)
    (same : s.SameDispatch a) (taken : s.system.step a = some after) :
    Credited after.orders after.pending (s.system.dispatches a ++ s.log) := by
  cases a with
  | tick elapsed =>
    cases taken
    exact h
  | createOrder id input synthetic =>
    simp only [System.step] at taken
    split at taken
    · contradiction
    · cases taken
      refine Credited.store h [] (fun c set => ?_) fun placed => ?_
      · cases synthetic <;> simp [Order.credit,createdOrder,finishSyntheticOrder] at set
      · cases synthetic <;> exact ⟨rfl,rfl⟩
  | read request id handler =>
    simp only [System.step] at taken
    split at taken
    · contradiction
    · cases taken
      exact h.await fun read c row set => h.rows id read c row set
  | readReceipt request =>
    obtain ⟨p,sent,taken⟩ := Option.bind_eq_some_iff.mp taken
    split at taken
    · contradiction
    · cases taken
      exact h.await fun read c was set => h.reads request p read c sent was set
  | decide request driver =>
    obtain ⟨p,sent,taken⟩ := Option.bind_eq_some_iff.mp taken
    split at taken
    · contradiction
    split at taken
    · contradiction
    · cases taken
      exact h.close
    · cases taken
      exact h.await fun read c was set => h.reads request p read c sent was set
  | write request assignable =>
    obtain ⟨p,sent,taken⟩ := Option.bind_eq_some_iff.mp taken
    obtain ⟨u,decided,taken⟩ := Option.bind_eq_some_iff.mp taken
    split at taken
    · contradiction
    cases taken
    obtain ⟨read,receipt,decidedAt,was,source,_⟩ := (lifecycle.requests request p sent).decision u decided
    cases row : s.system.orders p.id with
    | none =>
      simp only [System.dispatches,sent,decided,was,row,System.writeUpdate]
      exact h.close
    | some o =>
      simp only [System.dispatches,sent,decided,was,row,System.writeUpdate]
      split
      · rename_i ready
        have writes := decisionCredit source ((stamped.reads request p read sent was).decided source)
        simp only [CreditedSystem.SameDispatch,sent,decided,was,row] at same
        have written := h.write sent was row (guardStatus source ready.2) writes (same ready.2)
        have own : ((u.locksDriver.isSome → assignable = true) ∧ Updatable u.guard o ∧ read.dispatchedAt = none) ↔
            read.dispatchedAt = none := ⟨fun all => all.2.2,fun unset => ⟨ready.1,ready.2,unset⟩⟩
        simp only [own]
        exact written.close
      · rename_i missed
        rw [if_neg fun all => missed ⟨all.1,all.2.1⟩]
        exact h.close
  | lock id =>
    simp only [System.step] at taken
    split at taken
    · contradiction
    · cases taken
      exact h
  | allocate request selected =>
    obtain ⟨p,sent,taken⟩ := Option.bind_eq_some_iff.mp taken
    obtain ⟨held,lock,taken⟩ := Option.bind_eq_some_iff.mp taken
    split at taken
    · contradiction
    cases taken
    exact (allocateCredited stamped h sent lock).close
  | saveReceipt id receiptId user role body =>
    obtain ⟨now,lock,taken⟩ := Option.bind_eq_some_iff.mp taken
    obtain ⟨saved,done,taken⟩ := Option.bind_eq_some_iff.mp taken
    cases taken
    have credited := saveReceiptCredited stamped h done
    exact credited
  | rollback id =>
    cases taken
    exact h
  | edit request =>
    obtain ⟨p,sent,taken⟩ := Option.bind_eq_some_iff.mp taken
    split at taken
    · split at taken
      · cases taken
        exact h.close
      split at taken
      · contradiction
      cases taken
      unfold System.editOrder
      split
      · exact h.close
      · rename_i o row
        split
        · exact (h.storeKept (OrderDetails.apply _ _ o) row (.inl rfl) fun placed => ⟨placed,rfl,rfl⟩).close
        · exact h.close
    · contradiction
  | setPriority id priority =>
    obtain ⟨o,row,taken⟩ := Option.bind_eq_some_iff.mp taken
    split at taken
    · contradiction
    · cases taken
      exact h.storeKept _ row (.inl rfl) fun placed => ⟨placed,rfl,rfl⟩
  | erase id retainUntil =>
    simp only [System.step] at taken
    split at taken
    · contradiction
    obtain ⟨o,row,taken⟩ := Option.bind_eq_some_iff.mp taken
    split at taken
    · rename_i closed
      cases taken
      refine h.storeKept _ row (.inr rfl) fun placed => ?_
      rw [show o.orderStatus = .placed from placed] at closed
      exact absurd closed.1 (by decide)
    · contradiction
  | abandon request =>
    cases taken
    exact h.close

theorem singleDispatch {start : Time}
    (reached : Transition.ReachableUnder step SameDispatch (initial start) s) : s.SingleDispatch := by
  have inv : System.Reachable start s.system ∧ Sound s := by
    refine reached.invariant (I := fun s => System.Reachable start s.system ∧ Sound s) ⟨.start,?_⟩ ?_
    · exact ⟨fun _ _ _ row => (nomatch row),fun _ _ _ _ sent => (nomatch sent),fun _ _ row => (nomatch row)⟩
    · rintro s a t ⟨before,sound⟩ same taken
      obtain ⟨after,moved,rfl⟩ := Option.map_eq_some_iff.mp taken
      exact ⟨before.step moved,soundStep (stampedReachable before) (lifecycleReachable before) sound same moved⟩
  exact inv.2.rows

def assignment (request : RequestId) (userId : UserId) (priority : Option OrderPriority) : List Action :=
  [.read request "order" (.assign ⟨some "anna",priority⟩ (some (userId,.dispatcher))),
   .decide request (some ⟨"anna",true,some 0⟩)]

def unassignment (request : RequestId) : List Action :=
  [.read request "order" (.assign ⟨none,none⟩ (some ("staff",.dispatcher))),.decide request none,.write request true]

/-- The order is dispatched at 0 and, after an unassignment, at 5. -/
def redispatchRun : List Action :=
  Action.createOrder "order" sampleOrder false::assignment 0 "staff" none ++ [Action.write 0 true] ++ unassignment 1 ++ [Action.tick 5] ++
    assignment 2 "third" none ++ [Action.write 2 true]

theorem redispatchRunSingle : ∃ s, Transition.ReachableUnder step SameDispatch (initial 0) s ∧ s.SingleDispatch ∧
    (s.system.orders "order").bind Order.credit = some ⟨5,some .manual,some "third"⟩ := by
  have ends : (Transition.run step (initial 0) redispatchRun).map (fun s => (s.system.orders "order").bind Order.credit) =
      some (some ⟨5,some .manual,some "third"⟩) := by decide +kernel
  have same : Transition.AllowedRun step SameDispatch (initial 0) redispatchRun := by decide +kernel
  obtain ⟨s,ran,credit⟩ := Option.map_eq_some_iff.mp ends
  have reached := Transition.runReachableUnder .start same ran
  exact ⟨s,reached,singleDispatch reached,credit⟩

/-- A priority change read under the first dispatch is written under the second one. -/
def mixingRun : List Action :=
  Action.createOrder "order" sampleOrder false::assignment 0 "staff" none ++ [Action.write 0 true] ++
    assignment 3 "other" (some .high) ++ unassignment 1 ++ [Action.tick 5] ++ assignment 2 "third" none ++ [Action.write 2 true,.write 3 true]

theorem staleWriteMixes : ¬ ∀ (start : Time) (s : CreditedSystem), Transition.Reachable step (initial start) s →
    s.SingleDispatch := by
  intro always
  have ends : (Transition.run step (initial 0) mixingRun).map
      (fun s => ((s.system.orders "order").bind Order.credit,s.log)) =
      some (some ⟨0,some .manual,some "third"⟩,
        [("order",⟨5,some .manual,some "third"⟩),("order",⟨0,some .manual,some "staff"⟩)]) := by decide +kernel
  obtain ⟨s,ran,found⟩ := Option.map_eq_some_iff.mp ends
  obtain ⟨stored,log⟩ := Prod.mk.inj found
  obtain ⟨o,row,credit⟩ := Option.bind_eq_some_iff.mp stored
  have single := always 0 s (Transition.runReachable .start ran) "order" o _ row credit
  rw [log] at single
  exact absurd single (by decide +kernel)

end CreditedSystem

end SpeedySweeties
