import SpeedySweeties.Order.Changes
import SpeedySweeties.Order.Milestones

/-! Lost reassignments. The guard of an assignment repeats the status its request
read but not the driver, and reassigning a dispatched order keeps the status. The
event history replays to the current driver exactly as long as every assignment
still finds the driver it read. -/
namespace SpeedySweeties

/-- Replays assignment events from `driver`; `none` when one starts elsewhere. -/
def replayDriver (driver : Option UserId) : List DispatchEvent → Option (Option UserId)
  | [] => some driver
  | e::rest => if e.fromDriverId = driver then replayDriver e.toDriverId rest else none

theorem replayAppend {driver current : Option UserId} {events later}
    (before : replayDriver driver events = some current) :
    replayDriver driver (events ++ later) = replayDriver current later := by
  induction events generalizing driver with
  | nil => cases Option.some.inj before; rfl
  | cons e rest ih =>
    simp only [replayDriver] at before
    split at before <;> try contradiction
    rename_i same
    simpa only [List.cons_append,replayDriver,if_pos same] using ih before

/-- A driver write that takes effect finds the driver its request read. -/
def DriverWriteFresh (s : System) (request : RequestId) : Prop :=
  ∀ p u read o, s.pending request = some p → p.update = some u → u.data.assignedDriverId.isSome →
    p.order = some read → s.orders p.id = some o → Updatable u.guard o →
    o.assignedDriverId = read.assignedDriverId

/-- In the order of their commits the events of an order lead from no driver,
each from where the one before ended, to the driver the order has now. -/
def EventsReplay (s : System) (id : OrderId) : Prop :=
  replayDriver none (s.events.filter (·.orderId = id)) =
    some ((s.orders id).bind (·.assignedDriverId))

/-- A driver write that finds the status it read either read a placed order or
comes before any other change of the order's driver since that read. -/
def UndisturbedWrite (s : System) : Action → Prop
  | .write request _ => ∀ p u read o, s.pending request = some p → p.update = some u →
      u.data.assignedDriverId.isSome → p.order = some read → s.orders p.id = some o →
      o.orderStatus = read.orderStatus →
      read.orderStatus = .placed ∨ (s.changes p.id).driver = p.changes.driver
  | _ => True

/-! ### What an assignment writes -/

theorem assignmentDriver {o driver priority user role now} :
    (assignmentUpdate o driver priority user role now).data.assignedDriverId = some (some driver) := by
  obtain ⟨_,_,_,_,times⟩ := timestampColumns o.toOrderLifecycleSnapshot .dispatched now
  obtain ⟨_,_,credit⟩ := attributionColumns o.dispatchedAt ⟨some user,some role⟩
  by_cases mark : shouldMarkDispatched o = true <;>
    simp [assignmentUpdate,OrderData.spread,times,credit,mark]

theorem unassignmentDriver {o priority user} :
    (unassignmentUpdate o priority user).data.assignedDriverId = some none := by
  by_cases dispatched : o.orderStatus = .dispatched <;>
    simp [unassignmentUpdate,OrderData.spread,dispatched]

theorem driverActionDriver {o user target now} :
    (driverActionUpdate o user target now).data.assignedDriverId = none := by
  obtain ⟨_,_,_,_,times⟩ := timestampColumns o.toOrderLifecycleSnapshot target now
  obtain ⟨_,_,credit⟩ := attributionColumns o.dispatchedAt ⟨some user,some .driver⟩
  simp [driverActionUpdate,OrderData.spread,times,credit]

@[simp] theorem applyAssignedDriver {d : OrderData} {o : Order} :
    (d.apply o).assignedDriverId = d.assignedDriverId.getD o.assignedDriverId := rfl

/-- From the driver it read, an update's event leads to the driver it leaves. -/
theorem updateReplays {o o' receipt decidedAt u id now} (source : DecisionSource o receipt decidedAt u)
    (fresh : u.data.assignedDriverId.isSome → o'.assignedDriverId = o.assignedDriverId) :
    replayDriver o'.assignedDriverId (u.event.map (recordedEvent id now)).toList =
      some (u.data.apply o').assignedDriverId := by
  cases source with
  | assigned driver priority user role operational =>
    have same := fresh (by simp [assignmentDriver])
    rw [applyAssignedDriver,assignmentDriver,same]
    by_cases changed : o.assignedDriverId = some driver
    · simp [assignmentUpdate,changed,replayDriver]
    · simp [assignmentUpdate,changed,replayDriver,recordedEvent]
  | unassigned priority user operational =>
    have same := fresh (by simp [unassignmentDriver])
    rw [applyAssignedDriver,unassignmentDriver,same]
    cases driver : o.assignedDriverId <;>
      simp [unassignmentUpdate,driver,replayDriver,recordedEvent]
  | acted mine allowed =>
    rw [applyAssignedDriver,driverActionDriver]
    rfl
  | cancelled reason allowed => rfl

theorem allocationDriver {o driver held} :
    (autoDispatchUpdate o driver held).assignedDriverId = some (some driver) := by
  simp [autoDispatchUpdate,OrderData.spread,buildOrderTransitionTimestampData]

theorem receiptDriver {o now data} (ok : receiptUpdate o now = some data) :
    data.assignedDriverId = none := by
  rcases receiptUpdateSource ok with ⟨_,rfl⟩ | ⟨_,rfl⟩
  · rfl
  · simp [OrderData.spread,buildOrderTransitionTimestampData]

/-! ### Runs of undisturbed writes -/

theorem undisturbedFresh {start s} (reached : System.Reachable start s) {request assignable}
    (undisturbed : UndisturbedWrite s (.write request assignable)) : DriverWriteFresh s request := by
  intro p u read o sent decided writes was row updatable
  obtain ⟨_,_,_,was',source,_⟩ := ((lifecycleReachable reached).requests _ _ sent).decision u decided
  cases Option.some.inj (was.symm.trans was')
  have current := guardStatus source updatable
  rcases undisturbed p u read o sent decided writes was row current with placed | unchanged
  · -- placed orders have no driver, in the snapshot as in the row
    have stamped := stampedReachable reached
    have rowPlaced := ((stamped.rows p.id o row).milestones updatable.2).placed (current.trans placed)
    have readPlaced := ((stamped.reads _ _ read sent was).decided source).placed placed
    rw [rowPlaced.1,readPlaced.1]
  · exact (countedReads driverCounter reached _ _ sent).unchanged read was unchanged o row

theorem storedReplay {s : System} {id before after event}
    (old : EventsReplay s id) (row : s.orders id = some before)
    (leads : replayDriver before.assignedDriverId (event.map (recordedEvent id s.now)).toList =
      some after.assignedDriverId) :
    replayDriver none ((s.record id).store id s.now before after event).events =
      some after.assignedDriverId := by
  unfold EventsReplay at old
  rw [row,Option.bind_some] at old
  exact (replayAppend old).trans leads

theorem replayStep {s a id r} (old : EventsReplay s id) (step : RecordStep s a id r)
    (fresh : ∀ request assignable, a = .write request assignable → DriverWriteFresh s request)
    (inv : Lifecycle s) :
    replayDriver none r.events = some (r.order.bind (·.assignedDriverId)) := by
  cases step with
  | same | locked | released | receiptSaved => exact old
  | @created input synthetic absent =>
    unfold EventsReplay at old
    rw [absent] at old
    refine old.trans (congrArg some ?_)
    cases synthetic <;> rfl
  | @written request assignable p u o action sent target decided free row updatable =>
    subst target
    obtain ⟨read,_,_,was,source,_⟩ := (inv.requests _ _ sent).decision u decided
    refine storedReplay old row (updateReplays source fun writes => ?_)
    exact fresh request assignable action p u read o sent decided writes was row updatable
  | allocated lock row placed undriven kept =>
    refine storedReplay old row ?_
    simp [autoDispatchEvent,recordedEvent,replayDriver,allocationDriver,undriven]
  | receiptStored lock row real kept update =>
    refine storedReplay old row ?_
    simp [replayDriver,receiptDriver update]
  | edited row => exact storedReplay old row rfl
  | prioritized row => exact storedReplay old row rfl
  | erased row => rfl

/-- Along every run whose assignments are undisturbed, each assignment finds the
driver it read, and the events of each order replay to its current driver. -/
theorem noLostReassignment {start s}
    (reached : Transition.ReachableUnder System.step UndisturbedWrite (System.initial start) s) :
    (∀ request assignable, UndisturbedWrite s (.write request assignable) → DriverWriteFresh s request) ∧
    ∀ id, EventsReplay s id := by
  refine ⟨fun _ _ => undisturbedFresh reached.reachable,?_⟩
  refine Transition.ReachableUnder.invariantWith (I := fun s => ∀ id, EventsReplay s id) reached
    (fun id => rfl) ?_
  intro s a t before old undisturbed taken id
  refine replayStep (old id) (recordStep taken id) ?_ (lifecycleReachable before.reachable)
  rintro request assignable rfl
  exact undisturbedFresh before.reachable undisturbed

def reassignmentRun : List Action :=
  [.createOrder "order" sampleOrder false,
   .read 0 "order" (.assign ⟨some "anna",none⟩ (some ("staff",.dispatcher))),
   .decide 0 (some ⟨"anna",true,some 0⟩),.write 0 true,
   .read 1 "order" (.assign ⟨some "ben",none⟩ (some ("staff",.dispatcher))),
   .decide 1 (some ⟨"ben",true,some 0⟩),.write 1 true]

theorem reassignmentRunReplays : ∃ s, Transition.run System.step (System.initial 0) reassignmentRun = some s ∧
    EventsReplay s "order" ∧ (s.orders "order").bind (·.assignedDriverId) = some "ben" := by
  have undisturbed : Transition.AllowedRun System.step UndisturbedWrite (System.initial 0)
      reassignmentRun := by
    refine ⟨trivial,?_⟩; rintro _ ⟨⟩
    refine ⟨trivial,?_⟩; rintro _ ⟨⟩
    refine ⟨trivial,?_⟩; rintro _ ⟨⟩
    refine ⟨?_,?_⟩
    · rintro p u read o sent - - was - -
      cases Option.some.inj sent
      cases Option.some.inj was
      exact .inl rfl
    rintro _ ⟨⟩
    refine ⟨trivial,?_⟩; rintro _ ⟨⟩
    refine ⟨trivial,?_⟩; rintro _ ⟨⟩
    refine ⟨?_,fun _ _ => trivial⟩
    rintro p u read o sent - - - - -
    cases Option.some.inj sent
    exact .inr rfl
  have ends : ((Transition.run System.step (System.initial 0) reassignmentRun).map fun s =>
      (s.orders "order").bind (·.assignedDriverId)) = some (some "ben") := rfl
  obtain ⟨s,ran,driver⟩ := Option.map_eq_some_iff.mp ends
  exact ⟨s,ran,(noLostReassignment (Transition.runReachableUnder .start undisturbed ran)).2 "order",driver⟩

def lostReassignmentRun : List Action :=
  [.createOrder "order" sampleOrder false,
   .read 0 "order" (.assign ⟨some "anna",none⟩ (some ("staff",.dispatcher))),
   .decide 0 (some ⟨"anna",true,some 0⟩),.write 0 true,
   .read 1 "order" (.assign ⟨some "ben",none⟩ (some ("staff",.dispatcher))),
   .decide 1 (some ⟨"ben",true,some 0⟩),
   .read 2 "order" (.assign ⟨some "anna",some .high⟩ (some ("other",.dispatcher))),
   .decide 2 (some ⟨"anna",true,some 0⟩),.write 1 true]

/-- A priority change for the driver it read takes the order back from the driver
a colleague has just given it to, and leaves no event of it. -/
theorem priorityChangeRevertsReassignment : ∃ s t,
    Transition.run System.step (System.initial 0) lostReassignmentRun = some s ∧
    s.step (.write 2 true) = some t ∧ ¬ DriverWriteFresh s 2 ∧ ¬ EventsReplay t "order" ∧
    (s.orders "order").bind (·.assignedDriverId) = some "ben" ∧
    (t.orders "order").bind (·.assignedDriverId) = some "anna" := by
  refine ⟨_,_,rfl,rfl,?_,?_,rfl,rfl⟩
  · intro fresh
    have same := fresh _ _ _ _ rfl rfl rfl rfl rfl ⟨by decide,rfl⟩
    exact absurd same (by decide)
  · unfold EventsReplay
    decide

end SpeedySweeties
