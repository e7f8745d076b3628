import SpeedySweeties.Order.Lifecycle

/-! The milestone columns over whole runs. The columns a write copies forward come
from the request's snapshot, not from the row it overwrites. Only the status of the
two agrees, and that is enough: the status alone says which milestones are set, so
the copied ones precede the new one and nothing later is set in the row. -/
namespace SpeedySweeties

/-- Each set milestone has its predecessor set, not later, and none is after `now`. -/
structure InOrder (o : OrderLifecycleSnapshot) (now : Time) : Prop where
  dispatchedBy : ∀ dispatched ∈ o.dispatchedAt, dispatched ≤ now
  acceptedLater : ∀ accepted ∈ o.acceptedAt, accepted ≤ now ∧
    ∃ dispatched ∈ o.dispatchedAt, dispatched ≤ accepted
  outLater : ∀ out ∈ o.outForDeliveryAt, out ≤ now ∧ ∃ accepted ∈ o.acceptedAt, accepted ≤ out
  deliveredLater : ∀ delivered ∈ o.deliveredAt, delivered ≤ now ∧
    ∃ out ∈ o.outForDeliveryAt, out ≤ delivered

structure Milestones (o : OrderDispatch) (now : Time) : Prop
    extends InOrder o.toOrderLifecycleSnapshot now where
  placed : o.orderStatus = .placed → o.assignedDriverId = none ∧ o.dispatchedAt = none
  dispatched : o.orderStatus = .dispatched →
    o.assignedDriverId ≠ none ∧ o.dispatchedAt ≠ none ∧ o.acceptedAt = none
  accepted : o.orderStatus = .accepted → o.acceptedAt ≠ none ∧ o.outForDeliveryAt = none
  outForDelivery : o.orderStatus = .outForDelivery → o.outForDeliveryAt ≠ none ∧ o.deliveredAt = none
  delivered : o.orderStatus = .delivered → o.deliveredAt ≠ none

theorem Milestones.mono {o now later} (h : Milestones o now) (le : now ≤ later) : Milestones o later :=
  { h with
    dispatchedBy := fun t set => (h.dispatchedBy t set).trans le
    acceptedLater := fun t set => ⟨(h.acceptedLater t set).1.trans le,(h.acceptedLater t set).2⟩
    outLater := fun t set => ⟨(h.outLater t set).1.trans le,(h.outLater t set).2⟩
    deliveredLater := fun t set => ⟨(h.deliveredLater t set).1.trans le,(h.deliveredLater t set).2⟩ }

theorem noneLater {earlier later : Option Time} {now} (unset : earlier = none)
    (h : ∀ l ∈ later, l ≤ now ∧ ∃ e ∈ earlier, e ≤ l) : later = none := by
  cases later with
  | none => rfl
  | some l =>
    obtain ⟨_,e,set,_⟩ := h l rfl
    simp [unset] at set

theorem setEarlier {earlier later : Option Time} {now} (set : later ≠ none)
    (h : ∀ l ∈ later, l ≤ now ∧ ∃ e ∈ earlier, e ≤ l) :
    ∃ e l, earlier = some e ∧ later = some l ∧ e ≤ l ∧ l ≤ now := by
  obtain ⟨l,rfl⟩ := Option.ne_none_iff_exists'.mp set
  obtain ⟨by_,e,set,le⟩ := h l rfl
  exact ⟨e,l,set,rfl,le,by_⟩

/-! ### Moves of one row -/

theorem Milestones.early {o now} (h : Milestones o now)
    (status : o.orderStatus = .placed ∨ o.orderStatus = .dispatched) :
    o.acceptedAt = none ∧ o.outForDeliveryAt = none ∧ o.deliveredAt = none := by
  have accepted : o.acceptedAt = none := by
    rcases status with placed | dispatched
    · exact noneLater (h.placed placed).2 h.acceptedLater
    · exact (h.dispatched dispatched).2.2
  have out := noneLater accepted h.outLater
  exact ⟨accepted,out,noneLater out h.deliveredLater⟩

theorem dispatchMilestones {row after : OrderDispatch} {now d} (h : Milestones row now)
    (early : row.orderStatus = .placed ∨ row.orderStatus = .dispatched)
    (status : after.orderStatus = .dispatched) (driver : after.assignedDriverId ≠ none)
    (set : after.dispatchedAt = some d) (le : d ≤ now)
    (kept : after.acceptedAt = row.acceptedAt ∧ after.outForDeliveryAt = row.outForDeliveryAt ∧
      after.deliveredAt = row.deliveredAt) : Milestones after now := by
  obtain ⟨accepted,out,delivered⟩ := h.early early
  refine ⟨⟨?_,?_,?_,?_⟩,?_,?_,?_,?_,?_⟩ <;>
    simp [kept,accepted,out,delivered,status,driver,set,le]

theorem unassignMilestones {row after : OrderDispatch} {now} (h : Milestones row now)
    (early : row.orderStatus = .placed ∨ row.orderStatus = .dispatched)
    (status : after.orderStatus = .placed) (driver : after.assignedDriverId = none)
    (set : after.dispatchedAt = none)
    (kept : after.acceptedAt = row.acceptedAt ∧ after.outForDeliveryAt = row.outForDeliveryAt ∧
      after.deliveredAt = row.deliveredAt) : Milestones after now := by
  obtain ⟨accepted,out,delivered⟩ := h.early early
  refine ⟨⟨?_,?_,?_,?_⟩,?_,?_,?_,?_,?_⟩ <;>
    simp [kept,accepted,out,delivered,status,driver,set]

/-- The milestones alone: nothing about the status or the driver. -/
theorem InOrder.congr {o after : OrderLifecycleSnapshot} {now} (h : InOrder o now)
    (times : after.dispatchedAt = o.dispatchedAt ∧ after.acceptedAt = o.acceptedAt ∧
      after.outForDeliveryAt = o.outForDeliveryAt ∧ after.deliveredAt = o.deliveredAt) :
    InOrder after now := by
  obtain ⟨dispatched,accepted,out,delivered⟩ := times
  exact ⟨by simpa only [dispatched] using h.dispatchedBy,
    by simpa only [dispatched,accepted] using h.acceptedLater,
    by simpa only [accepted,out] using h.outLater,
    by simpa only [out,delivered] using h.deliveredLater⟩

/-- Past the dispatch the driver is free to change while status and times stay. -/
theorem laterMilestones {row after : OrderDispatch} {now} (h : Milestones row now)
    (late : row.orderStatus ≠ .placed ∧ row.orderStatus ≠ .dispatched)
    (status : after.orderStatus = row.orderStatus)
    (times : after.dispatchedAt = row.dispatchedAt ∧ after.acceptedAt = row.acceptedAt ∧
      after.outForDeliveryAt = row.outForDeliveryAt ∧ after.deliveredAt = row.deliveredAt) :
    Milestones after now := by
  refine { h.toInOrder.congr times with
    placed := fun is => absurd (status ▸ is) late.1
    dispatched := fun is => absurd (status ▸ is) late.2
    accepted := ?_, outForDelivery := ?_, delivered := ?_ }
  · simpa only [status,times.2.1,times.2.2.1] using h.accepted
  · simpa only [status,times.2.2.1,times.2.2.2] using h.outForDelivery
  · simpa only [status,times.2.2.2] using h.delivered

theorem cancelMilestones {row after : OrderDispatch} {now} (h : Milestones row now)
    (status : after.orderStatus = .cancelled)
    (times : after.dispatchedAt = row.dispatchedAt ∧ after.acceptedAt = row.acceptedAt ∧
      after.outForDeliveryAt = row.outForDeliveryAt ∧ after.deliveredAt = row.deliveredAt) :
    Milestones after now :=
  { h.toInOrder.congr times with
    placed := by simp [status], dispatched := by simp [status], accepted := by simp [status]
    outForDelivery := by simp [status], delivered := by simp [status] }

theorem acceptMilestones {row after : OrderDispatch} {now d a} (h : Milestones row now)
    (early : row.orderStatus = .dispatched) (status : after.orderStatus = .accepted)
    (times : after.dispatchedAt = some d ∧ after.acceptedAt = some a ∧ d ≤ a ∧ a ≤ now)
    (kept : after.outForDeliveryAt = row.outForDeliveryAt ∧ after.deliveredAt = row.deliveredAt) :
    Milestones after now := by
  obtain ⟨accepted,out,delivered⟩ := h.early (.inr early)
  obtain ⟨dispatchedAt,acceptedAt,order,by_⟩ := times
  refine ⟨⟨?_,?_,?_,?_⟩,?_,?_,?_,?_,?_⟩ <;>
    simp [kept,out,delivered,status,dispatchedAt,acceptedAt,order,by_,order.trans by_]

theorem pickUpMilestones {row after : OrderDispatch} {now d a f} (h : Milestones row now)
    (early : row.orderStatus = .accepted) (status : after.orderStatus = .outForDelivery)
    (times : after.dispatchedAt = some d ∧ after.acceptedAt = some a ∧ after.outForDeliveryAt = some f)
    (order : d ≤ a ∧ a ≤ f ∧ f ≤ now) (kept : after.deliveredAt = row.deliveredAt) :
    Milestones after now := by
  have delivered := noneLater (h.accepted early).2 h.deliveredLater
  obtain ⟨dispatchedAt,acceptedAt,outAt⟩ := times
  obtain ⟨da,af,by_⟩ := order
  refine ⟨⟨?_,?_,?_,?_⟩,?_,?_,?_,?_,?_⟩ <;>
    simp [kept,delivered,status,dispatchedAt,acceptedAt,outAt,da,af,by_,af.trans by_,(da.trans af).trans by_]

theorem deliverMilestones {after : OrderDispatch} {now d a f x}
    (status : after.orderStatus = .delivered)
    (times : after.dispatchedAt = some d ∧ after.acceptedAt = some a ∧
      after.outForDeliveryAt = some f ∧ after.deliveredAt = some x)
    (order : d ≤ a ∧ a ≤ f ∧ f ≤ x ∧ x ≤ now) : Milestones after now := by
  obtain ⟨dispatchedAt,acceptedAt,outAt,deliveredAt⟩ := times
  obtain ⟨da,af,fx,by_⟩ := order
  refine ⟨⟨?_,?_,?_,?_⟩,?_,?_,?_,?_,?_⟩ <;>
    simp [status,dispatchedAt,acceptedAt,outAt,deliveredAt,da,af,fx,by_,fx.trans by_,
      (af.trans fx).trans by_,((da.trans af).trans fx).trans by_]

/-! ### What the snapshot of each status copies forward -/

theorem Milestones.acceptedTimes {o now} (h : Milestones o now) (status : o.orderStatus = .accepted) :
    ∃ d a, o.dispatchedAt = some d ∧ o.acceptedAt = some a ∧ o.outForDeliveryAt = none ∧
      d ≤ a ∧ a ≤ now := by
  obtain ⟨set,unset⟩ := h.accepted status
  obtain ⟨d,a,hd,ha,le,by_⟩ := setEarlier set h.acceptedLater
  exact ⟨d,a,hd,ha,unset,le,by_⟩

theorem Milestones.outTimes {o now} (h : Milestones o now) (status : o.orderStatus = .outForDelivery) :
    ∃ d a f, o.dispatchedAt = some d ∧ o.acceptedAt = some a ∧ o.outForDeliveryAt = some f ∧
      o.deliveredAt = none ∧ d ≤ a ∧ a ≤ f ∧ f ≤ now := by
  obtain ⟨set,unset⟩ := h.outForDelivery status
  obtain ⟨a,f,ha,hf,af,by_⟩ := setEarlier set h.outLater
  obtain ⟨d,a',hd,ha',da,_⟩ := setEarlier (by simp [ha]) h.acceptedLater
  cases Option.some.inj (ha.symm.trans ha')
  exact ⟨d,a,f,hd,ha,hf,unset,da,af,by_⟩

/-! ### Every update -/

theorem assignedMilestones {o o' : Order} {driver priority user role decidedAt now}
    (read : Milestones o.toOrderDispatch decidedAt) (row : Milestones o'.toOrderDispatch now)
    (same : o'.orderStatus = o.orderStatus) (le : decidedAt ≤ now) :
    Milestones ((assignmentUpdate o driver priority user role decidedAt).data.apply o').toOrderDispatch
      now := by
  obtain ⟨_,_,credit⟩ := attributionColumns o.dispatchedAt ⟨some user,some role⟩
  cases status : o.orderStatus with
  | placed =>
    have unset := (read.placed status).2
    rw [unset] at credit
    refine dispatchMilestones (d := decidedAt) row (.inl (same.trans status)) ?_ ?_ ?_ le ?_ <;>
      simp [assignmentUpdate,OrderData.spread,shouldMarkDispatched,status,credit,OrderData.apply,
        OrderData.applyDispatch,buildOrderTransitionTimestampData,unset]
  | dispatched =>
    obtain ⟨d,set⟩ := Option.ne_none_iff_exists'.mp (read.dispatched status).2.1
    rw [set] at credit
    refine dispatchMilestones (d := d) row (.inr (same.trans status)) ?_ ?_ ?_
        ((read.dispatchedBy d set).trans le) ?_ <;>
      simp [assignmentUpdate,OrderData.spread,shouldMarkDispatched,status,credit,OrderData.apply,
        OrderData.applyDispatch,buildOrderTransitionTimestampData,set]
  | _ =>
    refine laterMilestones row (by simp [same,status]) ?_ ?_ <;>
      simp [assignmentUpdate,OrderData.spread,shouldMarkDispatched,status,OrderData.apply,
        OrderData.applyDispatch]

theorem unassignedMilestones {o o' : Order} {priority user now}
    (row : Milestones o'.toOrderDispatch now) (same : o'.orderStatus = o.orderStatus) :
    Milestones ((unassignmentUpdate o priority user).data.apply o').toOrderDispatch now := by
  cases status : o.orderStatus with
  | placed =>
    have unset := (row.placed (same.trans status)).2
    refine unassignMilestones row (.inl (same.trans status)) ?_ ?_ ?_ ?_ <;>
      simp [unassignmentUpdate,OrderData.spread,OrderData.apply,OrderData.applyDispatch,status,same,unset]
  | dispatched =>
    refine unassignMilestones row (.inr (same.trans status)) ?_ ?_ ?_ ?_ <;>
      simp [unassignmentUpdate,OrderData.spread,OrderData.apply,OrderData.applyDispatch,status]
  | _ =>
    refine laterMilestones row (by simp [same,status]) ?_ ?_ <;>
      simp [unassignmentUpdate,OrderData.spread,OrderData.apply,OrderData.applyDispatch,status]

theorem actedMilestones {o o' : Order} {receipt : Bool} {user target decidedAt now}
    (read : Milestones o.toOrderDispatch decidedAt) (row : Milestones o'.toOrderDispatch now)
    (same : o'.orderStatus = o.orderStatus) (le : decidedAt ≤ now) (mine : o.assignedDriverId = some user)
    (allowed : evaluateOrderStatusTransition .driverAction o.orderStatus target receipt = .allowed) :
    Milestones ((driverActionUpdate o user target decidedAt).data.apply o').toOrderDispatch now := by
  obtain ⟨_,_,credit⟩ := attributionColumns o.dispatchedAt ⟨some user,some .driver⟩
  rcases driverTransitions allowed with ⟨rfl,placed | dispatched⟩ | ⟨rfl,accepted⟩ | ⟨rfl,out⟩
  · -- no driver can act on a placed order: it has none
    simp [(read.placed placed).1] at mine
  · obtain ⟨d,set⟩ := Option.ne_none_iff_exists'.mp (read.dispatched dispatched).2.1
    have unset := (read.dispatched dispatched).2.2
    rw [set] at credit
    refine acceptMilestones (d := d) (a := decidedAt) row (same.trans dispatched) ?_
        ⟨?_,?_,read.dispatchedBy d set,le⟩ ?_ <;>
      simp [driverActionUpdate,OrderData.spread,OrderData.apply,OrderData.applyDispatch,
        buildOrderTransitionTimestampData,set,unset,credit]
  · obtain ⟨d,a,hd,ha,unset,da,by_⟩ := read.acceptedTimes accepted
    rw [hd] at credit
    refine pickUpMilestones (d := d) (a := a) (f := decidedAt) row (same.trans accepted) ?_
        ⟨?_,?_,?_⟩ ⟨da,by_,le⟩ ?_ <;>
      simp [driverActionUpdate,OrderData.spread,OrderData.apply,OrderData.applyDispatch,
        buildOrderTransitionTimestampData,hd,ha,unset,credit]
  · obtain ⟨d,a,f,hd,ha,hf,unset,da,af,by_⟩ := read.outTimes out
    rw [hd] at credit
    refine deliverMilestones (d := d) (a := a) (f := f) (x := decidedAt) ?_
        ⟨?_,?_,?_,?_⟩ ⟨da,af,by_,le⟩ <;>
      simp [driverActionUpdate,OrderData.spread,OrderData.apply,OrderData.applyDispatch,
        buildOrderTransitionTimestampData,hd,ha,hf,unset,credit]

/-- The snapshot `o` was read by the time the write was decided; the row `o'` the
write meets has the same status but perhaps other milestones. -/
theorem writtenMilestones {o o' : Order} {receipt decidedAt now u}
    (source : DecisionSource o receipt decidedAt u)
    (read : Milestones o.toOrderDispatch decidedAt) (row : Milestones o'.toOrderDispatch now)
    (same : o'.orderStatus = o.orderStatus) (le : decidedAt ≤ now) :
    Milestones (u.data.apply o').toOrderDispatch now := by
  cases source with
  | assigned => exact assignedMilestones read row same le
  | unassigned => exact unassignedMilestones row same
  | acted mine allowed => exact actedMilestones read row same le mine allowed
  | cancelled reason allowed => exact cancelMilestones row rfl ⟨rfl,rfl,rfl,rfl⟩

theorem allocatedMilestones {o : Order} {driver held now} (row : Milestones o.toOrderDispatch now)
    (placed : o.orderStatus = .placed) (le : held ≤ now) :
    Milestones ((autoDispatchUpdate o driver held).apply o).toOrderDispatch now := by
  refine dispatchMilestones (d := held) row (.inl placed) ?_ ?_ ?_ le ?_ <;>
    simp [autoDispatchUpdate,OrderData.spread,OrderData.apply,OrderData.applyDispatch,
      buildOrderTransitionTimestampData,(row.placed placed).2]

theorem receiptMilestones {o : Order} {held now data} (row : Milestones o.toOrderDispatch held)
    (le : held ≤ now) (update : receiptUpdate o held = some data) :
    Milestones (data.apply o).toOrderDispatch now := by
  rcases receiptUpdateSource update with ⟨_,rfl⟩ | ⟨accepted,rfl⟩
  · exact row.mono le
  · obtain ⟨d,a,hd,ha,unset,da,by_⟩ := row.acceptedTimes accepted
    refine pickUpMilestones (d := d) (a := a) (f := held) (row.mono le) accepted ?_
        ⟨?_,?_,?_⟩ ⟨da,by_,le⟩ ?_ <;>
      simp [OrderData.spread,OrderData.apply,OrderData.applyDispatch,buildOrderTransitionTimestampData,
        hd,ha,unset]

/-! ### The invariant -/

/-- Erasure clears the milestones of a closed order; nobody decides on one. -/
structure Stamped (o : Order) (now : Time) : Prop where
  erasedFinal : o.privacyErasedAt ≠ none → o.orderStatus.final = true
  milestones : o.privacyErasedAt = none → Milestones o.toOrderDispatch now

theorem Stamped.mono {o now later} (h : Stamped o now) (le : now ≤ later) : Stamped o later :=
  ⟨h.erasedFinal,fun kept => (h.milestones kept).mono le⟩

theorem Stamped.decided {o receipt now decidedAt u} (h : Stamped o now)
    (source : DecisionSource o receipt decidedAt u) : Milestones o.toOrderDispatch now := by
  refine h.milestones ?_
  by_contra erased
  have final := h.erasedFinal erased
  rw [decisionOperational source] at final
  contradiction

structure StampedSystem (s : System) : Prop where
  rows : ∀ id o, s.orders id = some o → Stamped o s.now
  locks : ∀ id held, s.locked id = some held → held ≤ s.now ∧
    ∃ o, s.orders id = some o ∧ Stamped o held
  reads : ∀ request p o, s.pending request = some p → p.order = some o → Stamped o s.now
  decisions : ∀ request p u, s.pending request = some p → p.update = some u →
    ∃ o receipt decidedAt, DecisionSource o receipt decidedAt u ∧ decidedAt ≤ s.now ∧
      Milestones o.toOrderDispatch decidedAt

theorem stampedInitial (start) : StampedSystem (System.initial start) where
  rows := by intro id o row; contradiction
  locks := by intro id held lock; contradiction
  reads := by intro request p o sent; contradiction
  decisions := by intro request p u sent; contradiction

theorem createdStamped {id input synthetic now} :
    Stamped (if synthetic = true then finishSyntheticOrder (createdOrder id input now) now
      else createdOrder id input now) now := by
  cases synthetic
  · refine ⟨fun erased => absurd rfl erased,fun _ => ⟨⟨?_,?_,?_,?_⟩,?_,?_,?_,?_,?_⟩⟩ <;>
      simp [createdOrder,initialOrderStatus]
  · refine ⟨fun erased => absurd rfl erased,fun _ => ⟨⟨?_,?_,?_,?_⟩,?_,?_,?_,?_,?_⟩⟩ <;>
      simp [finishSyntheticOrder,createdOrder]

theorem stampedRow {s a id r o} (inv : StampedSystem s) (step : RecordStep s a id r)
    (row : r.order = some o) : Stamped o s.now := by
  cases step with
  | same | released | receiptSaved => exact inv.rows id o row
  | locked => exact inv.rows id o row
  | created absent => cases Option.some.inj row; exact createdStamped
  | @written request assignable p u o' action sent target decided free here updatable =>
    cases Option.some.inj row
    obtain ⟨before,receipt,decidedAt,source,le,read⟩ := inv.decisions _ _ u sent decided
    have old := (inv.rows id o' here).milestones updatable.2
    exact ⟨fun erased => absurd updatable.2 erased,
      fun _ => writtenMilestones source read old (guardStatus source updatable) le⟩
  | @allocated o' driver held lock here placed free kept =>
    cases Option.some.inj row
    have old := (inv.rows id o' here).milestones kept
    exact ⟨fun erased => absurd kept erased,
      fun _ => allocatedMilestones old placed (inv.locks id held lock).1⟩
  | @receiptStored o' data receipt held lock here real kept update =>
    cases Option.some.inj row
    obtain ⟨le,o,there,stamped⟩ := inv.locks id held lock
    cases Option.some.inj (here.symm.trans there)
    exact ⟨fun erased => absurd kept erased,
      fun _ => receiptMilestones (stamped.milestones kept) le update⟩
  | edited here => cases Option.some.inj row; exact ⟨(inv.rows id _ here).erasedFinal,(inv.rows id _ here).milestones⟩
  | prioritized here =>
    cases Option.some.inj row
    have old := inv.rows id _ here
    refine ⟨old.erasedFinal,fun kept => ?_⟩
    have before := old.milestones kept
    exact { before with }
  | erased here free closed =>
    cases Option.some.inj row
    exact ⟨fun _ => closed,fun kept => by simp [eraseOrder] at kept⟩

/-- While a lock is held nobody else stores the row, so its holder's clock stays
behind no milestone the row has. -/
theorem stampedLock {s a id r held} (inv : StampedSystem s) (step : RecordStep s a id r)
    (lock : r.locked = some held) : held ≤ s.now ∧ ∃ o, r.order = some o ∧ Stamped o held := by
  cases step with
  | same => exact inv.locks id held lock
  | released | allocated | receiptSaved | receiptStored => contradiction
  | locked row free =>
    cases Option.some.inj lock
    exact ⟨le_rfl,_,row,inv.rows id _ row⟩
  | created absent =>
    obtain ⟨_,_,row,_⟩ := inv.locks id held lock
    simp [absent] at row
  | written _ _ _ _ free | edited _ free | prioritized _ free | erased _ free =>
    exact absurd (free.symm.trans lock) (by simp)

theorem stampedStep {s a t} (inv : StampedSystem s) (taken : System.step s a = some t) :
    StampedSystem t where
  rows id o row := (stampedRow inv (recordStep taken id) row).mono (clockStep taken)
  locks id held lock := by
    obtain ⟨le,stamped⟩ := stampedLock inv (recordStep taken id) lock
    exact ⟨le.trans (clockStep taken),stamped⟩
  reads request p o sent read := by
    refine Stamped.mono ?_ (clockStep taken)
    cases pendingStep taken sent with
    | kept before => exact inv.reads _ _ o before read
    | read => exact inv.rows _ o read
    | receiptRead before => exact inv.reads _ _ o before read
    | decided before => exact inv.reads _ _ o before read
  decisions request p u sent decided := by
    have later : ∀ {o receipt at_}, DecisionSource o receipt at_ u → at_ ≤ s.now →
        Milestones o.toOrderDispatch at_ → ∃ o receipt decidedAt,
          DecisionSource o receipt decidedAt u ∧ decidedAt ≤ t.now ∧ Milestones o.toOrderDispatch decidedAt :=
      fun source le read => ⟨_,_,_,source,le.trans (clockStep taken),read⟩
    cases pendingStep taken sent with
    | kept before =>
      obtain ⟨_,_,_,source,le,read⟩ := inv.decisions _ _ u before decided
      exact later source le read
    | read => contradiction
    | receiptRead before =>
      obtain ⟨_,_,_,source,le,read⟩ := inv.decisions _ _ u before decided
      exact later source le read
    | decided before undecided decision =>
      cases Option.some.inj decided
      obtain ⟨o,read,source⟩ := decisionSource decision
      exact later source le_rfl ((inv.reads _ _ o before read).decided source)

theorem stampedReachable {start s} (reached : System.Reachable start s) : StampedSystem s :=
  Transition.Reachable.invariant reached (stampedInitial start) fun _ _ _ => stampedStep

/-! ### Reachable states -/

def precedes (earlier later : Option Time) : Prop := ∀ e ∈ earlier, ∀ l ∈ later, e ≤ l

theorem precedesOf {earlier later : Option Time} {now}
    (h : ∀ l ∈ later, l ≤ now ∧ ∃ e ∈ earlier, e ≤ l) : precedes earlier later := by
  intro e set l later_
  obtain ⟨_,e',set',le⟩ := h l later_
  cases Option.some.inj (set.symm.trans set')
  exact le

theorem precedesTrans {a b c : Option Time} {now} (ab : precedes a b)
    (bc : ∀ l ∈ c, l ≤ now ∧ ∃ e ∈ b, e ≤ l) : precedes a c := by
  intro e set l later_
  obtain ⟨_,m,between,le⟩ := bc l later_
  exact (ab e set m between).trans le

/-- In every reachable state the milestones of an order that is not erased fit
its status and each other, whatever snapshots they were copied from. -/
theorem milestoneTimestamps {start s} (reached : System.Reachable start s) {id o}
    (row : s.orders id = some o) (kept : o.privacyErasedAt = none) :
    (o.orderStatus = .placed → o.assignedDriverId = none ∧ o.dispatchedAt = none) ∧
    (o.orderStatus = .dispatched → o.assignedDriverId.isSome ∧ o.dispatchedAt.isSome) ∧
    (o.orderStatus = .accepted → o.dispatchedAt.isSome ∧ o.acceptedAt.isSome) ∧
    (o.orderStatus = .outForDelivery →
      o.dispatchedAt.isSome ∧ o.acceptedAt.isSome ∧ o.outForDeliveryAt.isSome) ∧
    (o.orderStatus = .delivered → o.dispatchedAt.isSome ∧ o.acceptedAt.isSome ∧
      o.outForDeliveryAt.isSome ∧ o.deliveredAt.isSome) ∧
    precedes o.dispatchedAt o.acceptedAt ∧ precedes o.dispatchedAt o.outForDeliveryAt ∧
    precedes o.dispatchedAt o.deliveredAt ∧ precedes o.acceptedAt o.outForDeliveryAt ∧
    precedes o.acceptedAt o.deliveredAt ∧ precedes o.outForDeliveryAt o.deliveredAt := by
  have h := ((stampedReachable reached).rows id o row).milestones kept
  have da := precedesOf h.acceptedLater
  have af := precedesOf h.outLater
  have fx := precedesOf h.deliveredLater
  have df := precedesTrans da h.outLater
  refine ⟨h.placed,fun is => ?_,fun is => ?_,fun is => ?_,fun is => ?_,
    da,df,precedesTrans df h.deliveredLater,af,precedesTrans af h.deliveredLater,fx⟩
  · obtain ⟨driver,set,_⟩ := h.dispatched is
    exact ⟨Option.isSome_iff_ne_none.mpr driver,Option.isSome_iff_ne_none.mpr set⟩
  · obtain ⟨d,a,hd,ha,_⟩ := h.acceptedTimes is
    simp [hd,ha]
  · obtain ⟨d,a,f,hd,ha,hf,_⟩ := h.outTimes is
    simp [hd,ha,hf]
  · obtain ⟨f,x,hf,hx,_⟩ := setEarlier (h.delivered is) h.deliveredLater
    obtain ⟨a,_,ha,_⟩ := setEarlier (by simp [hf]) h.outLater
    obtain ⟨d,_,hd,_⟩ := setEarlier (by simp [ha]) h.acceptedLater
    simp [hd,ha,hf,hx]

theorem deliveryRunMilestones : ∃ s o, Transition.run System.step (System.initial 0) deliveryRun = some s ∧
    s.orders "order" = some o ∧ o.orderStatus = .delivered ∧
    precedes o.dispatchedAt o.deliveredAt ∧ o.deliveredAt = some 15 := by
  have ends : ((Transition.run System.step (System.initial 0) deliveryRun).bind (·.orders "order")).map
      (fun o => (o.orderStatus,o.privacyErasedAt,o.deliveredAt)) =
        some (.delivered,none,some 15) := rfl
  obtain ⟨o,found,same⟩ := Option.map_eq_some_iff.mp ends
  obtain ⟨s,ran,row⟩ := Option.bind_eq_some_iff.mp found
  obtain ⟨status,kept,delivered⟩ := Prod.mk.inj same |>.imp_right Prod.mk.inj
  have ordered := milestoneTimestamps (Transition.runReachable .start ran) row kept
  exact ⟨s,o,ran,row,status,ordered.2.2.2.2.2.2.2.1,delivered⟩

end SpeedySweeties
