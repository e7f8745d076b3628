import SpeedySweeties.Records.Erasure

/-! Orders that are final stay final, and only an erasure or an edit changes the rest of
their rows. An edit decides on the order it has read, before its geocoding call, and
writes by id: it rewrites a finished order when the order finishes in between, and it
keeps the coordinates of another address when another edit moves the order in between. -/
namespace SpeedySweeties

/-- What `updateOrderDetails` can write. -/
structure EditableRecord where
  items : List OrderItem
  contact : OrderContact
  location : OrderLocation
  itemsText : String
  additionalNotes : Option String
  paymentMethod : PaymentMethod
  deriving DecidableEq, Repr

def OrderRows.editable (r : OrderRows) : EditableRecord :=
  ⟨r.items,r.order.toOrderContact,r.order.toOrderLocation,r.order.itemsText,r.order.additionalNotes,
    r.order.paymentMethod⟩

namespace RecordSystem
variable {T : TextService} {s t : RecordSystem} {a : RecordAction} {id : OrderId} {r : OrderRows} {w : RowWrite}

/-- Where the decisions and edits that wait for their write come from. -/
structure RequestsStep (T : TextService) (s t : RecordSystem) : Prop where
  decided : ∀ request id u, t.decided request = some (id,u) →
    s.decided request = some (id,u) ∨ ∃ o receipt now, DecisionSource o receipt now u
  edits : ∀ request p, t.edits request = some p → s.edits request = some p ∨ p.location = none ∨
    ∃ answer location, replacementLocation T p.existingOrder p.body answer = .ok location ∧ p.location = some location

theorem RequestsStep.still (decided : t.decided = s.decided) (edits : t.edits = s.edits) : RequestsStep T s t :=
  ⟨fun _ _ _ held => .inl (decided ▸ held),fun _ _ held => .inl (edits ▸ held)⟩

theorem RequestsStep.closed (request : RequestId) {u : RecordSystem} (decided : u.decided = s.decided)
    (edits : u.edits = s.edits) : RequestsStep T s (u.close request) := by
  constructor
  · intro other id x held
    simp only [close,Function.update_apply] at held
    split at held <;> try contradiction
    exact .inl (decided ▸ held)
  · intro other p held
    simp only [close,Function.update_apply] at held
    split at held <;> try contradiction
    exact .inl (edits ▸ held)

theorem guardedWriteRequests (s : RecordSystem) (id : OrderId) (w : RowWrite) :
    (s.guardedWrite id w).decided = s.decided ∧ (s.guardedWrite id w).edits = s.edits := by
  unfold guardedWrite
  split <;> try exact ⟨rfl,rfl⟩
  split <;> exact ⟨rfl,rfl⟩

theorem saveReceiptRequests {process : RequestId} {receiptId : String} {user : UserId} {role : UserRole}
    {body : ReceiptBody} {now : Time} (taken : s.saveReceipt process r receiptId user role body now = some t) :
    RequestsStep T s t := by
  have kept := guardedWriteRequests s r.id
  simp only [saveReceipt] at taken
  split at taken
  · split at taken <;> try contradiction
    cases Option.some.inj taken
    exact .still (kept _).1 (kept _).2
  · split at taken <;> try contradiction
    split at taken
    · cases Option.some.inj taken
      exact .still rfl rfl
    · split at taken <;> cases Option.some.inj taken
      · exact .still rfl rfl
      · exact .still (kept _).1 (kept _).2

theorem allocateRequests (s : RecordSystem) (r : OrderRows) (selected : Option UserId) (now : Time) :
    RequestsStep T s ((s.allocate r selected now).unlock r.id) := by
  unfold allocate
  split <;> try exact .still rfl rfl
  split <;> exact .still rfl rfl

theorem eraseRequests (taken : s.erase id = some t) : RequestsStep T s t := by
  simp only [erase,bind,Option.bind_eq_some_iff] at taken
  obtain ⟨e,_,read,_,r,_,taken⟩ := taken
  split at taken <;> try contradiction
  split at taken <;> try contradiction
  split at taken
  · cases Option.some.inj taken
    exact .still rfl rfl
  · cases Option.some.inj taken
    exact .still rfl rfl
  · split at taken <;> try contradiction
    cases Option.some.inj taken
    exact .still rfl rfl

theorem requestsStep (taken : s.step T a = some t) : RequestsStep T s t := by
  cases a with
  | decide request id handler driver receipt now =>
    simp only [step] at taken
    split at taken <;> try contradiction
    rename_i decided
    cases Option.some.inj taken
    refine ⟨fun other id x held => ?_,fun _ _ held => .inl held⟩
    simp only [Function.update_apply] at held
    split at held
    · cases held
      obtain ⟨o,_,source⟩ := decisionSource decided
      exact .inr ⟨o,receipt,now,source⟩
    · exact .inl held
  | readEdit request id body =>
    simp only [step] at taken
    split at taken <;> try contradiction
    split at taken <;> try contradiction
    cases Option.some.inj taken
    refine ⟨fun _ _ _ held => .inl held,fun other p held => ?_⟩
    simp only [Function.update_apply] at held
    split at held
    · cases held
      exact .inr (.inl rfl)
    · exact .inl held
  | geocode request answer =>
    simp only [step,bind,Option.bind_eq_some_iff] at taken
    obtain ⟨p,_,taken⟩ := taken
    split at taken <;> try contradiction
    split at taken
    · cases Option.some.inj taken
      exact .closed request rfl rfl
    · rename_i location answered
      cases Option.some.inj taken
      refine ⟨fun _ _ _ held => .inl held,fun other p held => ?_⟩
      simp only [Function.update_apply] at held
      split at held
      · cases held
        exact .inr (.inr ⟨answer,location,answered,rfl⟩)
      · exact .inl held
  | write request assignable now =>
    simp only [step,bind,Option.bind_eq_some_iff] at taken
    obtain ⟨⟨id,u⟩,_,r,_,taken⟩ := taken
    dsimp only at taken
    split at taken <;> try contradiction
    split at taken <;> cases Option.some.inj taken <;> exact .closed request rfl rfl
  | edit request customerId keys =>
    simp only [step,bind,Option.bind_eq_some_iff] at taken
    obtain ⟨p,_,location,_,taken⟩ := taken
    split at taken <;> try contradiction
    cases Option.some.inj taken
    exact .closed request (guardedWriteRequests s _ _).1 (guardedWriteRequests s _ _).2
  | abandon request =>
    cases Option.some.inj taken
    exact .closed request rfl rfl
  | allocate process id selected now =>
    simp only [step,bind,Option.bind_eq_some_iff] at taken
    obtain ⟨r,row,taken⟩ := taken
    obtain rfl := Table.find_key row
    split at taken <;> try contradiction
    cases Option.some.inj taken
    exact allocateRequests s r selected now
  | saveReceipt process id receiptId user role body now =>
    simp only [step,bind,Option.bind_eq_some_iff] at taken
    obtain ⟨_,_,taken⟩ := taken
    exact saveReceiptRequests taken
  | erase id => exact eraseRequests taken
  | beginErasure customer now retainUntil =>
    simp only [step,startErasure] at taken
    split at taken <;> try contradiction
    cases Option.some.inj taken
    exact .still rfl rfl
  | help request helpId message now =>
    simp only [step,bind,Option.bind_eq_some_iff] at taken
    obtain ⟨_,_,taken⟩ := taken
    split at taken <;> try contradiction
    cases Option.some.inj taken
    exact .still (guardedWriteRequests s _ _).1 (guardedWriteRequests s _ _).2
  | handleHelp id user resolutionNote now =>
    simp only [step] at taken
    split at taken <;> try contradiction
    cases Option.some.inj taken
    exact .still (guardedWriteRequests s _ _).1 (guardedWriteRequests s _ _).2
  | createOrder id input address answer items now =>
    simp only [step] at taken
    split at taken <;> try contradiction
    simp only [bind,Option.bind_eq_some_iff] at taken
    obtain ⟨_,_,last⟩ := taken
    cases Option.some.inj last
    exact .still rfl rfl
  | updateEditPause process input now =>
    simp only [step,bind,Option.bind_eq_some_iff] at taken
    obtain ⟨_,_,taken⟩ := taken
    split at taken <;> try contradiction
    split at taken <;> cases Option.some.inj taken <;> exact .still rfl rfl
  | checkIn request eventId type now =>
    simp only [step,bind,Option.bind_eq_some_iff] at taken
    obtain ⟨_,_,_,_,taken⟩ := taken
    split at taken <;> try contradiction
    cases Option.some.inj taken
    exact .still rfl rfl
  | recordEvent index =>
    simp only [step,bind,Option.bind_eq_some_iff] at taken
    obtain ⟨_,_,_,_,taken⟩ := taken
    split at taken <;> try contradiction
    cases Option.some.inj taken
    exact .still rfl rfl
  | clearPickupStops | commitErasure | readReceipts | findCheckInOrder =>
    simp only [step,bind,Option.bind_eq_some_iff] at taken
    obtain ⟨_,_,taken⟩ := taken
    try split at taken
    all_goals try contradiction
    all_goals cases Option.some.inj taken
    all_goals exact .still rfl rfl
  | lock | rollback | loseEvent | abortErasure =>
    simp only [step] at taken
    try split at taken
    all_goals try contradiction
    all_goals cases Option.some.inj taken
    all_goals exact .still rfl rfl

structure PendingSound (T : TextService) (s : RecordSystem) : Prop where
  decided : ∀ request id u, s.decided request = some (id,u) → ∃ o receipt now, DecisionSource o receipt now u
  edits : ∀ request p location, s.edits request = some p → p.location = some location →
    ∃ answer, replacementLocation T p.existingOrder p.body answer = .ok location

theorem PendingSound.step (h : PendingSound T s) (move : RequestsStep T s t) : PendingSound T t := by
  constructor
  · intro request id u held
    rcases move.decided request id u held with old | source
    · exact h.decided request id u old
    · exact source
  · intro request p location held located
    rcases move.edits request p held with old | waiting | ⟨answer,answered,ok,found⟩
    · exact h.edits request p location old located
    · rw [waiting] at located
      cases located
    · rw [found] at located
      cases located
      exact ⟨answer,ok⟩

theorem pendingSound {rows : Table OrderRows OrderRows.id} (reached : Reachable T rows s) : PendingSound T s :=
  reached.invariant ⟨fun _ _ _ held => by simp [initial] at held,fun _ _ _ held => by simp [initial] at held⟩
    fun _ _ _ sound taken => sound.step (requestsStep taken)

/-! ### Finished orders -/



/-- An edit that commits finds its order unfinished. -/
def EditsUnfinished (s : RecordSystem) : RecordAction → Prop
  | .edit request _ _ => ∀ p r, s.edits request = some p → s.rows.find p.id = some r → r.order.orderStatus.final = false
  | _ => True

theorem finalStatus (sound : PendingSound T s) (source : WriteSource T s a r w)
    (final : r.order.orderStatus.final = true) : (w.apply r).order.orderStatus = r.order.orderStatus := by
  cases source with
  | updated decided updatable =>
    obtain ⟨o,receipt,now,source⟩ := sound.decided _ _ _ decided
    rw [guardStatus source updatable,decisionOperational source] at final
    cases final
  | allocated updatable =>
    rw [updatable.1.1 _ rfl] at final
    cases final
  | saved _ _ updated =>
    rcases updated with rfl | ok
    · rfl
    · rcases receiptUpdateSource ok with ⟨_,rfl⟩ | ⟨accepted,_⟩
      · rfl
      · rw [accepted] at final
        cases final
  | paused _ written =>
    have unguarded : ¬ w.guarded := by simp [pauseUnguarded written]
    exact congrArg (·.orderStatus) (retainedEq.mp (unguardedRetained unguarded r)).1
  | checkedIn =>
    simp only [RowWrite.apply]
    split <;> rfl
  | _ => rfl

theorem editableWrite (source : WriteSource T s a r w) : (w.apply r).editable = r.editable ∨
    ∃ request customerId keys p, a = .edit request customerId keys ∧ s.edits request = some p ∧ p.id = r.id := by
  cases source with
  | edited pending _ here => exact .inr ⟨_,_,_,_,rfl,pending,here⟩
  | paused _ written =>
    have unguarded : ¬ w.guarded := by simp [pauseUnguarded written]
    have kept := retainedEq.mp (unguardedRetained unguarded r)
    exact .inl (by simp [OrderRows.editable,kept.1,kept.2.1])
  | checkedIn =>
    simp only [RowWrite.apply]
    split <;> exact .inl rfl
  | _ => exact .inl rfl

theorem finishedWrite (sound : PendingSound T s) (allowed : EditsUnfinished s a) (row : s.rows.find r.id = some r)
    (source : WriteSource T s a r w) (final : r.order.orderStatus.final = true) :
    (w.apply r).order.orderStatus = r.order.orderStatus ∧ (w.apply r).editable = r.editable := by
  refine ⟨finalStatus sound source final,?_⟩
  rcases editableWrite source with kept | ⟨request,customerId,keys,p,rfl,pending,here⟩
  · exact kept
  · rw [allowed p r pending (here ▸ row)] at final
    cases final

/-- A later state of a finished order: it is as it was, or it has been erased since. -/
def FinishedKept (before after : OrderRows) : Prop :=
  after.order.orderStatus = before.order.orderStatus ∧
    (after.order.privacyErasedAt = before.order.privacyErasedAt ∧ after.editable = before.editable ∨
      before.order.privacyErasedAt = none ∧ after.order.privacyErasedAt ≠ none)

theorem FinishedKept.refl (r : OrderRows) : FinishedKept r r := ⟨rfl,.inl ⟨rfl,rfl⟩⟩

theorem FinishedKept.trans {x y z : OrderRows} (first : FinishedKept x y) (later : FinishedKept y z) :
    FinishedKept x z := by
  obtain ⟨status,⟨at₁,same⟩ | ⟨none,erased⟩⟩ := first
  · obtain ⟨status',⟨at₂,same'⟩ | ⟨none,erased⟩⟩ := later
    · exact ⟨status'.trans status,.inl ⟨at₂.trans at₁,same'.trans same⟩⟩
    · exact ⟨status'.trans status,.inr ⟨at₁.symm.trans none,erased⟩⟩
  · obtain ⟨status',⟨at₂,_⟩ | ⟨none',_⟩⟩ := later
    · exact ⟨status'.trans status,.inr ⟨none,at₂ ▸ erased⟩⟩
    · exact absurd none' erased

theorem retainedKept {x y : OrderRows} (same : y.retained = x.retained) : FinishedKept x y := by
  obtain ⟨order,items,_,_⟩ := retainedEq.mp same
  exact ⟨congrArg (·.orderStatus) order,.inl ⟨congrArg (·.privacyErasedAt) order,by
    simp [OrderRows.editable,order,items]⟩⟩

theorem finishedStep (pending : PendingSound T s) (sound : ErasureSound s) (allowed : EditsUnfinished s a)
    (move : RowsStep T s a t) (row : s.rows.find id = some r) (final : r.order.orderStatus.final = true) :
    ∃ r', t.rows.find id = some r' ∧ FinishedKept r r' := by
  have key := Table.find_key row
  cases move with
  | written x w found source _ rows =>
    rw [rows,findWritten,row]
    refine ⟨_,rfl,?_⟩
    unfold onOrder
    split
    · rename_i here
      rw [← key,show r.id = x.id from here,found] at row
      cases row
      obtain ⟨status,same⟩ := finishedWrite pending allowed found source final
      exact ⟨status,.inl ⟨writeErasedAt w r,same⟩⟩
    · exact .refl r
  | created other input address location answer items now fresh _ rows =>
    rw [rows,Table.find_put]
    split
    · rename_i same
      rw [← same] at row
      rw [show OrderRows.id _ = other from rfl,fresh] at row
      cases row
    · exact ⟨r,row,.refl r⟩
  | committed e _ live done rows =>
    obtain ⟨working,found,view⟩ := (sound.view e live).found row
    rw [rows]
    refine ⟨working,found,?_⟩
    by_cases scope : r.id ∈ e.ids
    · have record := view.finished scope (done _ scope)
      rw [eraseWithAll] at record
      have order := (retainedEq.mp record).1
      refine ⟨by rw [order]; rfl,.inr ⟨view.unerased scope,by rw [order]; simp [eraseRows,eraseOrder]⟩⟩
    · exact retainedKept (view.outside scope)
  | aside rows | started _ _ rows | read _ _ _ rows | erased _ _ _ _ _ _ _ _ _ _ rows | aborted rows =>
    exact ⟨r,rows ▸ row,.refl r⟩

/-- When every edit commits on an unfinished order, a finished order keeps its status, and
what edits write stays until the order is erased. -/
theorem finishedOrderKept {rows : Table OrderRows OrderRows.id}
    (unerased : ∀ r ∈ rows.rows, r.order.privacyErasedAt = none) (reached : Reachable T rows s)
    (row : s.rows.find id = some r) (final : r.order.orderStatus.final = true)
    (later : Transition.ReachableUnder (RecordSystem.step T) EditsUnfinished s t) :
    ∃ r', t.rows.find id = some r' ∧ r'.order.orderStatus = r.order.orderStatus ∧
      (r'.order.privacyErasedAt = r.order.privacyErasedAt → r'.editable = r.editable) := by
  have run : ∃ r', t.rows.find id = some r' ∧ FinishedKept r r' := by
    refine later.invariantWith (I := fun t => ∃ r', t.rows.find id = some r' ∧ FinishedKept r r')
      ⟨r,row,.refl r⟩ fun u a v before ⟨now,found,kept⟩ allowed taken => ?_
    have there := reached.trans before.reachable
    have still : now.order.orderStatus.final = true := by rwa [kept.1]
    obtain ⟨next,last,move⟩ := finishedStep (pendingSound there) (erasureSound unerased there) allowed
      (rowsStep taken) found still
    exact ⟨next,last,kept.trans move⟩
  obtain ⟨r',found,status,kept⟩ := run
  refine ⟨r',found,status,fun same => ?_⟩
  rcases kept with ⟨_,kept⟩ | ⟨unerased,erased⟩
  · exact kept
  · exact absurd (same.trans unerased) erased

def drivenOrder : OrderRows where
  order := { createdOrder "order" sampleOrder 0 with orderStatus := .outForDelivery, assignedDriverId := some "driver" }
  items := [⟨"item",some "fudge","Fudge",1,1200,0⟩]
  digitalReceipt := some ⟨sampleReceipt.toReceiptAmounts,"receipt","SS-7",some "driver",some "Extra stops: 1",none,5⟩
  helpRequest := none
  dispatchEvents := []
  editPauses := []
  pickupStops := []
  checkIns := []

def drivenOrders : Table OrderRows OrderRows.id := ⟨[drivenOrder],by decide⟩

theorem drivenOrdersUnerased : ∀ r ∈ drivenOrders.rows, r.order.privacyErasedAt = none := by
  intro r mem
  rw [List.mem_singleton.mp mem]
  rfl

def sampleEdit : UpdateOrderDetailsBody where
  customerName := "Jo"
  customerPhone := "416 555 0100"
  customerEmail := "jo@example.com"
  addressLine1 := "20 Queen St"
  unitNumber := none
  buzzCode := none
  city := "Toronto"
  province := "ON"
  additionalNotes := none
  paymentMethod := .debit
  items := [⟨"Nougat",2,900⟩]

def readEditRun : List RecordAction := [.readEdit 1 "order" sampleEdit,.geocode 1 .unavailable]

def deliverRun : List RecordAction :=
  [.decide 2 "order" (.driverAction (some "driver") .delivered) none true 50,.write 2 false 50]

/-- The edit of an order out for delivery commits, then the order is delivered. -/
theorem deliveredOrderKept : ∃ (s : RecordSystem) (r : OrderRows), s.rows.find "order" = some r ∧
    r.order.orderStatus = .delivered ∧ r.items = [⟨"item2",some "nougat","Nougat",2,900,40⟩] ∧
    ∀ t, s.step sampleText (.clearPickupStops "order") = some t →
      ∃ r', t.rows.find "order" = some r' ∧ r'.order.orderStatus = .delivered ∧
        (r'.order.privacyErasedAt = r.order.privacyErasedAt → r'.editable = r.editable) := by
  have ends : (Transition.run (RecordSystem.step sampleText) (initial drivenOrders)
      (readEditRun ++ [RecordAction.edit 1 "customer" [("item2","nougat",40)]] ++ deliverRun)).bind (fun s =>
        (s.rows.find "order").map fun r => (r.order.orderStatus,r.items)) =
      some (.delivered,[⟨"item2",some "nougat","Nougat",2,900,40⟩]) := by decide +kernel
  obtain ⟨s,ran,found⟩ := Option.bind_eq_some_iff.mp ends
  obtain ⟨r,row,same⟩ := Option.map_eq_some_iff.mp found
  obtain ⟨delivered,items⟩ := Prod.mk.inj same
  refine ⟨s,r,row,delivered,items,fun t taken => ?_⟩
  have allowed : EditsUnfinished s (.clearPickupStops "order") := trivial
  obtain ⟨r',there,status,kept⟩ := finishedOrderKept drivenOrdersUnerased (Transition.runReachable .start ran) row
    (by rw [delivered]; rfl) (.next .start allowed taken)
  exact ⟨r',there,status.trans delivered,kept⟩

/-- The driver delivers during the edit's geocoding call. -/
theorem editRewritesDelivered : ∃ (s t : RecordSystem) (r r' : OrderRows), Reachable sampleText drivenOrders s ∧
    s.rows.find "order" = some r ∧ r.order.orderStatus = .delivered ∧
    s.step sampleText (.edit 1 "customer" [("item2","nougat",60)]) = some t ∧ t.rows.find "order" = some r' ∧
    r'.order.privacyErasedAt = none ∧ r'.order.addressLine1 ≠ r.order.addressLine1 ∧ r'.items ≠ r.items ∧
    r'.order.paymentMethod ≠ r.order.paymentMethod := by
  have ends : (Transition.run (RecordSystem.step sampleText) (initial drivenOrders)
      (readEditRun ++ deliverRun)).bind (fun s => (s.rows.find "order").bind fun r =>
        (s.step sampleText (.edit 1 "customer" [("item2","nougat",60)])).bind fun t => (t.rows.find "order").map fun r' =>
          (r.order.orderStatus,r'.order.privacyErasedAt,decide (r'.order.addressLine1 ≠ r.order.addressLine1 ∧
            r'.items ≠ r.items ∧ r'.order.paymentMethod ≠ r.order.paymentMethod))) =
      some (.delivered,none,true) := by decide +kernel
  obtain ⟨s,ran,found⟩ := Option.bind_eq_some_iff.mp ends
  obtain ⟨r,row,found⟩ := Option.bind_eq_some_iff.mp found
  obtain ⟨t,taken,found⟩ := Option.bind_eq_some_iff.mp found
  obtain ⟨r',there,same⟩ := Option.map_eq_some_iff.mp found
  simp only [Prod.mk.injEq,decide_eq_true_eq] at same
  exact ⟨s,t,r,r',Transition.runReachable .start ran,row,same.1,taken,there,same.2⟩

/-! ### Address and coordinates -/

/-- The coordinates of the order, if any, were obtained for the address it carries. -/
def LocationAgrees (T : TextService) (o : Order) : Prop :=
  o.deliveryLatitude ≠ none ∨ o.deliveryLongitude ≠ none →
    o.geocodeAddressFingerprint = some (createDeliveryAddressFingerprint T o.deliveryAddress)

/-- An edit that has not geocoded commits on the address it has read, unless the order has
no coordinates. -/
def EditsSameAddress (T : TextService) (s : RecordSystem) : RecordAction → Prop
  | .edit request _ _ => ∀ p r, s.edits request = some p → p.location = some none → s.rows.find p.id = some r →
      r.order.deliveryLatitude ≠ none ∨ r.order.deliveryLongitude ≠ none →
      createDeliveryAddressFingerprint T r.order.deliveryAddress =
        createDeliveryAddressFingerprint T p.existingOrder.deliveryAddress
  | _ => True

theorem createdAgrees {input : NewOrder} {address : DeliveryAddressInput} {answer : GeocodeAnswer}
    {location : OrderLocation} {items : List OrderItem} {now : Time}
    (located : geocodeDeliveryAddress T address answer = some location) :
    LocationAgrees T (createdRows id input address location items now).order := by
  intro _
  have fingerprint := geocodedFingerprint T located
  rw [← fingerprintTrimmed] at fingerprint
  exact fingerprint

theorem replacementSource {existingOrder : Order} {body : UpdateOrderDetailsBody} {answer : GeocodeAnswer}
    {location : Option OrderLocation} (ok : replacementLocation T existingOrder body answer = .ok location) :
    match location with
    | some found => geocodeDeliveryAddress T body.deliveryAddress answer = some found
    | none => createDeliveryAddressFingerprint T existingOrder.deliveryAddress =
        createDeliveryAddressFingerprint T body.deliveryAddress := by
  unfold replacementLocation at ok
  split at ok
  · split at ok <;> cases ok
    assumption
  · rename_i same
    cases ok
    simpa [civicAddressChanged] using same

theorem editedAgrees {p : PendingEdit} {location : Option OrderLocation} {customerId : CustomerId}
    (sound : PendingSound T s) {request : RequestId} (pending : s.edits request = some p)
    (located : p.location = some location) (here : p.id = r.id) (row : s.rows.find r.id = some r)
    {keys : List (String × String × Time)} (allowed : EditsSameAddress T s (.edit request customerId keys)) (agrees : LocationAgrees T r.order) :
    LocationAgrees T ((p.body.details T customerId location).apply p.existingOrder r.order) := by
  obtain ⟨answer,ok⟩ := sound.edits request p location pending located
  have source := replacementSource ok
  have address : ((p.body.details T customerId location).apply p.existingOrder r.order).deliveryAddress =
      p.body.deliveryAddress.trimmed := rfl
  unfold LocationAgrees
  rw [address,fingerprintTrimmed]
  cases location with
  | some found => exact fun _ => geocodedFingerprint T source
  | none =>
    intro placed
    have placed : r.order.deliveryLatitude ≠ none ∨ r.order.deliveryLongitude ≠ none := placed
    have same := allowed p r pending located (here ▸ row) placed
    rw [← source,← same]
    exact agrees placed

theorem writtenAgrees (sound : PendingSound T s) (allowed : EditsSameAddress T s a)
    (row : s.rows.find r.id = some r) (source : WriteSource T s a r w) (agrees : LocationAgrees T r.order) :
    LocationAgrees T (w.apply r).order := by
  cases source with
  | edited pending located here => exact editedAgrees sound pending located here row allowed agrees
  | paused _ written =>
    have unguarded : ¬ w.guarded := by simp [pauseUnguarded written]
    rwa [(retainedEq.mp (unguardedRetained unguarded r)).1]
  | checkedIn =>
    simp only [RowWrite.apply]
    split <;> exact agrees
  | _ => exact agrees

theorem agreesStep (sound : ErasureSound s) (pending : PendingSound T s) (allowed : EditsSameAddress T s a)
    (move : RowsStep T s a t) (agrees : ∀ r ∈ s.rows.rows, LocationAgrees T r.order) :
    ∀ r ∈ t.rows.rows, LocationAgrees T r.order := by
  cases move with
  | written r w row source _ rows =>
    intro written mem
    rw [rows] at mem
    rcases memWritten row mem with there | rfl
    · exact agrees _ there
    · exact writtenAgrees pending allowed row source (agrees r (Table.find_some row).1)
  | created id input address location answer items now _ located rows =>
    intro r mem
    rw [rows] at mem
    rcases Table.mem_put mem with rfl | ⟨mem,_⟩
    · exact createdAgrees located
    · exact agrees r mem
  | committed e _ live done rows =>
    intro working mem
    rw [rows] at mem
    obtain ⟨r,found,view⟩ := (sound.view e live).flip.found (Table.find_of_mem mem)
    by_cases scope : r.id ∈ e.ids
    · have record := view.finished scope (done _ scope)
      rw [eraseWithAll] at record
      rw [(retainedEq.mp record).1]
      intro placed
      simp [eraseRows,eraseOrder] at placed
    · rw [(retainedEq.mp (view.outside scope)).1]
      exact agrees r (Table.find_some found).1
  | aside rows | started _ _ rows | read _ _ _ rows | erased _ _ _ _ _ _ _ _ _ _ rows | aborted rows =>
    rwa [rows]

/-- When an edit that keeps the coordinates finds the address it has read, coordinates and
address of every order agree. -/
theorem addressAndCoordinatesAgree {rows : Table OrderRows OrderRows.id}
    (unerased : ∀ r ∈ rows.rows, r.order.privacyErasedAt = none)
    (agrees : ∀ r ∈ rows.rows, LocationAgrees T r.order)
    (reached : Transition.ReachableUnder (RecordSystem.step T) (EditsSameAddress T) (initial rows) s) :
    ∀ r ∈ s.rows.rows, LocationAgrees T r.order :=
  reached.invariantWith agrees fun _ _ _ before agrees allowed taken =>
    agreesStep (erasureSound unerased before.reachable) (pendingSound before.reachable) allowed (rowsStep taken) agrees

/-! Two edits of an order: `sampleEdit` moves it to another street, the other corrects the
customer's name. -/

def nameEdit : UpdateOrderDetailsBody := { sampleEdit with customerName := "Joanna", addressLine1 := "1 King St" }

def kingStreet : GeocodeAnswer := .verified 43648000 (-79377000) (some "1 King St, Toronto, ON, Canada") none

def queenStreet : GeocodeAnswer := .verified 43653000 (-79370000) (some "20 Queen St, Toronto, ON, Canada") none

def createRun : List RecordAction :=
  [.createOrder "order" sampleOrder ⟨"1 King St","Toronto","ON"⟩ kingStreet [] 0]

def nameEditRun : List RecordAction := createRun ++ [RecordAction.readEdit 1 "order" nameEdit,.geocode 1 kingStreet]

theorem nameEditAgrees : ∃ (s : RecordSystem) (r : OrderRows), r ∈ s.rows.rows ∧
    r.order.customerName = "Joanna" ∧ r.order.deliveryLatitude = some 43648000 ∧ LocationAgrees sampleText r.order := by
  have before : (Transition.run (RecordSystem.step sampleText) (initial Table.empty) nameEditRun).bind (fun s =>
      (s.edits 1).bind fun p => (s.rows.find p.id).map fun r =>
        decide (createDeliveryAddressFingerprint sampleText r.order.deliveryAddress =
          createDeliveryAddressFingerprint sampleText p.existingOrder.deliveryAddress)) = some true := by
    decide +kernel
  have allowed : Transition.AllowedRun (RecordSystem.step sampleText) (EditsSameAddress sampleText)
      (initial Table.empty) (nameEditRun ++ [RecordAction.edit 1 "customer" []]) := by
    refine .append ⟨trivial,fun _ _ => ⟨trivial,fun _ _ => ⟨trivial,fun _ _ => trivial⟩⟩⟩ fun s ran =>
      ⟨fun p r pending _ row _ => ?_,fun _ _ => trivial⟩
    simpa only [ran,pending,row,Option.bind_some,Option.map_some,Option.some.injEq,decide_eq_true_eq] using before
  have ends : (Transition.run (RecordSystem.step sampleText) (initial Table.empty)
      (nameEditRun ++ [RecordAction.edit 1 "customer" []])).bind (fun s => (s.rows.find "order").map fun r =>
        (r.order.customerName,r.order.deliveryLatitude)) = some ("Joanna",some 43648000) := by decide +kernel
  obtain ⟨s,ran,found⟩ := Option.bind_eq_some_iff.mp ends
  obtain ⟨r,row,same⟩ := Option.map_eq_some_iff.mp found
  obtain ⟨name,latitude⟩ := Prod.mk.inj same
  have mem := (Table.find_some row).1
  refine ⟨s,r,mem,name,latitude,?_⟩
  exact addressAndCoordinatesAgree (fun _ none => by cases none) (fun _ none => by cases none)
    (Transition.runReachableUnder .start allowed ran) r mem

/-- The name is corrected on the address that was read before the move. -/
def crossedEditsRun : List RecordAction :=
  createRun ++ [RecordAction.readEdit 1 "order" nameEdit,.geocode 1 kingStreet,.readEdit 2 "order" sampleEdit,
    .geocode 2 queenStreet,.edit 2 "customer" [],.edit 1 "customer" []]

theorem crossedEditsDisagree : ∃ (s : RecordSystem) (r : OrderRows),
    Reachable sampleText Table.empty s ∧ r ∈ s.rows.rows ∧ r.order.deliveryLatitude = some 43653000 ∧
    r.order.addressLine1 = "1 King St" ∧ ¬ LocationAgrees sampleText r.order := by
  have ends : (Transition.run (RecordSystem.step sampleText) (initial Table.empty) crossedEditsRun).bind (fun s =>
      (s.rows.find "order").map fun r => (r.order.deliveryLatitude,r.order.addressLine1,
        decide (r.order.geocodeAddressFingerprint =
          some (createDeliveryAddressFingerprint sampleText r.order.deliveryAddress)))) =
      some (some 43653000,"1 King St",false) := by decide +kernel
  obtain ⟨s,ran,found⟩ := Option.bind_eq_some_iff.mp ends
  obtain ⟨r,row,same⟩ := Option.map_eq_some_iff.mp found
  simp only [Prod.mk.injEq,decide_eq_false_iff_not] at same
  obtain ⟨latitude,address,differ⟩ := same
  refine ⟨s,r,Transition.runReachable .start ran,(Table.find_some row).1,latitude,address,fun agrees => ?_⟩
  exact differ (agrees (.inl (by simp [latitude])))

end RecordSystem
end SpeedySweeties
