import SpeedySweeties.Records.System

/-! What one step does to the tables, to the erasure and to the locks it holds. A
committed write names the statement it comes from and what that statement found. -/
namespace SpeedySweeties
namespace RecordSystem

def ErasureHolds (s : RecordSystem) (id : OrderId) : Prop := ∃ mode, s.locks id = some ⟨.erasure,mode⟩

/-- The writes of a step, each with the row its statement has found. -/
inductive WriteSource (T : TextService) (s : RecordSystem) : RecordAction → OrderRows → RowWrite → Prop where
  | updated {request assignable now u r} (decided : s.decided request = some (r.id,u))
      (updatable : Updatable u.guard r.order) : WriteSource T s (.write request assignable now) r (.order u.data)
  | allocated {process selected now r data} (updatable : Updatable { orderStatus := some .placed } r.order) :
      WriteSource T s (.allocate process r.id selected now) r (.order data)
  | saved {process receiptId user role body now r data}
      (accepted : role = .driver → r.order.assignedDriverId = some user)
      (unerased : r.order.privacyErasedAt = none) (updated : data = {} ∨ receiptUpdate r.order now = some data) :
      WriteSource T s (.saveReceipt process r.id receiptId user role body now) r
        (.receipt (upsertReceipt r.digitalReceipt receiptId r.order user body now) data)
  | edited {request customerId keys p location r} (pending : s.edits request = some p)
      (located : p.location = some location) (here : p.id = r.id) (idle : s.erasure = none)
      (unerased : r.order.privacyErasedAt = none) :
      WriteSource T s (.edit request customerId keys) r (.details p.existingOrder
        (p.body.details T customerId location) (editedItems p.body.items keys))
  | helped {request helpId message now r} (unerased : r.order.privacyErasedAt = none) :
      WriteSource T s (.help request helpId message now) r (.help ⟨helpId,message,.open,now,none,none,none⟩)
  | handled {user resolutionNote now r} (unerased : r.order.privacyErasedAt = none) :
      WriteSource T s (.handleHelp r.id user resolutionNote now) r (.handled now user resolutionNote)
  | checkedIn {request eventId type now r} (found : s.checkIns request = some r.id) :
      WriteSource T s (.checkIn request eventId type now) r (.checkIn ⟨eventId,type,now⟩)
  | recorded {index event r} (waiting : s.unrecorded[index]? = some event) (here : event.orderId = r.id) :
      WriteSource T s (.recordEvent index) r (.dispatchEvent event)
  | paused {process input now r session} (here : input.orderId = r.id)
      (written : updateEditPause (findPause s.rows input.sessionId) r input now = .ok (some session)) :
      WriteSource T s (.updateEditPause process input now) r session
  | cleared {r} : WriteSource T s (.clearPickupStops r.id) r .clearPickupStops

inductive RowsStep (T : TextService) (s : RecordSystem) (a : RecordAction) (t : RecordSystem) : Prop where
  | aside (rows : t.rows = s.rows) (erasure : t.erasure = s.erasure)
      (locks : ∀ id, t.ErasureHolds id ↔ s.ErasureHolds id)
  | written (r : OrderRows) (w : RowWrite) (row : s.rows.find r.id = some r) (source : WriteSource T s a r w)
      (unlocked : w.guarded → ¬ s.ErasureHolds r.id) (rows : t.rows = writeRows s.rows r.id w)
      (erasure : t.erasure = s.erasure.map fun e => { e with working := writeRows e.working r.id w })
      (locks : ∀ id, t.ErasureHolds id ↔ s.ErasureHolds id)
  | created (id : OrderId) (input : NewOrder) (address : DeliveryAddressInput) (location : OrderLocation)
      (answer : GeocodeAnswer) (items : List OrderItem) (now : Time) (fresh : s.rows.find id = none)
      (located : geocodeDeliveryAddress T address answer = some location)
      (rows : t.rows = s.rows.put (createdRows id input address location items now))
      (idle : s.erasure = none) (still : t.erasure = none) (locks : ∀ id, t.ErasureHolds id ↔ s.ErasureHolds id)
  | started (e : Erasure) (idle : s.erasure = none) (rows : t.rows = s.rows) (erasure : t.erasure = some e)
      (locks : t.locks = s.locks) (working : e.working = s.rows) (unread : e.read = none)
      (todo : ∀ id, e.todo id = erasureStatements)
      (customer : CustomerId)
      (scope : e.ids = (s.rows.rows.filter (·.order.customerId = some customer)).map (·.id))
      (closed : ∀ r ∈ s.rows.rows, r.order.customerId = some customer → r.order.orderStatus.final = true)
  | read (e : Erasure) (live : s.erasure = some e) (unread : e.read = none) (rows : t.rows = s.rows)
      (locks : t.locks = s.locks) (erasure : t.erasure = some { e with
        read := some fun id => (e.working.find id).bind (·.digitalReceipt) })
  | erased (e : Erasure) (read : OrderId → Option DigitalReceipt) (r : OrderRows) (statement : ErasureStatement)
      (rest : List ErasureStatement) (live : s.erasure = some e) (known : e.read = some read)
      (row : e.working.find r.id = some r) (todo : e.todo r.id = statement::rest) (scope : r.id ∈ e.ids)
      (rows : t.rows = s.rows) (erasure : t.erasure = some { e with
        todo := Function.update e.todo r.id rest
        working := e.working.put (statement.apply e.now e.retainUntil (read r.id) r) })
      (locks : ∀ id, t.ErasureHolds id ↔
        s.ErasureHolds id ∨ id = r.id ∧ (statement.lock (read r.id) r).isSome)
  | committed (e : Erasure) (action : a = .commitErasure) (live : s.erasure = some e)
      (done : ∀ id ∈ e.ids, e.todo id = []) (rows : t.rows = e.working) (erasure : t.erasure = none)
      (locks : ∀ id, ¬ t.ErasureHolds id)
  | aborted (rows : t.rows = s.rows) (erasure : t.erasure = none) (locks : ∀ id, ¬ t.ErasureHolds id)

variable {T : TextService} {s t : RecordSystem} {a : RecordAction} {id : OrderId} {process : RequestId}

theorem freeHolds (h : s.free id) : ¬ s.ErasureHolds id := by
  rintro ⟨mode,held⟩
  simp [free,held] at h

theorem processHolds (h : s.holds process id) : ¬ s.ErasureHolds id := by
  rintro ⟨mode,held⟩
  simp [holds,held] at h

theorem setLockHolds {next : OrderLock} (h : ¬ s.ErasureHolds id) (outside : next.holder ≠ .erasure) (other : OrderId) :
    ErasureHolds { s with locks := Function.update s.locks id (some next) } other ↔ s.ErasureHolds other := by
  unfold ErasureHolds at h ⊢
  by_cases same : other = id
  · subst same
    simp only [Function.update_self,Option.some.injEq]
    refine ⟨fun ⟨mode,eq⟩ => ?_,fun held => absurd held h⟩
    rw [eq] at outside
    exact absurd rfl outside
  · simp [Function.update_of_ne same]

theorem unlockHolds (h : ¬ s.ErasureHolds id) (other : OrderId) :
    (s.unlock id).ErasureHolds other ↔ s.ErasureHolds other := by
  unfold ErasureHolds unlock at *
  by_cases same : other = id
  · subst same
    simpa using h
  · simp [Function.update_of_ne same]

theorem endErasureHolds (id : OrderId) : ¬ s.endErasure.ErasureHolds id := by
  rintro ⟨mode,held⟩
  simp only [endErasure,Option.filter_eq_some_iff] at held
  simp at held

theorem guardedWriteLocks (s : RecordSystem) (id : OrderId) (w : RowWrite) :
    (s.guardedWrite id w).locks = s.locks := by
  unfold guardedWrite
  split <;> try rfl
  split <;> rfl

theorem holdsCongr {u : RecordSystem} (locks : t.locks = u.locks) (id : OrderId) :
    t.ErasureHolds id ↔ u.ErasureHolds id := by
  rw [ErasureHolds,ErasureHolds,locks]

theorem guardedWriteStep {r : OrderRows} {w : RowWrite} (row : s.rows.find r.id = some r)
    (source : r.order.privacyErasedAt = none → WriteSource T s a r w) (unlocked : ¬ s.ErasureHolds r.id)
    (rows : t.rows = (s.guardedWrite r.id w).rows) (erasure : t.erasure = (s.guardedWrite r.id w).erasure)
    (locks : ∀ id, t.ErasureHolds id ↔ s.ErasureHolds id) : RowsStep T s a t := by
  simp only [guardedWrite,row] at rows erasure
  split at rows
  · rename_i unerased
    rw [if_pos unerased] at erasure
    exact .written r w row (source unerased) (fun _ => unlocked) rows erasure locks
  · rename_i retained
    rw [if_neg retained] at erasure
    exact .aside rows erasure locks

theorem guardedOnIdStep {w : RowWrite} (id : OrderId) (free : s.free id)
    (source : ∀ r : OrderRows, r.id = id → r.order.privacyErasedAt = none → WriteSource T s a r w) :
    RowsStep T s a (s.guardedWrite id w) := by
  cases row : s.rows.find id with
  | none =>
    have still : s.guardedWrite id w = s := by simp only [guardedWrite,row]
    rw [still]
    exact .aside rfl rfl fun _ => Iff.rfl
  | some r =>
    obtain rfl := Table.find_key row
    exact guardedWriteStep row (source r rfl) (freeHolds free) rfl rfl (holdsCongr (guardedWriteLocks s _ _))

theorem saveReceiptStep {r : OrderRows} {receiptId : String} {user : UserId} {role : UserRole}
    {body : ReceiptBody} {now : Time} (row : s.rows.find r.id = some r)
    (taken : s.saveReceipt process r receiptId user role body now = some t) :
    RowsStep T s (.saveReceipt process r.id receiptId user role body now) t := by
  simp only [saveReceipt] at taken
  split at taken
  · rename_i staff
    split at taken <;> try contradiction
    rename_i free
    cases Option.some.inj taken
    refine guardedWriteStep row (fun unerased => .saved (fun driver => absurd driver staff) unerased (.inl rfl))
      (freeHolds free) rfl rfl (holdsCongr (guardedWriteLocks s _ _))
  · split at taken <;> try contradiction
    rename_i held
    have unheld := processHolds (not_not.mp held)
    split at taken
    · cases Option.some.inj taken
      exact .aside rfl rfl (unlockHolds unheld)
    · rename_i mine
      split at taken
      · cases Option.some.inj taken
        exact .aside rfl rfl (unlockHolds unheld)
      · rename_i data updated
        cases Option.some.inj taken
        have kept := holdsCongr (guardedWriteLocks s r.id
          (.receipt (upsertReceipt r.digitalReceipt receiptId r.order user body now) data))
        exact guardedWriteStep row (fun unerased => .saved (fun _ => not_not.mp mine) unerased (.inr updated))
          unheld rfl rfl fun id => (unlockHolds ((kept r.id).not.mpr unheld) id).trans (kept id)

theorem pauseSource {stored : Option (OrderId × OrderEditPause)} {r : OrderRows} {input : EditPauseInput}
    {now : Time} {w : RowWrite} (written : updateEditPause stored r input now = .ok (some w)) :
    (∃ session, w = .updatePause session) ∨
      (∃ session, w = .createPause session) ∧ stored = none ∧ (input.action = .stop ∨ r.pauseEligible = true) := by
  unfold updateEditPause at written
  split at written
  · split at written <;> try contradiction
    split at written
    · split at written <;> cases written
      exact .inl ⟨_,rfl⟩
    · split at written
      · cases written
        exact .inl ⟨_,rfl⟩
      · split at written <;> cases written
  · split at written
    · rename_i stops
      cases written
      exact .inr ⟨⟨_,rfl⟩,rfl,.inl stops⟩
    · split at written <;> try cases written
      rename_i eligible
      split at written <;> cases written
      exact .inr ⟨⟨_,rfl⟩,rfl,.inr (by simpa using eligible)⟩

theorem pauseUnguarded {stored : Option (OrderId × OrderEditPause)} {r : OrderRows} {input : EditPauseInput}
    {now : Time} {w : RowWrite} (written : updateEditPause stored r input now = .ok (some w)) :
    w.guarded = false := by
  rcases pauseSource written with ⟨_,rfl⟩ | ⟨⟨_,rfl⟩,_⟩ <;> rfl

theorem allocateStep {r : OrderRows} {selected : Option UserId} {now : Time} (row : s.rows.find r.id = some r)
    (held : s.holds process r.id) :
    RowsStep T s (.allocate process r.id selected now) ((s.allocate r selected now).unlock r.id) := by
  have unheld := processHolds held
  unfold allocate
  split <;> try exact .aside rfl rfl (unlockHolds unheld)
  split <;> try exact .aside rfl rfl (unlockHolds unheld)
  rename_i updatable
  have target : Updatable { orderStatus := some .placed } r.order := ⟨⟨updatable.1.1,by simp⟩,updatable.2⟩
  exact .written r _ row (.allocated target) (fun _ => unheld) rfl rfl (unlockHolds unheld)

theorem startErasureStep {customer : CustomerId} {now retainUntil : Time}
    (taken : s.startErasure customer now retainUntil = some t) : RowsStep T s a t := by
  simp only [startErasure] at taken
  split at taken <;> try contradiction
  rename_i guard
  simp only [not_or] at guard
  cases Option.some.inj taken
  refine .started _ (by simpa using guard.1) rfl rfl rfl rfl rfl (fun _ => rfl) customer rfl fun r mem mine => ?_
  have closed := guard.2
  simp only [List.any_filter,List.any_eq_true,not_exists,not_and] at closed
  simpa [mine] using closed r mem

theorem eraseStep (taken : s.erase id = some t) : RowsStep T s a t := by
  simp only [erase,bind,Option.bind_eq_some_iff] at taken
  obtain ⟨e,live,read,known,r,row,taken⟩ := taken
  obtain rfl := Table.find_key row
  split at taken <;> try contradiction
  rename_i statement rest todo
  split at taken <;> try contradiction
  rename_i guard
  simp only [not_or,not_not] at guard
  split at taken
  · rename_i unlocked
    cases Option.some.inj taken
    refine .erased e read r statement rest live known row todo guard.1 rfl rfl fun id => ?_
    simp [unlocked,ErasureHolds]
  · rename_i mode lock free
    cases Option.some.inj taken
    refine .erased e read r statement rest live known row todo guard.1 rfl rfl fun id => ?_
    by_cases same : id = r.id
    · subst same
      simp [ErasureHolds,lock]
    · simp [ErasureHolds,same]
  · rename_i mode held lock locked
    split at taken <;> try contradiction
    rename_i mine
    cases Option.some.inj taken
    refine .erased e read r statement rest live known row todo guard.1 rfl rfl fun id => ?_
    have holder : s.ErasureHolds r.id := ⟨held.mode,by rw [locked,← mine]⟩
    refine ⟨.inl,?_⟩
    rintro (old | ⟨rfl,_⟩)
    · exact old
    · exact holder

theorem rowsStep (taken : s.step T a = some t) : RowsStep T s a t := by
  cases a with
  | createOrder id input address answer items now =>
    simp only [step] at taken
    split at taken <;> try contradiction
    rename_i guard
    simp only [not_or] at guard
    simp only [bind,Option.bind_eq_some_iff] at taken
    obtain ⟨location,located,last⟩ := taken
    cases Option.some.inj last
    have idle : s.erasure = none := by simpa using guard.1
    exact .created id input address location answer items now (by simpa using guard.2) located rfl idle idle
      fun _ => Iff.rfl
  | lock process id =>
    simp only [step] at taken
    split at taken <;> try contradiction
    rename_i guard
    cases Option.some.inj taken
    exact .aside rfl rfl (setLockHolds (freeHolds guard.1) (by simp))
  | rollback process id =>
    simp only [step] at taken
    split at taken <;> try contradiction
    rename_i held
    cases Option.some.inj taken
    exact .aside rfl rfl (unlockHolds (processHolds held))
  | decide request id handler driver receipt now =>
    simp only [step] at taken
    split at taken <;> try contradiction
    cases Option.some.inj taken
    exact .aside rfl rfl fun _ => Iff.rfl
  | write request assignable now =>
    simp only [step,bind,Option.bind_eq_some_iff] at taken
    obtain ⟨⟨id,u⟩,decided,r,row,taken⟩ := taken
    obtain rfl := Table.find_key row
    dsimp only at taken row
    split at taken <;> try contradiction
    rename_i free
    split at taken <;> cases Option.some.inj taken
    · rename_i ok
      exact .written r _ row (.updated decided ok.2) (fun _ => freeHolds (not_not.mp free)) rfl rfl
        fun _ => Iff.rfl
    · exact .aside rfl rfl fun _ => Iff.rfl
  | allocate process id selected now =>
    simp only [step,bind,Option.bind_eq_some_iff] at taken
    obtain ⟨r,row,taken⟩ := taken
    obtain rfl := Table.find_key row
    split at taken <;> try contradiction
    rename_i held
    cases Option.some.inj taken
    exact allocateStep row held
  | saveReceipt process id receiptId user role body now =>
    simp only [step,bind,Option.bind_eq_some_iff] at taken
    obtain ⟨r,row,taken⟩ := taken
    obtain rfl := Table.find_key row
    exact saveReceiptStep row taken
  | readEdit request id body =>
    simp only [step] at taken
    split at taken <;> try contradiction
    split at taken <;> try contradiction
    cases Option.some.inj taken
    exact .aside rfl rfl fun _ => Iff.rfl
  | geocode request answer =>
    simp only [step,bind,Option.bind_eq_some_iff] at taken
    obtain ⟨p,_,taken⟩ := taken
    split at taken <;> try contradiction
    split at taken <;> cases Option.some.inj taken <;> exact .aside rfl rfl fun _ => Iff.rfl
  | edit request customerId keys =>
    simp only [step,bind,Option.bind_eq_some_iff] at taken
    obtain ⟨p,pending,location,located,taken⟩ := taken
    split at taken <;> try contradiction
    rename_i guard
    simp only [not_or,not_not] at guard
    cases Option.some.inj taken
    have idle : s.erasure = none := by simpa using guard.1
    cases row : s.rows.find p.id with
    | none =>
      refine .aside ?_ ?_ fun _ => holdsCongr (guardedWriteLocks s _ _) _ <;> simp [guardedWrite,row,close]
    | some r =>
      have here := Table.find_key row
      rw [← here] at row guard
      refine guardedWriteStep row (fun unerased => .edited pending located here.symm idle unerased)
        (freeHolds guard.2) ?_ ?_ (holdsCongr (guardedWriteLocks s _ _)) <;> rw [here] <;> rfl
  | findCheckInOrder request id tokenHash now =>
    simp only [step,bind,Option.bind_eq_some_iff] at taken
    obtain ⟨r,_,taken⟩ := taken
    split at taken <;> try contradiction
    cases Option.some.inj taken
    exact .aside rfl rfl fun _ => Iff.rfl
  | help request helpId message now =>
    simp only [step,bind,Option.bind_eq_some_iff] at taken
    obtain ⟨id,_,taken⟩ := taken
    split at taken <;> try contradiction
    rename_i free
    cases Option.some.inj taken
    exact guardedOnIdStep id free fun _ _ unerased => .helped unerased
  | handleHelp id user resolutionNote now =>
    simp only [step] at taken
    split at taken <;> try contradiction
    rename_i free
    cases Option.some.inj taken
    refine guardedOnIdStep id free fun r here unerased => ?_
    subst here
    exact .handled unerased
  | checkIn request eventId type now =>
    simp only [step,bind,Option.bind_eq_some_iff] at taken
    obtain ⟨id,found,r,row,taken⟩ := taken
    obtain rfl := Table.find_key row
    split at taken <;> try contradiction
    cases Option.some.inj taken
    exact .written r _ row (.checkedIn found) (by simp [RowWrite.guarded]) rfl rfl fun _ => Iff.rfl
  | recordEvent index =>
    simp only [step,bind,Option.bind_eq_some_iff] at taken
    obtain ⟨event,waiting,r,row,taken⟩ := taken
    have here := Table.find_key row
    split at taken <;> try contradiction
    cases Option.some.inj taken
    rw [← here] at row ⊢
    exact .written r _ row (.recorded waiting here.symm) (by simp [RowWrite.guarded]) rfl rfl fun _ => Iff.rfl
  | loseEvent index =>
    cases Option.some.inj taken
    exact .aside rfl rfl fun _ => Iff.rfl
  | updateEditPause process input now =>
    simp only [step,bind,Option.bind_eq_some_iff] at taken
    obtain ⟨r,row,taken⟩ := taken
    split at taken <;> try contradiction
    rename_i held
    have unheld := processHolds (not_not.mp held)
    split at taken <;> cases Option.some.inj taken
    · rename_i session written
      have here := Table.find_key row
      rw [← here] at row unheld ⊢
      exact .written r session row (.paused here.symm written) (by simp [pauseUnguarded written]) rfl rfl
        (unlockHolds unheld)
    · exact .aside rfl rfl (unlockHolds unheld)
  | clearPickupStops id =>
    simp only [step,bind,Option.bind_eq_some_iff] at taken
    obtain ⟨r,row,taken⟩ := taken
    obtain rfl := Table.find_key row
    cases Option.some.inj taken
    exact .written r _ row .cleared (by simp [RowWrite.guarded]) rfl rfl fun _ => Iff.rfl
  | beginErasure customer now retainUntil => exact startErasureStep taken
  | readReceipts =>
    simp only [step,bind,Option.bind_eq_some_iff] at taken
    obtain ⟨e,live,taken⟩ := taken
    split at taken <;> try contradiction
    rename_i unread
    cases Option.some.inj taken
    exact .read e live (by simpa using unread) rfl rfl rfl
  | erase id => exact eraseStep taken
  | commitErasure =>
    simp only [step,bind,Option.bind_eq_some_iff] at taken
    obtain ⟨e,live,taken⟩ := taken
    split at taken <;> try contradiction
    rename_i done
    cases Option.some.inj taken
    exact .committed e rfl live (by simpa using done) rfl rfl endErasureHolds
  | abortErasure =>
    simp only [step] at taken
    split at taken <;> try contradiction
    cases Option.some.inj taken
    exact .aborted rfl rfl endErasureHolds
  | abandon request =>
    cases Option.some.inj taken
    exact .aside rfl rfl fun _ => Iff.rfl

end RecordSystem
end SpeedySweeties
