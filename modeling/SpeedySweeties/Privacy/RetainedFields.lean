import SpeedySweeties.Privacy.FinancialEvidence

/-! What an erased order can still tell. Two orders that agree on the retained fields, and on
nothing else, are erased to the same rows; the times of the items are among those fields. -/
namespace SpeedySweeties

structure RetainedItem where
  id : String
  name : String
  quantity : Int
  price : Int
  createdAt : Time
  deriving DecidableEq, Repr

structure RetainedReceipt extends ReceiptAmounts where
  id : String
  receiptNumber : String
  createdAt : Time
  charges : Option ReceiptChargeEvidence
  deriving DecidableEq, Repr

structure RetainedFields where
  id : OrderId
  orderNumber : Nat
  createdAt : Time
  paymentMethod : PaymentMethod
  orderStatus : OrderStatus
  items : List RetainedItem
  digitalReceipt : Option RetainedReceipt
  deriving DecidableEq, Repr

def OrderItem.retained (i : OrderItem) : RetainedItem := ⟨i.id,i.name,i.quantity,i.price,i.createdAt⟩

def DigitalReceipt.retained (receipt : DigitalReceipt) : RetainedReceipt :=
  ⟨receipt.toReceiptAmounts,receipt.id,receipt.receiptNumber,receipt.createdAt,receiptChargeEvidence receipt.notes⟩

def OrderRows.retainedFields (r : OrderRows) : RetainedFields where
  id := r.order.id
  orderNumber := r.order.orderNumber
  createdAt := r.order.createdAt
  paymentMethod := r.order.paymentMethod
  orderStatus := r.order.orderStatus
  items := r.items.map (·.retained)
  digitalReceipt := r.digitalReceipt.map (·.retained)

/-- The fields without the times of the items. -/
def RetainedFields.untimed (f : RetainedFields) : RetainedFields :=
  { f with items := f.items.map fun i => { i with createdAt := 0 } }

def RetainedItem.erased (i : RetainedItem) : OrderItem := ⟨i.id,none,i.name,i.quantity,i.price,i.createdAt⟩

def RetainedReceipt.erased (receipt : RetainedReceipt) : DigitalReceipt :=
  ⟨receipt.toReceiptAmounts,receipt.id,receipt.receiptNumber,none,none,receipt.charges,receipt.createdAt⟩

section Rows
variable {a b : OrderRows} {now retainUntil : Time}

theorem erasedItems (items : List OrderItem) : items.map eraseItem = (items.map (·.retained)).map (·.erased) := by
  rw [List.map_map]
  rfl

theorem erasedReceipt {receipt : Option DigitalReceipt} (unerased : ∀ r ∈ receipt, r.retainedChargeEvidence = none) :
    (receipt.map fun r => eraseReceipt r.notes r) = (receipt.map (·.retained)).map (·.erased) := by
  cases receipt with
  | none => rfl
  | some r =>
    have fresh : r.retainedChargeEvidence = none := unerased r rfl
    have charges : (receiptChargeEvidence r.notes <|> r.retainedChargeEvidence) = receiptChargeEvidence r.notes := by
      rw [fresh]
      cases receiptChargeEvidence r.notes <;> rfl
    simp only [Option.map_some,eraseReceipt,charges]
    rfl

theorem erasedOrder {x y : Order} (id : x.id = y.id) (orderNumber : x.orderNumber = y.orderNumber) (createdAt : x.createdAt = y.createdAt)
    (paymentMethod : x.paymentMethod = y.paymentMethod) (orderStatus : x.orderStatus = y.orderStatus) :
    eraseOrder now retainUntil x = eraseOrder now retainUntil y := by
  simp only [eraseOrder,id,orderNumber,createdAt,paymentMethod,orderStatus]

theorem erasedAlike (unerased : ∀ receipt ∈ a.digitalReceipt, receipt.retainedChargeEvidence = none)
    (unerased' : ∀ receipt ∈ b.digitalReceipt, receipt.retainedChargeEvidence = none) (agree : a.retainedFields = b.retainedFields) :
    eraseRows now retainUntil a = eraseRows now retainUntil b := by
  obtain ⟨id,orderNumber,createdAt,paymentMethod,orderStatus,items,receipt⟩ := RetainedFields.mk.inj agree
  have order : eraseOrder now retainUntil a.order = eraseOrder now retainUntil b.order :=
    erasedOrder id orderNumber createdAt paymentMethod orderStatus
  simp only [eraseRows,order,erasedItems,items,erasedReceipt unerased,erasedReceipt unerased',receipt]

end Rows

/-- Two erasures with one decision and time leave one record of two orders that agree on the retained fields. -/
theorem erasedRecordRetained {δ : Type} {S : PrivacyService δ} {db db' other other' : PrivacyDb} {p q : Preview} {decision : RetentionDecision}
    {now : Time} {actor actor' : String} {reply reply' : PrivacyReply} {id : OrderId} {a b : OrderRows}
    (erased : eraseScoped S db p decision now actor = .ok (db',reply)) (erased' : eraseScoped S other q decision now actor' = .ok (other',reply'))
    (row : db.other.orders.find id = some a) (row' : other.other.orders.find id = some b)
    (scope : id ∈ p.orders.map (·.id)) (scope' : id ∈ q.orders.map (·.id))
    (unerased : ∀ receipt ∈ a.digitalReceipt, receipt.retainedChargeEvidence = none)
    (unerased' : ∀ receipt ∈ b.digitalReceipt, receipt.retainedChargeEvidence = none) (agree : a.retainedFields = b.retainedFields) :
    ∃ r, db'.other.orders.find id = some r ∧ other'.other.orders.find id = some r := by
  have key : a.id = id := Table.find_key row
  have key' : b.id = id := Table.find_key row'
  refine ⟨eraseRows now decision.financialRetainUntil a,?_,?_⟩
  · rw [eraseScopedOrders erased,row,Option.map_some,eraseOrders,key,if_pos scope]
  · rw [eraseScopedOrders erased',row',Option.map_some,eraseOrders,key',if_pos scope',erasedAlike unerased unerased' agree]

/-- A submitted request, its preview and its erasure, with one order. -/
def sampleErasure (r : OrderRows) : Except PrivacyFailure (PrivacyDb × Preview × Worked) := do
  let (db,_) ← sampleSubmission.work sampleService sampleJournal [sampleJournal.genesis]
    { verifiedDb with other := { verifiedDb.other with orders := Table.empty.put r } } 2
  let p ← preview sampleService db "request"
  let erased ← eraseScoped sampleService db p sampleDecision 3 "admin"
  return (db,p,erased)

def notedRows : OrderRows :=
  { chargedRows with
    order := { chargedRows.order with additionalNotes := some "Ring twice", utmSource := some "letter", unitNumber := some "12" }
    digitalReceipt := chargedRows.digitalReceipt.map fun receipt => { receipt with
      createdByDriverId := some "driver", notes := some "Gate 1234. Distance surcharge: $4.50 Extra stops: 2" } }

theorem sampleErased (r : OrderRows) (after_ : Option OrderRows)
    (ends : (sampleErasure r).toOption.map (fun (db,p,db',_) => (db.other.orders.find "order",p.orders.map (·.id),db'.other.orders.find "order")) =
      some (some r,["order"],after_)) : ∃ db p db' reply, eraseScoped sampleService db p sampleDecision 3 "admin" = .ok (db',reply) ∧
        db.other.orders.find "order" = some r ∧ "order" ∈ p.orders.map (·.id) ∧ db'.other.orders.find "order" = after_ := by
  obtain ⟨⟨db,p,db',reply⟩,ran,facts⟩ := Option.map_eq_some_iff.mp ends
  obtain ⟨row,facts⟩ := Prod.mk.inj facts
  obtain ⟨scope,left⟩ := Prod.mk.inj facts
  have ran : sampleErasure r = .ok (db,p,db',reply) := by
    cases result : sampleErasure r with
    | error => simp [result,Except.toOption] at ran
    | ok => simpa [result,Except.toOption] using ran
  simp only [sampleErasure,bindOk,pureOk] at ran
  obtain ⟨_,_,_,_,_,erased,same⟩ := ran
  cases same
  exact ⟨_,_,_,_,erased,row,by rw [scope]; exact List.mem_singleton_self _,left⟩

theorem notesForgotten : ∃ db p db' reply other q other' reply' r,
    eraseScoped sampleService db p sampleDecision 3 "admin" = .ok (db',reply) ∧
    eraseScoped sampleService other q sampleDecision 3 "admin" = .ok (other',reply') ∧
    db.other.orders.find "order" = some chargedRows ∧ other.other.orders.find "order" = some notedRows ∧
    db'.other.orders.find "order" = some r ∧ other'.other.orders.find "order" = some r := by
  obtain ⟨db,p,db',reply,erased,row,scope,_⟩ := sampleErased chargedRows (some (eraseRows 3 sampleDecision.financialRetainUntil chargedRows))
    (by decide +kernel)
  obtain ⟨other,q,other',reply',erased',row',scope',_⟩ := sampleErased notedRows
    (some (eraseRows 3 sampleDecision.financialRetainUntil chargedRows)) (by decide +kernel)
  obtain ⟨r,left,left'⟩ := erasedRecordRetained erased erased' row row' scope scope' (by rintro _ ⟨⟩; rfl) (by rintro _ ⟨⟩; rfl)
    (by decide +kernel)
  exact ⟨db,p,db',reply,other,q,other',reply',r,erased,erased',row,row',left,left'⟩

def itemisedRows (createdAt : Time) : OrderRows := { chargedRows with items := [⟨"item",some "fudge","Fudge",1,1200,createdAt⟩] }

/-- The time of an item stays, so fields that leave it out do not settle the record. -/
theorem itemTimesStay : ∃ db p db' reply other q other' reply',
    eraseScoped sampleService db p sampleDecision 3 "admin" = .ok (db',reply) ∧
    eraseScoped sampleService other q sampleDecision 3 "admin" = .ok (other',reply') ∧
    db.other.orders.find "order" = some (itemisedRows 1) ∧ other.other.orders.find "order" = some (itemisedRows 2) ∧
    "order" ∈ p.orders.map (·.id) ∧ "order" ∈ q.orders.map (·.id) ∧
    (∀ createdAt, ∀ receipt ∈ (itemisedRows createdAt).digitalReceipt, receipt.retainedChargeEvidence = none) ∧
    (itemisedRows 1).retainedFields.untimed = (itemisedRows 2).retainedFields.untimed ∧
    db'.other.orders.find "order" ≠ other'.other.orders.find "order" := by
  obtain ⟨db,p,db',reply,erased,row,scope,left⟩ := sampleErased (itemisedRows 1)
    (some (eraseRows 3 sampleDecision.financialRetainUntil (itemisedRows 1))) (by decide +kernel)
  obtain ⟨other,q,other',reply',erased',row',scope',left'⟩ := sampleErased (itemisedRows 2)
    (some (eraseRows 3 sampleDecision.financialRetainUntil (itemisedRows 2))) (by decide +kernel)
  refine ⟨db,p,db',reply,other,q,other',reply',erased,erased',row,row',scope,scope',?_,by decide +kernel,?_⟩
  · rintro _ _ ⟨⟩
    rfl
  · rw [left,left']
    decide +kernel

end SpeedySweeties
