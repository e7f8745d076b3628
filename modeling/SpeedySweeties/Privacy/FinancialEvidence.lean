import SpeedySweeties.Library.Json
import SpeedySweeties.Privacy.RequestLifecycle

/-! `chargeEvidence` and `financialEvidence` of the recovery beside what the erasure keeps
of a receipt. The kept charges are read back from a JSON column. -/
namespace SpeedySweeties

/-- A whole number, or `none` for `Infinity`. -/
abbrev EvidenceValue := Json (Option Int)

structure EvidenceText where
  numberText : Int → String
  decimalText : Int → String
  toISOString : Time → String
  /-- `a.localeCompare(b) <= 0` -/
  localeCompare : String → String → Bool
  /-- The key order of a value read from a JSON column. -/
  columnOrder : List (String × EvidenceValue) → List (String × EvidenceValue)

def EvidenceText.writer (E : EvidenceText) : Json.Writer (Option Int) := ⟨Option.map E.numberText,E.toISOString⟩

def JsNumber.value : JsNumber → Option Int
  | .finite n => some n
  | .infinity => none

def PaymentMethod.name : PaymentMethod → String
  | .cash => "CASH"
  | .debit => "DEBIT"
  | .visa => "VISA"
  | .mastercard => "MASTERCARD"
  | .etransfer => "ETRANSFER"

/-- The object that the erasure stores. -/
def ReceiptChargeEvidence.value (e : ReceiptChargeEvidence) : EvidenceValue :=
  .object ((e.extraStops.map fun n => ("extraStops",.number n.value)).toList ++
    (e.extraStopCharge.map fun text => ("extraStopCharge",.text text)).toList ++
    (e.distanceSurcharge.map fun text => ("distanceSurcharge",.text text)).toList)

variable (E : EvidenceText)

def chargeEvidence (receipt : DigitalReceipt) : EvidenceValue :=
  match receipt.retainedChargeEvidence with
  | some retained => retained.value.stored E.writer E.columnOrder
  | none =>
    let notes := receipt.notes.getD ""
    let count := countAfter "Extra stops" notes
    let extra := amountAfter "Extra stop charge" notes
    let distance := amountAfter "Distance surcharge" notes
    if count.isSome ∨ extra.isSome ∨ distance.isSome then
      .object ((count.map fun n => ("extraStops",.number n.value)).toList ++
        (extra.map fun text => ("extraStopCharge",.text text)).toList ++
        (distance.map fun text => ("distanceSurcharge",.text text)).toList)
    else .null

def itemEvidence (i : OrderItem) : EvidenceValue :=
  .object [("id",.text i.id),("name",.text i.name),("quantity",.number (some i.quantity)),
    ("price",.text (E.decimalText i.price))]

def receiptEvidence (receipt : DigitalReceipt) : EvidenceValue :=
  .object [("id",.text receipt.id),("number",.text receipt.receiptNumber),("createdAt",.date receipt.createdAt),
    ("items",.text (E.decimalText receipt.itemTotal)),("delivery",.text (E.decimalText receipt.deliveryCharge)),
    ("tax",.text (E.decimalText receipt.taxOrFees)),("total",.text (E.decimalText receipt.grandTotal)),
    ("charges",chargeEvidence E receipt)]

def financialEvidence (o : OrderRows) : String :=
  Json.canonical E.writer (.object [("id",.text o.order.id),("number",.number (some o.order.orderNumber)),
    ("createdAt",.date o.order.createdAt),("payment",.text o.order.paymentMethod.name),
    ("status",.text o.order.orderStatus.name),
    ("items",.array ((o.items.insertionSort fun a b => E.localeCompare a.id b.id).map (itemEvidence E))),
    ("receipt",(o.digitalReceipt.map (receiptEvidence E)).getD .null)])

/-! ### The charges on both sides of an erasure -/

variable {E}

theorem chargeValueDistinct (e : ReceiptChargeEvidence) : e.value.Distinct := by
  obtain ⟨stops,charge,surcharge⟩ := e
  cases stops <;> cases charge <;> cases surcharge <;>
    simp [ReceiptChargeEvidence.value,Json.Distinct,Json.DistinctFields]

/-- Both functions find the same charges in every notes text. -/
theorem chargesExtracted {receipt : DigitalReceipt} (unerased : receipt.retainedChargeEvidence = none) :
    chargeEvidence E receipt = ((receiptChargeEvidence receipt.notes).map ReceiptChargeEvidence.value).getD .null := by
  simp only [chargeEvidence,unerased]
  cases written : receipt.notes with
  | none => rfl
  | some notes =>
    simp only [receiptChargeEvidence,Option.getD_some]
    by_cases empty : notes = ""
    · subst empty
      rfl
    · rw [if_neg empty]
      generalize countAfter "Extra stops" notes = count
      generalize amountAfter "Extra stop charge" notes = extra
      generalize amountAfter "Distance surcharge" notes = distance
      cases count <;> cases extra <;> cases distance <;> rfl

theorem chargesKept {receipt : DigitalReceipt} (columnOrder : ∀ fields, (E.columnOrder fields).Perm fields)
    (unerased : receipt.retainedChargeEvidence = none) :
    Json.canonical E.writer (chargeEvidence E (eraseReceipt receipt.notes receipt)) =
      Json.canonical E.writer (chargeEvidence E receipt) := by
  rw [chargesExtracted unerased]
  cases found : receiptChargeEvidence receipt.notes with
  | none =>
    simp only [chargeEvidence,eraseReceipt,found,unerased]
    rfl
  | some e =>
    simp only [chargeEvidence,eraseReceipt,found]
    exact Json.canonical_stored _ _ columnOrder e.value (chargeValueDistinct e)

theorem receiptKept {receipt : DigitalReceipt} (columnOrder : ∀ fields, (E.columnOrder fields).Perm fields)
    (unerased : receipt.retainedChargeEvidence = none) :
    Json.canonical E.writer (receiptEvidence E (eraseReceipt receipt.notes receipt)) =
      Json.canonical E.writer (receiptEvidence E receipt) := by
  simp only [receiptEvidence,Json.canonical,Json.canonicalFields,chargesKept columnOrder unerased]
  rfl

theorem itemsKept (items : List OrderItem) :
    ((items.map eraseItem).insertionSort fun a b => E.localeCompare a.id b.id).map (itemEvidence E) =
      (items.insertionSort fun a b => E.localeCompare a.id b.id).map (itemEvidence E) := by
  have sorted := List.map_insertionSort (fun a b : OrderItem => E.localeCompare a.id b.id = true)
    (fun a b : OrderItem => E.localeCompare a.id b.id = true) eraseItem items fun _ _ _ _ => Iff.rfl
  rw [← sorted,List.map_map]
  rfl

theorem evidenceKept {r : OrderRows} {now retainUntil : Time} (columnOrder : ∀ fields, (E.columnOrder fields).Perm fields)
    (unerased : ∀ receipt ∈ r.digitalReceipt, receipt.retainedChargeEvidence = none) :
    financialEvidence E (eraseRows now retainUntil r) = financialEvidence E r := by
  have receipts : Json.canonical E.writer
      ((((r.digitalReceipt.map fun receipt => eraseReceipt receipt.notes receipt).map (receiptEvidence E))).getD .null) =
      Json.canonical E.writer ((r.digitalReceipt.map (receiptEvidence E)).getD .null) := by
    cases present : r.digitalReceipt with
    | none => rfl
    | some receipt => exact receiptKept columnOrder (unerased receipt present)
  simp only [financialEvidence,Json.canonical,Json.canonicalFields,eraseRows,itemsKept,receipts]
  rfl

variable {δ : Type} {S : PrivacyService δ} {db db' : PrivacyDb} {p : Preview} {decision : RetentionDecision} {now : Time}
  {actor : String} {reply : PrivacyReply}

theorem eraseScopedOrders (erased : eraseScoped S db p decision now actor = .ok (db',reply)) (id : OrderId) :
    db'.other.orders.find id =
      (db.other.orders.find id).map (eraseOrders (p.orders.map (·.id)) now decision.financialRetainUntil) := by
  simp only [eraseScoped,bindOk,pureOk] at erased
  obtain ⟨_,_,_,_,same⟩ := erased
  cases same
  exact Table.find_update _ _ (eraseOrdersId _ now decision.financialRetainUntil) id

/-- The evidence is that of the row before for each order the erasure has erased, and for
each one it has left. -/
theorem erasurePreservesEvidence (columnOrder : ∀ fields, (E.columnOrder fields).Perm fields)
    (erased : eraseScoped S db p decision now actor = .ok (db',reply)) :
    (∀ receipt : DigitalReceipt, receipt.retainedChargeEvidence = none →
      chargeEvidence E receipt = ((receiptChargeEvidence receipt.notes).map ReceiptChargeEvidence.value).getD .null) ∧
    ∀ id r, db.other.orders.find id = some r → (∀ receipt ∈ r.digitalReceipt, receipt.retainedChargeEvidence = none) →
      ∃ r', db'.other.orders.find id = some r' ∧ financialEvidence E r' = financialEvidence E r ∧
        (id ∈ p.orders.map (·.id) → r' = eraseRows now decision.financialRetainUntil r) := by
  refine ⟨fun _ => chargesExtracted,fun id r row unerased => ?_⟩
  have key : r.id = id := Table.find_key row
  refine ⟨_,by rw [eraseScopedOrders erased,row,Option.map_some],?_⟩
  unfold eraseOrders
  rw [key]
  split
  · exact ⟨evidenceKept columnOrder unerased,fun _ => rfl⟩
  · rename_i outside
    exact ⟨rfl,fun inside => absurd inside outside⟩

def sampleEvidence : EvidenceText where
  numberText n := toString n
  decimalText n := toString n
  toISOString time := toString time
  localeCompare a b := a ≤ b
  columnOrder := List.reverse

def chargedRows : OrderRows :=
  { deliveredRows with digitalReceipt := some {
      id := "receipt", receiptNumber := "SS-1", createdByDriverId := none
      notes := some "Extra stops: 2, distance surcharge:$4.50", retainedChargeEvidence := none, createdAt := 1
      itemTotal := 1000, deliveryCharge := 1200, taxOrFees := 0, grandTotal := 2200 } }

/-- A submitted request, its preview and its erasure. -/
def chargedErasure : Except PrivacyFailure (PrivacyDb × Preview × Worked) := do
  let (db,_) ← sampleSubmission.work sampleService sampleJournal [sampleJournal.genesis]
    { verifiedDb with other := { verifiedDb.other with orders := Table.empty.put chargedRows } } 2
  let p ← preview sampleService db "request"
  let erased ← eraseScoped sampleService db p sampleDecision 3 "admin"
  return (db,p,erased)

theorem chargesSurvive : ∃ db p db' reply r', eraseScoped sampleService db p sampleDecision 3 "admin" = .ok (db',reply) ∧
    db'.other.orders.find "order" = some r' ∧ r'.digitalReceipt.bind (·.notes) = none ∧
    financialEvidence sampleEvidence r' = financialEvidence sampleEvidence chargedRows := by
  have ends : chargedErasure.toOption.map (fun (db,p,_) => (db.other.orders.find "order",p.orders.map (·.id))) =
      some (some chargedRows,["order"]) := by decide +kernel
  obtain ⟨⟨db,p,db',reply⟩,ran,facts⟩ := Option.map_eq_some_iff.mp ends
  obtain ⟨row,scope⟩ := Prod.mk.inj facts
  have ran : chargedErasure = .ok (db,p,db',reply) := by
    cases result : chargedErasure with
    | error => simp [result,Except.toOption] at ran
    | ok => simpa [result,Except.toOption] using ran
  simp only [chargedErasure,bindOk,pureOk] at ran
  obtain ⟨_,_,_,_,_,erased,same⟩ := ran
  cases same
  obtain ⟨r',row',kept,inside⟩ := (erasurePreservesEvidence (E := sampleEvidence) List.reverse_perm erased).2 "order" _ row
    (by rintro _ ⟨⟩; rfl)
  refine ⟨_,_,_,_,r',erased,row',?_,kept⟩
  rw [inside (by rw [scope]; exact List.mem_singleton_self _)]
  rfl

end SpeedySweeties
