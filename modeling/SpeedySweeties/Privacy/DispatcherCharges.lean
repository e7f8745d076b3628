import Mathlib.Algebra.Order.Field.Rat
import SpeedySweeties.Privacy.FinancialEvidence

/-! The charges of a receipt as the dispatcher's front end shows them: from the kept charges
where there are any, else from the notes. It has an extractor of its own for the notes. Numbers
are finite ones here, or `none` for the others, which the front end treats alike. -/
namespace SpeedySweeties
open JsText

/-- What the front end receives of a receipt. -/
structure ReceiptEvidenceSource where
  notes : Option String
  retainedChargeEvidence : Option EvidenceValue

section Charges
variable (number : String → Option Rat)

/-- `Number(value)`, with `none` for `undefined`; the types exclude lists, dates and objects. -/
def numberValue : Option EvidenceValue → Option Rat
  | some .null => some 0
  | some (.bool value) => some (if value then 1 else 0)
  | some (.number value) => value.map fun n : Int => (n : Rat)
  | some (.text text) => number text
  | _ => none

/-- The labels have nothing in them that the front end would escape. -/
def noteAmount (notes : Option String) (label : String) : Rat :=
  match notes with
  | none => 0
  | some notes =>
    if notes = "" then 0
    else
      let amount := match amountAfter label notes with
        | some text => number text
        | none => some 0
      amount.getD 0

def receiptChargeAmount (receipt : ReceiptEvidenceSource) (field noteLabel : String) : Rat :=
  match numberValue number (receipt.retainedChargeEvidence.bind (·.member field)) with
  | some retained => if 0 ≤ retained then retained else noteAmount number receipt.notes noteLabel
  | none => noteAmount number receipt.notes noteLabel

/-- `Number.isInteger(value) && value >= 0` -/
def wholeCount (value : Option Rat) : Option Rat := value.filter fun count => count.isInt && 0 ≤ count

def receiptExtraStops (receipt : ReceiptEvidenceSource) : Rat :=
  match wholeCount (numberValue number (receipt.retainedChargeEvidence.bind (·.member "extraStops"))) with
  | some retained => retained
  | none =>
    let count := match receipt.notes.bind (countAfter "Extra stops") with
      | some count => count.value.map fun n : Int => (n : Rat)
      | none => some 0
    (wholeCount count).getD 0

end Charges

variable (E : EvidenceText)

/-- The receipt as it is served, its kept charges read back from the JSON column. -/
def DigitalReceipt.served (receipt : DigitalReceipt) : ReceiptEvidenceSource :=
  ⟨receipt.notes,receipt.retainedChargeEvidence.map fun e => e.value.stored E.writer E.columnOrder⟩

variable {E} {number : String → Option Rat}

theorem amountDigits {text found : List Char} (is : amount text = some found) : ∀ c ∈ found, c.isDigit ∨ c = '.' := by
  have run : ∀ text : List Char, ∀ c ∈ digits text, c.isDigit := fun text c mem => List.mem_takeWhile_imp mem
  unfold amount wholeNumber at is
  intro c mem
  by_cases none_ : digits text = []
  · simp [none_] at is
  · simp only [if_neg none_] at is
    split at is
    · split at is
      · cases is
        exact .inl (run _ c mem)
      · cases is
        rcases List.mem_append.mp mem with whole | part
        · exact .inl (run _ c whole)
        · rcases List.mem_cons.mp part with dot | cents
          · exact .inr dot
          · exact .inl (run _ c (List.mem_of_mem_take cents))
    · cases is
      exact .inl (run _ c mem)

theorem firstMatchFound {α : Type} {matcher : List Char → Option α} {text : List Char} {found : α} (is : firstMatch matcher text = some found) :
    ∃ rest, matcher rest = some found := by
  induction text with
  | nil => exact ⟨[],is⟩
  | cons c text ih =>
    rw [firstMatch] at is
    cases here : matcher (c::text) with
    | none =>
      rw [here] at is
      exact ih is
    | some first =>
      rw [here] at is
      exact ⟨c::text,here.trans is⟩

/-- The amount after a label has no sign. -/
theorem amountAfterDigits {label notes text : String} (is : amountAfter label notes = some text) : ∀ c ∈ text.toList, c.isDigit ∨ c = '.' := by
  obtain ⟨found,matched,rfl⟩ := Option.map_eq_some_iff.mp is
  obtain ⟨rest,matched⟩ := firstMatchFound matched
  obtain ⟨_,_,read⟩ := Option.bind_eq_some_iff.mp matched
  rw [String.toList_ofList]
  exact amountDigits read

theorem storedMember (columnOrder : ∀ fields, (E.columnOrder fields).Perm fields) (e : ReceiptChargeEvidence) (key : String) :
    (e.value.stored E.writer E.columnOrder).member key = (e.value.member key).map fun value => value.stored E.writer E.columnOrder :=
  Json.member_stored E.writer E.columnOrder columnOrder (chargeValueDistinct e) key

theorem valueMembers (e : ReceiptChargeEvidence) : e.value.member "extraStops" = e.extraStops.map (fun n => .number n.value) ∧
    e.value.member "extraStopCharge" = e.extraStopCharge.map .text ∧ e.value.member "distanceSurcharge" = e.distanceSurcharge.map .text := by
  obtain ⟨stops,charge,surcharge⟩ := e
  cases stops <;> cases charge <;> cases surcharge <;> exact ⟨rfl,rfl,rfl⟩

/-- What the erasure extracts is what the front end finds in the notes. -/
theorem evidenceFound (notes : Option String) :
    (receiptChargeEvidence notes).bind (·.extraStops) = notes.bind (countAfter "Extra stops") ∧
      (receiptChargeEvidence notes).bind (·.extraStopCharge) = notes.bind (amountAfter "Extra stop charge") ∧
      (receiptChargeEvidence notes).bind (·.distanceSurcharge) = notes.bind (amountAfter "Distance surcharge") := by
  cases notes with
  | none => exact ⟨rfl,rfl,rfl⟩
  | some notes =>
    by_cases empty : notes = ""
    · subst empty
      exact ⟨rfl,rfl,rfl⟩
    · simp only [receiptChargeEvidence,if_neg empty,Option.bind_some]
      generalize countAfter "Extra stops" notes = count
      generalize amountAfter "Extra stop charge" notes = extra
      generalize amountAfter "Distance surcharge" notes = distance
      cases count <;> cases extra <;> cases distance <;> exact ⟨rfl,rfl,rfl⟩

theorem noteAmountFound {label : String} (empty : amountAfter label "" = none) (notes : Option String) :
    noteAmount number notes label = ((notes.bind (amountAfter label)).bind number).getD 0 := by
  cases notes with
  | none => rfl
  | some notes =>
    simp only [noteAmount,Option.bind_some]
    by_cases is : notes = ""
    · subst is
      rw [if_pos rfl,empty]
      rfl
    · rw [if_neg is]
      cases amountAfter label notes <;> rfl

section Erased
variable {receipt : DigitalReceipt}

theorem erasedMember {α : Type} (columnOrder : ∀ fields, (E.columnOrder fields).Perm fields) (unerased : receipt.retainedChargeEvidence = none)
    {key : String} {field : ReceiptChargeEvidence → Option α} {json : α → EvidenceValue}
    (members : ∀ e : ReceiptChargeEvidence, e.value.member key = (field e).map json) :
    ((eraseReceipt receipt.notes receipt).served E).retainedChargeEvidence.bind (·.member key) =
      ((receiptChargeEvidence receipt.notes).bind field).map fun value => (json value).stored E.writer E.columnOrder := by
  have kept : (eraseReceipt receipt.notes receipt).retainedChargeEvidence = receiptChargeEvidence receipt.notes := by
    simp only [eraseReceipt,unerased]
    cases receiptChargeEvidence receipt.notes <;> rfl
  simp only [DigitalReceipt.served,kept]
  cases receiptChargeEvidence receipt.notes with
  | none => rfl
  | some e => simp only [Option.map_some,Option.bind_some,storedMember columnOrder,members,Option.map_map,Function.comp_def]

theorem chargeKept (columnOrder : ∀ fields, (E.columnOrder fields).Perm fields)
    (unsigned : ∀ text, (∀ c ∈ text.toList, c.isDigit ∨ c = '.') → ∀ value, number text = some value → 0 ≤ value)
    (unerased : receipt.retainedChargeEvidence = none) {key label : String} {field : ReceiptChargeEvidence → Option String}
    (members : ∀ e : ReceiptChargeEvidence, e.value.member key = (field e).map .text) (empty : amountAfter label "" = none)
    (found : (receiptChargeEvidence receipt.notes).bind field = receipt.notes.bind (amountAfter label)) :
    receiptChargeAmount number ((eraseReceipt receipt.notes receipt).served E) key label =
      receiptChargeAmount number (receipt.served E) key label := by
  have before : receiptChargeAmount number (receipt.served E) key label = noteAmount number receipt.notes label := by
    simp only [receiptChargeAmount,DigitalReceipt.served,unerased]
    rfl
  have notes : noteAmount number ((eraseReceipt receipt.notes receipt).served E).notes label = 0 := rfl
  rw [before,noteAmountFound empty,receiptChargeAmount,erasedMember columnOrder unerased members,found,notes]
  cases amounts : receipt.notes.bind (amountAfter label) with
  | none => rfl
  | some text =>
    obtain ⟨notes,_,is⟩ := Option.bind_eq_some_iff.mp amounts
    have value : numberValue number (some ((Json.text text : EvidenceValue).stored E.writer E.columnOrder)) = number text := rfl
    rw [Option.map_some,value,Option.bind_some]
    cases parsed : number text with
    | none => rfl
    | some value => exact if_pos (unsigned text (amountAfterDigits is) value parsed)

theorem wholeNat (n : Nat) : wholeCount (some ((n : Int) : Rat)) = some ((n : Int) : Rat) := by
  have whole : ((n : Int) : Rat).isInt = true := by
    rw [Rat.isInt]
    rfl
  have nonneg : (0 : Rat) ≤ ((n : Int) : Rat) := by exact_mod_cast Int.natCast_nonneg n
  rw [wholeCount,Option.filter_some,whole,decide_eq_true nonneg]
  rfl

/-- A count that is no finite number is stored as null, and null counts as none. -/
theorem stopsKept (columnOrder : ∀ fields, (E.columnOrder fields).Perm fields) (unerased : receipt.retainedChargeEvidence = none) :
    receiptExtraStops number ((eraseReceipt receipt.notes receipt).served E) = receiptExtraStops number (receipt.served E) := by
  have zero : wholeCount (some 0) = some 0 := wholeNat 0
  have before : wholeCount (numberValue number ((receipt.served E).retainedChargeEvidence.bind (·.member "extraStops"))) = none := by
    simp only [DigitalReceipt.served,unerased]
    rfl
  rw [receiptExtraStops,receiptExtraStops,before,erasedMember columnOrder unerased fun e => (valueMembers e).1,(evidenceFound _).1]
  have notes : ((eraseReceipt receipt.notes receipt).served E).notes = none := rfl
  have same : (receipt.served E).notes = receipt.notes := rfl
  rw [notes,same]
  cases receipt.notes.bind (countAfter "Extra stops") with
  | none => rfl
  | some count =>
    cases count with
    | finite n =>
      have stored : numberValue number (some ((Json.number (some (n : Int)) : EvidenceValue).stored E.writer E.columnOrder)) = some ((n : Int) : Rat) := rfl
      simp only [Option.map_some,JsNumber.value,stored,wholeNat,Option.getD_some]
    | infinity =>
      have stored : numberValue number (some ((Json.number none : EvidenceValue).stored E.writer E.columnOrder)) = some 0 := rfl
      simp only [Option.map_some,JsNumber.value,stored,zero]
      rfl

/-- The dispatcher sees the same charges before and after an erasure. -/
theorem dispatcherChargesKept (E : EvidenceText) (number : String → Option Rat) (receipt : DigitalReceipt)
    (columnOrder : ∀ fields, (E.columnOrder fields).Perm fields)
    (unsigned : ∀ text, (∀ c ∈ text.toList, c.isDigit ∨ c = '.') → ∀ value, number text = some value → 0 ≤ value)
    (unerased : receipt.retainedChargeEvidence = none) :
    receiptChargeAmount number ((eraseReceipt receipt.notes receipt).served E) "extraStopCharge" "Extra stop charge" =
        receiptChargeAmount number (receipt.served E) "extraStopCharge" "Extra stop charge" ∧
      receiptChargeAmount number ((eraseReceipt receipt.notes receipt).served E) "distanceSurcharge" "Distance surcharge" =
        receiptChargeAmount number (receipt.served E) "distanceSurcharge" "Distance surcharge" ∧
      receiptExtraStops number ((eraseReceipt receipt.notes receipt).served E) = receiptExtraStops number (receipt.served E) :=
  ⟨chargeKept columnOrder unsigned unerased (fun e => (valueMembers e).2.1) rfl (evidenceFound _).2.1,
    chargeKept columnOrder unsigned unerased (fun e => (valueMembers e).2.2) rfl (evidenceFound _).2.2,
    stopsKept columnOrder unerased⟩

end Erased

/-- `Number(text)` of digits with an optional fraction, before it is rounded. -/
def decimalNumber (text : String) : Option Rat :=
  let value (digits : List Char) : Nat := digits.foldl (fun n c => 10*n + (c.toNat - '0'.toNat)) 0
  let whole := digits text.toList
  match text.toList.drop whole.length with
  | [] => some (value whole)
  | '.'::cents => if cents.all Char.isDigit then some (value whole + value cents/10^cents.length) else none
  | _ => none

theorem decimalUnsigned (text : String) (value : Rat) (is : decimalNumber text = some value) : 0 ≤ value := by
  unfold decimalNumber at is
  dsimp only at is
  split at is
  · cases is
    exact Nat.cast_nonneg _
  · split at is
    · cases is
      exact add_nonneg (Nat.cast_nonneg _) (div_nonneg (Nat.cast_nonneg _) (pow_nonneg (by decide) _))
    · cases is
  · cases is

def surchargedReceipt : DigitalReceipt where
  id := "receipt"
  receiptNumber := "SS-1"
  createdByDriverId := none
  notes := some "Gate 12, extra stops: 2, distance surcharge:$4.50"
  retainedChargeEvidence := none
  createdAt := 1
  itemTotal := 1000
  deliveryCharge := 1200
  taxOrFees := 0
  grandTotal := 2200

theorem dispatcherChargesSurvive :
    receiptChargeAmount decimalNumber ((eraseReceipt surchargedReceipt.notes surchargedReceipt).served sampleEvidence)
        "extraStopCharge" "Extra stop charge" = 0 ∧
      receiptChargeAmount decimalNumber ((eraseReceipt surchargedReceipt.notes surchargedReceipt).served sampleEvidence)
        "distanceSurcharge" "Distance surcharge" = 9/2 ∧
      receiptExtraStops decimalNumber ((eraseReceipt surchargedReceipt.notes surchargedReceipt).served sampleEvidence) = 2 := by
  obtain ⟨extra,distance,stops⟩ := dispatcherChargesKept sampleEvidence decimalNumber surchargedReceipt
    List.reverse_perm (fun text _ value is => decimalUnsigned text value is) rfl
  exact ⟨extra.trans (by decide +kernel),distance.trans (by decide +kernel),stops.trans (by decide +kernel)⟩

end SpeedySweeties
