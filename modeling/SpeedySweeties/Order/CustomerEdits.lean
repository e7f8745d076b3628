import SpeedySweeties.Order.Editing
import SpeedySweeties.Privacy.Reactivation

/-! `updateCustomerController` reads a customer, fills what the body leaves out from that row and
writes all of it, so what others wrote in between is written over. An email that the body leaves
out is not filled. -/
namespace SpeedySweeties
open JsText Table

/-- A value in a request body. -/
inductive BodyValue where
  | null
  | text (value : String)
  | other
  deriving DecidableEq, Repr

/-- `typeof value === "string"` -/
def BodyValue.string : BodyValue → Option String
  | .text value => some value
  | _ => none

inductive CustomerField where
  | fullName | phone | email | addressLine1 | unitNumber | buzzCode | city | province | recurringDriverNotes | dispatcherNotes
  deriving DecidableEq, Repr

/-- The fields that the body of an edit contains. -/
abbrev CustomerBody := CustomerField → Option BodyValue

/-- A customer. `rest` are the columns of loyalty, marketing and verification, which no customer
edit writes; every update sets `updatedAt`, which is left out. -/
structure CustomerProfile (ρ : Type) where
  id : CustomerId
  fullName : String
  normalizedFullName : String
  phone : String
  normalizedPhone : String
  email : Option String
  normalizedEmail : Option String
  addressLine1 : String
  unitNumber : Option String
  buzzCode : Option String
  city : String
  province : String
  dispatcherNotes : Option String
  recurringDriverNotes : Option String
  rest : ρ
  deriving DecidableEq

/-- What an order creation submits for its customer. -/
structure OrderCustomerBody where
  customerName : String
  customerPhone : String
  customerEmail : String
  addressLine1 : String
  unitNumber : Option BodyValue
  buzzCode : Option BodyValue
  city : String
  province : String
  dispatcherNotes : Option BodyValue
  recurringDriverNotes : Option BodyValue

inductive ProfileRequest (ρ : Type) where
  | updating (existingCustomer : CustomerProfile ρ) (body : CustomerBody)
  | noting (id : CustomerId) (dispatcherNotes : Option BodyValue)

structure ProfileSystem (ρ : Type) where
  customers : Table (CustomerProfile ρ) fun c => c.id
  requests : RequestId → Option (ProfileRequest ρ)

/-- Each update is one statement; those of an order take effect with its transaction. -/
inductive ProfileAction (ρ : Type) where
  | readCustomer (request : RequestId) (id : CustomerId) (body : CustomerBody)
  | updateCustomer (request : RequestId)
  | readForNotes (request : RequestId) (id : CustomerId) (dispatcherNotes : Option BodyValue)
  | updateDispatcherNotes (request : RequestId)
  | createOrder (body : OrderCustomerBody) (isManualOrder : Bool) (customer : Option CustomerId) (newId : CustomerId) (rest : ρ)
  | editOrder (body : UpdateOrderDetailsBody) (unitNumber buzzCode : Option String) (customer : Option CustomerId)
      (newId : CustomerId) (rest : ρ)
  | updateRest (id : CustomerId) (rest : ρ)

namespace CustomerEdits

def recurringDriverNotesMaxLength : Nat := 1000

def isValidAddressAccessField : BodyValue → Bool
  | .null => true
  | .text value => length (trim value) ≤ 50
  | .other => false

def isValidRecurringDriverNotes : BodyValue → Bool
  | .null => true
  | .text value => length (trim value) ≤ recurringDriverNotesMaxLength
  | .other => false

def checkBody (body : CustomerBody) : Except Reply Unit :=
  if !(body .unitNumber).all isValidAddressAccessField || !(body .buzzCode).all isValidAddressAccessField then
    .error ⟨400,none,"Unit number and buzz code must each be 50 characters or fewer"⟩
  else if !(body .recurringDriverNotes).all isValidRecurringDriverNotes then
    .error ⟨400,none,"Recurring driver notes must be 1000 characters or fewer"⟩
  else .ok ()

def customerNotFound : Reply := ⟨404,none,"Customer not found"⟩

section Rows
variable {δ ρ : Type} (S : PrivacyService δ)

/-- `cleanStringOrNull` of a submitted value, or of an absent one. -/
def cleaned (value : Option BodyValue) : Option String := cleanStringOrNull (value.bind (·.string))

/-- The columns that the handler writes. -/
def updatedProfile (existingCustomer : CustomerProfile ρ) (body : CustomerBody) (c : CustomerProfile ρ) : CustomerProfile ρ :=
  let cleanedFullName := (cleaned (body .fullName)).getD existingCustomer.fullName
  let cleanedPhone := (cleaned (body .phone)).getD existingCustomer.phone
  let cleanedEmail := cleaned (body .email)
  { c with
    fullName := cleanedFullName
    normalizedFullName := normalize S cleanedFullName
    phone := cleanedPhone
    normalizedPhone := phoneDigits cleanedPhone
    email := cleanedEmail
    normalizedEmail := cleanedEmail.map (normalize S)
    addressLine1 := (cleaned (body .addressLine1)).getD existingCustomer.addressLine1
    unitNumber := if (body .unitNumber).isSome then cleaned (body .unitNumber) else existingCustomer.unitNumber
    buzzCode := if (body .buzzCode).isSome then cleaned (body .buzzCode) else existingCustomer.buzzCode
    city := (cleaned (body .city)).getD existingCustomer.city
    province := (cleaned (body .province)).getD existingCustomer.province
    recurringDriverNotes :=
      if (body .recurringDriverNotes).isSome then cleaned (body .recurringDriverNotes) else existingCustomer.recurringDriverNotes
    dispatcherNotes := (((body .dispatcherNotes).bind (·.string)).map trim).or existingCustomer.dispatcherNotes }

def notedProfile (dispatcherNotes : Option BodyValue) (c : CustomerProfile ρ) : CustomerProfile ρ :=
  { c with dispatcherNotes := some (((dispatcherNotes.bind (·.string)).map trim).getD "") }

def createdProfile (body : OrderCustomerBody) (id : CustomerId) (rest : ρ) : CustomerProfile ρ where
  id := id
  fullName := trim body.customerName
  normalizedFullName := normalize S body.customerName
  phone := trim body.customerPhone
  normalizedPhone := phoneDigits body.customerPhone
  email := contactEmail S body.customerEmail
  normalizedEmail := contactEmail S body.customerEmail
  addressLine1 := trim body.addressLine1
  unitNumber := cleaned body.unitNumber
  buzzCode := cleaned body.buzzCode
  city := trim body.city
  province := trim body.province
  dispatcherNotes := (body.dispatcherNotes.bind (·.string)).map trim
  recurringDriverNotes := none
  rest := rest

/-- `customerAddressUpdate` and then the submitted recurring notes, which only manual orders have. -/
def orderedProfile (body : OrderCustomerBody) (isManualOrder : Bool) (rest : ρ) (c : CustomerProfile ρ) : CustomerProfile ρ :=
  { c with
    addressLine1 := trim body.addressLine1
    city := trim body.city
    province := trim body.province
    unitNumber := if body.unitNumber.isSome then cleaned body.unitNumber else c.unitNumber
    buzzCode := if body.buzzCode.isSome then cleaned body.buzzCode else c.buzzCode
    recurringDriverNotes :=
      if isManualOrder && body.recurringDriverNotes.isSome then cleaned body.recurringDriverNotes else c.recurringDriverNotes
    rest := rest }

/-- The contact and address of an edited order; `unitNumber` and `buzzCode` are those of the order
as the handler read it. -/
def editedProfile (body : UpdateOrderDetailsBody) (unitNumber buzzCode : Option String) (c : CustomerProfile ρ) : CustomerProfile ρ :=
  { c with
    fullName := trim body.customerName
    normalizedFullName := normalize S body.customerName
    phone := trim body.customerPhone
    normalizedPhone := phoneDigits body.customerPhone
    email := contactEmail S body.customerEmail
    normalizedEmail := contactEmail S body.customerEmail
    addressLine1 := trim body.addressLine1
    unitNumber := (body.unitNumber.map normalizeAddressAccessField).getD unitNumber
    buzzCode := (body.buzzCode.map normalizeAddressAccessField).getD buzzCode
    city := trim body.city
    province := trim body.province }

/-- The customer that an edited order makes when it finds none. -/
def emptyProfile (id : CustomerId) (rest : ρ) : CustomerProfile ρ := ⟨id,"","","","",none,none,"",none,none,"","",none,none,rest⟩

end Rows

section Steps
variable {δ ρ : Type} (S : PrivacyService δ)

def initial (ρ : Type) : ProfileSystem ρ := ⟨Table.empty,fun _ => none⟩

def await (s : ProfileSystem ρ) (request : RequestId) (r : ProfileRequest ρ) : ProfileSystem ρ :=
  { s with requests := Function.update s.requests request (some r) }

def saved (s : ProfileSystem ρ) (c : CustomerProfile ρ) : ProfileSystem ρ := { s with customers := s.customers.put c }

def done (s : ProfileSystem ρ) (request : RequestId) (c : CustomerProfile ρ) : ProfileSystem ρ :=
  ⟨s.customers.put c,Function.update s.requests request none⟩

/-- What `updateCustomerController` answers before it writes, or the row that it has read. -/
def readCustomer (s : ProfileSystem ρ) (id : CustomerId) (body : CustomerBody) : Except Reply (CustomerProfile ρ) :=
  match s.customers.find id with
  | none => .error customerNotFound
  | some existingCustomer => (checkBody body).map fun _ => existingCustomer

def step (s : ProfileSystem ρ) : ProfileAction ρ → Option (ProfileSystem ρ)
  | .readCustomer request id body =>
    if (s.requests request).isSome then none
    else (readCustomer s id body).toOption.map fun existingCustomer => await s request (.updating existingCustomer body)
  | .updateCustomer request => match s.requests request with
    | some (.updating existingCustomer body) =>
      (s.customers.find existingCustomer.id).map fun c => done s request (updatedProfile S existingCustomer body c)
    | _ => none
  | .readForNotes request id dispatcherNotes =>
    if (s.requests request).isSome then none
    else (s.customers.find id).map fun _ => await s request (.noting id dispatcherNotes)
  | .updateDispatcherNotes request => match s.requests request with
    | some (.noting id dispatcherNotes) => (s.customers.find id).map fun c => done s request (notedProfile dispatcherNotes c)
    | _ => none
  | .createOrder body isManualOrder (some id) _ rest =>
    (s.customers.find id).map fun c => saved s (orderedProfile body isManualOrder rest c)
  | .createOrder body isManualOrder none newId rest =>
    if (s.customers.find newId).isSome then none
    else some (saved s (orderedProfile body isManualOrder rest (createdProfile S body newId rest)))
  | .editOrder body unitNumber buzzCode (some id) _ _ =>
    (s.customers.find id).map fun c => saved s (editedProfile S body unitNumber buzzCode c)
  | .editOrder body unitNumber buzzCode none newId rest =>
    if (s.customers.find newId).isSome then none
    else some (saved s (editedProfile S body unitNumber buzzCode (emptyProfile newId rest)))
  | .updateRest id rest => (s.customers.find id).map fun c => saved s { c with rest := rest }

abbrev Reachable : ProfileSystem ρ → Prop := Transition.Reachable (step S) (initial ρ)

end Steps

/-! ### What a step does to one customer -/

section Laws
variable {δ ρ : Type} {S : PrivacyService δ} {s t : ProfileSystem ρ} {a : ProfileAction ρ}

/-- The columns with a normalised copy have the copy that belongs to them. -/
structure Normalized (S : PrivacyService δ) (c : CustomerProfile ρ) : Prop where
  name : c.normalizedFullName = normalize S c.fullName
  phone : c.normalizedPhone = phoneDigits c.phone
  email : c.email = none → c.normalizedEmail = none

theorem normalizeTrim (value : String) : normalize S (trim value) = normalize S value := by
  rw [normalize,normalize,trimTrim]

theorem normalizedUpdated (existingCustomer : CustomerProfile ρ) (body : CustomerBody) (c : CustomerProfile ρ) :
    Normalized S (updatedProfile S existingCustomer body c) :=
  ⟨rfl,rfl,fun none_ => by simp only [updatedProfile] at none_ ⊢; rw [none_]; rfl⟩

theorem normalizedContact (body : UpdateOrderDetailsBody) (unitNumber buzzCode : Option String) (c : CustomerProfile ρ) :
    Normalized S (editedProfile S body unitNumber buzzCode c) :=
  ⟨(normalizeTrim body.customerName).symm,(digitsTrim body.customerPhone).symm,id⟩

theorem normalizedCreated (body : OrderCustomerBody) (id : CustomerId) (rest : ρ) : Normalized S (createdProfile S body id rest) :=
  ⟨(normalizeTrim body.customerName).symm,(digitsTrim body.customerPhone).symm,fun none_ => none_⟩

/-- The row that a step writes, if any. -/
inductive Written (S : PrivacyService δ) (s : ProfileSystem ρ) : ProfileAction ρ → CustomerProfile ρ → Prop
  | updated {request existingCustomer body c} (held : s.requests request = some (.updating existingCustomer body))
      (found : s.customers.find existingCustomer.id = some c) :
      Written S s (.updateCustomer request) (updatedProfile S existingCustomer body c)
  | noted {request id dispatcherNotes c} (held : s.requests request = some (.noting id dispatcherNotes))
      (found : s.customers.find id = some c) : Written S s (.updateDispatcherNotes request) (notedProfile dispatcherNotes c)
  | ordered {body isManualOrder id newId rest c} (found : s.customers.find id = some c) :
      Written S s (.createOrder body isManualOrder (some id) newId rest) (orderedProfile body isManualOrder rest c)
  | created {body isManualOrder newId rest} (fresh : s.customers.find newId = none) :
      Written S s (.createOrder body isManualOrder none newId rest) (orderedProfile body isManualOrder rest (createdProfile S body newId rest))
  | edited {body unitNumber buzzCode id newId rest c} (found : s.customers.find id = some c) :
      Written S s (.editOrder body unitNumber buzzCode (some id) newId rest) (editedProfile S body unitNumber buzzCode c)
  | made {body unitNumber buzzCode newId rest} (fresh : s.customers.find newId = none) :
      Written S s (.editOrder body unitNumber buzzCode none newId rest)
        (editedProfile S body unitNumber buzzCode (emptyProfile newId rest))
  | other {id rest c} (found : s.customers.find id = some c) : Written S s (.updateRest id rest) { c with rest := rest }

theorem stepWrites (taken : step S s a = some t) :
    t.customers = s.customers ∨ ∃ c, Written S s a c ∧ t.customers = s.customers.put c := by
  cases a with
  | readCustomer request id body =>
    simp only [step] at taken
    split at taken
    · contradiction
    · obtain ⟨existingCustomer,-,rfl⟩ := Option.map_eq_some_iff.mp taken
      exact .inl rfl
  | updateCustomer request =>
    simp only [step] at taken
    split at taken
    · rename_i existingCustomer body held
      obtain ⟨c,found,rfl⟩ := Option.map_eq_some_iff.mp taken
      exact .inr ⟨_,.updated held found,rfl⟩
    · contradiction
  | readForNotes request id dispatcherNotes =>
    simp only [step] at taken
    split at taken
    · contradiction
    · obtain ⟨c,-,rfl⟩ := Option.map_eq_some_iff.mp taken
      exact .inl rfl
  | updateDispatcherNotes request =>
    simp only [step] at taken
    split at taken
    · rename_i id dispatcherNotes held
      obtain ⟨c,found,rfl⟩ := Option.map_eq_some_iff.mp taken
      exact .inr ⟨_,.noted held found,rfl⟩
    · contradiction
  | createOrder body isManualOrder customer newId rest =>
    cases customer with
    | some id =>
      obtain ⟨c,found,rfl⟩ := Option.map_eq_some_iff.mp taken
      exact .inr ⟨_,.ordered found,rfl⟩
    | none =>
      simp only [step] at taken
      split at taken
      · contradiction
      · rename_i fresh
        cases Option.some.inj taken
        exact .inr ⟨_,.created (by simpa using fresh),rfl⟩
  | editOrder body unitNumber buzzCode customer newId rest =>
    cases customer with
    | some id =>
      obtain ⟨c,found,rfl⟩ := Option.map_eq_some_iff.mp taken
      exact .inr ⟨_,.edited found,rfl⟩
    | none =>
      simp only [step] at taken
      split at taken
      · contradiction
      · rename_i fresh
        cases Option.some.inj taken
        exact .inr ⟨_,.made (by simpa using fresh),rfl⟩
  | updateRest id rest =>
    obtain ⟨c,found,rfl⟩ := Option.map_eq_some_iff.mp taken
    exact .inr ⟨_,.other found,rfl⟩

theorem writtenNormalized {c : CustomerProfile ρ} (written : Written S s a c)
    (before : ∀ d ∈ s.customers.rows, Normalized S d) : Normalized S c := by
  cases written with
  | updated => exact normalizedUpdated ..
  | edited => exact normalizedContact ..
  | made => exact normalizedContact ..
  | @created body isManualOrder newId rest =>
    have h : Normalized S (createdProfile S body newId rest) := normalizedCreated body newId rest
    exact ⟨h.name,h.phone,h.email⟩
  | noted _ found | ordered found | other found =>
    have h := before _ (find_some found).1
    exact ⟨h.name,h.phone,h.email⟩

theorem normalizedAlways (reached : Reachable S s) : ∀ c ∈ s.customers.rows, Normalized S c := by
  refine reached.invariant (I := fun s => ∀ c ∈ s.customers.rows, Normalized S c) (fun _ mem => absurd mem List.not_mem_nil)
    fun u a v h taken c mem => ?_
  rcases stepWrites taken with same | ⟨d,written,put⟩
  · exact h c (same ▸ mem)
  · rw [put] at mem
    rcases mem_put mem with rfl | ⟨mem,-⟩
    · exact writtenNormalized written h
    · exact h c mem

/-! ### The fields of an edit -/

def column : CustomerField → CustomerProfile ρ → Option String
  | .fullName,c => some c.fullName
  | .phone,c => some c.phone
  | .email,c => c.email
  | .addressLine1,c => some c.addressLine1
  | .unitNumber,c => c.unitNumber
  | .buzzCode,c => c.buzzCode
  | .city,c => some c.city
  | .province,c => some c.province
  | .recurringDriverNotes,c => c.recurringDriverNotes
  | .dispatcherNotes,c => c.dispatcherNotes

/-- The normalised copy, where the field has one. -/
def normalizedColumn : CustomerField → CustomerProfile ρ → Option String
  | .fullName,c => some c.normalizedFullName
  | .phone,c => some c.normalizedPhone
  | .email,c => c.normalizedEmail
  | _,_ => none

/-- What the body does not contain is as before. -/
structure Framed (body : CustomerBody) (before after : CustomerProfile ρ) : Prop where
  fields : ∀ field, body field = none →
    column field after = column field before ∧ normalizedColumn field after = normalizedColumn field before
  rest : after.rest = before.rest

/-- An email is submitted or there is none, and what else is not submitted is still as it was read. -/
structure Unspoiled (body : CustomerBody) (read before : CustomerProfile ρ) : Prop where
  email : body .email = none → before.email = none
  others : ∀ field, field ≠ .email → body field = none → column field read = column field before

theorem unsubmitted {body : CustomerBody} {field : CustomerField} (absent : body field = none) (read before : CustomerProfile ρ) :
    column field (updatedProfile S read body before) = if field = .email then none else column field read := by
  cases field <;> simp [column,updatedProfile,absent,cleaned,cleanStringOrNull]

theorem copyFollows {S : PrivacyService δ} {before after : CustomerProfile ρ} (normal : Normalized S before) (normal' : Normalized S after)
    {field : CustomerField} (same : column field after = column field before) (noEmail : field = .email → after.email = none) :
    normalizedColumn field after = normalizedColumn field before := by
  cases field with
  | fullName =>
    have name : after.fullName = before.fullName := Option.some.inj same
    rw [normalizedColumn,normalizedColumn,normal.name,normal'.name,name]
  | phone =>
    have phone : after.phone = before.phone := Option.some.inj same
    rw [normalizedColumn,normalizedColumn,normal.phone,normal'.phone,phone]
  | email =>
    have none_ : after.email = none := noEmail rfl
    have before_ : before.email = none := same.symm.trans none_
    rw [normalizedColumn,normalizedColumn,normal.email before_,normal'.email none_]
  | _ => rfl

theorem framedIff {body : CustomerBody} {read before : CustomerProfile ρ} (normal : Normalized S before) :
    Framed body before (updatedProfile S read body before) ↔ Unspoiled body read before := by
  constructor
  · intro h
    refine ⟨fun absent => ?_,fun field other absent => ?_⟩
    · have same := (h.fields .email absent).1
      rw [unsubmitted absent,if_pos rfl] at same
      exact same.symm
    · have same := (h.fields field absent).1
      rwa [unsubmitted absent,if_neg other] at same
  · intro h
    have same : ∀ field, body field = none → column field (updatedProfile S read body before) = column field before := by
      intro field absent
      rw [unsubmitted absent]
      split
      · rename_i email
        subst email
        exact (h.email absent).symm
      · rename_i other
        exact h.others field other absent
    refine ⟨fun field absent => ⟨same field absent,copyFollows normal (normalizedUpdated ..) (same field absent) ?_⟩,rfl⟩
    rintro rfl
    exact (unsubmitted (S := S) absent read before).trans (if_pos rfl)

theorem updateTaken {request : RequestId} (taken : step S s (.updateCustomer request) = some t) :
    ∃ read body before, s.requests request = some (.updating read body) ∧ s.customers.find read.id = some before ∧
      t.customers = s.customers.put (updatedProfile S read body before) := by
  simp only [step] at taken
  split at taken
  · rename_i read body held
    obtain ⟨before,found,rfl⟩ := Option.map_eq_some_iff.mp taken
    exact ⟨read,body,before,held,found,rfl⟩
  · contradiction

theorem customerEditFramed (S : PrivacyService δ) (s t : ProfileSystem ρ) (request : RequestId) (reached : Reachable S s)
    (taken : step S s (.updateCustomer request) = some t) :
    ∃ read body before after, s.requests request = some (.updating read body) ∧ s.customers.find read.id = some before ∧
      t.customers.find read.id = some after ∧ (∀ id, id ≠ read.id → t.customers.find id = s.customers.find id) ∧
      (Framed body before after ↔ Unspoiled body read before) := by
  obtain ⟨read,body,before,held,found,put⟩ := updateTaken taken
  have own : (updatedProfile S read body before).id = read.id := (find_some found).2
  refine ⟨read,body,before,_,held,found,?_,fun id other => ?_,framedIff (normalizedAlways reached before (find_some found).1)⟩
  · rw [put,← own]
    exact find_put_self ..
  · rw [put]
    exact find_put_other (own ▸ other)

theorem aloneKeeps {u : ProfileSystem ρ} {request : RequestId} {read : CustomerProfile ρ} {body : CustomerBody}
    (held : u.requests request = some (.updating read body)) (row : u.customers.find read.id = some read)
    (alone : Transition.ReachableUnder (step S) (fun s a => ∀ c, Written S s a c → c.id ≠ read.id) u s) :
    s.requests request = some (.updating read body) ∧ s.customers.find read.id = some read := by
  refine alone.invariant (I := fun s => s.requests request = some (.updating read body) ∧ s.customers.find read.id = some read)
    ⟨held,row⟩ fun v a w h others taken => ⟨?_,?_⟩
  · have stays : ∀ other r, other ≠ request → (Function.update v.requests other r) request = some (.updating read body) :=
      fun other r differ => by rw [Function.update_of_ne (Ne.symm differ)]; exact h.1
    cases a with
    | readCustomer other id submitted =>
      simp only [step] at taken
      split at taken
      · contradiction
      · rename_i free
        obtain ⟨c,-,rfl⟩ := Option.map_eq_some_iff.mp taken
        refine stays other _ fun same => free ?_
        rw [same,h.1]
        rfl
    | readForNotes other id dispatcherNotes =>
      simp only [step] at taken
      split at taken
      · contradiction
      · rename_i free
        obtain ⟨c,-,rfl⟩ := Option.map_eq_some_iff.mp taken
        refine stays other _ fun same => free ?_
        rw [same,h.1]
        rfl
    | updateCustomer other =>
      simp only [step] at taken
      split at taken
      · rename_i existingCustomer submitted waiting
        obtain ⟨c,found,rfl⟩ := Option.map_eq_some_iff.mp taken
        refine stays other none fun same => ?_
        subst same
        cases Option.some.inj (waiting.symm.trans h.1)
        exact others _ (.updated waiting found) (find_some found).2
      · contradiction
    | updateDispatcherNotes other =>
      simp only [step] at taken
      split at taken
      · rename_i id dispatcherNotes waiting
        obtain ⟨c,-,rfl⟩ := Option.map_eq_some_iff.mp taken
        refine stays other none fun same => ?_
        subst same
        cases waiting.symm.trans h.1
      · contradiction
    | createOrder submitted isManualOrder customer newId rest =>
      cases customer with
      | some id => obtain ⟨c,-,rfl⟩ := Option.map_eq_some_iff.mp taken; exact h.1
      | none =>
        simp only [step] at taken
        split at taken
        · contradiction
        · cases Option.some.inj taken; exact h.1
    | editOrder submitted unitNumber buzzCode customer newId rest =>
      cases customer with
      | some id => obtain ⟨c,-,rfl⟩ := Option.map_eq_some_iff.mp taken; exact h.1
      | none =>
        simp only [step] at taken
        split at taken
        · contradiction
        · cases Option.some.inj taken; exact h.1
    | updateRest id rest => obtain ⟨c,-,rfl⟩ := Option.map_eq_some_iff.mp taken; exact h.1
  · rcases stepWrites taken with same | ⟨c,written,put⟩
    · rw [same]
      exact h.2
    · rw [put,find_put_other (others c written).symm]
      exact h.2

theorem aloneFramed {u : ProfileSystem ρ} {request : RequestId} {read : CustomerProfile ρ} {body : CustomerBody}
    (reached : Reachable S u) (held : u.requests request = some (.updating read body)) (row : u.customers.find read.id = some read)
    (alone : Transition.ReachableUnder (step S) (fun s a => ∀ c, Written S s a c → c.id ≠ read.id) u s)
    (taken : step S s (.updateCustomer request) = some t) :
    ∃ after, t.customers.find read.id = some after ∧ (Framed body read after ↔ (body .email = none → read.email = none)) := by
  obtain ⟨held,row⟩ := aloneKeeps held row alone
  have reachedLater := Transition.Reachable.trans reached alone.reachable
  obtain ⟨read',body',before,held',found,put⟩ := updateTaken taken
  cases Option.some.inj (held.symm.trans held')
  cases Option.some.inj (row.symm.trans found)
  have own : (updatedProfile S read body read).id = read.id := rfl
  refine ⟨_,by rw [put,← own]; exact find_put_self ..,?_⟩
  rw [framedIff (normalizedAlways reachedLater read (find_some row).1)]
  exact ⟨fun h => h.email,fun email => ⟨email,fun _ _ _ => rfl⟩⟩

/-- What the claim of a frame says of one edit. -/
def EditFramed (s t : ProfileSystem ρ) (request : RequestId) : Prop := ∀ read body before after,
  s.requests request = some (.updating read body) → s.customers.find read.id = some before →
  t.customers.find read.id = some after → Framed body before after

end Laws

def joOrder : OrderCustomerBody where
  customerName := "Jo Lee"
  customerPhone := "519 555 0100"
  customerEmail := "jo@example.com"
  addressLine1 := "5 Elm St"
  unitNumber := none
  buzzCode := none
  city := "Guelph"
  province := "ON"
  dispatcherNotes := none
  recurringDriverNotes := none

def moveToFergus : CustomerBody
  | .city => some (.text "Fergus")
  | _ => none

def moveWithEmail : CustomerBody
  | .email => some (.text "jo@example.com")
  | field => moveToFergus field

def joReads (body : CustomerBody) : List (ProfileAction Unit) :=
  [.createOrder joOrder false none "jo" (),.readCustomer 0 "jo" body]

/-- An edit at its update: what it has read and submitted, and the customer before and after. -/
structure Edit where
  read : CustomerProfile Unit
  body : CustomerBody
  before : CustomerProfile Unit
  after : CustomerProfile Unit

def editAfter (actions : List (ProfileAction Unit)) : Option Edit := do
  let s ← Transition.run (step sampleService) (initial Unit) actions
  let t ← step sampleService s (.updateCustomer 0)
  match s.requests 0 with
  | some (.updating read body) => some ⟨read,body,← s.customers.find read.id,← t.customers.find read.id⟩
  | _ => none

theorem editReached {actions : List (ProfileAction Unit)} {e : Edit} (is : editAfter actions = some e) :
    ∃ s t, Reachable sampleService s ∧ step sampleService s (.updateCustomer 0) = some t ∧
      s.requests 0 = some (.updating e.read e.body) ∧ s.customers.find e.read.id = some e.before ∧
      t.customers.find e.read.id = some e.after := by
  simp only [editAfter,bind,Option.bind_eq_some_iff] at is
  obtain ⟨s,ran,t,taken,last⟩ := is
  split at last
  · rename_i read body held
    simp only [Option.bind_eq_some_iff,Option.some.injEq] at last
    obtain ⟨before,row,after,row',rfl⟩ := last
    exact ⟨s,t,Transition.runReachable .start ran,taken,held,row,row'⟩
  · contradiction

/-- Nothing comes between, and the email is submitted. -/
theorem customerEditFramedMove : ∃ e, editAfter (joReads moveWithEmail) = some e ∧ Framed e.body e.before e.after ∧
    e.before.city = "Guelph" ∧ e.after.city = "Fergus" := by
  have ends : (editAfter (joReads moveWithEmail)).map (fun e =>
      ((e.body .email).isSome,decide (e.read = e.before),e.before.city,e.after.city)) = some (true,true,"Guelph","Fergus") := by
    decide +kernel
  obtain ⟨e,is,facts⟩ := Option.map_eq_some_iff.mp ends
  simp only [Prod.mk.injEq,decide_eq_true_eq] at facts
  obtain ⟨email,same,cities⟩ := facts
  obtain ⟨s,t,reached,taken,held,row,row'⟩ := editReached is
  obtain ⟨read,body,before,after,held₂,row₂,row₂',-,exactly⟩ := customerEditFramed sampleService s t 0 reached taken
  cases Option.some.inj (held.symm.trans held₂)
  cases Option.some.inj (row.symm.trans row₂)
  cases Option.some.inj (row'.symm.trans row₂')
  refine ⟨e,is,exactly.mpr ⟨fun absent => ?_,fun field _ _ => by rw [same]⟩,cities⟩
  rw [absent] at email
  contradiction

theorem editDisturbs :
    (¬ ∀ (s t : ProfileSystem Unit) (request : RequestId), Reachable sampleService s →
      step sampleService s (.updateCustomer request) = some t → EditFramed s t request) ∧
    ¬ ∀ (s t : ProfileSystem Unit) (request : RequestId), Reachable sampleService s →
      step sampleService s (.updateCustomer request) = some t →
      (∀ read body, s.requests request = some (.updating read body) → (body .email).isSome = true) → EditFramed s t request := by
  constructor
  · -- alone, an edit clears the email that it does not submit
    intro always
    have ends : (editAfter (joReads moveToFergus)).map (fun e => ((e.body .email).isSome,e.before.email,e.after.email)) =
        some (false,some "jo@example.com",none) := by decide +kernel
    obtain ⟨e,is,facts⟩ := Option.map_eq_some_iff.mp ends
    simp only [Prod.mk.injEq] at facts
    obtain ⟨absent,email,cleared⟩ := facts
    obtain ⟨s,t,reached,taken,held,row,row'⟩ := editReached is
    have kept := ((always s t 0 reached taken _ _ _ _ held row row').fields .email (by simpa using absent)).1
    simp only [column,email,cleared] at kept
    contradiction
  · -- with the email submitted, a note from in between is reverted
    intro always
    have ends : (editAfter (joReads moveWithEmail ++
        [.readForNotes 1 "jo" (some (.text "Ring twice")),.updateDispatcherNotes 1])).map (fun e =>
          ((e.body .email).isSome,(e.body .dispatcherNotes).isSome,e.before.dispatcherNotes,e.after.dispatcherNotes)) =
        some (true,false,some "Ring twice",none) := by decide +kernel
    obtain ⟨e,is,facts⟩ := Option.map_eq_some_iff.mp ends
    simp only [Prod.mk.injEq] at facts
    obtain ⟨email,absent,note,reverted⟩ := facts
    obtain ⟨s,t,reached,taken,held,row,row'⟩ := editReached is
    have submitted : ∀ read body, s.requests 0 = some (.updating read body) → (body .email).isSome = true := by
      intro read body held'
      cases Option.some.inj (held.symm.trans held')
      exact email
    have kept := ((always s t 0 reached taken submitted _ _ _ _ held row row').fields .dispatcherNotes (by simpa using absent)).1
    simp only [column,note,reverted] at kept
    contradiction

end CustomerEdits

end SpeedySweeties
