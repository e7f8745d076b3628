import SpeedySweeties.Privacy.IdentityGuard
import SpeedySweeties.Privacy.RequestLifecycle
import SpeedySweeties.Records.Writes

/-! The writers of phone numbers beside the privacy transitions: order creation, order edits
and customer edits. Orders are written under the privacy lock, in which the guard runs
first; a customer edit is two statements without it. A privacy transaction holds the same
lock and the row of its customer to its end, so it is one step here. -/
namespace SpeedySweeties
open JsText

structure OrderBody where
  customerName : String
  customerPhone : String
  customerEmail : String
  items : List OrderItem
  deriving DecidableEq, Repr

/-- Strings of the body; any other value is `none`. -/
structure UpdateCustomerBody where
  fullName : Option String
  phone : Option String
  email : Option String
  deriving DecidableEq, Repr

inductive OrderIntake where
  | create (input : NewOrder) (matchedCustomer : Option CustomerId)
  | edit (id : OrderId) (existingOrder : Order) (details : OrderDetails)
  deriving DecidableEq, Repr

inductive ContactRequest where
  | waiting (body : OrderBody) (intake : OrderIntake)
  | allowed (body : OrderBody) (intake : OrderIntake)
  | found (body : OrderBody) (intake : OrderIntake) (customer : Option CustomerId)
  | updating (existingCustomer : Customer) (existingPhone : String) (body : UpdateCustomerBody)
  deriving DecidableEq, Repr

inductive ContactEvent where
  | erased (phone : String)
  | stored (phone : String)
  deriving DecidableEq, Repr

/-- `phones` is the column `phone` of the customers. `history` records, newest first, the
phones of erased customers and the phones written into an order or a customer. -/
structure ContactSystem where
  db : PrivacyDb
  phones : CustomerId → String
  locked : Option RequestId
  requests : RequestId → Option ContactRequest
  history : List ContactEvent

inductive ContactAction (δ : Type) where
  | createOrder (request : RequestId) (body : OrderBody) (input : NewOrder) (matchedCustomer : Option CustomerId)
  | editOrder (request : RequestId) (id : OrderId) (body : OrderBody) (details : OrderDetails)
  | editCustomer (request : RequestId) (id : CustomerId) (body : UpdateCustomerBody)
  | allow (request : RequestId)
  | findCustomer (request : RequestId) (customer : Option CustomerId)
  | save (request : RequestId) (customerId : CustomerId) (orderId : OrderId) (now : Time)
  | updateCustomer (request : RequestId)
  | crash (request : RequestId)
  | transition (operation : PrivacyOperation) (entries : List (RecoveryEntry δ)) (now : Time)
  | write (id : OrderId) (write : RowWrite)
  | verify (challenges : Table PrivacyChallenge fun c => c.id) (access : Table PrivacyAccessCredential fun a => a.id)

variable {δ : Type} (S : PrivacyService δ) (J : PrivacyRecoveryJournal δ)

def normalize (value : String) : String := S.toLowerCase (trim value)

def contactEmail (customerEmail : String) : Option String :=
  if customerEmail = "" then none else some (normalize S customerEmail)

def newCustomer (id : CustomerId) (body : OrderBody) : Customer where
  id := id
  normalizedFullName := normalize S body.customerName
  normalizedPhone := phoneDigits body.customerPhone
  normalizedEmail := contactEmail S body.customerEmail
  privacyVerifiedEmail := none
  privacyVerifiedEmailAt := none

/-- The customer of an edited order takes its contact. -/
def orderCustomer (body : OrderBody) (c : Customer) : Customer :=
  { c with
    normalizedFullName := normalize S body.customerName
    normalizedPhone := phoneDigits body.customerPhone
    normalizedEmail := contactEmail S body.customerEmail }

def cleanStringOrNull (value : Option String) : Option String := (value.map trim).filter (· ≠ "")

def cleanedPhone (existingPhone : String) (body : UpdateCustomerBody) : String :=
  (cleanStringOrNull body.phone).getD existingPhone

def updatedCustomer (existingCustomer : Customer) (existingPhone : String) (body : UpdateCustomerBody) (c : Customer) :
    Customer :=
  { c with
    normalizedFullName := ((cleanStringOrNull body.fullName).map (normalize S)).getD existingCustomer.normalizedFullName
    normalizedPhone := phoneDigits (cleanedPhone existingPhone body)
    normalizedEmail := (cleanStringOrNull body.email).map (normalize S) }

def newRows (id : OrderId) (customerId : CustomerId) (body : OrderBody) (input : NewOrder) (now : Time) : OrderRows where
  order := createdOrder id { input with contact := { input.contact with
    customerId := some customerId, customerName := trim body.customerName, phone := trim body.customerPhone
    email := S.toLowerCase (trim body.customerEmail) } } now
  items := body.items
  digitalReceipt := none
  helpRequest := none
  dispatchEvents := []
  editPauses := []
  pickupStops := []
  checkIns := []

def orderDetails (customerId : CustomerId) (body : OrderBody) (details : OrderDetails) : OrderDetails :=
  { details with
    customerId := customerId, customerName := trim body.customerName, phone := trim body.customerPhone
    email := S.toLowerCase (trim body.customerEmail) }

namespace ContactSystem

def initial (db : PrivacyDb) (phones : CustomerId → String) : ContactSystem := ⟨db,phones,none,fun _ => none,[]⟩

def await (s : ContactSystem) (request : RequestId) (r : ContactRequest) : ContactSystem :=
  { s with requests := Function.update s.requests request (some r) }

/-- The request ends, and its transaction with it. -/
def close (s : ContactSystem) (request : RequestId) : ContactSystem :=
  { s with
    requests := Function.update s.requests request none
    locked := if s.locked = some request then none else s.locked }

/-- `buildCustomerLookupWhere`, for any of the rows it finds. -/
def lookup (s : ContactSystem) (phone : String) : Option CustomerId → Bool
  | none => s.db.customers.rows.all (·.normalizedPhone ≠ phoneDigits phone)
  | some id => (s.db.customers.find id).any (·.normalizedPhone = phoneDigits phone)

def putCustomer (s : ContactSystem) (c : Customer) (phone : String) : ContactSystem :=
  { s with
    db := { s.db with customers := s.db.customers.put c }
    phones := Function.update s.phones c.id phone
    history := .stored phone::s.history }

def putOrder (s : ContactSystem) (r : OrderRows) : ContactSystem :=
  { s with
    db := { s.db with other := { s.db.other with orders := s.db.other.orders.put r } }
    history := .stored r.order.phone::s.history }

/-- The customer of the order, created or updated where the request does that. -/
def saveCustomer (s : ContactSystem) (body : OrderBody) (intake : OrderIntake) (customerId : CustomerId) :
    Option CustomerId → Option (ContactSystem × CustomerId)
  | none =>
    if (s.db.customers.find customerId).isSome then none
    else some (s.putCustomer (newCustomer S customerId body) (trim body.customerPhone),customerId)
  | some id => match s.db.customers.find id with
    | none => none
    | some c => match intake with
      | .create .. => some (s,id)
      | .edit .. => some (s.putCustomer (orderCustomer S body c) (trim body.customerPhone),id)

def saveOrder (s : ContactSystem) (body : OrderBody) (customerId : CustomerId) (orderId : OrderId) (now : Time) :
    OrderIntake → Option ContactSystem
  | .create input _ =>
    if (s.db.other.orders.find orderId).isSome then none
    else some (s.putOrder (newRows S orderId customerId body input now))
  | .edit id existingOrder details => match s.db.other.orders.find id with
    | none => none
    | some r =>
      -- the trigger of a retained record
      if r.order.privacyErasedAt.isSome then none
      else some (s.putOrder ((RowWrite.details existingOrder (orderDetails S customerId body details) body.items).apply r))

def erasedPhones (s : ContactSystem) (db : PrivacyDb) : List ContactEvent :=
  (s.db.customers.rows.filter fun c => (db.customers.find c.id).isNone).map fun c => .erased (s.phones c.id)

/-- Writers that leave the contact of the order. -/
def writeRows (s : ContactSystem) (id : OrderId) (write : RowWrite) : Option ContactSystem :=
  match write,s.db.other.orders.find id with
  | .details ..,_ | _,none => none
  | write,some r =>
    if write.guarded ∧ r.order.privacyErasedAt.isSome then none
    else some { s with db := { s.db with other := { s.db.other with orders := s.db.other.orders.put (write.apply r) } } }

section Steps
variable [DecidableEq δ]

def step (s : ContactSystem) : ContactAction δ → Option ContactSystem
  | .createOrder request body input matchedCustomer =>
    if (s.requests request).isSome ∨ ¬ phoneAccepted (trim body.customerPhone) ∨
        ¬ s.lookup body.customerPhone matchedCustomer then none
    else some (s.await request (.waiting body (.create input matchedCustomer)))
  | .editOrder request id body details =>
    if (s.requests request).isSome ∨ ¬ phoneAccepted (trim body.customerPhone) then none
    else match updateOrderDetails ((s.db.other.orders.find id).map (·.order)) with
    | .error _ => none
    | .ok existingOrder => some (s.await request (.waiting body (.edit id existingOrder details)))
  | .editCustomer request id body =>
    if (s.requests request).isSome then none
    else (s.db.customers.find id).map fun existingCustomer =>
      s.await request (.updating existingCustomer (s.phones id) body)
  | .allow request => match s.requests request with
    | some (.waiting body intake) =>
      if s.locked.isSome then none
      else match assertPrivacyOrderAllowed S s.db (phoneDigits body.customerPhone) with
      | .error _ => some (s.close request)
      | .ok _ => some { s.await request (.allowed body intake) with locked := some request }
    | _ => none
  | .findCustomer request customer => match s.requests request with
    | some (.allowed body (.create input matchedCustomer)) =>
      some (s.await request (.found body (.create input matchedCustomer) matchedCustomer))
    | some (.allowed body intake) =>
      if s.lookup body.customerPhone customer then some (s.await request (.found body intake customer)) else none
    | _ => none
  | .save request customerId orderId now => match s.requests request with
    | some (.found body intake customer) => do
      let (saved,customerId) ← s.saveCustomer S body intake customerId customer
      let saved ← saved.saveOrder S body customerId orderId now intake
      some (saved.close request)
    | _ => none
  | .updateCustomer request => match s.requests request with
    | some (.updating existingCustomer existingPhone body) =>
      (s.db.customers.find existingCustomer.id).map fun c =>
        (s.putCustomer (updatedCustomer S existingCustomer existingPhone body c) (cleanedPhone existingPhone body)).close
          request
    | _ => none
  | .crash request => some (s.close request)
  | .transition operation entries now =>
    if s.locked.isSome then none
    else match operation.admit S now with
    | .error _ => none
    | .ok operation => match operation.work S J entries s.db now with
      | .error _ => none
      | .ok (db,_) => some { s with db, history := s.erasedPhones db ++ s.history }
  | .write id write => s.writeRows id write
  | .verify challenges access => if s.locked.isSome then none else some { s with db := { s.db with challenges, access } }

abbrev Reachable (db : PrivacyDb) (phones : CustomerId → String) : ContactSystem → Prop :=
  Transition.Reachable (step S J) (initial db phones)

end Steps

/-! ### No phone of an erased customer comes back -/

/-- No phone is stored after the erasure of a customer whose phone denotes the same subscriber. -/
def NoReactivation (history : List ContactEvent) : Prop :=
  history.Pairwise fun later earlier => ∀ stored erased, later = .stored stored → earlier = .erased erased →
    ¬ SameSubscriber stored erased

def erased (s : ContactSystem) : List String :=
  s.history.filterMap fun | .erased phone => some phone | .stored _ => none

def Apart (s : ContactSystem) (phone : String) : Prop := ∀ erased ∈ s.erased, ¬ SameSubscriber phone erased

instance (s : ContactSystem) (phone : String) : Decidable (s.Apart phone) := by unfold Apart; infer_instance

/-- An order that denotes an erased subscriber spells it with the same digits, and no
customer edit stores an erased subscriber. -/
def SeenByGuard (s : ContactSystem) : ContactAction δ → Prop
  | .allow request => match s.requests request with
    | some (.waiting body _) => ∀ erased ∈ s.erased, SameSubscriber body.customerPhone erased →
      phoneDigits body.customerPhone = phoneDigits erased
    | _ => True
  | .updateCustomer request => match s.requests request with
    | some (.updating _ existingPhone body) => s.Apart (cleanedPhone existingPhone body)
    | _ => True
  | _ => True

@[simp] theorem mem_erased {s : ContactSystem} {phone : String} : phone ∈ s.erased ↔ .erased phone ∈ s.history := by
  simp only [ContactSystem.erased,List.mem_filterMap]
  constructor
  · rintro ⟨event,mem,same⟩
    split at same <;> cases same
    exact mem
  · exact fun mem => ⟨_,mem,rfl⟩

instance (s : ContactSystem) (a : ContactAction δ) : Decidable (s.SeenByGuard a) := by
  unfold SeenByGuard
  split
  · split <;> infer_instance
  · split <;> infer_instance
  · infer_instance

/-- The phone of a request that has passed the guard and holds the lock. -/
def passed : ContactRequest → Option String
  | .allowed body _ | .found body _ _ => some body.customerPhone
  | _ => none

structure Sound (S : PrivacyService δ) (s : ContactSystem) : Prop where
  normalized : ∀ c ∈ s.db.customers.rows, c.normalizedPhone = phoneDigits (s.phones c.id)
  marked : ∀ erased ∈ s.erased, Marked S s.db erased
  allowed : ∀ x r phone, s.requests x = some r → passed r = some phone → s.locked = some x ∧ s.Apart phone
  kept : NoReactivation s.history

variable {S J} {s t : ContactSystem} {x : RequestId} {r : ContactRequest} {phone : String}

theorem Apart.congr {other : String} (h : s.Apart phone) (digits : phoneDigits phone = phoneDigits other) :
    s.Apart other :=
  fun erased mem same => h erased mem ((SameSubscriber.congr digits).mpr same)

theorem NoReactivation.store (h : NoReactivation s.history) (apart : s.Apart phone) :
    NoReactivation (.stored phone::s.history) := by
  refine List.pairwise_cons.mpr ⟨fun earlier mem stored erased new old => ?_,h⟩
  cases new
  exact apart erased (mem_erased.mpr (old ▸ mem))

theorem Sound.putCustomer {c : Customer} (h : Sound S s) (digits : c.normalizedPhone = phoneDigits phone)
    (apart : s.Apart phone) : Sound S (s.putCustomer c phone) where
  normalized d mem := by
    rcases Table.mem_put mem with rfl | ⟨old,differ⟩
    · simpa [ContactSystem.putCustomer] using digits
    · simp only [ContactSystem.putCustomer,Function.update_of_ne differ]
      exact h.normalized d old
  marked := h.marked
  allowed := h.allowed
  kept := h.kept.store apart

theorem Sound.putOrder {r : OrderRows} (h : Sound S s) (apart : s.Apart r.order.phone) : Sound S (s.putOrder r) where
  normalized := h.normalized
  marked := h.marked
  allowed := h.allowed
  kept := h.kept.store apart

theorem Sound.await (h : Sound S s) (pass : ∀ phone, passed r = some phone → s.locked = some x ∧ s.Apart phone) :
    Sound S (s.await x r) where
  normalized := h.normalized
  marked := h.marked
  allowed y q phone held passes := by
    simp only [ContactSystem.await,Function.update_apply] at held
    split at held
    · rename_i same
      cases held
      exact same ▸ pass phone passes
    · exact h.allowed y q phone held passes
  kept := h.kept

theorem Sound.close (h : Sound S s) : Sound S (s.close x) where
  normalized := h.normalized
  marked := h.marked
  allowed y q phone held passes := by
    simp only [ContactSystem.close,Function.update_apply] at held
    split at held
    · contradiction
    · rename_i differ
      obtain ⟨lock,apart⟩ := h.allowed y q phone held passes
      refine ⟨?_,apart⟩
      simp only [ContactSystem.close,lock,Option.some.injEq,if_neg differ]
  kept := h.kept

/-- Whoever takes the lock finds no other request that has passed the guard. -/
theorem Sound.allow {body : OrderBody} {intake : OrderIntake} (h : Sound S s) (free : s.locked = none)
    (apart : s.Apart body.customerPhone) :
    Sound S { s.await x (.allowed body intake) with locked := some x } where
  normalized := h.normalized
  marked := h.marked
  allowed y q phone held passes := by
    simp only [ContactSystem.await,Function.update_apply] at held
    split at held
    · rename_i same
      cases held
      cases passes
      exact ⟨congrArg some same.symm,apart⟩
    · have locked := (h.allowed y q phone held passes).1
      rw [free] at locked
      contradiction
  kept := h.kept

theorem Sound.transition {db : PrivacyDb} (h : Sound S s) (free : s.locked = none) (shrinks : CustomersShrink S s.db db) :
    Sound S { s with db, history := s.erasedPhones db ++ s.history } where
  normalized c mem := h.normalized c (Table.mem_iff_find.mpr (shrinks.customers c.id c (Table.find_of_mem mem)))
  marked erased mem := by
    rcases List.mem_append.mp (mem_erased.mp mem) with new | old
    · obtain ⟨c,gone,same⟩ := List.mem_map.mp new
      cases same
      obtain ⟨here,gone⟩ := List.mem_filter.mp gone
      have marked := shrinks.erased c.id c (Table.find_of_mem here) (by simpa using gone)
      rwa [h.normalized c here] at marked
    · exact shrinks.marks _ (h.marked erased (mem_erased.mpr old))
  allowed y q phone held passes := by
    have locked := (h.allowed y q phone held passes).1
    rw [free] at locked
    contradiction
  kept := by
    refine List.pairwise_append.mpr ⟨?_,h.kept,fun later mem earlier _ stored erased new => ?_⟩
    · exact List.pairwise_map.mpr (List.pairwise_of_forall fun _ _ _ _ new => ContactEvent.noConfusion new)
    · obtain ⟨c,_,rfl⟩ := List.mem_map.mp mem
      exact ContactEvent.noConfusion new

theorem Sound.frame {db : PrivacyDb} (h : Sound S s) (customers : db.customers = s.db.customers)
    (identities : db.identities = s.db.identities) : Sound S { s with db } where
  normalized := by
    rw [customers]
    exact h.normalized
  marked erased mem := by
    have before := h.marked erased mem
    rw [Marked,PrivacyDb.marks,identities]
    exact before
  allowed := h.allowed
  kept := h.kept

theorem saveCustomerSound {saved : ContactSystem} {body : OrderBody} {intake : OrderIntake} {customerId id : CustomerId}
    {customer : Option CustomerId} (h : Sound S s) (apart : s.Apart body.customerPhone)
    (done : s.saveCustomer S body intake customerId customer = some (saved,id)) :
    Sound S saved ∧ saved.Apart body.customerPhone := by
  have written : s.Apart (trim body.customerPhone) := apart.congr (digitsTrim _).symm
  have put {c : Customer} (digits : c.normalizedPhone = phoneDigits body.customerPhone) :
      Sound S (s.putCustomer c (trim body.customerPhone)) ∧
        (s.putCustomer c (trim body.customerPhone)).Apart body.customerPhone :=
    ⟨h.putCustomer (digits.trans (digitsTrim _).symm) written,apart⟩
  unfold saveCustomer at done
  split at done
  · split at done
    · contradiction
    · cases done
      exact put rfl
  · split at done
    · contradiction
    · split at done
      · cases done
        exact ⟨h,apart⟩
      · cases done
        exact put rfl

theorem saveOrderSound {body : OrderBody} {intake : OrderIntake} {customerId : CustomerId} {orderId : OrderId}
    {now : Time} (h : Sound S s) (apart : s.Apart body.customerPhone)
    (done : s.saveOrder S body customerId orderId now intake = some t) : Sound S t := by
  have written : s.Apart (trim body.customerPhone) := apart.congr (digitsTrim _).symm
  unfold saveOrder at done
  split at done
  · split at done
    · contradiction
    · cases done
      exact h.putOrder written
  · split at done
    · contradiction
    · split at done
      · contradiction
      · cases done
        exact h.putOrder written

theorem writeRowsSound {id : OrderId} {write : RowWrite} (h : Sound S s) (done : s.writeRows id write = some t) :
    Sound S t := by
  unfold writeRows at done
  split at done
  · contradiction
  · contradiction
  · split at done
    · contradiction
    · cases done
      exact h.frame rfl rfl

section Runs
variable [DecidableEq δ]

theorem stepSound {a : ContactAction δ} (h : Sound S s) (seen : s.SeenByGuard a) (taken : step S J s a = some t) :
    Sound S t := by
  cases a with
  | createOrder request body input matchedCustomer =>
    simp only [step] at taken
    split at taken
    · contradiction
    · cases taken
      exact h.await fun _ passes => by cases passes
  | editOrder request id body details =>
    simp only [step] at taken
    split at taken
    · contradiction
    split at taken
    · contradiction
    · cases taken
      exact h.await fun _ passes => by cases passes
  | editCustomer request id body =>
    simp only [step] at taken
    split at taken
    · contradiction
    · obtain ⟨existingCustomer,_,rfl⟩ := Option.map_eq_some_iff.mp taken
      exact h.await fun _ passes => by cases passes
  | allow request =>
    simp only [step] at taken
    split at taken
    · rename_i body intake held
      split at taken
      · contradiction
      rename_i free
      split at taken
      · cases taken
        exact h.close
      · rename_i passed
        cases taken
        refine h.allow (by simpa using free) fun erased mem same => ?_
        simp only [SeenByGuard,held] at seen
        have digits := seen erased mem same
        exact guardAllowed passed ((h.marked erased mem).congr (by simpa using digits.symm))
    · contradiction
  | findCustomer request customer =>
    simp only [step] at taken
    split at taken
    · rename_i body input matchedCustomer held
      cases taken
      exact h.await fun phone pass => h.allowed request _ phone held pass
    · rename_i body intake _ held
      split at taken
      · cases taken
        exact h.await fun phone pass => h.allowed request _ phone held pass
      · contradiction
    · contradiction
  | save request customerId orderId now =>
    simp only [step] at taken
    split at taken
    · rename_i body intake customer held
      simp only [bind,Option.bind_eq_some_iff] at taken
      obtain ⟨⟨saved,id⟩,customerSaved,ordered,orderSaved,last⟩ := taken
      cases last
      obtain ⟨sound,apart⟩ := saveCustomerSound h (h.allowed request _ _ held rfl).2 customerSaved
      exact (saveOrderSound sound apart orderSaved).close
    · contradiction
  | updateCustomer request =>
    simp only [step] at taken
    split at taken
    · rename_i existingCustomer existingPhone body held
      obtain ⟨c,_,rfl⟩ := Option.map_eq_some_iff.mp taken
      simp only [SeenByGuard,held] at seen
      exact (h.putCustomer rfl seen).close
    · contradiction
  | crash request =>
    cases taken
    exact h.close
  | transition operation entries now =>
    simp only [step] at taken
    split at taken
    · contradiction
    rename_i free
    split at taken
    · contradiction
    split at taken
    · contradiction
    · rename_i worked
      cases taken
      exact h.transition (by simpa using free) (workSource worked).shrinks
  | write id write => exact writeRowsSound h taken
  | verify challenges access =>
    simp only [step] at taken
    split at taken
    · contradiction
    · cases taken
      exact h.frame rfl rfl

theorem erasedStayAway {db : PrivacyDb} {phones : CustomerId → String}
    (normalized : ∀ c ∈ db.customers.rows, c.normalizedPhone = phoneDigits (phones c.id))
    (reached : Transition.ReachableUnder (step S J) SeenByGuard (initial db phones) s) : NoReactivation s.history :=
  (reached.invariant (I := Sound S)
    ⟨normalized,fun _ mem => absurd mem List.not_mem_nil,fun _ _ _ held => (nomatch held),.nil⟩
    fun _ _ _ sound seen taken => stepSound sound seen taken).kept

end Runs

def orderBody (customerPhone : String) : OrderBody := ⟨"Jo",customerPhone,"jo@example.com",[]⟩

def orderSteps (request : RequestId) (customerPhone : String) : List (ContactAction RecoveryEvidence) :=
  [.createOrder request (orderBody customerPhone) sampleOrder none,.allow request,.findCustomer request none,
   .save request "second" "later" 9]

def erasureSteps : List (ContactAction RecoveryEvidence) :=
  [.transition sampleSubmission [sampleJournal.genesis] 2,
   .transition (.fulfill "request" "admin" 0 "customer" sampleDecision) [] 3]

def sampleContacts : ContactSystem := initial verifiedDb fun _ => "416 555 0100"

theorem sampleNormalized : ∀ c ∈ verifiedDb.customers.rows, c.normalizedPhone = phoneDigits "416 555 0100" := by
  decide +kernel

theorem erasedPhoneRefused : ∃ s, Transition.ReachableUnder (step sampleService sampleJournal) SeenByGuard
    sampleContacts s ∧ NoReactivation s.history ∧
    s.history = [.stored "416 555 0199",.stored "416 555 0199",.erased "416 555 0100"] := by
  let actions := erasureSteps ++ (orderSteps 0 "(416) 555-0100").take 2 ++ orderSteps 1 "416 555 0199"
  have ends : (Transition.run (step sampleService sampleJournal) sampleContacts actions).map (·.history) =
      some [.stored "416 555 0199",.stored "416 555 0199",.erased "416 555 0100"] := by decide +kernel
  have seen : Transition.AllowedRun (step sampleService sampleJournal) SeenByGuard sampleContacts actions := by
    decide +kernel
  obtain ⟨s,ran,history⟩ := Option.map_eq_some_iff.mp ends
  have reached := Transition.runReachableUnder .start seen ran
  exact ⟨s,reached,erasedStayAway sampleNormalized reached,history⟩

/-- The digits of `1 (416) 555-0100` are not those of the erased phone. -/
theorem otherSpellingStored : ¬ ∀ (S : PrivacyService RecoveryEvidence) (J : PrivacyRecoveryJournal RecoveryEvidence)
    (db : PrivacyDb) (phones : CustomerId → String) (s : ContactSystem),
    (∀ c ∈ db.customers.rows, c.normalizedPhone = phoneDigits (phones c.id)) → Reachable S J db phones s →
      NoReactivation s.history := by
  intro always
  have ends : (Transition.run (step sampleService sampleJournal) sampleContacts
      (erasureSteps ++ orderSteps 0 "1 (416) 555-0100")).map (·.history) =
      some [.stored "1 (416) 555-0100",.stored "1 (416) 555-0100",.erased "416 555 0100"] := by decide +kernel
  obtain ⟨s,ran,history⟩ := Option.map_eq_some_iff.mp ends
  have away := always _ _ _ _ s sampleNormalized (Transition.runReachable .start ran)
  rw [history] at away
  have apart := List.rel_of_pairwise_cons away (List.mem_cons_of_mem _ List.mem_cons_self) _ _ rfl rfl
  exact absurd apart (by decide +kernel)

/-- A customer edit stores an erased phone even as it was. -/
example : (Transition.run (step sampleService sampleJournal) sampleContacts
    (erasureSteps ++ orderSteps 0 "416 555 0199" ++
      [.editCustomer 0 "second" ⟨none,some "416 555 0100",none⟩,.updateCustomer 0])).map (·.history.take 1) =
    some [.stored "416 555 0100"] := by decide +kernel

end ContactSystem
end SpeedySweeties
