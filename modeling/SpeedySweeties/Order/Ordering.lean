import SpeedySweeties.Order.Editing
import SpeedySweeties.Order.SyntheticSafety

/-! Order creations and edits beside the policy of synthetic orders and the dispatch of
orders. A creation looks its customer up before its transaction, an edit inside; each
transaction takes the privacy lock and then the policy lock and holds both to its end.
What it writes is seen at its commit, which is one step. -/
namespace SpeedySweeties
open JsText

structure OrderingBody extends SyntheticProfile where
  items : List OrderItem
  deriving DecidableEq, Repr

def OrderingBody.contact (body : OrderingBody) : OrderBody :=
  ⟨body.customerName,body.customerPhone,body.customerEmail,body.items⟩

inductive OrderIntent where
  | create (input : NewOrder) (required : Bool) (matchedCustomer : Option CustomerId)
  | edit (existingOrder : Order) (details : OrderDetails)
  deriving DecidableEq, Repr

inductive OrderingRequest where
  | waiting (body : OrderingBody) (intent : OrderIntent)
  | allowed (body : OrderingBody) (intent : OrderIntent)
  | reserved (body : OrderingBody) (intent : OrderIntent) (policy : Option SyntheticPolicy)
  | found (body : OrderingBody) (intent : OrderIntent) (policy : Option SyntheticPolicy) (customer : Option CustomerId)
  | enrolling (profile : SyntheticProfile) (policy : SyntheticPolicy)
  | claiming (policy : SyntheticPolicy)
  | handling (id : OrderId) (handler : Handler) (order : Option Order)
  | updating (id : OrderId) (update : GuardedUpdate)

inductive PolicyEvent where
  | enrolled (policy : SyntheticPolicy)
  | created (id : OrderId)
  | claimed
  | closed
  deriving DecidableEq, Repr

/-- `columns` are the customers' columns beside `db`, `setting` is the row of the policy.
`history` records the commits under the policy, newest first. -/
structure OrderingSystem where
  now : Time
  db : PrivacyDb
  columns : CustomerId → CustomerColumns
  setting : Option SyntheticPolicy
  privacyLock : Option RequestId
  policyLock : Option RequestId
  requests : RequestId → Option OrderingRequest
  history : List PolicyEvent

inductive OrderingAction where
  | tick (elapsed : Time)
  | createOrder (request : RequestId) (body : OrderingBody) (input : NewOrder) (required : Bool)
      (matchedCustomer : Option CustomerId)
  | editOrder (request : RequestId) (id : OrderId) (body : OrderingBody) (details : OrderDetails)
  | allow (request : RequestId)
  | reserve (request : RequestId)
  | findCustomer (request : RequestId) (customer : Option CustomerId)
  | save (request : RequestId) (customerId : CustomerId) (orderId : OrderId) (currentMonth : String)
  | rollback (request : RequestId)
  | requestEnrollment (request : RequestId) (actor : Option (UserId × UserRole)) (input : EnrollmentInput)
  | enroll (request : RequestId)
  | closeProfile (actor : Option (UserId × UserRole))
  | claimEmail (request : RequestId) (customerId : CustomerId) (channel : VerificationChannel) (destination : String)
  | commitClaim (request : RequestId)
  | handle (request : RequestId) (id : OrderId) (handler : Handler)
  | decide (request : RequestId) (driver : Option DriverView) (receipt : Bool)
  | write (request : RequestId) (assignable : Bool)
  | autoDispatch (id : OrderId) (selected : Option UserId)

/-- `buildCustomerLookupWhere`, for any of the rows it finds. -/
def PrivacyDb.lookup (db : PrivacyDb) (phone : String) : Option CustomerId → Bool
  | none => db.customers.rows.all (·.normalizedPhone ≠ phoneDigits phone)
  | some id => (db.customers.find id).any (·.normalizedPhone = phoneDigits phone)

def PrivacyDb.putOrder (db : PrivacyDb) (r : OrderRows) : PrivacyDb :=
  { db with other := { db.other with orders := db.other.orders.put r } }

variable {δ : Type} (S : PrivacyService δ) (T : SyntheticService)

def newColumns (body : OrderingBody) (synthetic : Bool) (currentMonth : String) : CustomerColumns where
  toLoyaltyCustomer := newLoyaltyCustomer (some currentMonth)
  fullName := trim body.customerName
  phone := trim body.customerPhone
  email := contactEmail S body.customerEmail
  addressLine1 := trim body.addressLine1
  unitNumber := normalizeAddressAccessField body.unitNumber.join
  buzzCode := normalizeAddressAccessField body.buzzCode.join
  city := trim body.city
  province := trim body.province
  smsMarketingOptOut := synthetic

/-- `customerAddressUpdate` of a creation. -/
def addressColumns (body : OrderingBody) (c : CustomerColumns) : CustomerColumns :=
  { c with
    addressLine1 := trim body.addressLine1
    unitNumber := (body.unitNumber.map normalizeAddressAccessField).getD c.unitNumber
    buzzCode := (body.buzzCode.map normalizeAddressAccessField).getD c.buzzCode
    city := trim body.city
    province := trim body.province }

/-- An edited order names the unit and the buzz code of the order that was read. -/
def editColumns (body : OrderingBody) (existingOrder : Order) (c : CustomerColumns) : CustomerColumns :=
  { c with
    fullName := trim body.customerName
    phone := trim body.customerPhone
    email := contactEmail S body.customerEmail
    addressLine1 := trim body.addressLine1
    unitNumber := (body.unitNumber.map normalizeAddressAccessField).getD existingOrder.unitNumber
    buzzCode := (body.buzzCode.map normalizeAddressAccessField).getD existingOrder.buzzCode
    city := trim body.city
    province := trim body.province }

def redeemColumns (orderSource : OrderSource) (currentMonth : String) (c : CustomerColumns) : CustomerColumns :=
  match (redeemFreeDeliveryRewardForOrder (some c.toLoyaltyCustomer) orderSource currentMonth).1 with
  | some loyalty => { c with toLoyaltyCustomer := loyalty }
  | none => c

def creationCustomer (policy : Option SyntheticPolicy) (matchedCustomer : Option CustomerId) : Option CustomerId :=
  match policy with
  | some p => p.customerId
  | none => matchedCustomer

def syntheticItem (item : OrderItem) : OrderItem := { item with itemCatalogId := none }

/-- The rows of a created order at the commit of its transaction. -/
def committedRows (id : OrderId) (customerId : CustomerId) (body : OrderingBody) (input : NewOrder) (synthetic : Bool)
    (now : Time) : OrderRows :=
  let rows := newRows S id customerId body.contact input now
  if synthetic then { rows with order := finishSyntheticOrder rows.order now, items := rows.items.map syntheticItem }
  else rows

namespace OrderingSystem

def initial (db : PrivacyDb) (columns : CustomerId → CustomerColumns) (setting : Option SyntheticPolicy) (now : Time) :
    OrderingSystem :=
  ⟨now,db,columns,setting,none,none,fun _ => none,[]⟩

def await (s : OrderingSystem) (request : RequestId) (r : OrderingRequest) : OrderingSystem :=
  { s with requests := Function.update s.requests request (some r) }

/-- The request ends, and its transaction with it. -/
def close (s : OrderingSystem) (request : RequestId) : OrderingSystem :=
  { s with
    requests := Function.update s.requests request none
    privacyLock := if s.privacyLock = some request then none else s.privacyLock
    policyLock := if s.policyLock = some request then none else s.policyLock }

def putCustomer (s : OrderingSystem) (c : Customer) (columns : CustomerColumns) : OrderingSystem :=
  { s with
    db := { s.db with customers := s.db.customers.put c }
    columns := Function.update s.columns c.id columns }

def putColumns (s : OrderingSystem) (id : CustomerId) (columns : CustomerColumns) : OrderingSystem :=
  { s with columns := Function.update s.columns id columns }

def putOrder (s : OrderingSystem) (r : OrderRows) : OrderingSystem := { s with db := s.db.putOrder r }

def record (s : OrderingSystem) (setting : SyntheticPolicy) (event : PolicyEvent) : OrderingSystem :=
  { s with setting := some setting, history := event::s.history }

/-- The customer of the order, created or updated where the request does that. -/
def saveCustomer (s : OrderingSystem) (body : OrderingBody) (intent : OrderIntent) (policy : Option SyntheticPolicy)
    (customerId : CustomerId) (currentMonth : String) : Option CustomerId → Option (OrderingSystem × CustomerId)
  | none =>
    if (s.db.customers.find customerId).isSome then none
    else some (s.putCustomer (newCustomer S customerId body.contact) (newColumns S body policy.isSome currentMonth),
      customerId)
  | some id => match s.db.customers.find id with
    | none => none
    | some c => match intent with
      | .create .. => some (s,id)
      | .edit existingOrder _ =>
        some (s.putCustomer (orderCustomer S body.contact c) (editColumns S body existingOrder (s.columns id)),id)

def saveOrder (s : OrderingSystem) (body : OrderingBody) (policy : Option SyntheticPolicy) (customerId : CustomerId)
    (orderId : OrderId) (currentMonth : String) : OrderIntent → Option OrderingSystem
  | .create input _ _ =>
    if (s.db.other.orders.find orderId).isSome then none
    else
      let redeemed := redeemColumns input.content.orderSource currentMonth (s.columns customerId)
      let saved := (s.putColumns customerId (addressColumns body redeemed)).putOrder
        (committedRows S orderId customerId body input policy.isSome s.now)
      match policy with
      | none => some saved
      | some p => some (saved.record (countSyntheticOrder p customerId) (.created orderId))
  | .edit existingOrder details => match s.db.other.orders.find existingOrder.id with
    | none => none
    | some r =>
      -- the trigger of a retained record
      if r.order.privacyErasedAt.isSome then none
      else some (s.putOrder
        ((RowWrite.details existingOrder (orderDetails S customerId body.contact details) body.items).apply r))

def writeUpdate (s : OrderingSystem) (id : OrderId) (u : GuardedUpdate) (assignable : Bool) : OrderingSystem :=
  match s.db.other.orders.find id with
  | none => s
  | some r =>
    if (u.locksDriver.isSome → assignable = true) ∧ Updatable u.guard r.order then
      s.putOrder ((RowWrite.order u.data).apply r)
    else s

def step (s : OrderingSystem) : OrderingAction → Option OrderingSystem
  | .tick elapsed => some { s with now := s.now + elapsed }
  | .createOrder request body input required matchedCustomer =>
    if (s.requests request).isSome ∨ ¬ phoneAccepted (trim body.customerPhone) then none
    else match parseSyntheticPolicy T s.setting >>= (classify T · body.toSyntheticProfile required s.now) with
    | .error _ => none
    | .ok _ =>
      if s.db.lookup body.customerPhone matchedCustomer then
        some (s.await request (.waiting body (.create input required matchedCustomer)))
      else none
  | .editOrder request id body details =>
    if (s.requests request).isSome ∨ ¬ phoneAccepted (trim body.customerPhone) then none
    else match updateOrderDetails ((s.db.other.orders.find id).map (·.order)) with
    | .error _ => none
    | .ok existingOrder => some (s.await request (.waiting body (.edit existingOrder details)))
  | .allow request => match s.requests request with
    | some (.waiting body intent) =>
      if s.privacyLock.isSome then none
      else match assertPrivacyOrderAllowed S s.db (phoneDigits body.customerPhone) with
      | .error _ => some (s.close request)
      | .ok _ => some { s.await request (.allowed body intent) with privacyLock := some request }
    | _ => none
  | .reserve request => match s.requests request with
    | some (.allowed body intent) =>
      if s.policyLock.isSome then none
      else match intent with
      | .create _ required _ =>
        match reserveSyntheticOrder T s.setting s.db s.columns body.toSyntheticProfile required s.now with
        | .error _ => some (s.close request)
        | .ok policy => some { s.await request (.reserved body intent policy) with policyLock := some request }
      | .edit .. =>
        match assertOrdinaryOrderContact T s.setting body.toSyntheticProfile s.now with
        | .error _ => some (s.close request)
        | .ok _ => some { s.await request (.reserved body intent none) with policyLock := some request }
    | _ => none
  | .findCustomer request customer => match s.requests request with
    | some (.reserved body (.create input required matchedCustomer) policy) =>
      some (s.await request (.found body (.create input required matchedCustomer) policy
        (creationCustomer policy matchedCustomer)))
    | some (.reserved body intent policy) =>
      if s.db.lookup body.customerPhone customer then some (s.await request (.found body intent policy customer))
      else none
    | _ => none
  | .save request customerId orderId currentMonth => match s.requests request with
    | some (.found body intent policy customer) => do
      let (saved,customerId) ← s.saveCustomer S body intent policy customerId currentMonth customer
      let saved ← saved.saveOrder S body policy customerId orderId currentMonth intent
      some (saved.close request)
    | _ => none
  | .rollback request => some (s.close request)
  | .requestEnrollment request actor input =>
    if (s.requests request).isSome then none
    else match SpeedySweeties.requestEnrollment T actor input s.now with
    | .error _ => none
    | .ok p => some (s.await request (.enrolling input.profile p))
  | .enroll request => match s.requests request with
    | some (.enrolling profile p) =>
      if s.policyLock.isSome then none
      else match enrollSyntheticProfile T s.setting s.db profile p s.now with
      | .error _ => some (s.close request)
      | .ok p => some ((s.record p (.enrolled p)).close request)
    | _ => none
  | .closeProfile actor =>
    if s.policyLock.isSome then none
    else match closeSyntheticProfile T s.setting actor with
    | .error _ => none
    | .ok p => some (s.record p .closed)
  | .claimEmail request customerId channel destination =>
    if (s.requests request).isSome ∨ s.policyLock.isSome then none
    else match claimSyntheticEmail T s.setting customerId channel destination s.now with
    | .error _ | .ok none => none
    | .ok (some p) => some { s.await request (.claiming p) with policyLock := some request }
  | .commitClaim request => match s.requests request with
    | some (.claiming p) => some ((s.record (claimedEmail p) .claimed).close request)
    | _ => none
  | .handle request id handler =>
    if (s.requests request).isSome then none
    else some (s.await request (.handling id handler ((s.db.other.orders.find id).map (·.order))))
  | .decide request driver receipt => match s.requests request with
    | some (.handling id handler order) => match handler.decide order driver receipt s.now with
      | none => none
      | some (.reply _) => some (s.close request)
      | some (.update u) => some (s.await request (.updating id u))
    | _ => none
  | .write request assignable => match s.requests request with
    | some (.updating id u) => some ((s.writeUpdate id u assignable).close request)
    | _ => none
  | .autoDispatch id selected => match s.db.other.orders.find id with
    | none => none
    | some r => match autoDispatchTransaction r.order selected s.now with
      | .error _ => none
      | .ok data =>
        if r.order.privacyErasedAt.isSome then none else some (s.putOrder ((RowWrite.order data).apply r))

abbrev Reachable (db : PrivacyDb) (columns : CustomerId → CustomerColumns) (setting : Option SyntheticPolicy) (now : Time) :
    OrderingSystem → Prop :=
  Transition.Reachable (step S T) (initial db columns setting now)

/-! ### What a step can do -/

/-- The requests that start outside a transaction. -/
def starts (T : SyntheticService) (s : OrderingSystem) : OrderingRequest → Prop
  | .waiting .. | .handling .. => True
  | .enrolling profile p => ∃ actor input, SpeedySweeties.requestEnrollment T actor input s.now = .ok p ∧
    input.profile = profile
  | _ => False

inductive OrderingStep (s : OrderingSystem) (a : OrderingAction) : OrderingSystem → Prop where
  | clock (elapsed : Time) : OrderingStep s a { s with now := s.now + elapsed }
  | started {x r} (free : s.requests x = none) (begins : s.starts T r) : OrderingStep s a (s.await x r)
  | ended (x) : OrderingStep s a (s.close x)
  | allowed {x body intent} (held : s.requests x = some (.waiting body intent)) (free : s.privacyLock = none) :
      OrderingStep s a { s.await x (.allowed body intent) with privacyLock := some x }
  | reserved {x body input required matchedCustomer policy} (action : a = .reserve x)
      (held : s.requests x = some (.allowed body (.create input required matchedCustomer))) (free : s.policyLock = none)
      (ok : reserveSyntheticOrder T s.setting s.db s.columns body.toSyntheticProfile required s.now = .ok policy) :
      OrderingStep s a { s.await x (.reserved body (.create input required matchedCustomer) policy) with policyLock := some x }
  | ordinary {x body existingOrder details} (held : s.requests x = some (.allowed body (.edit existingOrder details)))
      (free : s.policyLock = none) :
      OrderingStep s a { s.await x (.reserved body (.edit existingOrder details) none) with policyLock := some x }
  | matched {x body input required matchedCustomer policy}
      (held : s.requests x = some (.reserved body (.create input required matchedCustomer) policy)) :
      OrderingStep s a (s.await x (.found body (.create input required matchedCustomer) policy
        (creationCustomer policy matchedCustomer)))
  | lookedUp {x body existingOrder details policy customer}
      (held : s.requests x = some (.reserved body (.edit existingOrder details) policy))
      (found : s.db.lookup body.customerPhone customer = true) :
      OrderingStep s a (s.await x (.found body (.edit existingOrder details) policy customer))
  | saved {x body intent policy customer customerId orderId currentMonth u id t}
      (held : s.requests x = some (.found body intent policy customer))
      (customerSaved : s.saveCustomer S body intent policy customerId currentMonth customer = some (u,id))
      (orderSaved : u.saveOrder S body policy id orderId currentMonth intent = some t) : OrderingStep s a (t.close x)
  | enrolled {x profile p q} (held : s.requests x = some (.enrolling profile p)) (free : s.policyLock = none)
      (ok : enrollSyntheticProfile T s.setting s.db profile p s.now = .ok q) :
      OrderingStep s a ((s.record q (.enrolled q)).close x)
  | closed {actor p} (free : s.policyLock = none) (ok : closeSyntheticProfile T s.setting actor = .ok p) :
      OrderingStep s a (s.record p .closed)
  | claiming {x customerId channel destination p} (fresh : s.requests x = none) (free : s.policyLock = none)
      (ok : claimSyntheticEmail T s.setting customerId channel destination s.now = .ok (some p)) :
      OrderingStep s a { s.await x (.claiming p) with policyLock := some x }
  | claimed {x p} (held : s.requests x = some (.claiming p)) :
      OrderingStep s a ((s.record (claimedEmail p) .claimed).close x)
  | decided {x id handler order driver receipt u} (held : s.requests x = some (.handling id handler order))
      (ok : handler.decide order driver receipt s.now = some (.update u)) : OrderingStep s a (s.await x (.updating id u))
  | written {x id u r} (held : s.requests x = some (.updating id u)) (row : s.db.other.orders.find id = some r)
      (updatable : Updatable u.guard r.order) :
      OrderingStep s a ((s.putOrder ((RowWrite.order u.data).apply r)).close x)
  | dispatched {id selected r data} (row : s.db.other.orders.find id = some r)
      (ok : autoDispatchTransaction r.order selected s.now = .ok data) :
      OrderingStep s a (s.putOrder ((RowWrite.order data).apply r))

variable {S T} {s t : OrderingSystem} {a : OrderingAction}

theorem stepCases (taken : step S T s a = some t) : OrderingStep S T s a t := by
  cases a with
  | tick elapsed =>
    cases taken
    exact .clock elapsed
  | createOrder request body input required matchedCustomer =>
    simp only [step] at taken
    split at taken
    · contradiction
    rename_i free
    split at taken
    · contradiction
    split at taken
    · cases taken
      exact .started (by simpa using (not_or.mp free).1) trivial
    · contradiction
  | editOrder request id body details =>
    simp only [step] at taken
    split at taken
    · contradiction
    rename_i free
    split at taken
    · contradiction
    · cases taken
      exact .started (by simpa using (not_or.mp free).1) trivial
  | allow request =>
    simp only [step] at taken
    split at taken
    · rename_i body intent held
      split at taken
      · contradiction
      rename_i free
      split at taken
      · cases taken
        exact .ended request
      · cases taken
        exact .allowed held (by simpa using free)
    · contradiction
  | reserve request =>
    simp only [step] at taken
    split at taken
    · rename_i body intent held
      split at taken
      · contradiction
      rename_i free
      split at taken
      · split at taken
        · cases taken
          exact .ended request
        · rename_i ok
          cases taken
          exact .reserved rfl held (by simpa using free) ok
      · split at taken
        · cases taken
          exact .ended request
        · cases taken
          exact .ordinary held (by simpa using free)
    · contradiction
  | findCustomer request customer =>
    simp only [step] at taken
    split at taken
    · rename_i held
      cases taken
      exact .matched held
    · rename_i body intent policy other held
      split at taken
      · rename_i found
        cases taken
        cases intent with
        | create input required matchedCustomer => exact absurd rfl (other input required matchedCustomer)
        | edit existingOrder details => exact .lookedUp held found
      · contradiction
    · contradiction
  | save request customerId orderId currentMonth =>
    simp only [step] at taken
    split at taken
    · rename_i held
      simp only [bind,Option.bind_eq_some_iff] at taken
      obtain ⟨⟨u,id⟩,customerSaved,v,orderSaved,last⟩ := taken
      cases last
      exact .saved held customerSaved orderSaved
    · contradiction
  | rollback request =>
    cases taken
    exact .ended request
  | requestEnrollment request actor input =>
    simp only [step] at taken
    split at taken
    · contradiction
    rename_i free
    split at taken
    · contradiction
    · rename_i ok
      cases taken
      exact .started (by simpa using free) ⟨actor,input,ok,rfl⟩
  | enroll request =>
    simp only [step] at taken
    split at taken
    · rename_i held
      split at taken
      · contradiction
      rename_i free
      split at taken
      · cases taken
        exact .ended request
      · rename_i ok
        cases taken
        exact .enrolled held (by simpa using free) ok
    · contradiction
  | closeProfile actor =>
    simp only [step] at taken
    split at taken
    · contradiction
    rename_i free
    split at taken
    · contradiction
    · rename_i ok
      cases taken
      exact .closed (by simpa using free) ok
  | claimEmail request customerId channel destination =>
    simp only [step] at taken
    split at taken
    · contradiction
    rename_i free
    obtain ⟨fresh,unlocked⟩ := not_or.mp free
    split at taken
    · contradiction
    · contradiction
    · rename_i ok
      cases taken
      exact .claiming (by simpa using fresh) (by simpa using unlocked) ok
  | commitClaim request =>
    simp only [step] at taken
    split at taken
    · rename_i held
      cases taken
      exact .claimed held
    · contradiction
  | handle request id handler =>
    simp only [step] at taken
    split at taken
    · contradiction
    · rename_i free
      cases taken
      exact .started (by simpa using free) trivial
  | decide request driver receipt =>
    simp only [step] at taken
    split at taken
    · rename_i held
      split at taken
      · contradiction
      · cases taken
        exact .ended request
      · rename_i ok
        cases taken
        exact .decided held ok
    · contradiction
  | write request assignable =>
    simp only [step] at taken
    split at taken
    · rename_i held
      cases taken
      unfold writeUpdate
      split
      · exact .ended request
      · rename_i row
        split
        · rename_i ready
          exact .written held row ready.2
        · exact .ended request
    · contradiction
  | autoDispatch id selected =>
    simp only [step] at taken
    split at taken
    · contradiction
    rename_i row
    split at taken
    · contradiction
    rename_i ok
    split at taken
    · contradiction
    · cases taken
      exact .dispatched row ok

end OrderingSystem

/-! ### A sample configuration -/

def sampleDigest (value : String) : Nat := value.toList.foldl (fun h c => (31*h + c.toNat)%10^9) 7

def sampleSynthetic : SyntheticService where
  digestKey := "0123456789abcdef0123456789abcdef"
  hmac _ value := String.ofList (((toString (10^63 + sampleDigest value)).toList.take 64))
  stringify := fun values => "|".intercalate values
  toLowerCase text := String.ofList (text.toList.map Char.toLower)
  adminUserIds := ["admin"]

def sampleProfile : SyntheticProfile where
  customerName := "Reviewer"
  customerPhone := "519 555 0117"
  customerEmail := "SpeedySweeties@hotmail.com"
  addressLine1 := "1 Test Street"
  city := "Guelph"
  province := "ON"
  unitNumber := none
  buzzCode := none

def sampleColumns : CustomerColumns where
  toLoyaltyCustomer := newLoyaltyCustomer none
  fullName := "Jo"
  phone := "416 555 0100"
  email := some "jo@example.com"
  addressLine1 := "2 Main Street"
  unitNumber := none
  buzzCode := none
  city := "Guelph"
  province := "ON"
  smsMarketingOptOut := false

end SpeedySweeties
