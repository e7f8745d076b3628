import SpeedySweeties.Library.Exclusive
import SpeedySweeties.Order.Lifecycle
import SpeedySweeties.Order.Ordering

/-! The budget of a synthetic policy. Its counters are rewritten as whole values that a
transaction has read under the policy lock, so what it read is still the row when it
commits; a cancelled order is out of reach of every dispatch decision. -/
namespace SpeedySweeties

def PolicyEvent.enrolls : PolicyEvent → Bool
  | .enrolled _ => true
  | _ => false

def PolicyEvent.order : PolicyEvent → Option OrderId
  | .created id => some id
  | _ => none

def createdOrders (history : List PolicyEvent) : List OrderId := history.filterMap PolicyEvent.order

/-- What the policy row says of the commits under it. -/
structure PolicyLedger (history : List PolicyEvent) (p : SyntheticPolicy) : Prop where
  orders : p.ordersCreated = (createdOrders history).length ∧ p.ordersCreated ≤ p.maxOrders
  emails : p.emailsClaimed = history.count .claimed ∧ p.emailsClaimed ≤ p.maxEmails
  enrolled : ∃ first, history.filter PolicyEvent.enrolls = [.enrolled first] ∧ p.toSyntheticTerms = first.toSyntheticTerms
  closed : p.state = .closed ↔ .closed ∈ history
  /-- After a close nothing but another close commits. -/
  ended : history.Pairwise fun later earlier => earlier = .closed → later = .closed

def Undispatchable (o : Order) : Prop := o.orderStatus = .cancelled ∧ o.assignedDriverId = none

structure WithinBudget (setting : Option SyntheticPolicy) (orders : Table OrderRows OrderRows.id)
    (history : List PolicyEvent) : Prop where
  unenrolled : setting = none → history = []
  ledger : ∀ p, setting = some p → PolicyLedger history p
  distinct : (createdOrders history).Nodup
  cancelled : ∀ id ∈ createdOrders history, ∃ r, orders.find id = some r ∧ Undispatchable r.order

/-! ### The writes of the policy row -/

namespace PolicyLedger
variable {history : List PolicyEvent} {p : SyntheticPolicy}

theorem enroll (active : p.state = .active) (orders : p.ordersCreated = 0) (emails : p.emailsClaimed = 0) :
    PolicyLedger [.enrolled p] p where
  orders := ⟨orders,orders ▸ Nat.zero_le _⟩
  emails := by simp [emails]
  enrolled := ⟨p,rfl,rfl⟩
  closed := by simp [active]
  ended := List.pairwise_singleton ..

theorem noClose (h : PolicyLedger history p) (active : p.state = .active) : .closed ∉ history :=
  fun mem => by simpa [active] using h.closed.mpr mem

theorem spend {event : PolicyEvent} (h : PolicyLedger history p) (active : p.state = .active) :
    (event::history).Pairwise fun later earlier => earlier = .closed → later = .closed :=
  List.pairwise_cons.mpr ⟨fun _ mem same => absurd (same ▸ mem) (h.noClose active),h.ended⟩

theorem create {id : OrderId} {customerId : CustomerId} (h : PolicyLedger history p) (active : p.state = .active)
    (within : p.ordersCreated < p.maxOrders) : PolicyLedger (.created id::history) (countSyntheticOrder p customerId) where
  orders := by
    have counted := h.orders.1
    simp only [createdOrders] at counted
    exact ⟨by simp [createdOrders,countSyntheticOrder,PolicyEvent.order,counted],within⟩
  emails := by simpa [countSyntheticOrder] using h.emails
  enrolled := h.enrolled
  closed := by simpa [countSyntheticOrder] using h.closed
  ended := h.spend active

theorem claim (h : PolicyLedger history p) (active : p.state = .active) (within : p.emailsClaimed < p.maxEmails) :
    PolicyLedger (.claimed::history) (claimedEmail p) where
  orders := h.orders
  emails := ⟨by simp [claimedEmail,h.emails.1],within⟩
  enrolled := h.enrolled
  closed := by simpa [claimedEmail] using h.closed
  ended := h.spend active

theorem close (h : PolicyLedger history p) : PolicyLedger (.closed::history) { p with state := .closed } where
  orders := h.orders
  emails := by simpa using h.emails
  enrolled := h.enrolled
  closed := by simp
  ended := List.pairwise_cons.mpr ⟨fun _ _ _ => rfl,h.ended⟩

end PolicyLedger

/-! ### What the decisions on the policy have checked -/

variable {δ : Type} {S : PrivacyService δ} {T : SyntheticService} {db : PrivacyDb} {columns : CustomerId → CustomerColumns}
  {setting : Option SyntheticPolicy} {p : SyntheticPolicy} {now : Time}

theorem stopUnlessOk {condition : Bool} {status : Nat} {u : Unit} :
    stopUnless condition status = .ok u ↔ condition = true := by
  unfold stopUnless
  split <;> simp_all

theorem parseSource {found : Option SyntheticPolicy} (ok : parseSyntheticPolicy T setting = .ok found) :
    found = setting := by
  cases setting with
  | none =>
    cases ok
    rfl
  | some p =>
    simp only [parseSyntheticPolicy,bindOk] at ok
    obtain ⟨_,_,_,_,_,_,same⟩ := ok
    cases same
    rfl

theorem classifySource {profile : SyntheticProfile} {required : Bool}
    (ok : classify T setting profile required now = .ok (some p)) :
    setting = some p ∧ p.state = .active ∧ p.ordersCreated < p.maxOrders := by
  unfold classify at ok
  split at ok
  · split at ok <;> cases ok
  · simp only [bindOk] at ok
    obtain ⟨_,_,_,_,ok⟩ := ok
    split at ok
    · split at ok <;> cases ok
    · simp only [bindOk,stopUnlessOk,pureOk] at ok
      obtain ⟨_,_,_,accepted,same⟩ := ok
      cases same
      simp only [Bool.and_eq_true,decide_eq_true_eq] at accepted
      exact ⟨rfl,accepted.1.1.2,accepted.2⟩

theorem reserveSource {profile : SyntheticProfile} {required : Bool}
    (ok : reserveSyntheticOrder T setting db columns profile required now = .ok (some p)) :
    setting = some p ∧ p.state = .active ∧ p.ordersCreated < p.maxOrders := by
  simp only [reserveSyntheticOrder,bindOk] at ok
  obtain ⟨policy,parsed,chosen,classified,ok⟩ := ok
  cases chosen with
  | none => cases ok
  | some q =>
    have source := classifySource classified
    rw [parseSource parsed] at source
    simp only [] at ok
    cases customer : q.customerId with
    | none =>
      simp only [customer,bindOk,pureOk] at ok
      obtain ⟨_,_,same⟩ := ok
      cases same
      exact source
    | some customerId =>
      simp only [customer,bindOk,pureOk] at ok
      obtain ⟨_,_,_,_,_,_,_,_,same⟩ := ok
      cases same
      exact source

theorem claimSource {customerId : CustomerId} {channel : VerificationChannel} {destination : String}
    (ok : claimSyntheticEmail T setting customerId channel destination now = .ok (some p)) :
    setting = some p ∧ p.state = .active ∧ p.emailsClaimed < p.maxEmails := by
  simp only [claimSyntheticEmail,bindOk] at ok
  obtain ⟨policy,parsed,ok⟩ := ok
  cases parseSource parsed
  split at ok
  · cases ok
  · split at ok
    · cases ok
    · simp only [bindOk,stopUnlessOk,pureOk] at ok
      obtain ⟨_,_,_,accepted,same⟩ := ok
      cases same
      simp only [Bool.and_eq_true,decide_eq_true_eq] at accepted
      exact ⟨rfl,accepted.1.1.1.1,accepted.2⟩

theorem requestEnrollmentSource {actor : Option (UserId × UserRole)} {input : EnrollmentInput}
    (ok : requestEnrollment T actor input now = .ok p) :
    p.state = .active ∧ p.ordersCreated = 0 ∧ p.emailsClaimed = 0 := by
  simp only [requestEnrollment,bindOk] at ok
  obtain ⟨_,_,_,_,ok⟩ := ok
  split at ok
  · simp only [bindOk,pureOk] at ok
    obtain ⟨_,_,_,_,same⟩ := ok
    cases same
    exact ⟨rfl,rfl,rfl⟩
  · cases ok

theorem enrollSource {profile : SyntheticProfile} {q : SyntheticPolicy}
    (ok : enrollSyntheticProfile T setting db profile p now = .ok q) : setting = none ∧ q = p := by
  simp only [enrollSyntheticProfile,bindOk,stopUnlessOk,pureOk] at ok
  obtain ⟨policy,parsed,_,unset,_,_,_,_,same⟩ := ok
  rw [← parseSource parsed]
  exact ⟨by simpa using unset,same.symm⟩

theorem closeSource {actor : Option (UserId × UserRole)} (ok : closeSyntheticProfile T setting actor = .ok p) :
    ∃ before, setting = some before ∧ p = { before with state := .closed } := by
  simp only [closeSyntheticProfile,bindOk] at ok
  obtain ⟨_,_,policy,parsed,ok⟩ := ok
  cases parseSource parsed
  split at ok
  · cases ok
  · cases ok
    exact ⟨_,rfl,rfl⟩

namespace WithinBudget
variable {orders : Table OrderRows OrderRows.id} {history : List PolicyEvent}

theorem putOrder {r : OrderRows} (h : WithinBudget setting orders history)
    (kept : ∀ before, orders.find r.id = some before → Undispatchable before.order → Undispatchable r.order) :
    WithinBudget setting (orders.put r) history where
  unenrolled := h.unenrolled
  ledger := h.ledger
  distinct := h.distinct
  cancelled id mem := by
    obtain ⟨before,row,undispatchable⟩ := h.cancelled id mem
    rw [Table.find_put]
    split
    · rename_i same
      exact ⟨r,rfl,kept before (same ▸ row) undispatchable⟩
    · exact ⟨before,row,undispatchable⟩

theorem fresh {id : OrderId} (h : WithinBudget setting orders history) (absent : orders.find id = none) :
    id ∉ createdOrders history := by
  intro mem
  obtain ⟨r,row,_⟩ := h.cancelled id mem
  rw [absent] at row
  contradiction

/-- The row of a new synthetic order is closed before anybody sees it. -/
theorem create {r : OrderRows} {customerId : CustomerId} (h : WithinBudget (some p) orders history)
    (absent : orders.find r.id = none) (closed : Undispatchable r.order) (active : p.state = .active)
    (within : p.ordersCreated < p.maxOrders) :
    WithinBudget (some (countSyntheticOrder p customerId)) (orders.put r) (.created r.id::history) where
  unenrolled := nofun
  ledger := by
    rintro q ⟨⟩
    exact (h.ledger p rfl).create active within
  distinct := List.nodup_cons.mpr ⟨h.fresh absent,h.distinct⟩
  cancelled id mem := by
    rcases List.mem_cons.mp mem with rfl | old
    · exact ⟨r,Table.find_put_self ..,closed⟩
    · obtain ⟨before,row,undispatchable⟩ := h.cancelled id old
      have differ : id ≠ r.id := by
        rintro rfl
        exact h.fresh absent old
      exact ⟨before,by rwa [Table.find_put_other differ],undispatchable⟩

end WithinBudget

/-- How the policy row of an earlier state relates to a later one. -/
def PolicyKept (earlier later : Option SyntheticPolicy) : Prop :=
  ∀ p, earlier = some p → ∃ q, later = some q ∧ q.toSyntheticTerms = p.toSyntheticTerms ∧ (p.state = .closed → q = p)

namespace PolicyKept
variable {earlier later last : Option SyntheticPolicy}

theorem refl : PolicyKept setting setting := fun p found => ⟨p,found,rfl,fun _ => rfl⟩

theorem trans (h : PolicyKept earlier later) (next : PolicyKept later last) : PolicyKept earlier last := by
  intro p found
  obtain ⟨q,between,terms,closed⟩ := h p found
  obtain ⟨r,found,laterTerms,laterClosed⟩ := next q between
  refine ⟨r,found,laterTerms.trans terms,fun ended => ?_⟩
  cases closed ended
  exact laterClosed ended

theorem active {q : SyntheticPolicy} (current : earlier = some p) (active : p.state = .active)
    (terms : q.toSyntheticTerms = p.toSyntheticTerms) : PolicyKept earlier (some q) := by
  intro r found
  cases Option.some.inj (current.symm.trans found)
  exact ⟨q,rfl,terms,fun closed => by simp [active] at closed⟩

end PolicyKept

/-! ### The requests in flight -/

namespace OrderingRequest

def holdsPolicy : OrderingRequest → Bool
  | .reserved .. | .found .. | .claiming _ => true
  | _ => false

/-- What a request relies on at its next write. -/
def Ready (setting : Option SyntheticPolicy) : OrderingRequest → Prop
  | .reserved _ _ (some p) | .found _ _ (some p) _ =>
    setting = some p ∧ p.state = .active ∧ p.ordersCreated < p.maxOrders
  | .claiming p => setting = some p ∧ p.state = .active ∧ p.emailsClaimed < p.maxEmails
  | .enrolling _ p => p.state = .active ∧ p.ordersCreated = 0 ∧ p.emailsClaimed = 0
  | .updating _ u => ∃ status, u.guard.orderStatus = some status ∧ status.final = false
  | _ => True

theorem Ready.unlocked {r : OrderingRequest} {other : Option SyntheticPolicy} (h : r.Ready setting)
    (without : r.holdsPolicy = false) : r.Ready other := by
  cases r with
  | reserved | found | claiming => contradiction
  | _ => exact h

end OrderingRequest

namespace OrderingSystem
variable {s t : OrderingSystem} {a : OrderingAction} {x : RequestId} {r : OrderingRequest}

structure BudgetSound (s : OrderingSystem) : Prop where
  budget : WithinBudget s.setting s.db.other.orders s.history
  held : Exclusive OrderingRequest.holdsPolicy (OrderingRequest.Ready s.setting) s.requests s.policyLock

theorem BudgetSound.await (h : BudgetSound s) (ready : r.Ready s.setting)
    (locked : r.holdsPolicy = true → s.policyLock = some x) : BudgetSound (s.await x r) :=
  ⟨h.budget,h.held.await ready locked⟩

theorem BudgetSound.take (h : BudgetSound s) (free : s.policyLock = none) (ready : r.Ready s.setting) :
    BudgetSound { s.await x r with policyLock := some x } :=
  ⟨h.budget,h.held.take free ready⟩

theorem BudgetSound.commit {setting : Option SyntheticPolicy} {columns : CustomerId → CustomerColumns}
    {history : List PolicyEvent} (h : BudgetSound s) (db : PrivacyDb) (owner : ∀ y, s.policyLock = some y → y = x)
    (budget : WithinBudget setting db.other.orders history) :
    BudgetSound ({ s with db, columns, setting, history }.close x) :=
  ⟨budget,h.held.commit owner fun _ without ready => ready.unlocked without⟩

theorem saveCustomerSource {body : OrderingBody} {intent : OrderIntent} {policy : Option SyntheticPolicy}
    {customerId id : CustomerId} {currentMonth : String} {customer : Option CustomerId}
    (done : s.saveCustomer S body intent policy customerId currentMonth customer = some (t,id)) :
    ∃ customers columns, t = { s with db := { s.db with customers }, columns } := by
  unfold saveCustomer at done
  split at done
  · split at done
    · contradiction
    · cases done
      exact ⟨_,_,rfl⟩
  · split at done
    · contradiction
    · split at done
      · cases done
        exact ⟨s.db.customers,s.columns,rfl⟩
      · cases done
        exact ⟨_,_,rfl⟩

theorem saveOrderBudget {u : OrderingSystem} {body : OrderingBody} {intent : OrderIntent} {policy : Option SyntheticPolicy}
    {customerId : CustomerId} {customer : Option CustomerId} {orderId : OrderId} {currentMonth : String}
    (budget : WithinBudget u.setting u.db.other.orders u.history)
    (ready : (OrderingRequest.found body intent policy customer).Ready u.setting)
    (done : u.saveOrder S body policy customerId orderId currentMonth intent = some t) :
    ∃ db columns setting history, t = { u with db, columns, setting, history } ∧
      WithinBudget setting db.other.orders history ∧ PolicyKept u.setting setting := by
  unfold saveOrder at done
  split at done
  · rename_i input _ _
    split at done
    · contradiction
    rename_i absent
    have absent : u.db.other.orders.find orderId = none := by simpa using absent
    split at done
    · cases done
      refine ⟨_,_,_,_,rfl,budget.putOrder fun before row _ => ?_,.refl⟩
      rw [show OrderRows.id _ = orderId from rfl,absent] at row
      contradiction
    · rename_i p
      cases done
      obtain ⟨current,active,within⟩ := ready
      rw [current] at budget
      exact ⟨_,_,_,_,rfl,budget.create (r := committedRows S orderId customerId body input true u.now) absent ⟨rfl,rfl⟩
        active within,.active current active rfl⟩
  · split at done
    · contradiction
    rename_i r row
    split at done
    · contradiction
    cases done
    refine ⟨_,_,_,_,rfl,budget.putOrder fun before found undispatchable => ?_,.refl⟩
    have same : before = r := Option.some.inj (found.symm.trans (Table.find_self row))
    exact same ▸ undispatchable

theorem BudgetSound.saved {body : OrderingBody} {intent : OrderIntent} {policy : Option SyntheticPolicy}
    {customer : Option CustomerId} {customerId id : CustomerId} {orderId : OrderId} {currentMonth : String}
    {u : OrderingSystem} (h : BudgetSound s) (held : s.requests x = some (.found body intent policy customer))
    (customerSaved : s.saveCustomer S body intent policy customerId currentMonth customer = some (u,id))
    (orderSaved : u.saveOrder S body policy id orderId currentMonth intent = some t) : BudgetSound (t.close x) := by
  obtain ⟨customers,columns,rfl⟩ := saveCustomerSource customerSaved
  obtain ⟨db,columns,setting,history,rfl,budget,_⟩ := saveOrderBudget
    (u := { s with db := { s.db with customers }, columns }) h.budget (h.held.ready x _ held) orderSaved
  exact h.commit db (fun _ owner => Option.some.inj (owner.symm.trans (h.held.locked x _ held rfl))) budget

theorem autoDispatchPlaced {o : Order} {selected : Option UserId} {allocationTime : Time} {data : OrderData}
    (ok : autoDispatchTransaction o selected allocationTime = .ok data) : o.orderStatus = .placed := by
  unfold autoDispatchTransaction at ok
  split at ok
  · cases ok
  · rename_i placed
    exact (not_not.mp (not_or.mp placed).1)

theorem operationalDispatchable {o : Order} (operational : o.orderStatus.final = false) : ¬ Undispatchable o := by
  rintro ⟨cancelled,_⟩
  simp [cancelled,OrderStatus.final] at operational

theorem BudgetSound.putOrder {id : OrderId} {r : OrderRows} (h : BudgetSound s) (after : OrderRows)
    (row : s.db.other.orders.find id = some r) (dispatchable : ¬ Undispatchable r.order) (same : after.id = r.id) :
    BudgetSound (s.putOrder after) where
  budget := h.budget.putOrder fun before found undispatchable => by
    rw [same] at found
    exact absurd (Option.some.inj (found.symm.trans (Table.find_self row)) ▸ undispatchable) dispatchable
  held := h.held

theorem budgetStep (h : BudgetSound s) (step : OrderingStep S T s a t) : BudgetSound t := by
  cases step with
  | clock elapsed => exact ⟨h.budget,h.held⟩
  | @started x r free begins =>
    cases r with
    | waiting | handling => exact h.await trivial nofun
    | enrolling profile p =>
      obtain ⟨actor,input,ok,_⟩ := begins
      exact h.await (requestEnrollmentSource ok) nofun
    | _ => exact begins.elim
  | ended x => exact ⟨h.budget,h.held.close⟩
  | @allowed x body intent held free =>
    exact ⟨h.budget,h.held.await trivial nofun⟩
  | @reserved x body input required matchedCustomer policy _ held free ok =>
    refine h.take free ?_
    cases policy with
    | none => trivial
    | some p => exact reserveSource ok
  | ordinary held free => exact h.take free trivial
  | @matched x body input required matchedCustomer policy held =>
    refine h.await ?_ fun _ => h.held.locked x _ held rfl
    have ready := h.held.ready x _ held
    cases policy with
    | none => trivial
    | some p => exact ready
  | @lookedUp x body existingOrder details policy customer held found =>
    refine h.await ?_ fun _ => h.held.locked x _ held rfl
    have ready := h.held.ready x _ held
    cases policy with
    | none => trivial
    | some p => exact ready
  | saved held customerSaved orderSaved => exact h.saved held customerSaved orderSaved
  | @enrolled x profile p q held free ok =>
    obtain ⟨unset,rfl⟩ := enrollSource ok
    obtain ⟨active,orders,emails⟩ := h.held.ready x _ held
    refine h.commit s.db (fun y owner => by simp [free] at owner) ?_
    rw [h.budget.unenrolled unset]
    refine ⟨nofun,?_,List.nodup_nil,nofun⟩
    rintro _ ⟨⟩
    exact .enroll active orders emails
  | @closed actor p free ok =>
    obtain ⟨before,current,rfl⟩ := closeSource ok
    refine ⟨⟨nofun,?_,h.budget.distinct,h.budget.cancelled⟩,
      h.held.rewrite free fun _ without ready => ready.unlocked without⟩
    rintro _ ⟨⟩
    exact (h.budget.ledger before current).close
  | @claiming x customerId channel destination p fresh free ok => exact h.take free (claimSource ok)
  | @claimed x p held =>
    obtain ⟨current,active,within⟩ := h.held.ready x _ held
    refine h.commit s.db (fun y owner => ?_) ?_
    · exact Option.some.inj (owner.symm.trans (h.held.locked x _ held rfl))
    · refine ⟨nofun,?_,h.budget.distinct,h.budget.cancelled⟩
      rintro _ ⟨⟩
      exact (h.budget.ledger p current).claim active within
  | @decided x id handler order driver receipt u held ok =>
    obtain ⟨o,_,source⟩ := decisionSource ok
    exact h.await ⟨o.orderStatus,decisionGuard source,decisionOperational source⟩ nofun
  | @written x id u r held row updatable =>
    obtain ⟨status,guarded,operational⟩ := h.held.ready x _ held
    have same : r.order.orderStatus = status := updatable.1.1 status guarded
    have put := h.putOrder ((RowWrite.order u.data).apply r) row (operationalDispatchable (same ▸ operational)) rfl
    exact ⟨put.budget,put.held.close⟩
  | @dispatched id selected r data row ok =>
    refine h.putOrder _ row (operationalDispatchable ?_) rfl
    rw [autoDispatchPlaced ok]
    rfl

theorem policyStep (h : BudgetSound s) (step : OrderingStep S T s a t) : PolicyKept s.setting t.setting := by
  cases step with
  | @saved x body intent policy customer customerId orderId currentMonth u id v held customerSaved orderSaved =>
    obtain ⟨customers,columns,rfl⟩ := saveCustomerSource customerSaved
    obtain ⟨_,_,_,_,rfl,_,kept⟩ := saveOrderBudget (u := { s with db := { s.db with customers }, columns }) h.budget
      (h.held.ready x _ held) orderSaved
    exact kept
  | enrolled held free ok =>
    intro p current
    rw [(enrollSource ok).1] at current
    contradiction
  | closed free ok =>
    obtain ⟨before,current,rfl⟩ := closeSource ok
    intro p found
    cases Option.some.inj (current.symm.trans found)
    exact ⟨_,rfl,rfl,fun closed => by rw [← closed]⟩
  | @claimed x p held =>
    obtain ⟨current,active,_⟩ := h.held.ready x _ held
    exact .active current active rfl
  | _ => exact .refl

/-! ### Whole runs -/

theorem budgetInitial {db : PrivacyDb} {columns : CustomerId → CustomerColumns} {now : Time} :
    BudgetSound (initial db columns none now) where
  budget := ⟨fun _ => rfl,fun _ unset => (nomatch unset),List.nodup_nil,fun _ mem => absurd mem List.not_mem_nil⟩
  held := .initial

theorem budgetReachable {db : PrivacyDb} {columns : CustomerId → CustomerColumns} {now : Time}
    (reached : Reachable S T db columns none now s) : BudgetSound s :=
  reached.invariant (I := BudgetSound) budgetInitial fun _ _ _ sound taken => budgetStep sound (stepCases taken)

theorem syntheticBudget {db : PrivacyDb} {columns : CustomerId → CustomerColumns} {now : Time}
    (reached : Reachable S T db columns none now s) : WithinBudget s.setting s.db.other.orders s.history ∧
      ∀ t, Transition.Reachable (step S T) s t → PolicyKept s.setting t.setting := by
  have sound := budgetReachable reached
  refine ⟨sound.budget,fun t later => ?_⟩
  refine (later.invariant (I := fun t => BudgetSound t ∧ PolicyKept s.setting t.setting) ⟨sound,.refl⟩ ?_).2
  rintro _ _ _ ⟨before,kept⟩ taken
  have step := stepCases taken
  exact ⟨budgetStep before step,kept.trans (policyStep before step)⟩

def syntheticRun : List OrderingAction :=
  [.requestEnrollment 0 (some ("admin",.admin)) ⟨sampleProfile,true,some 1000,some 2,some 1⟩,.enroll 0,
   .createOrder 1 ⟨sampleProfile,[]⟩ sampleOrder true none,.allow 1,.reserve 1,.findCustomer 1 none,
   .save 1 "reviewer" "synthetic" "2026-01",.claimEmail 2 "reviewer" .email "speedysweeties@hotmail.com",
   .commitClaim 2,.closeProfile (some ("admin",.admin))]

theorem syntheticRunWithin : ∃ s, Reachable sampleService sampleSynthetic verifiedDb (fun _ => sampleColumns) none 0 s ∧
    (WithinBudget s.setting s.db.other.orders s.history ∧ ∀ t,
      Transition.Reachable (step sampleService sampleSynthetic) s t → PolicyKept s.setting t.setting) ∧
    s.history.take 3 = [.closed,.claimed,.created "synthetic"] := by
  have ends : (Transition.run (step sampleService sampleSynthetic)
      (initial verifiedDb (fun _ => sampleColumns) none 0) syntheticRun).map (·.history.take 3) =
      some [.closed,.claimed,.created "synthetic"] := by decide +kernel
  obtain ⟨s,ran,history⟩ := Option.map_eq_some_iff.mp ends
  have reached := Transition.runReachable .start ran
  exact ⟨s,reached,syntheticBudget reached,history⟩

end OrderingSystem
end SpeedySweeties
