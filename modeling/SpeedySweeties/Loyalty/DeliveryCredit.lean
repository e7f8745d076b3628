import SpeedySweeties.Loyalty.Service
import SpeedySweeties.Order.Changes
import SpeedySweeties.Order.Lifecycle

/-! The loyalty credit of a delivery. The request that marks an order delivered
records the delivery in a second transaction, for the customer of the snapshot it
read; in between it can crash, and orders can be edited. The second transaction
holds the customer's row lock from start to end, so here it is one step. -/
namespace SpeedySweeties

structure Crediting where
  order : OrderId
  customerId : Option CustomerId
  orderSource : OrderSource
  /-- Ghost: the customer linked to the order when it became delivered. -/
  linked : Option CustomerId
  /-- Ghost: whether the link changed between the request's read and that moment. -/
  relinked : Bool
  deriving DecidableEq, Repr

structure Credit where
  customer : CustomerId
  delivery : Crediting
  deriving DecidableEq, Repr

structure CreditSystem where
  shop : System
  customers : CustomerId → Option LoyaltyCustomer
  crediting : RequestId → Option Crediting
  /-- The deliveries the ledger has recorded. -/
  credits : List Credit

inductive CreditAction where
  | order (action : Action)
  | credit (request : RequestId) (currentMonth : String)
  | crash (request : RequestId)
  | createCustomer (id : CustomerId) (month : Option String)
  | eraseCustomer (id : CustomerId)

def CreditSystem.initial (now : Time) : CreditSystem :=
  ⟨System.initial now,fun _ => none,fun _ => none,[]⟩

def System.delivered (s : System) (id : OrderId) : Bool :=
  (s.orders id).map (·.orderStatus) = some .delivered

/-- What a request still has to do after a write that delivered its order. -/
def deliveryOf (before after : System) (request : RequestId) : Option Crediting := do
  let p ← before.pending request
  let order ← p.order
  let updated ← after.orders p.id
  if ¬ before.delivered p.id ∧ after.delivered p.id then
    some ⟨p.id,order.customerId,order.orderSource,updated.customerId,
      (before.changes p.id).customer ≠ p.changes.customer⟩
  else none

/-- A process serves one request at a time: it reads again after it has credited. -/
def CreditSystem.busy (s : CreditSystem) : Action → Bool
  | .read request _ _ => (s.crediting request).isSome
  | _ => false

def CreditSystem.credit (s : CreditSystem) (request : RequestId) (c : Crediting)
    (currentMonth : String) : CreditSystem :=
  let done := { s with crediting := Function.update s.crediting request none }
  match c.customerId with
  | none => done
  | some customer =>
    let (row,result) := recordDeliveredOrderLoyalty (s.customers customer) c.orderSource currentMonth
    { done with
      customers := Function.update s.customers customer row
      credits := if result.progressIncreased then s.credits ++ [⟨customer,c⟩] else s.credits }

def CreditSystem.step (s : CreditSystem) : CreditAction → Option CreditSystem
  | .order action =>
    if s.busy action then none
    else do
      let shop ← s.shop.step action
      match action with
      | .write request _ =>
        match deliveryOf s.shop shop request with
        | some c => some { s with shop := shop, crediting := Function.update s.crediting request (some c) }
        | none => some { s with shop := shop }
      | _ => some { s with shop := shop }
  | .credit request currentMonth => do
    let c ← s.crediting request
    some (s.credit request c currentMonth)
  | .crash request =>
    some { s with shop := s.shop.close request, crediting := Function.update s.crediting request none }
  | .createCustomer id month =>
    if (s.customers id).isSome then none
    else some { s with customers := Function.update s.customers id (some (newLoyaltyCustomer month)) }
  | .eraseCustomer id => some { s with customers := Function.update s.customers id none }

abbrev CreditSystem.Reachable (start : Time) : CreditSystem → Prop :=
  Transition.Reachable CreditSystem.step (CreditSystem.initial start)

/-- Everything a step can do. -/
inductive CreditStep (s : CreditSystem) : CreditSystem → Prop where
  | moved {action shop} (step : s.shop.step action = some shop)
      (quiet : ∀ request assignable, action = .write request assignable →
        deliveryOf s.shop shop request = none) : CreditStep s { s with shop := shop }
  | opened {request assignable shop c} (step : s.shop.step (.write request assignable) = some shop)
      (found : deliveryOf s.shop shop request = some c) :
      CreditStep s { s with shop := shop, crediting := Function.update s.crediting request (some c) }
  | credited {request c currentMonth} (held : s.crediting request = some c) :
      CreditStep s (s.credit request c currentMonth)
  | crashed {request} : CreditStep s
      { s with shop := s.shop.close request, crediting := Function.update s.crediting request none }
  | created {id month} (absent : s.customers id = none) :
      CreditStep s { s with customers := Function.update s.customers id (some (newLoyaltyCustomer month)) }
  | erased {id} : CreditStep s { s with customers := Function.update s.customers id none }

theorem creditStepSource {s a t} (taken : CreditSystem.step s a = some t) : CreditStep s t := by
  cases a with
  | order action =>
    simp only [CreditSystem.step] at taken
    split at taken <;> try contradiction
    obtain ⟨shop,step,taken⟩ := Option.bind_eq_some_iff.mp taken
    split at taken
    · split at taken <;> cases Option.some.inj taken
      · exact .opened step (by assumption)
      · refine .moved step ?_
        rintro _ _ ⟨⟩
        assumption
    · rename_i other
      cases Option.some.inj taken
      exact .moved step fun request assignable write => (other request assignable write).elim
  | credit request month =>
    obtain ⟨c,held,taken⟩ := Option.bind_eq_some_iff.mp taken
    cases Option.some.inj taken
    exact .credited held
  | crash request => cases Option.some.inj taken; exact .crashed
  | createCustomer id month =>
    simp only [CreditSystem.step] at taken
    split at taken <;> try contradiction
    rename_i absent
    cases Option.some.inj taken
    exact .created (by simpa using absent)
  | eraseCustomer id => cases Option.some.inj taken; exact .erased

/-- What crediting leaves: the request is done, and the ledger grew or did not. -/
theorem creditSource (s : CreditSystem) (request c month) :
    (s.credit request c month).shop = s.shop ∧
    (s.credit request c month).crediting = Function.update s.crediting request none ∧
    ((s.credit request c month).credits = s.credits ∨ ∃ customer, c.customerId = some customer ∧
      (s.credit request c month).credits = s.credits ++ [⟨customer,c⟩]) := by
  unfold CreditSystem.credit
  dsimp only
  split
  · exact ⟨rfl,rfl,.inl rfl⟩
  · rename_i customer linked
    dsimp only
    split
    · exact ⟨rfl,rfl,.inr ⟨customer,linked,rfl⟩⟩
    · exact ⟨rfl,rfl,.inl rfl⟩

/-! ### Deliveries -/

theorem deliveredRow {s : System} {id} (h : s.delivered id = true) :
    ∃ o, s.orders id = some o ∧ o.orderStatus = .delivered := by
  simpa [System.delivered] using h

theorem deliveredKept {s a t id} (inv : Lifecycle s) (taken : System.step s a = some t)
    (h : s.delivered id = true) : t.delivered id = true := by
  obtain ⟨o,row,status⟩ := deliveredRow h
  obtain ⟨o',row',moved⟩ := statusStep inv (recordStep taken id) row
  have row' : t.orders id = some o' := row'
  rcases moved with same | ⟨follows,_⟩
  · simp [System.delivered,row',same,status]
  · rw [status] at follows
    exact absurd follows (finalNeverLeft rfl)

theorem deliveredByWrite {s a id r o'} (step : RecordStep s a id r) (row' : r.order = some o')
    (status' : o'.orderStatus = .delivered)
    (before : ∀ o, s.orders id = some o → o.orderStatus ≠ .delivered) :
    ∃ request assignable p u, a = .write request assignable ∧ s.pending request = some p ∧
      p.id = id ∧ p.update = some u := by
  cases step with
  | same | locked | released | receiptSaved => exact absurd status' (before o' row')
  | @created input synthetic absent =>
    cases Option.some.inj row'
    rw [createdStatus] at status'
    cases synthetic <;> contradiction
  | written action sent target decided =>
    obtain rfl := action
    exact ⟨_,_,_,_,rfl,sent,target,decided⟩
  | allocated lock row =>
    cases Option.some.inj row'
    simp at status'
  | @receiptStored o data receipt held lock row real kept update =>
    cases Option.some.inj row'
    rcases receiptUpdateSource update with ⟨_,rfl⟩ | ⟨_,rfl⟩
    · exact absurd status' (before o row)
    · obtain ⟨_,_,_,_,times⟩ := timestampColumns o.toOrderLifecycleSnapshot .outForDelivery held
      simp [OrderData.spread,times] at status'
  | edited row | prioritized row | erased row =>
    cases Option.some.inj row'
    have different := before _ row
    exact (different status').elim

theorem deliveryOfSource {s t request c} (found : deliveryOf s t request = some c) :
    ∃ p read o', s.pending request = some p ∧ p.order = some read ∧ t.orders p.id = some o' ∧
      s.delivered p.id = false ∧ t.delivered p.id = true ∧
      c = ⟨p.id,read.customerId,read.orderSource,o'.customerId,
        (s.changes p.id).customer ≠ p.changes.customer⟩ := by
  obtain ⟨p,sent,found⟩ := Option.bind_eq_some_iff.mp found
  obtain ⟨read,was,found⟩ := Option.bind_eq_some_iff.mp found
  obtain ⟨o',row,found⟩ := Option.bind_eq_some_iff.mp found
  split at found <;> try contradiction
  rename_i became
  exact ⟨p,read,o',sent,was,row,by simpa using became.1,became.2,(Option.some.inj found).symm⟩

theorem deliveredBy {s a t id} (inv : Lifecycle s) (taken : System.step s a = some t)
    (before : s.delivered id = false) (after : t.delivered id = true) :
    ∃ request assignable c, a = .write request assignable ∧ deliveryOf s t request = some c ∧
      c.order = id := by
  obtain ⟨o',row',status'⟩ := deliveredRow after
  obtain ⟨request,assignable,p,u,rfl,sent,rfl,decided⟩ :=
    deliveredByWrite (recordStep taken id) row' status' fun o row status => by
      simp [System.delivered,row,status] at before
  obtain ⟨read,_,_,was,_⟩ := (inv.requests _ _ sent).decision u decided
  have found : deliveryOf s t request = some ⟨p.id,read.customerId,read.orderSource,o'.customerId,
      (s.changes p.id).customer ≠ p.changes.customer⟩ := by
    have row' : t.orders p.id = some o' := row'
    simp [deliveryOf,sent,was,row',before,after]
  exact ⟨request,assignable,_,rfl,found,rfl⟩

theorem writeKeepsCustomer {s t : System} {request assignable p o o'}
    (taken : s.step (.write request assignable) = some t) (sent : s.pending request = some p)
    (row : s.orders p.id = some o) (row' : t.orders p.id = some o') : o'.customerId = o.customerId := by
  obtain ⟨q,sent',taken⟩ := Option.bind_eq_some_iff.mp taken
  cases Option.some.inj (sent.symm.trans sent')
  obtain ⟨u,decided,taken⟩ := Option.bind_eq_some_iff.mp taken
  split at taken <;> try contradiction
  cases Option.some.inj taken
  simp only [System.close,System.writeUpdate,row] at row'
  split at row'
  · simp only [System.store,Function.update_self,Option.some.injEq] at row'
    subst row'
    rfl
  · cases Option.some.inj (row.symm.trans row')
    rfl

/-! ### The invariant -/

structure CreditSound (start : Time) (s : CreditSystem) : Prop where
  shop : System.Reachable start s.shop
  open_ : ∀ request c, s.crediting request = some c → s.shop.delivered c.order = true
  alone : ∀ request other c d, s.crediting request = some c → s.crediting other = some d →
    c.order = d.order → request = other
  uncredited : ∀ request c, s.crediting request = some c → ∀ credit ∈ s.credits,
    credit.delivery.order ≠ c.order
  credited : ∀ credit ∈ s.credits, s.shop.delivered credit.delivery.order = true
  once : (s.credits.map (·.delivery.order)).Nodup
  owed : ∀ request c, s.crediting request = some c → c.relinked = false → c.linked = c.customerId
  paid : ∀ credit ∈ s.credits, credit.delivery.customerId = some credit.customer ∧
    (credit.delivery.relinked = false → credit.delivery.linked = some credit.customer)

theorem creditInitial (start) : CreditSound start (CreditSystem.initial start) := by
  refine ⟨.start,?_,?_,?_,?_,List.nodup_nil,?_,?_⟩
  · intro request c held; contradiction
  · intro request other c d held; contradiction
  · intro request c held; contradiction
  · intro credit mem; contradiction
  · intro request c held; contradiction
  · intro credit mem; contradiction

/-- Requests that stop crediting, or an order system that moved on, keep the invariant. -/
theorem CreditSound.fewer {start s shop crediting} (h : CreditSound start s)
    (reached : System.Reachable start shop)
    (kept : ∀ id, s.shop.delivered id = true → shop.delivered id = true)
    (fewer : ∀ request c, crediting request = some c → s.crediting request = some c) {customers} :
    CreditSound start ⟨shop,customers,crediting,s.credits⟩ where
  shop := reached
  open_ request c held := kept _ (h.open_ request c (fewer _ _ held))
  alone request other c d left right := h.alone request other c d (fewer _ _ left) (fewer _ _ right)
  uncredited request c held := h.uncredited request c (fewer _ _ held)
  credited credit mem := kept _ (h.credited credit mem)
  once := h.once
  owed request c held := h.owed request c (fewer _ _ held)
  paid := h.paid

theorem keptUpdate {crediting : RequestId → Option Crediting} {closed request c}
    (held : Function.update crediting closed none request = some c) :
    request ≠ closed ∧ crediting request = some c := by
  by_cases here : request = closed
  · simp [here] at held
  · exact ⟨here,by simpa [Function.update_of_ne here] using held⟩

theorem openedUpdate {crediting : RequestId → Option Crediting} {opened request c d}
    (held : Function.update crediting opened (some c) request = some d) :
    request = opened ∧ d = c ∨ request ≠ opened ∧ crediting request = some d := by
  by_cases here : request = opened
  · refine .inl ⟨here,?_⟩
    simpa [here,eq_comm] using held
  · exact .inr ⟨here,by simpa [Function.update_of_ne here] using held⟩

/-- The write that delivers an order opens its only credit. -/
theorem deliverySound {start s shop request assignable c} (h : CreditSound start s)
    (taken : s.shop.step (.write request assignable) = some shop)
    (found : deliveryOf s.shop shop request = some c) :
    CreditSound start { s with shop := shop, crediting := Function.update s.crediting request (some c) } := by
  have inv := lifecycleReachable h.shop
  have kept : ∀ id, s.shop.delivered id = true → shop.delivered id = true := fun _ => deliveredKept inv taken
  obtain ⟨p,read,o',sent,was,row',before,after,rfl⟩ := deliveryOfSource found
  have fresh : ∀ id, s.shop.delivered id = true → id ≠ p.id := by
    rintro _ delivered rfl
    rw [before] at delivered
    contradiction
  refine ⟨.step h.shop taken,?_,?_,?_,fun credit mem => kept _ (h.credited credit mem),h.once,?_,h.paid⟩
  · intro r d held
    rcases openedUpdate held with ⟨_,rfl⟩ | ⟨_,old⟩
    · exact after
    · exact kept _ (h.open_ r d old)
  · intro r other d e left right same
    rcases openedUpdate left with ⟨rfl,rfl⟩ | ⟨_,oldLeft⟩ <;>
      rcases openedUpdate right with ⟨rfl,rfl⟩ | ⟨_,oldRight⟩
    · rfl
    · exact absurd same.symm (fresh _ (h.open_ _ _ oldRight))
    · exact absurd same (fresh _ (h.open_ _ _ oldLeft))
    · exact h.alone r other d e oldLeft oldRight same
  · intro r d held credit mem
    rcases openedUpdate held with ⟨_,rfl⟩ | ⟨_,old⟩
    · exact fresh _ (h.credited credit mem)
    · exact h.uncredited r d old credit mem
  · intro r d held settled
    rcases openedUpdate held with ⟨_,rfl⟩ | ⟨_,old⟩
    · have unchanged : (s.shop.changes p.id).customer = p.changes.customer := by simpa using settled
      have seen := countedReads customerCounter h.shop _ _ sent
      obtain ⟨o,row⟩ := seen.present read was
      exact (writeKeepsCustomer taken sent row row').trans (seen.unchanged read was unchanged o row)
    · exact h.owed r d old settled

theorem creditSound {start s request c month} (h : CreditSound start s)
    (held : s.crediting request = some c) : CreditSound start (s.credit request c month) := by
  obtain ⟨shop,crediting,grown⟩ := creditSource s request c month
  generalize s.credit request c month = t at shop crediting grown
  obtain ⟨shop',customers,crediting',credits⟩ := t
  dsimp only at shop crediting grown
  subst shop crediting
  have closed : CreditSound start
      ⟨s.shop,customers,Function.update s.crediting request none,s.credits⟩ :=
    h.fewer h.shop (fun _ delivered => delivered) fun _ _ kept => (keptUpdate kept).2
  rcases grown with rfl | ⟨customer,linked,rfl⟩
  · exact closed
  refine { closed with uncredited := ?_, credited := ?_, once := ?_, paid := ?_ }
  · intro r d kept credit mem
    obtain ⟨different,old⟩ := keptUpdate kept
    rcases List.mem_append.mp mem with mem | mem
    · exact h.uncredited r d old credit mem
    · cases List.mem_singleton.mp mem
      exact fun same => different (h.alone r request d c old held same.symm)
  · intro credit mem
    rcases List.mem_append.mp mem with mem | mem
    · exact h.credited credit mem
    · cases List.mem_singleton.mp mem
      exact h.open_ request c held
  · rw [List.map_append,List.nodup_append]
    refine ⟨h.once,List.nodup_singleton _,?_⟩
    intro id paid other new
    obtain ⟨credit,mem,rfl⟩ := List.mem_map.mp paid
    cases List.mem_singleton.mp new
    exact h.uncredited request c held credit mem
  · intro credit mem
    rcases List.mem_append.mp mem with mem | mem
    · exact h.paid credit mem
    · cases List.mem_singleton.mp mem
      exact ⟨linked,fun settled => (h.owed request c held settled).trans linked⟩

theorem creditStep {start s a t} (h : CreditSound start s) (taken : CreditSystem.step s a = some t) :
    CreditSound start t := by
  cases creditStepSource taken with
  | moved step =>
    exact h.fewer (.step h.shop step) (fun _ => deliveredKept (lifecycleReachable h.shop) step) fun _ _ => id
  | opened step found => exact deliverySound h step found
  | credited held => exact creditSound h held
  | @crashed request =>
    have reached : System.Reachable start (s.shop.close request) := .step (a := .abandon request) h.shop rfl
    exact h.fewer reached (fun _ delivered => delivered) fun _ _ kept => (keptUpdate kept).2
  | created | erased => exact h.fewer h.shop (fun _ delivered => delivered) fun _ _ kept => kept

theorem creditReachable {start s} (reached : CreditSystem.Reachable start s) : CreditSound start s :=
  Transition.Reachable.invariant reached (creditInitial start) fun _ _ _ => creditStep

theorem creditLedger {s : CreditSystem} {request c month} (inv : ∀ id row, s.customers id = some row → LedgerSound row) :
    ∀ id row, (s.credit request c month).customers id = some row → LedgerSound row := by
  intro id row stored
  unfold CreditSystem.credit at stored
  dsimp only at stored
  split at stored
  · exact inv id row stored
  · rename_i customer linked
    by_cases here : id = customer
    · simp only [here,Function.update_self] at stored
      exact deliveredSound (inv customer) stored
    · exact inv id row (by simpa [Function.update_of_ne here] using stored)

theorem creditLedgers {start s} (reached : CreditSystem.Reachable start s) :
    ∀ id row, s.customers id = some row → LedgerSound row := by
  refine Transition.Reachable.invariant (I := fun s => ∀ id row, s.customers id = some row →
    LedgerSound row) reached (fun _ _ stored => by contradiction) ?_
  intro s a t inv taken
  cases creditStepSource taken with
  | moved | opened | crashed => exact inv
  | credited held => exact creditLedger inv
  | @created new month absent =>
    intro id row stored
    by_cases here : id = new
    · simp only [here,Function.update_self,Option.some.injEq] at stored
      exact stored ▸ newLedgerSound month
    · exact inv id row (by simpa [Function.update_of_ne here] using stored)
  | @erased gone =>
    intro id row stored
    by_cases here : id = gone
    · simp [here] at stored
    · exact inv id row (by simpa [Function.update_of_ne here] using stored)

theorem creditsGrow {s a t} (taken : CreditSystem.step s a = some t) : s.credits ⊆ t.credits := by
  cases creditStepSource taken with
  | @credited request c month held =>
    rcases (creditSource s request c month).2.2 with same | ⟨_,_,same⟩ <;> rw [same]
    · exact List.Subset.refl _
    · exact List.subset_append_left _ _
  | _ => exact List.Subset.refl _

theorem creditsKept {s t} (later : Transition.Reachable CreditSystem.step s t) : s.credits ⊆ t.credits :=
  Transition.Reachable.invariant (I := fun t => s.credits ⊆ t.credits) later (List.Subset.refl _)
    fun _ _ _ grown taken => List.Subset.trans grown (creditsGrow taken)

theorem filterUnique {entries : List Credit} {entry} (once : (entries.map (·.delivery.order)).Nodup)
    (mem : entry ∈ entries) : entries.filter (·.delivery.order = entry.delivery.order) = [entry] := by
  induction entries with
  | nil => contradiction
  | cons head tail ih =>
    obtain ⟨fresh,once⟩ := List.nodup_cons.mp once
    rcases List.mem_cons.mp mem with rfl | mem
    · have none_ : tail.filter (·.delivery.order = entry.delivery.order) = [] := by
        refine List.filter_eq_nil_iff.mpr fun other there same => fresh ?_
        exact List.mem_map.mpr ⟨other,there,by simpa using same⟩
      simp [none_]
    · have different : head.delivery.order ≠ entry.delivery.order :=
        fun same => fresh (List.mem_map.mpr ⟨entry,mem,same.symm⟩)
      simpa [different] using ih once mem

/-! ### Exactly once, unless the request crashes -/

/-- A delivered order that nobody has credited and nobody still credits. -/
structure Uncredited (s : CreditSystem) (id : OrderId) : Prop where
  delivered : s.shop.delivered id = true
  lost : ∀ request c, s.crediting request = some c → c.order ≠ id
  unpaid : ∀ credit ∈ s.credits, credit.delivery.order ≠ id

theorem uncreditedStep {start s a t id} (inv : CreditSound start s) (h : Uncredited s id)
    (taken : CreditSystem.step s a = some t) : Uncredited t id := by
  cases creditStepSource taken with
  | moved step =>
    exact ⟨deliveredKept (lifecycleReachable inv.shop) step h.delivered,h.lost,h.unpaid⟩
  | opened step found =>
    refine ⟨deliveredKept (lifecycleReachable inv.shop) step h.delivered,?_,h.unpaid⟩
    intro request c held
    rcases openedUpdate held with ⟨_,rfl⟩ | ⟨_,old⟩
    · obtain ⟨p,_,_,_,_,_,before,_,rfl⟩ := deliveryOfSource found
      rintro rfl
      have delivered := h.delivered
      rw [before] at delivered
      contradiction
    · exact h.lost request c old
  | @credited request c month held =>
    obtain ⟨shop,crediting,grown⟩ := creditSource s request c month
    refine ⟨shop ▸ h.delivered,?_,?_⟩
    · intro r d kept
      rw [crediting] at kept
      exact h.lost r d (keptUpdate kept).2
    · intro credit mem
      rcases grown with same | ⟨customer,_,same⟩ <;> rw [same] at mem
      · exact h.unpaid credit mem
      · rcases List.mem_append.mp mem with mem | mem
        · exact h.unpaid credit mem
        · cases List.mem_singleton.mp mem
          exact h.lost request c held
  | crashed => exact ⟨h.delivered,fun r d kept => h.lost r d (keptUpdate kept).2,h.unpaid⟩
  | created | erased => exact ⟨h.delivered,h.lost,h.unpaid⟩

/-- A credit lost in a crash is never made up. -/
theorem uncreditedForGood {start s t id} (reached : CreditSystem.Reachable start s) (h : Uncredited s id)
    (later : Transition.Reachable CreditSystem.step s t) : Uncredited t id := by
  refine (Transition.Reachable.invariant (I := fun t => CreditSound start t ∧ Uncredited t id) later
    ⟨creditReachable reached,h⟩ ?_).2
  rintro s a t ⟨inv,h⟩ taken
  exact ⟨creditStep inv taken,uncreditedStep inv h taken⟩

theorem deliveryOpens {start s a t id} (inv : CreditSound start s) (taken : CreditSystem.step s a = some t)
    (before : s.shop.delivered id = false) (after : t.shop.delivered id = true) :
    ∃ request c, t.crediting request = some c ∧ c.order = id := by
  have unmoved : s.shop.delivered id = true → False := by
    intro delivered
    rw [before] at delivered
    contradiction
  cases creditStepSource taken with
  | moved step quiet =>
    obtain ⟨request,assignable,c,rfl,found,_⟩ := deliveredBy (lifecycleReachable inv.shop) step before after
    simp [quiet request assignable rfl] at found
  | @opened request assignable shop c step found =>
    obtain ⟨_,_,c',⟨⟩,found',rfl⟩ := deliveredBy (lifecycleReachable inv.shop) step before after
    cases Option.some.inj (found.symm.trans found')
    exact ⟨request,c,by simp,rfl⟩
  | @credited request c month held => exact (unmoved ((creditSource s request c month).1 ▸ after)).elim
  | crashed | created | erased => exact (unmoved after).elim

theorem crashUncredited {start s request c} (reached : CreditSystem.Reachable start s)
    (held : s.crediting request = some c) :
    ∃ t, s.step (.crash request) = some t ∧ Uncredited t c.order := by
  have inv := creditReachable reached
  refine ⟨_,rfl,inv.open_ request c held,?_,inv.uncredited request c held⟩
  intro other d kept same
  obtain ⟨different,old⟩ := keptUpdate kept
  exact different (inv.alone other request d c old held same)

theorem creditTaken {s : CreditSystem} {c customer row} (request month)
    (linked : c.customerId = some customer) (eligible : isLoyaltyEligibleOrderSource c.orderSource = true)
    (stored : s.customers customer = some row) :
    (s.credit request c month).customers customer =
      (recordDeliveredOrderLoyalty (some row) c.orderSource month).1 ∧
    ⟨customer,c⟩ ∈ (s.credit request c month).credits := by
  have counted : (recordDelivery (resetLoyaltyMonthIfNeeded row month).1
      (resetLoyaltyMonthIfNeeded row month).2 month).2.progressIncreased = true := by
    unfold recordDelivery
    dsimp only
    split <;> rfl
  simp [CreditSystem.credit,linked,stored,recordDeliveredOrderLoyalty,eligible,counted]

def deliveredRun : List CreditAction :=
  .createCustomer "customer" (some "2026-09") :: deliveryRun.map .order

def deliveredCrediting : Crediting := ⟨"order",some "customer",.iosApp,some "customer",false⟩

end SpeedySweeties
