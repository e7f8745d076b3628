import SpeedySweeties.Order.SyntheticBudget

/-! One customer row for a phone number. Whoever looks the customer up under the privacy
lock sees every committed row; an ordinary creation looks it up before its transaction. -/
namespace SpeedySweeties
open JsText

def PrivacyDb.OneCustomer (db : PrivacyDb) : Prop :=
  ∀ c ∈ db.customers.rows, ∀ d ∈ db.customers.rows, c.normalizedPhone = d.normalizedPhone → c = d

instance (db : PrivacyDb) : Decidable db.OneCustomer := by unfold PrivacyDb.OneCustomer; infer_instance

variable {δ : Type} {S : PrivacyService δ} {T : SyntheticService} {db : PrivacyDb} {columns : CustomerId → CustomerColumns}
  {setting : Option SyntheticPolicy} {now : Time}

theorem PrivacyDb.OneCustomer.put {c : Customer} (h : db.OneCustomer)
    (alone : ∀ d ∈ db.customers.rows, d.normalizedPhone = c.normalizedPhone → d.id = c.id) :
    PrivacyDb.OneCustomer { db with customers := db.customers.put c } := by
  intro d left e right same
  rcases Table.mem_put left with rfl | ⟨oldD,differD⟩ <;> rcases Table.mem_put right with rfl | ⟨oldE,differE⟩
  · rfl
  · exact absurd (alone e oldE same.symm) differE
  · exact absurd (alone d oldD same) differD
  · exact h d oldD e oldE same

theorem lookupNone {phone : String} (absent : db.lookup phone none = true) :
    ∀ c ∈ db.customers.rows, c.normalizedPhone ≠ phoneDigits phone := by
  simpa [PrivacyDb.lookup] using absent

theorem lookupSome {phone : String} {id : CustomerId} (present : db.lookup phone (some id) = true) :
    ∃ c, db.customers.find id = some c ∧ c.normalizedPhone = phoneDigits phone := by
  simpa [PrivacyDb.lookup,Option.any_eq_true] using present

theorem digitsNational (phone : String) :
    phoneDigits phone = nationalPhone phone ∨ phoneDigits phone = "1" ++ nationalPhone phone := by
  unfold nationalPhone nationalNumber
  split
  · rename_i rest digits
    split
    · right
      rw [← String.ofList_toList (s := phoneDigits phone),digits,show "1" = String.ofList ['1'] from rfl,
        ← String.ofList_append,List.singleton_append]
    · exact .inl (by rw [← digits,String.ofList_toList])
  · exact .inl String.ofList_toList.symm

/-- A policy without a customer is reserved where nobody has the phone. -/
theorem reserveUnmatched {profile : SyntheticProfile} {required : Bool} {p : SyntheticPolicy}
    (ok : reserveSyntheticOrder T setting db columns profile required now = .ok (some p)) (unset : p.customerId = none) :
    db.lookup profile.customerPhone none = true := by
  simp only [reserveSyntheticOrder,bindOk] at ok
  obtain ⟨policy,parsed,chosen,classified,ok⟩ := ok
  cases chosen with
  | none => cases ok
  | some q =>
    cases customer : q.customerId with
    | some customerId =>
      simp only [customer,bindOk,pureOk] at ok
      obtain ⟨_,_,_,_,_,_,_,_,same⟩ := ok
      cases same
      rw [customer] at unset
      contradiction
    | none =>
      simp only [customer,bindOk,stopUnlessOk] at ok
      obtain ⟨_,unmatched,_⟩ := ok
      have unmatched : syntheticMatches T db profile = [] := by simpa using unmatched
      rw [syntheticMatches,List.filter_eq_nil_iff] at unmatched
      simp only [PrivacyDb.lookup,List.all_eq_true,decide_eq_true_eq]
      intro c mem same
      refine unmatched c mem ?_
      rcases digitsNational profile.customerPhone with digits | digits <;> simp [same,digits]

namespace OrderingRequest

def holdsPrivacy : OrderingRequest → Bool
  | .allowed .. | .reserved .. | .found .. => true
  | _ => false

/-- What the customer statements of a transaction rely on. -/
def Matched (db : PrivacyDb) : OrderingRequest → Prop
  | .reserved body (.create _ _ matchedCustomer) policy =>
    creationCustomer policy matchedCustomer = none → db.lookup body.customerPhone none = true
  | .found body (.create ..) _ customer => customer = none → db.lookup body.customerPhone none = true
  | .found body (.edit ..) _ customer => db.lookup body.customerPhone customer = true
  | _ => True

theorem Matched.unlocked {r : OrderingRequest} {other : PrivacyDb} (h : r.Matched db) (without : r.holdsPrivacy = false) :
    r.Matched other := by
  cases r with
  | allowed | reserved | found => contradiction
  | _ => exact h

theorem Matched.congr {r : OrderingRequest} {other : PrivacyDb} (h : r.Matched db) (same : other.customers = db.customers) :
    r.Matched other := by
  have lookup (phone : String) (customer : Option CustomerId) : other.lookup phone customer = db.lookup phone customer := by
    cases customer <;> simp [PrivacyDb.lookup,same]
  unfold Matched at h ⊢
  split <;> simp_all

end OrderingRequest

namespace OrderingSystem
variable {s t : OrderingSystem} {a : OrderingAction} {x : RequestId} {r : OrderingRequest}

/-- A creation that is not synthetic and whose lookup found nobody is still alone with its
phone when it has both locks. -/
def StillUnmatched (T : SyntheticService) (s : OrderingSystem) : OrderingAction → Prop
  | .reserve request => match s.requests request with
    | some (.allowed body (.create _ required none)) =>
      reserveSyntheticOrder T s.setting s.db s.columns body.toSyntheticProfile required s.now = .ok none →
        s.db.lookup body.customerPhone none = true
    | _ => True
  | _ => True

instance (s : OrderingSystem) (a : OrderingAction) : Decidable (StillUnmatched T s a) := by
  unfold StillUnmatched
  split
  · split <;> infer_instance
  · infer_instance

structure IdentitySound (s : OrderingSystem) : Prop where
  one : s.db.OneCustomer
  held : Exclusive OrderingRequest.holdsPrivacy (OrderingRequest.Matched s.db) s.requests s.privacyLock

theorem IdentitySound.frame (h : IdentitySound s) (db : PrivacyDb) (same : db.customers = s.db.customers) :
    db.OneCustomer ∧ Exclusive OrderingRequest.holdsPrivacy (OrderingRequest.Matched db) s.requests s.privacyLock := by
  refine ⟨?_,h.held.mono fun _ matched => matched.congr same⟩
  rw [PrivacyDb.OneCustomer,same]
  exact h.one

theorem saveOrderCustomers {u : OrderingSystem} {body : OrderingBody} {intent : OrderIntent}
    {policy : Option SyntheticPolicy} {customerId : CustomerId} {orderId : OrderId} {currentMonth : String}
    (done : u.saveOrder S body policy customerId orderId currentMonth intent = some t) :
    t.db.customers = u.db.customers ∧ t.requests = u.requests ∧ t.privacyLock = u.privacyLock := by
  unfold saveOrder at done
  split at done
  · split at done
    · contradiction
    · split at done <;> cases done <;> exact ⟨rfl,rfl,rfl⟩
  · split at done
    · contradiction
    · split at done
      · contradiction
      · cases done
        exact ⟨rfl,rfl,rfl⟩

theorem saveCustomerOne {body : OrderingBody} {intent : OrderIntent} {policy : Option SyntheticPolicy}
    {customer : Option CustomerId} {customerId id : CustomerId} {currentMonth : String} (one : s.db.OneCustomer)
    (matched : (OrderingRequest.found body intent policy customer).Matched s.db)
    (done : s.saveCustomer S body intent policy customerId currentMonth customer = some (t,id)) : t.db.OneCustomer := by
  cases customer with
  | none =>
    have absent : s.db.lookup body.customerPhone none = true := by
      cases intent with
      | create => exact matched rfl
      | edit => exact matched
    simp only [saveCustomer] at done
    split at done
    · contradiction
    · cases done
      exact one.put fun d mem same => absurd same (lookupNone absent d mem)
  | some found =>
    simp only [saveCustomer] at done
    split at done
    · contradiction
    rename_i c stored
    split at done
    · cases done
      exact one
    · cases done
      obtain ⟨d,row,phone⟩ := lookupSome matched
      cases Option.some.inj (stored.symm.trans row)
      exact one.put fun d mem same => congrArg (·.id) (one d mem c (Table.find_some stored).1 (same.trans phone.symm))

theorem identityStep (h : IdentitySound s) (alone : StillUnmatched T s a) (step : OrderingStep S T s a t) :
    IdentitySound t := by
  cases step with
  | clock elapsed => exact ⟨h.one,h.held⟩
  | @started x r free begins =>
    cases r with
    | waiting | handling | enrolling => exact ⟨h.one,h.held.await trivial nofun⟩
    | _ => exact begins.elim
  | ended x => exact ⟨h.one,h.held.close⟩
  | allowed held free => exact ⟨h.one,h.held.take free trivial⟩
  | @reserved x body input required matchedCustomer policy action held free ok =>
    refine ⟨h.one,h.held.await (fun unmatched => ?_) fun _ => h.held.locked x _ held rfl⟩
    cases policy with
    | some p => exact reserveUnmatched ok unmatched
    | none =>
      cases (unmatched : matchedCustomer = none)
      rw [action] at alone
      simp only [StillUnmatched,held] at alone
      exact alone ok
  | @ordinary x body existingOrder details held free =>
    exact ⟨h.one,h.held.await trivial fun _ => h.held.locked x _ held rfl⟩
  | @matched x body input required matchedCustomer policy held =>
    have ready := h.held.ready x _ held
    exact ⟨h.one,h.held.await ready fun _ => h.held.locked x _ held rfl⟩
  | @lookedUp x body existingOrder details policy customer held found =>
    exact ⟨h.one,h.held.await found fun _ => h.held.locked x _ held rfl⟩
  | @saved x body intent policy customer customerId id orderId currentMonth u v held customerSaved orderSaved =>
    have one := saveCustomerOne h.one (h.held.ready x _ held) customerSaved
    obtain ⟨customers,columns,rfl⟩ := saveCustomerSource customerSaved
    obtain ⟨same,requests,lock⟩ := saveOrderCustomers orderSaved
    refine ⟨?_,?_⟩
    · simp only [OrderingSystem.close,PrivacyDb.OneCustomer,same]
      exact one
    · simp only [OrderingSystem.close,requests,lock]
      exact h.held.commitLocked held rfl fun _ without matched => matched.unlocked without
  | enrolled held free ok => exact ⟨h.one,h.held.close⟩
  | closed free ok => exact ⟨h.one,h.held⟩
  | claiming fresh free ok => exact ⟨h.one,h.held.await trivial nofun⟩
  | claimed held => exact ⟨h.one,h.held.close⟩
  | decided held ok => exact ⟨h.one,h.held.await trivial nofun⟩
  | @written x id u r held row updatable =>
    obtain ⟨one,kept⟩ := h.frame (s.db.putOrder ((RowWrite.order u.data).apply r)) rfl
    exact ⟨one,kept.close⟩
  | @dispatched id selected r data row ok =>
    obtain ⟨one,kept⟩ := h.frame (s.db.putOrder ((RowWrite.order data).apply r)) rfl
    exact ⟨one,kept⟩

theorem oneCustomerPerPhone (one : db.OneCustomer)
    (reached : Transition.ReachableUnder (step S T) (StillUnmatched T) (initial db columns setting now) s) :
    s.db.OneCustomer :=
  (reached.invariant (I := IdentitySound) ⟨one,.initial⟩ fun _ _ _ sound alone taken =>
    identityStep sound alone (stepCases taken)).one

def ordinaryBody : OrderingBody where
  toSyntheticProfile := { sampleProfile with customerPhone := "519 555 0199", customerEmail := "jo@example.com" }
  items := []

def creation (request : RequestId) (matchedCustomer : Option CustomerId) : OrderingAction :=
  .createOrder request ordinaryBody sampleOrder false matchedCustomer

def creationTransaction (request : RequestId) (id : String) : List OrderingAction :=
  [.allow request,.reserve request,.findCustomer request none,.save request id id "2026-01"]

def sampleOrdering : OrderingSystem := initial verifiedDb (fun _ => sampleColumns) none 0

theorem laterLookupFinds : ∃ s, Transition.ReachableUnder (step sampleService sampleSynthetic)
    (StillUnmatched sampleSynthetic) sampleOrdering s ∧ s.db.OneCustomer ∧
    s.db.customers.rows.map (·.id) = ["customer","first"] := by
  let actions := creation 0 none::creationTransaction 0 "first" ++ creation 1 (some "first")::creationTransaction 1 "second"
  have ends : (Transition.run (step sampleService sampleSynthetic) sampleOrdering actions).map
      (·.db.customers.rows.map (·.id)) = some ["customer","first"] := by decide +kernel
  have alone : Transition.AllowedRun (step sampleService sampleSynthetic) (StillUnmatched sampleSynthetic) sampleOrdering
      actions := by decide +kernel
  obtain ⟨s,ran,rows⟩ := Option.map_eq_some_iff.mp ends
  have reached := Transition.runReachableUnder .start alone ran
  exact ⟨s,reached,oneCustomerPerPhone (by decide +kernel) reached,rows⟩

/-- Both first orders have looked the customer up before the other one commits. -/
theorem firstOrdersRace : ¬ ∀ (S : PrivacyService RecoveryEvidence) (T : SyntheticService) (db : PrivacyDb)
    (columns : CustomerId → CustomerColumns) (setting : Option SyntheticPolicy) (now : Time) (s : OrderingSystem),
    db.OneCustomer → Reachable S T db columns setting now s → s.db.OneCustomer := by
  intro always
  let actions := [creation 0 none,creation 1 none] ++ creationTransaction 0 "first" ++ creationTransaction 1 "second"
  have ends : (Transition.run (step sampleService sampleSynthetic) sampleOrdering actions).map
      (fun s => decide s.db.OneCustomer) = some false := by decide +kernel
  obtain ⟨s,ran,split⟩ := Option.map_eq_some_iff.mp ends
  have one := always _ _ _ _ _ _ s (by decide +kernel) (Transition.runReachable .start ran)
  exact of_decide_eq_false split one

end OrderingSystem
end SpeedySweeties
