import SpeedySweeties.Privacy.Requests

/-! What a transition of a deletion request can do to the tables. -/
namespace SpeedySweeties
variable {δ : Type} {S : PrivacyService δ} {J : PrivacyRecoveryJournal δ}

def PrivacyDb.setRequest (db : PrivacyDb) (r : PrivacyDeletionRequest) : PrivacyDb :=
  { db with requests := db.requests.put r }

/-- A challenge that passed the checks of a submission for the customer. -/
structure Accepted (db : PrivacyDb) (c : PrivacyChallenge) (customer : Customer) : Prop where
  challenge : db.challenges.find c.id = some c
  unconsumed : c.consumedAt = none
  subject : c.subjectId = some customer.id
  customer : db.customers.find customer.id = some customer

inductive RequestStep (S : PrivacyService δ) (db : PrivacyDb) (now : Time) :
    PrivacyDb → PrivacyRequestId → Prop where
  | same (id : PrivacyRequestId) : RequestStep S db now db id
  | submitted (input : SubmitInput) (audit : List (String × String)) (c : PrivacyChallenge)
      (customer : Customer) (sourceOrder : Order) (timeframe : String)
      (accepted : Accepted db c customer) (fresh : db.requests.find input.id = none)
      (inactive : ∀ r ∈ db.requests.rows, r.activeSubject ≠ some customer.id) :
      RequestStep S db now
        ((db.consume c input.id customer.id now).setRequest
          (newRequest S input now audit c customer sourceOrder timeframe)) input.id
  | recovered (input : SubmitInput) (audit : List (String × String)) (c : PrivacyChallenge)
      (customer : Customer) (active : PrivacyDeletionRequest)
      (accepted : Accepted db c customer) (stored : db.requests.find active.id = some active)
      (owner : active.activeSubject = some customer.id) :
      RequestStep S db now
        ((db.consume c active.id customer.id now).setRequest (recoveredRequest S input now audit active))
        active.id
  | cancelled (r : PrivacyDeletionRequest) (stored : db.requests.find r.id = some r)
      (allowed : cancellable r.status) :
      RequestStep S db now (db.setRequest (cancelledRequest now r)) r.id
  | held (actor : String) (r : PrivacyDeletionRequest) (stored : db.requests.find r.id = some r)
      (allowed : cancellable r.status) (unerased : r.databaseErasedAt = none) :
      RequestStep S db now (db.setRequest (heldRequest now actor r)) r.id
  | erased (actor : String) (decision : RetentionDecision) (p : Preview)
      (stored : db.requests.find p.request.id = some p.request)
      (subject : p.request.subjectId = some p.customer.id)
      (customer : db.customers.find p.customer.id = some p.customer)
      (allowed : cancellable p.request.status) (released : p.request.status ≠ .hold)
      (unerased : p.request.databaseErasedAt = none) (untasked : p.request.tasks = []) :
      RequestStep S db now
        ((db.eraseCustomer S p decision now).setRequest (erasedRequest S decision now actor p.request))
        p.request.id
  | resolved (system actor evidence : String) (outcome : ExternalTaskStatus) (retainUntil : Option Time)
      (r : PrivacyDeletionRequest) (stored : db.requests.find r.id = some r)
      (fulfilling : r.status = .fulfilling) (done : outcome ≠ .pending) :
      RequestStep S db now
        (db.setRequest (externallyResolved system actor outcome evidence retainUntil now r)) r.id
  | completed (actor : String) (r : PrivacyDeletionRequest) (stored : db.requests.find r.id = some r)
      (fulfilling : r.status = .fulfilling) (all : r.tasks.length = externalSystems.length)
      (done : ∀ task ∈ r.tasks, task.status ≠ .pending) :
      RequestStep S db now (db.setRequest (completedRequest S now actor r)) r.id

theorem RequestStep.frame {db db' : PrivacyDb} {now : Time} {id : PrivacyRequestId}
    (h : RequestStep S db now db' id) {other : PrivacyRequestId} (differ : other ≠ id) :
    db'.requests.find other = db.requests.find other := by
  cases h with
  | same => rfl
  | submitted | recovered | cancelled | held | erased | resolved | completed =>
    exact Table.find_put_other differ

/-! ### One inversion per operation -/

theorem intakeBoundSource {db : PrivacyDb} {now : Time} {grant : String} {sent : Bool}
    {destination : Option String} {bound : IntakeBound}
    (h : intakeBound S db now grant sent destination = .ok bound) :
    db.challenges.find bound.challenge.id = some bound.challenge ∧ bound.challenge.consumedAt = none := by
  simp only [intakeBound,bindOk,foundOk,requireOk] at h
  obtain ⟨claims,_,_,_,c,stored,_,_,_,_,_,usable,p,_,_,_,_,_,_,_,last⟩ := h
  simp only [pureOk] at last
  subst last
  simp only [decide_eq_true_eq] at usable
  exact ⟨Table.find_self stored,usable.2.2.2.1⟩

theorem submitReadsCustomer {db : PrivacyDb} {input : SubmitInput} {c : PrivacyChallenge} {customer : Customer}
    (hc : (submitReads S db input).challenge = some c)
    (hcustomer : (submitReads S db input).customer = some customer) :
    db.challenges.find c.id = some c ∧ c.subjectId = some customer.id ∧
      db.customers.find customer.id = some customer := by
  simp only [submitReads] at hc hcustomer
  rw [hc] at hcustomer
  simp only [Option.bind_some,Option.bind_eq_some_iff] at hcustomer
  obtain ⟨subject,hsubject,stored⟩ := hcustomer
  have id := Table.find_key stored
  exact ⟨Table.find_self hc,id ▸ hsubject,Table.find_self stored⟩

theorem verifiedSource {db : PrivacyDb} {now : Time} {input : SubmitInput} {audit : List (String × String)}
    {c : PrivacyChallenge} {customer : Customer}
    (h : verified S db now input (submitReads S db input) = .ok audit)
    (hc : (submitReads S db input).challenge = some c)
    (hcustomer : (submitReads S db input).customer = some customer) : Accepted db c customer := by
  obtain ⟨stored,subject,owner⟩ := submitReadsCustomer hc hcustomer
  refine ⟨stored,?_,subject,owner⟩
  unfold verified at h
  cases grant : input.intakeGrant with
  | none =>
    simp only [grant,verifySubmission,bindOk,foundOk,requireOk] at h
    obtain ⟨c',hc',_,_,_,_,_,_,_,checks,_⟩ := h
    obtain rfl : c = c' := Option.some.inj (hc.symm.trans hc')
    simp only [decide_eq_true_eq] at checks
    exact checks.2.1
  | some grant' =>
    simp only [grant,verifyIntakeSubmission,bindOk,foundOk,requireOk] at h
    obtain ⟨bound,hbound,c',hc',_,checks,_⟩ := h
    obtain rfl : c = c' := Option.some.inj (hc.symm.trans hc')
    simp only [decide_eq_true_eq] at checks
    obtain ⟨same,free⟩ := intakeBoundSource hbound
    rw [checks.1,stored] at same
    cases same
    exact free

theorem recordSubmissionSource {db db' : PrivacyDb} {now : Time} {input : SubmitInput}
    {audit : List (String × String)} {reply : PrivacyReply}
    (fresh : db.requests.find input.id = none)
    (checked : verified S db now input (submitReads S db input) = .ok audit)
    (h : recordSubmission S db now input (submitReads S db input) audit = .ok (db',reply)) :
    RequestStep S db now db' (reply.requestId input.id) := by
  simp only [recordSubmission,bindOk,foundOk] at h
  obtain ⟨c,hc,customer,hcustomer,sourceOrder,_,h⟩ := h
  have accepted := verifiedSource checked hc hcustomer
  have reads : (submitReads S db input).active =
      db.requests.rows.find? (·.activeSubject = some customer.id) := by
    change Option.bind (submitReads S db input).customer _ = _
    rw [hcustomer]
    rfl
  rw [reads] at h
  split at h
  · rename_i active found
    have mem := List.mem_of_find?_eq_some found
    have owner : active.activeSubject = some customer.id := by simpa using List.find?_some found
    cases Except.ok.inj h
    exact .recovered input audit c customer active accepted (Table.find_of_mem mem) owner
  · rename_i absent
    simp only [bindOk,foundOk,PrivacyDb.insertRequest,requireOk,pureOk] at h
    obtain ⟨timeframe,_,_,_,last⟩ := h
    cases last
    have inactive : ∀ r ∈ db.requests.rows, r.activeSubject ≠ some customer.id := by
      simpa using absent
    exact .submitted input audit c customer sourceOrder timeframe accepted fresh inactive

theorem submitSource [DecidableEq δ] {entries : List (RecoveryEntry δ)} {db db' : PrivacyDb} {now : Time}
    {input : SubmitInput} {reply : PrivacyReply} (h : submit S J entries db now input = .ok (db',reply)) :
    RequestStep S db now db' (reply.requestId input.id) := by
  unfold submit at h
  split at h
  · simp only [bindOk,pureOk] at h
    obtain ⟨_,_,last⟩ := h
    cases last
    exact .same _
  · rename_i fresh
    dsimp only at h
    split at h
    · simp only [bindOk] at h
      obtain ⟨audit,checked,record⟩ := h
      exact recordSubmissionSource fresh checked record
    · simp only [bindOk] at h
      obtain ⟨_,_,h⟩ := h
      split at h
      · cases Except.ok.inj h
        exact .same _
      · simp only [bindOk] at h
        obtain ⟨audit,checked,record⟩ := h
        exact recordSubmissionSource fresh checked record

theorem cancelRequestSource {db db' : PrivacyDb} {now : Time} {id : PrivacyRequestId} {token : String}
    {reply : PrivacyReply} (h : cancel S db now id token = .ok (db',reply)) :
    RequestStep S db now db' (reply.requestId id) := by
  simp only [cancel,bindOk,foundOk] at h
  obtain ⟨r,stored,_,_,h⟩ := h
  split at h
  · cases Except.ok.inj h
    exact .same _
  · simp only [bindOk,requireOk,pureOk] at h
    obtain ⟨_,allowed,last⟩ := h
    cases last
    exact .cancelled r (Table.find_self stored) allowed

theorem holdSource {db db' : PrivacyDb} {now : Time} {id : PrivacyRequestId} {actor : String}
    {reply : PrivacyReply} (h : hold db now id actor = .ok (db',reply)) :
    RequestStep S db now db' (reply.requestId id) := by
  simp only [hold,bindOk,foundOk,requireOk,pureOk] at h
  obtain ⟨r,stored,_,allowed,last⟩ := h
  cases last
  simp only [decide_eq_true_eq] at allowed
  exact .held actor r (Table.find_self stored) allowed.1 allowed.2

theorem candidateScopeSource {db : PrivacyDb} {subject : CustomerId} {source : OrderId}
    {scope : CandidateScope} (h : candidateScope S db subject source = .ok scope) :
    scope.customer.id = subject ∧ db.customers.find subject = some scope.customer := by
  simp only [candidateScope,bindOk,foundOk,pureOk] at h
  obtain ⟨customer,stored,_,_,_,_,last⟩ := h
  subst last
  exact ⟨Table.find_key stored,stored⟩

theorem previewSource {db : PrivacyDb} {id : PrivacyRequestId} {p : Preview}
    (h : preview S db id = .ok p) :
    db.requests.find id = some p.request ∧ p.request.subjectId = some p.customer.id ∧
      db.customers.find p.customer.id = some p.customer := by
  simp only [preview,bindOk,foundOk,pureOk] at h
  obtain ⟨r,stored,subject,hsubject,scope,hscope,_,_,last⟩ := h
  subst last
  obtain ⟨id,customer⟩ := candidateScopeSource hscope
  subst id
  exact ⟨stored,hsubject,customer⟩

theorem fulfillSource {db db' : PrivacyDb} {now : Time} {id : PrivacyRequestId} {actor previewHash : String}
    {version : Nat} {decision : RetentionDecision} {reply : PrivacyReply}
    (h : fulfill S db now id actor version previewHash decision = .ok (db',reply)) :
    RequestStep S db now db' (reply.requestId id) := by
  simp only [fulfill,bindOk,foundOk] at h
  obtain ⟨r,stored,h⟩ := h
  split at h
  · cases Except.ok.inj h
    exact .same _
  · rename_i unerased
    simp only [bindOk,requireOk,eraseScoped,pureOk] at h
    obtain ⟨_,released,_,allowed,p,hp,_,_,_,_,_,_,_,untasked,last⟩ := h
    cases last
    obtain ⟨same,subject,customer⟩ := previewSource hp
    obtain rfl : r = p.request := Option.some.inj (stored.symm.trans same)
    simp only [decide_eq_true_eq] at released allowed untasked
    exact .erased actor decision p (Table.find_self stored) subject customer allowed.1 released
      (by simpa using unerased) untasked

theorem resolveExternalSource {db db' : PrivacyDb} {now : Time} {id : PrivacyRequestId}
    {actor system evidence : String} {retainUntil : Option (String × Time)} {reply : PrivacyReply}
    (h : resolveExternal db now id actor system evidence retainUntil = .ok (db',reply)) :
    RequestStep S db now db' (reply.requestId id) := by
  simp only [resolveExternal,bindOk,foundOk,requireOk] at h
  obtain ⟨r,stored,_,fulfilling,task,_,h⟩ := h
  split at h
  · cases Except.ok.inj h
    have id := Table.find_key stored
    subst id
    simp only [decide_eq_true_eq] at fulfilling
    exact .resolved system actor _ _ _ r stored fulfilling (by split <;> simp)
  · simp only [bindOk,pureOk] at h
    obtain ⟨_,_,last⟩ := h
    cases last
    exact .same _

theorem completeSource {db db' : PrivacyDb} {now : Time} {id : PrivacyRequestId} {actor : String}
    {reply : PrivacyReply} (h : complete S db now id actor = .ok (db',reply)) :
    RequestStep S db now db' (reply.requestId id) := by
  simp only [complete,bindOk,foundOk] at h
  obtain ⟨r,stored,h⟩ := h
  split at h
  · cases Except.ok.inj h
    exact .same _
  · simp only [bindOk,requireOk,pureOk] at h
    obtain ⟨_,ready,last⟩ := h
    cases last
    simp only [decide_eq_true_eq] at ready
    exact .completed actor r (Table.find_self stored) ready.1 ready.2.1 (by simpa using ready.2.2)

theorem workSource [DecidableEq δ] {entries : List (RecoveryEntry δ)} {db db' : PrivacyDb} {now : Time}
    {operation : PrivacyOperation} {reply : PrivacyReply}
    (h : operation.work S J entries db now = .ok (db',reply)) :
    RequestStep S db now db' (reply.requestId operation.id) := by
  cases operation with
  | submit input => exact submitSource h
  | cancel => exact cancelRequestSource h
  | hold => exact holdSource h
  | fulfill => exact fulfillSource h
  | resolveExternal => exact resolveExternalSource h
  | complete => exact completeSource h

end SpeedySweeties
