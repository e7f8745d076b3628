import SpeedySweeties.Privacy.DecisionJournal

/-! The lifecycle of deletion requests over whole runs. The requests, the customers
and the challenges are kept in step by each transition; an open transaction works on
a copy, and the lock it holds keeps the published rows from moving under it. -/
namespace SpeedySweeties

inductive PrivacyStatus.Moves : PrivacyStatus → PrivacyStatus → Prop where
  | hold {status} (early : status = .submitted ∨ status = .reviewing) : Moves status .hold
  | cancel {status} (early : status = .submitted ∨ status = .reviewing ∨ status = .hold) :
      Moves status .cancelled
  | fulfill {status} (early : status = .submitted ∨ status = .reviewing) : Moves status .fulfilling
  | complete : Moves .fulfilling .completed

/-- The statuses of a request whose customer has been erased. -/
def PrivacyStatus.erased (status : PrivacyStatus) : Prop := status = .fulfilling ∨ status = .completed

/-- The challenge that a request was submitted with. -/
def PrivacyDb.submission (db : PrivacyDb) (id : PrivacyRequestId) : Option Consumption :=
  db.consumptions.find? (·.request = id)

def PrivacyDb.status (db : PrivacyDb) (id : PrivacyRequestId) : Option PrivacyStatus :=
  (db.requests.find id).map (·.status)

theorem cancellableIff {status : PrivacyStatus} :
    cancellable status = true ↔ status = .submitted ∨ status = .reviewing ∨ status = .hold := by
  simp [cancellable]

theorem erasedNotCancellable {status : PrivacyStatus} (erased : status.erased) :
    ¬ cancellable status = true := by
  rcases erased with rfl | rfl <;> simp [cancellable]

theorem statusCases (status : PrivacyStatus) :
    cancellable status = true ∨ status = .cancelled ∨ status.erased := by
  cases status <;> simp [cancellable,PrivacyStatus.erased]

/-! ### What holds of the tables -/

abbrev Customers := Table Customer fun c => c.id

structure RequestSound (customers : Customers) (submission : Consumption) (r : PrivacyDeletionRequest) :
    Prop where
  challenge : submission.challenge = r.challengeId
  waiting : cancellable r.status → r.subjectId = some submission.customer ∧
    r.activeSubject = some submission.customer ∧ (customers.find submission.customer).isSome
  inactive : ¬ cancellable r.status → r.activeSubject = none
  erasedAt : r.databaseErasedAt.isSome ↔ r.status.erased
  erased : r.status.erased → customers.find submission.customer = none
  tasks : r.status.erased → r.tasks.map (·.system) = externalSystems
  checked : r.status = .completed → ∀ task ∈ r.tasks, task.status ≠ .pending

structure RequestsSound (db : PrivacyDb) : Prop where
  requests : ∀ id r, db.requests.find id = some r → ∃ submission,
    db.submission id = some submission ∧ RequestSound db.customers submission r
  /-- At most one request of a customer has not been cancelled. -/
  one : ∀ i j r r' x y, db.requests.find i = some r → db.requests.find j = some r' →
    db.submission i = some x → db.submission j = some y → x.customer = y.customer →
    r.status ≠ .cancelled → r'.status ≠ .cancelled → i = j
  stored : ∀ x ∈ db.consumptions, (db.requests.find x.request).isSome
  consumed : ∀ x ∈ db.consumptions, ∃ c, db.challenges.find x.challenge = some c ∧ c.consumedAt.isSome
  once : (db.consumptions.map Consumption.challenge).Nodup

def RequestsMove (db db' : PrivacyDb) : Prop :=
  ∀ id, (db.status id = none → db'.status id = none ∨ db'.status id = some .submitted) ∧
    ∀ status, db.status id = some status → ∃ status', db'.status id = some status' ∧
      (status' = status ∨ status.Moves status')

variable {δ : Type} {S : PrivacyService δ} {J : PrivacyRecoveryJournal δ} {db db' : PrivacyDb} {now : Time}

theorem RequestsMove.same (requests : db'.requests = db.requests) : RequestsMove db db' := by
  intro id
  have same : db'.status id = db.status id := by simp only [PrivacyDb.status,requests]
  rw [same]
  exact ⟨.inl,fun status h => ⟨status,h,.inl rfl⟩⟩

theorem RequestsMove.put {r : PrivacyDeletionRequest} (requests : db'.requests = db.requests.put r)
    (born : db.status r.id = none → r.status = .submitted)
    (moves : ∀ status, db.status r.id = some status → r.status = status ∨ status.Moves r.status) :
    RequestsMove db db' := by
  intro id
  by_cases same : id = r.id
  · subst same
    have now : db'.status r.id = some r.status := by simp [PrivacyDb.status,requests]
    rw [now]
    exact ⟨fun absent => .inr (congrArg some (born absent)),fun status h => ⟨_,rfl,moves status h⟩⟩
  · have kept : db'.status id = db.status id := by
      rw [PrivacyDb.status,requests]
      exact congrArg (Option.map _) (Table.find_put_other same)
    rw [kept]
    exact ⟨.inl,fun status h => ⟨status,h,.inl rfl⟩⟩

theorem RequestsMove.set {r : PrivacyDeletionRequest} (r' : PrivacyDeletionRequest) (stored : db.requests.find r.id = some r)
    (id : r'.id = r.id) (requests : db'.requests = db.requests.put r')
    (moves : r'.status = r.status ∨ r.status.Moves r'.status) : RequestsMove db db' := by
  have before : db.status r'.id = some r.status := by rw [id,PrivacyDb.status,stored]; rfl
  refine .put requests (fun absent => ?_) fun status h => ?_
  · simp [before] at absent
  · obtain rfl := Option.some.inj (before.symm.trans h)
    exact moves

theorem RequestStep.moves {id : PrivacyRequestId} (step : RequestStep S db now db' id) :
    RequestsMove db db' := by
  cases step with
  | same => exact .same rfl
  | submitted input audit c customer sourceOrder timeframe accepted fresh inactive =>
    refine .put rfl (fun _ => rfl) fun status h => ?_
    simp [PrivacyDb.status,newRequest,fresh] at h
  | recovered input audit c customer active accepted stored owner =>
    exact .set (recoveredRequest S input now audit active) stored rfl rfl (.inl rfl)
  | cancelled r stored allowed =>
    exact .set (cancelledRequest now r) stored rfl rfl (.inr (.cancel (cancellableIff.mp allowed)))
  | held actor r stored allowed unerased =>
    refine .set (heldRequest now actor r) stored rfl rfl ?_
    rcases cancellableIff.mp allowed with early | early | held
    · exact .inr (.hold (.inl early))
    · exact .inr (.hold (.inr early))
    · exact .inl held.symm
  | erased actor decision p stored subject customer allowed released =>
    refine .set (erasedRequest S decision now actor p.request) stored rfl rfl (.inr (.fulfill ?_))
    rcases cancellableIff.mp allowed with early | early | held
    · exact .inl early
    · exact .inr early
    · exact absurd held released
  | resolved system actor evidence outcome retainUntil r stored =>
    exact .set (externallyResolved system actor outcome evidence retainUntil now r) stored rfl rfl (.inl rfl)
  | completed actor r stored fulfilling =>
    exact .set (completedRequest S now actor r) stored rfl rfl (.inr (fulfilling ▸ .complete))

/-! ### One transition keeps it -/

theorem RequestSound.customers {customers customers' : Customers} {submission : Consumption}
    {r : PrivacyDeletionRequest} (h : RequestSound customers submission r)
    (same : r.status ≠ .cancelled →
      (customers'.find submission.customer).isSome = (customers.find submission.customer).isSome) :
    RequestSound customers' submission r where
  challenge := h.challenge
  waiting open_ := by
    rw [same (by rintro cancelled; simp [cancelled,cancellable] at open_)]
    exact h.waiting open_
  inactive := h.inactive
  erasedAt := h.erasedAt
  erased gone := by
    have live : r.status ≠ .cancelled := by
      rintro cancelled
      simp [cancelled,PrivacyStatus.erased] at gone
    simpa [h.erased gone] using same live
  tasks := h.tasks
  checked := h.checked

theorem RequestsSound.keep (h : RequestsSound db) (requests : db'.requests = db.requests)
    (consumptions : db'.consumptions = db.consumptions)
    (customers : ∀ x ∈ db.consumptions,
      (db'.customers.find x.customer).isSome = (db.customers.find x.customer).isSome)
    (challenges : ∀ id c, db.challenges.find id = some c → c.consumedAt.isSome →
      ∃ c', db'.challenges.find id = some c' ∧ c'.consumedAt.isSome) : RequestsSound db' where
  requests id r hr := by
    rw [requests] at hr
    obtain ⟨x,hx,sound⟩ := h.requests id r hr
    refine ⟨x,by rwa [PrivacyDb.submission,consumptions],sound.customers fun _ => customers x ?_⟩
    exact List.mem_of_find?_eq_some hx
  one := by
    simp only [PrivacyDb.submission,requests,consumptions]
    exact h.one
  stored := by
    rw [requests,consumptions]
    exact h.stored
  consumed x mem := by
    rw [consumptions] at mem
    obtain ⟨c,hc,used⟩ := h.consumed x mem
    exact challenges x.challenge c hc used
  once := consumptions ▸ h.once

theorem setRequestCases {r q : PrivacyDeletionRequest} {id : PrivacyRequestId}
    (hq : (db.requests.put r).find id = some q) :
    id = r.id ∧ q = r ∨ id ≠ r.id ∧ db.requests.find id = some q := by
  rw [Table.find_put] at hq
  split at hq
  · rename_i same
    exact .inl ⟨same.symm,(Option.some.inj hq).symm⟩
  · rename_i differ
    exact .inr ⟨Ne.symm differ,hq⟩

theorem RequestsSound.rewrite (h : RequestsSound db) {r : PrivacyDeletionRequest} (r' : PrivacyDeletionRequest)
    (stored : db.requests.find r.id = some r) (id : r'.id = r.id)
    (requests : db'.requests = db.requests.put r') (consumptions : db'.consumptions = db.consumptions)
    (sound : ∀ x, RequestSound db.customers x r → RequestSound db'.customers x r')
    (live : r'.status ≠ .cancelled → r.status ≠ .cancelled)
    (customers : ∀ i q x, i ≠ r.id → db.requests.find i = some q → db.submission i = some x →
      q.status ≠ .cancelled → (db'.customers.find x.customer).isSome = (db.customers.find x.customer).isSome)
    (challenges : ∀ id c, db.challenges.find id = some c → c.consumedAt.isSome →
      ∃ c', db'.challenges.find id = some c' ∧ c'.consumedAt.isSome) : RequestsSound db' := by
  have submission : ∀ i, db'.submission i = db.submission i := by
    intro i
    rw [PrivacyDb.submission,consumptions]
    rfl
  refine ⟨?_,?_,?_,?_,consumptions ▸ h.once⟩
  · intro i q hq
    rw [submission]
    rcases setRequestCases (requests ▸ hq) with ⟨rfl,rfl⟩ | ⟨differ,hq⟩
    · obtain ⟨x,hx,before⟩ := h.requests r.id r stored
      exact ⟨x,id ▸ hx,sound x before⟩
    · obtain ⟨x,hx,before⟩ := h.requests i q hq
      exact ⟨x,hx,before.customers (customers i q x (id ▸ differ) hq hx)⟩
  · have old : ∀ i q, db'.requests.find i = some q → q.status ≠ .cancelled →
        ∃ p, db.requests.find i = some p ∧ p.status ≠ .cancelled := by
      intro i q hq notCancelled
      rcases setRequestCases (requests ▸ hq) with ⟨rfl,rfl⟩ | ⟨_,hq⟩
      · exact ⟨r,id ▸ stored,live notCancelled⟩
      · exact ⟨q,hq,notCancelled⟩
    intro i j q q' x y hq hq' hx hy owner notCancelled notCancelled'
    obtain ⟨p,hp,open_⟩ := old i q hq notCancelled
    obtain ⟨p',hp',open_'⟩ := old j q' hq' notCancelled'
    exact h.one i j p p' x y hp hp' (submission i ▸ hx) (submission j ▸ hy) owner open_ open_'
  · intro x mem
    rw [requests,Table.find_put]
    split
    · rfl
    · exact h.stored x (consumptions ▸ mem)
  · intro x mem
    obtain ⟨c,hc,used⟩ := h.consumed x (consumptions ▸ mem)
    exact challenges x.challenge c hc used

theorem RequestsSound.set (h : RequestsSound db) {r : PrivacyDeletionRequest} (r' : PrivacyDeletionRequest)
    (stored : db.requests.find r.id = some r) (id : r'.id = r.id)
    (sound : ∀ x, RequestSound db.customers x r → RequestSound db.customers x r')
    (live : r'.status ≠ .cancelled → r.status ≠ .cancelled) : RequestsSound (db.setRequest r') :=
  h.rewrite r' stored id rfl rfl sound live (fun _ _ _ _ _ _ _ => rfl) fun _ c hc used => ⟨c,hc,used⟩

theorem PrivacyDb.consumeSubmission {c : PrivacyChallenge} {request id : PrivacyRequestId}
    {customer : CustomerId} (now : Time) : (db.consume c request customer now).submission id =
      (db.submission id).or (if request = id then some ⟨c.id,request,customer⟩ else none) := by
  simp only [PrivacyDb.submission,PrivacyDb.consume,List.find?_append,List.find?_singleton,decide_eq_true_eq]

theorem Accepted.fresh {c : PrivacyChallenge} {customer : Customer} (accepted : Accepted db c customer)
    (h : RequestsSound db) : c.id ∉ db.consumptions.map Consumption.challenge := by
  intro mem
  obtain ⟨x,hx,same⟩ := List.mem_map.mp mem
  obtain ⟨c',hc',used⟩ := h.consumed x hx
  rw [same,accepted.challenge] at hc'
  cases Option.some.inj hc'
  simp [accepted.unconsumed] at used

theorem Accepted.consume {c : PrivacyChallenge} {customer : Customer} (accepted : Accepted db c customer)
    (h : RequestsSound db) (request : PrivacyRequestId) (now : Time) :
    (∀ x ∈ (db.consume c request customer.id now).consumptions, ∃ used,
      (db.consume c request customer.id now).challenges.find x.challenge = some used ∧
        used.consumedAt.isSome) ∧
    ((db.consume c request customer.id now).consumptions.map Consumption.challenge).Nodup := by
  have fresh := accepted.fresh h
  simp only [PrivacyDb.consume]
  refine ⟨?_,?_⟩
  · intro x mem
    rw [Table.find_put]
    by_cases same : c.id = x.challenge
    · exact ⟨_,if_pos same,rfl⟩
    · rw [if_neg same]
      rcases List.mem_append.mp mem with old | new
      · exact h.consumed x old
      · rw [List.mem_singleton] at new
        exact absurd (by rw [new]) same
  · rw [List.map_append,List.nodup_append]
    refine ⟨h.once,by simp,?_⟩
    intro a old b new same
    simp only [List.map_cons,List.map_nil,List.mem_singleton] at new
    exact fresh (new ▸ same ▸ old)

theorem RequestsSound.recover {c : PrivacyChallenge} {customer : Customer} {active : PrivacyDeletionRequest}
    (h : RequestsSound db) (accepted : Accepted db c customer)
    (stored : db.requests.find active.id = some active) :
    RequestsSound (db.consume c active.id customer.id now) := by
  obtain ⟨consumed,once⟩ := accepted.consume h active.id now
  have kept : ∀ id, (db.requests.find id).isSome →
      (db.consume c active.id customer.id now).submission id = db.submission id := by
    intro id present
    obtain ⟨r,hr⟩ := Option.isSome_iff_exists.mp present
    obtain ⟨x,hx,_⟩ := h.requests id r hr
    rw [PrivacyDb.consumeSubmission,hx]
    rfl
  refine ⟨?_,?_,?_,consumed,once⟩
  · intro id r hr
    rw [kept id (Option.isSome_iff_exists.mpr ⟨r,hr⟩)]
    exact h.requests id r hr
  · intro i j r r' x y hr hr' hx hy
    rw [kept i (Option.isSome_iff_exists.mpr ⟨r,hr⟩)] at hx
    rw [kept j (Option.isSome_iff_exists.mpr ⟨r',hr'⟩)] at hy
    exact h.one i j r r' x y hr hr' hx hy
  · intro x mem
    rcases List.mem_append.mp mem with old | new
    · exact h.stored x old
    · rw [List.mem_singleton.mp new]
      exact Option.isSome_iff_exists.mpr ⟨active,stored⟩

theorem RequestsSound.cancelled {customer : Customer} (h : RequestsSound db)
    (present : db.customers.find customer.id = some customer)
    (inactive : ∀ r ∈ db.requests.rows, r.activeSubject ≠ some customer.id) {id : PrivacyRequestId}
    {r : PrivacyDeletionRequest} {x : Consumption} (hr : db.requests.find id = some r)
    (hx : db.submission id = some x) (owner : x.customer = customer.id) : r.status = .cancelled := by
  obtain ⟨x',hx',sound⟩ := h.requests id r hr
  obtain rfl := Option.some.inj (hx.symm.trans hx')
  rcases statusCases r.status with waiting | cancelled | erased
  · exact absurd (owner ▸ (sound.waiting waiting).2.1) (inactive r (Table.find_some hr).1)
  · exact cancelled
  · have gone := sound.erased erased
    rw [owner,present] at gone
    contradiction

theorem RequestsSound.insert {c : PrivacyChallenge} {customer : Customer} {r : PrivacyDeletionRequest}
    (h : RequestsSound db) (accepted : Accepted db c customer) (fresh : db.requests.find r.id = none)
    (inactive : ∀ other ∈ db.requests.rows, other.activeSubject ≠ some customer.id)
    (sound : RequestSound db.customers ⟨c.id,r.id,customer.id⟩ r) :
    RequestsSound ((db.consume c r.id customer.id now).setRequest r) := by
  obtain ⟨consumed,once⟩ := accepted.consume h r.id now
  have unnamed : db.submission r.id = none := by
    refine List.find?_eq_none.mpr fun x mem named => ?_
    have present := h.stored x mem
    rw [of_decide_eq_true named,fresh] at present
    contradiction
  have rows : ∀ id, id = r.id ∧
      ((db.consume c r.id customer.id now).setRequest r).requests.find id = some r ∧
      ((db.consume c r.id customer.id now).setRequest r).submission id = some ⟨c.id,r.id,customer.id⟩ ∨
      id ≠ r.id ∧
      ((db.consume c r.id customer.id now).setRequest r).requests.find id = db.requests.find id ∧
      ((db.consume c r.id customer.id now).setRequest r).submission id = db.submission id := by
    intro id
    have submission : ((db.consume c r.id customer.id now).setRequest r).submission id =
        (db.submission id).or (if r.id = id then some ⟨c.id,r.id,customer.id⟩ else none) :=
      PrivacyDb.consumeSubmission now
    rw [submission]
    by_cases same : id = r.id
    · subst same
      exact .inl ⟨rfl,Table.find_put_self _ r,by simp [unnamed]⟩
    · exact .inr ⟨same,Table.find_put_other same,by simp [Ne.symm same]⟩
  refine ⟨?_,?_,?_,consumed,once⟩
  · intro id q hq
    rcases rows id with ⟨rfl,new,submission⟩ | ⟨_,old,submission⟩
    · cases Option.some.inj (new.symm.trans hq)
      exact ⟨_,submission,sound⟩
    · rw [submission]
      exact h.requests id q (old ▸ hq)
  · intro i j q q' x y hq hq' hx hy owner live live'
    rcases rows i with ⟨rfl,_,new⟩ | ⟨_,old,submission⟩ <;>
      rcases rows j with ⟨rfl,_,new'⟩ | ⟨_,old',submission'⟩
    · rfl
    · obtain rfl := Option.some.inj (new.symm.trans hx)
      exact absurd (h.cancelled accepted.customer inactive (old' ▸ hq') (submission' ▸ hy) owner.symm) live'
    · obtain rfl := Option.some.inj (new'.symm.trans hy)
      exact absurd (h.cancelled accepted.customer inactive (old ▸ hq) (submission ▸ hx) owner) live
    · exact h.one i j q q' x y (old ▸ hq) (old' ▸ hq') (submission ▸ hx) (submission' ▸ hy) owner live live'
  · intro x mem
    rcases rows x.request with ⟨_,new,_⟩ | ⟨differ,old,_⟩
    · rw [new]
      rfl
    · rw [old]
      rcases List.mem_append.mp mem with mem | mem
      · exact h.stored x mem
      · rw [List.mem_singleton.mp mem] at differ
        exact absurd rfl differ

theorem newRequestSound {input : SubmitInput} {audit : List (String × String)} {c : PrivacyChallenge}
    {customer : Customer} {sourceOrder : Order} {timeframe : String} {customers : Customers}
    (present : customers.find customer.id = some customer) :
    RequestSound customers ⟨c.id,input.id,customer.id⟩
      (newRequest S input now audit c customer sourceOrder timeframe) where
  challenge := rfl
  waiting _ := ⟨rfl,rfl,Option.isSome_iff_exists.mpr ⟨customer,present⟩⟩
  inactive closed := absurd rfl closed
  erasedAt := by simp [newRequest,PrivacyStatus.erased]
  erased := by simp [newRequest,PrivacyStatus.erased]
  tasks := by simp [newRequest,PrivacyStatus.erased]
  checked := by simp [newRequest]

theorem erasedRequestSound {actor : String} {decision : RetentionDecision} {r : PrivacyDeletionRequest}
    {customers : Customers} {x : Consumption} (challenge : x.challenge = r.challengeId)
    (gone : customers.find x.customer = none) (untasked : r.tasks = []) :
    RequestSound customers x (erasedRequest S decision now actor r) where
  challenge := challenge
  waiting open_ := absurd open_ (erasedNotCancellable (.inl rfl))
  inactive _ := rfl
  erasedAt := by simp [erasedRequest,PrivacyStatus.erased]
  erased _ := gone
  tasks _ := by simp [erasedRequest,untasked,Function.comp_def]
  checked closed := by simp [erasedRequest] at closed

theorem RequestsSound.erase {actor : String} {decision : RetentionDecision} {p : Preview}
    (h : RequestsSound db) (stored : db.requests.find p.request.id = some p.request)
    (subject : p.request.subjectId = some p.customer.id) (allowed : cancellable p.request.status)
    (untasked : p.request.tasks = []) :
    RequestsSound ((db.eraseCustomer S p decision now).setRequest
      (erasedRequest S decision now actor p.request)) := by
  have live : p.request.status ≠ .cancelled := by
    intro cancelled
    simp [cancelled,cancellable] at allowed
  have deleted (id : CustomerId) : (db.customers.delete p.customer.id).find id =
      if id = p.customer.id then none else db.customers.find id := Table.find_delete db.customers _ id
  have owner : ∀ x, RequestSound db.customers x p.request → x.customer = p.customer.id :=
    fun x sound => Option.some.inj ((sound.waiting allowed).1.symm.trans subject)
  refine h.rewrite (erasedRequest S decision now actor p.request) stored rfl rfl rfl ?_ (fun _ => live) ?_ ?_
  · intro x sound
    exact erasedRequestSound sound.challenge ((deleted _).trans (if_pos (owner x sound))) untasked
  · intro i q y differ hq hy notCancelled
    obtain ⟨x,hx,sound⟩ := h.requests p.request.id p.request stored
    -- another request of this customer that is not cancelled would be a second one
    have elsewhere : y.customer ≠ p.customer.id := fun same =>
      differ (h.one i p.request.id q p.request y x hq stored hy hx (same.trans (owner x sound).symm)
        notCancelled live)
    exact congrArg Option.isSome ((deleted _).trans (if_neg elsewhere))
  · intro id c hc used
    have revoked := Table.find_update db.challenges (revokedChallenge p.customer.id now)
      (revokedChallengeId p.customer.id now) id
    rw [hc] at revoked
    refine ⟨revokedChallenge p.customer.id now c,revoked,?_⟩
    unfold revokedChallenge
    split
    · rfl
    · exact used

theorem RequestStep.sound {id : PrivacyRequestId} (step : RequestStep S db now db' id)
    (h : RequestsSound db) : RequestsSound db' := by
  cases step with
  | same => exact h
  | submitted input audit c customer sourceOrder timeframe accepted fresh inactive =>
    exact h.insert accepted fresh inactive (newRequestSound accepted.customer)
  | recovered input audit c customer active accepted stored owner =>
    refine (h.recover accepted stored).set (recoveredRequest S input now audit active) stored rfl ?_ id
    intro x sound
    exact { sound with }
  | cancelled r stored allowed =>
    refine h.set (cancelledRequest now r) stored rfl (fun x sound => ?_) (absurd rfl)
    have unerased : r.databaseErasedAt = none := by
      by_contra stamped
      exact erasedNotCancellable (sound.erasedAt.mp (Option.isSome_iff_ne_none.mpr stamped)) allowed
    exact {
      challenge := sound.challenge
      waiting := by simp [cancelledRequest,cancellable]
      inactive := fun _ => rfl
      erasedAt := by simp [cancelledRequest,PrivacyDeletionRequest.advance,unerased,PrivacyStatus.erased]
      erased := by simp [cancelledRequest,PrivacyStatus.erased]
      tasks := by simp [cancelledRequest,PrivacyStatus.erased]
      checked := by simp [cancelledRequest] }
  | held actor r stored allowed unerased =>
    refine h.set (heldRequest now actor r) stored rfl (fun x sound => ?_) (fun _ cancelled => ?_)
    · exact {
        challenge := sound.challenge
        waiting := fun _ => sound.waiting allowed
        inactive := fun closed => absurd rfl closed
        erasedAt := by simp [heldRequest,PrivacyDeletionRequest.advance,unerased,PrivacyStatus.erased]
        erased := by simp [heldRequest,PrivacyStatus.erased]
        tasks := by simp [heldRequest,PrivacyStatus.erased]
        checked := by simp [heldRequest] }
    · simp [cancelled,cancellable] at allowed
  | erased actor decision p stored subject customer allowed released unerased untasked =>
    exact h.erase stored subject allowed untasked
  | resolved system actor evidence outcome retainUntil r stored fulfilling =>
    refine h.set (externallyResolved system actor outcome evidence retainUntil now r) stored rfl
      (fun x sound => ?_) id
    have systems : ∀ task : PrivacyExternalTask, (if task.system.name = system then
        resolvedTask outcome evidence retainUntil now task else task).system = task.system := by
      intro task
      split <;> rfl
    exact { sound with
      tasks := fun erased => by
        have before := sound.tasks erased
        simpa [externallyResolved,Function.comp_def,systems] using before
      checked := fun completed => by
        have status : r.status = .completed := completed
        simp [fulfilling] at status }
  | completed actor r stored fulfilling all done =>
    refine h.set (completedRequest S now actor r) stored rfl (fun x sound => ?_) (fun _ => by simp [fulfilling])
    have before : r.status.erased := .inl fulfilling
    exact {
      challenge := sound.challenge
      waiting := by simp [completedRequest,cancellable]
      inactive := fun _ => sound.inactive (erasedNotCancellable before)
      erasedAt := ⟨fun _ => .inr rfl,fun _ => sound.erasedAt.mpr before⟩
      erased := fun _ => sound.erased before
      tasks := fun _ => sound.tasks before
      checked := fun _ => done }

/-! ### Open transactions -/

/-- The tables as an open transaction has left them. -/
def TransitionPhase.working : TransitionPhase δ → Option PrivacyDb
  | .worked _ _ db | .prepared _ _ db | .acknowledged _ db => some db
  | _ => none

theorem TransitionPhase.workingOpen {phase : TransitionPhase δ} (h : phase.working = some db) :
    phase.open := by
  cases phase <;> first | rfl | simp [TransitionPhase.working] at h

theorem TransitionPhase.workingMapDb (f : PrivacyDb → PrivacyDb) (phase : TransitionPhase δ) :
    (phase.mapDb f).working = phase.working.map f := by
  cases phase <;> rfl

structure LifecycleSound (s : PrivacySystem δ) : Prop where
  published : RequestsSound s.db
  holder : ∀ process p, s.processes process = some p → p.phase.open → s.lock = some process
  working : ∀ process p db, s.processes process = some p → p.phase.working = some db →
    RequestsSound db ∧ RequestsMove s.db db

variable {s t : PrivacySystem δ} {process : ProcessId}

theorem LifecycleSound.update (h : LifecycleSound s) (next : Option (TransitionProcess δ))
    (processes : t.processes = Function.update s.processes process next) (published : t.db = s.db)
    (kept : ∀ other, other ≠ process → s.lock = some other → t.lock = some other)
    (holder : ∀ p, next = some p → p.phase.open → t.lock = some process)
    (working : ∀ p db, next = some p → p.phase.working = some db → RequestsSound db ∧ RequestsMove s.db db) :
    LifecycleSound t where
  published := published ▸ h.published
  holder other p hp open_ := by
    rw [processes] at hp
    rcases updatedProcess hp with ⟨rfl,new⟩ | ⟨differ,hp⟩
    · exact holder p new open_
    · exact kept other differ (h.holder other p hp open_)
  working other p db hp copy := by
    rw [processes] at hp
    rw [published]
    rcases updatedProcess hp with ⟨rfl,new⟩ | ⟨_,hp⟩
    · exact working p db new copy
    · exact h.working other p db hp copy

theorem LifecycleSound.wait (h : LifecycleSound s) {operation : PrivacyOperation} {attempt : Nat}
    (processes : t.processes = Function.update s.processes process (some ⟨operation,attempt,.waiting⟩))
    (published : t.db = s.db) (kept : ∀ other, other ≠ process → s.lock = some other → t.lock = some other) :
    LifecycleSound t := by
  refine h.update _ processes published kept ?_ ?_
  · rintro _ ⟨⟩ open_
    simp [TransitionPhase.open] at open_
  · rintro _ _ ⟨⟩ copy
    simp [TransitionPhase.working] at copy

theorem LifecycleSound.remove (h : LifecycleSound s) (process : ProcessId) :
    LifecycleSound (s.setProcess process none) :=
  h.update none rfl rfl (fun _ _ held => held) (by simp) (by simp)

theorem LifecycleSound.abort (h : LifecycleSound s) (process : ProcessId) :
    LifecycleSound (s.abort process) :=
  h.update none rfl rfl (unlockKeeps (s.setProcess process none) process) (by simp) (by simp)

theorem LifecycleSound.advance (h : LifecycleSound s) {p : TransitionProcess δ}
    (hp : s.processes process = some p) (held : p.phase.open) {phase : TransitionPhase δ}
    (working : ∀ db, phase.working = some db → RequestsSound db ∧ RequestsMove s.db db) :
    LifecycleSound (s.advance process p phase) :=
  h.update (some { p with phase }) rfl rfl (fun _ _ held => held)
    (fun _ _ _ => h.holder process p hp held) (fun q db hq copy => by cases hq; exact working db copy)

/-- A step that touches neither the tables, nor the lock, nor a process. -/
theorem LifecycleSound.aside (h : LifecycleSound s) (published : t.db = s.db) (lock : t.lock = s.lock)
    (processes : t.processes = s.processes) : LifecycleSound t where
  published := published ▸ h.published
  holder := by rw [processes,lock]; exact h.holder
  working := by rw [processes,published]; exact h.working

theorem LifecycleSound.commit [DecidableEq δ] (h : LifecycleSound s)
    (taken : s.step S J (.commit process) = some t) : LifecycleSound t := by
  simp only [PrivacySystem.step,bind,Option.bind_eq_some_iff] at taken
  obtain ⟨p,hp,taken⟩ := taken
  split at taken <;> try contradiction
  rename_i intent db phase
  cases Option.some.inj taken
  have held := h.holder process p hp (by rw [phase]; rfl)
  have idle : ∀ other q, (Function.update s.processes process (some { p with phase := .committed intent })) other =
      some q → q.phase.open → False := by
    intro other q hq open_
    rcases updatedProcess hq with ⟨rfl,new⟩ | ⟨differ,hq⟩
    · cases Option.some.inj new
      simp [TransitionPhase.open] at open_
    · exact differ (Option.some.inj ((h.holder other q hq open_).symm.trans held))
  exact {
    published := (h.working process p db hp (by rw [phase]; rfl)).1
    holder := fun other q hq open_ => (idle other q hq open_).elim
    working := fun other q _ hq copy => (idle other q hq (TransitionPhase.workingOpen copy)).elim }

/-- Under a free lock no transaction is open, so only the published tables matter. -/
theorem LifecycleSound.unlocked (h : LifecycleSound s) (free : ¬ s.lock.isSome) {db : PrivacyDb}
    (published : RequestsSound db) : LifecycleSound { s with db } where
  published := published
  holder := h.holder
  working process p _ hp copy := by
    have held := h.holder process p hp (TransitionPhase.workingOpen copy)
    simp [held] at free

theorem LifecycleSound.mapDb (h : LifecycleSound s) (f g : PrivacyDb → PrivacyDb)
    (published : ∀ db, RequestsSound db → RequestsSound (f db))
    (working : ∀ db, RequestsSound db → RequestsSound (g db))
    (requests : ∀ db, (f db).requests = db.requests ∧ (g db).requests = db.requests) :
    LifecycleSound (s.mapDb f g) where
  published := published s.db h.published
  holder process p hp open_ := by
    simp only [PrivacySystem.mapDb,Option.map_eq_some_iff] at hp
    obtain ⟨q,hq,rfl⟩ := hp
    exact h.holder process q hq (by simpa using open_)
  working process p db hp copy := by
    simp only [PrivacySystem.mapDb,Option.map_eq_some_iff] at hp
    obtain ⟨q,hq,rfl⟩ := hp
    rw [TransitionPhase.workingMapDb,Option.map_eq_some_iff] at copy
    obtain ⟨old,hold,rfl⟩ := copy
    obtain ⟨sound,move⟩ := h.working process q old hq hold
    refine ⟨working old sound,?_⟩
    simp only [RequestsMove,PrivacyDb.status,PrivacySystem.mapDb,requests] at move ⊢
    exact move

theorem LifecycleSound.write (h : LifecycleSound s) {write : ForeignWrite}
    (taken : s.writeForeign write = some t) : LifecycleSound t := by
  have consumed : ∀ id c, s.db.challenges.find id = some c → c.consumedAt.isSome →
      ∃ c', s.db.challenges.find id = some c' ∧ c'.consumedAt.isSome := fun _ c hc used => ⟨c,hc,used⟩
  cases write with
  | issueChallenge c =>
    simp only [PrivacySystem.writeForeign] at taken
    split at taken <;> try contradiction
    rename_i guard
    simp only [not_or] at guard
    cases Option.some.inj taken
    refine h.unlocked guard.1 (h.published.keep rfl rfl (fun _ _ => rfl) ?_)
    intro id old hold used
    refine ⟨old,?_,used⟩
    have differ : id ≠ c.id := by
      rintro rfl
      simp [hold] at guard
    exact (Table.find_put_other differ).trans hold
  | updateChallenge c =>
    simp only [PrivacySystem.writeForeign,bind,Option.bind_eq_some_iff] at taken
    obtain ⟨old,hold,taken⟩ := taken
    split at taken <;> try contradiction
    rename_i guard
    simp only [not_or,not_and] at guard
    cases Option.some.inj taken
    refine h.unlocked guard.1 (h.published.keep rfl rfl (fun _ _ => rfl) ?_)
    intro id before hbefore used
    simp only [Table.find_put]
    split
    · rename_i same
      subst same
      obtain rfl := Option.some.inj (hold.symm.trans hbefore)
      exact ⟨c,rfl,by simpa [Option.isSome_iff_ne_none] using guard.2 used⟩
    · exact ⟨before,hbefore,used⟩
  | access credential =>
    simp only [PrivacySystem.writeForeign] at taken
    split at taken <;> try contradiction
    rename_i free
    cases Option.some.inj taken
    exact h.unlocked free (h.published.keep rfl rfl (fun _ _ => rfl) consumed)
  | createCustomer c =>
    simp only [PrivacySystem.writeForeign] at taken
    split at taken <;> try contradiction
    rename_i guard
    simp only [not_or] at guard
    cases Option.some.inj taken
    refine h.unlocked guard.1 (h.published.keep rfl rfl (fun x mem => ?_) consumed)
    have differ : x.customer ≠ c.id := fun same => guard.2.2 (same ▸ List.mem_map_of_mem mem)
    exact congrArg Option.isSome (Table.find_put_other differ)
  | editCustomer c =>
    cases Option.some.inj taken
    have keeps : ∀ db : PrivacyDb, RequestsSound db → RequestsSound (if (db.customers.find c.id).isSome then
        { db with customers := db.customers.put c } else db) := by
      intro db sound
      split
      · rename_i present
        refine sound.keep rfl rfl (fun x _ => ?_) fun _ c hc used => ⟨c,hc,used⟩
        simp only [Table.find_put]
        split
        · rename_i same
          rw [← same,present]
          rfl
        · rfl
      · exact sound
    refine h.mapDb _ _ keeps keeps fun db => ?_
    split <;> exact ⟨rfl,rfl⟩
  | others published working =>
    cases Option.some.inj taken
    exact h.mapDb _ _ (fun db sound => sound.keep rfl rfl (fun _ _ => rfl) fun _ c hc used => ⟨c,hc,used⟩)
      (fun db sound => sound.keep rfl rfl (fun _ _ => rfl) fun _ c hc used => ⟨c,hc,used⟩)
      fun _ => ⟨rfl,rfl⟩

theorem LifecycleSound.step [DecidableEq δ] (h : LifecycleSound s) {a : PrivacyAction δ}
    (taken : s.step S J a = some t) : LifecycleSound t := by
  cases a with
  | write write => exact h.write taken
  | commit => exact h.commit taken
  | start process operation now =>
    simp only [PrivacySystem.step] at taken
    split at taken <;> try contradiction
    split at taken <;> try contradiction
    cases Option.some.inj taken
    exact h.wait rfl rfl fun _ _ held => held
  | acquire process =>
    simp only [PrivacySystem.step,bind,Option.bind_eq_some_iff] at taken
    obtain ⟨p,hp,taken⟩ := taken
    split at taken <;> try contradiction
    split at taken <;> try contradiction
    rename_i free
    cases Option.some.inj taken
    refine h.update _ rfl rfl (fun other _ held => ?_) (fun _ _ _ => rfl) ?_
    · simp [held] at free
    · rintro _ _ ⟨⟩ copy
      simp [TransitionPhase.working] at copy
  | check process =>
    simp only [PrivacySystem.step,bind,Option.bind_eq_some_iff] at taken
    obtain ⟨p,hp,taken⟩ := taken
    split at taken <;> try contradiction
    rename_i phase
    split at taken <;> cases Option.some.inj taken
    · exact h.advance hp (by rw [phase]; rfl) (by simp [TransitionPhase.working])
    · exact h.abort process
  | work process now =>
    simp only [PrivacySystem.step,bind,Option.bind_eq_some_iff] at taken
    obtain ⟨p,hp,taken⟩ := taken
    split at taken <;> try contradiction
    rename_i phase
    split at taken <;> cases Option.some.inj taken
    · rename_i db reply worked
      have step := workSource worked
      refine h.advance hp (by rw [phase]; rfl) fun db copy => ?_
      cases Option.some.inj copy
      exact ⟨step.sound h.published,step.moves⟩
    · exact h.abort process
  | record process =>
    simp only [PrivacySystem.step,bind,Option.bind_eq_some_iff] at taken
    obtain ⟨p,hp,taken⟩ := taken
    split at taken <;> try contradiction
    rename_i phase
    split at taken <;> cases Option.some.inj taken
    · refine h.advance hp (by rw [phase]; rfl) fun db copy => h.working process p db hp ?_
      rw [phase]
      exact copy
    · exact h.abort process
  | append process =>
    simp only [PrivacySystem.step,bind,Option.bind_eq_some_iff] at taken
    obtain ⟨p,hp,taken⟩ := taken
    split at taken <;> try contradiction
    rename_i head intent db phase
    split at taken <;> cases Option.some.inj taken
    · refine LifecycleSound.aside (s := s.advance process p (.acknowledged intent db)) ?_ rfl rfl rfl
      refine h.advance hp (by rw [phase]; rfl) fun db copy => h.working process p db hp ?_
      rw [phase]
      exact copy
    · exact h.abort process
  | loseAcknowledgement process =>
    simp only [PrivacySystem.step,bind,Option.bind_eq_some_iff] at taken
    obtain ⟨p,hp,taken⟩ := taken
    split at taken <;> try contradiction
    cases Option.some.inj taken
    exact (h.abort process).aside rfl rfl rfl
  | conflict process =>
    simp only [PrivacySystem.step,bind,Option.bind_eq_some_iff] at taken
    obtain ⟨p,hp,taken⟩ := taken
    split at taken <;> try contradiction
    cases Option.some.inj taken
    exact h.wait rfl rfl (unlockKeeps (s.setProcess process _) process)
  | complete process =>
    simp only [PrivacySystem.step,bind,Option.bind_eq_some_iff] at taken
    obtain ⟨p,hp,taken⟩ := taken
    split at taken <;> try contradiction
    split at taken <;> cases Option.some.inj taken
    · exact (h.remove process).aside rfl rfl rfl
    · exact h.remove process
  | loseCompletion process =>
    simp only [PrivacySystem.step,bind,Option.bind_eq_some_iff] at taken
    obtain ⟨p,hp,taken⟩ := taken
    split at taken <;> try contradiction
    cases Option.some.inj taken
    exact (h.remove process).aside rfl rfl rfl
  | fail process =>
    simp only [PrivacySystem.step,bind,Option.bind_eq_some_iff] at taken
    obtain ⟨p,hp,taken⟩ := taken
    cases Option.some.inj taken
    exact h.abort process
  | arrive index =>
    simp only [PrivacySystem.step,bind,Option.bind_eq_some_iff] at taken
    obtain ⟨_,_,taken⟩ := taken
    split at taken <;> cases Option.some.inj taken <;> exact h.aside rfl rfl rfl
  | resolve =>
    simp only [PrivacySystem.step] at taken
    split at taken <;> try contradiction
    split at taken <;> try contradiction
    cases Option.some.inj taken
    exact h.aside rfl rfl rfl

/-! ### Every run -/

theorem initialLifecycle {initial : PrivacyDb} (empty : initial.requests = Table.empty)
    (unused : initial.consumptions = []) : LifecycleSound (PrivacySystem.initial J initial) where
  published := by
    constructor <;> simp [PrivacySystem.initial,PrivacyDb.submission,empty,unused]
  holder := by simp [PrivacySystem.initial]
  working := by simp [PrivacySystem.initial]

section Runs
variable [DecidableEq δ] {initial : PrivacyDb}

theorem reachableLifecycle (empty : initial.requests = Table.empty) (unused : initial.consumptions = [])
    (h : PrivacySystem.Reachable S J initial s) : LifecycleSound s :=
  Transition.Reachable.invariant h (initialLifecycle empty unused) fun _ _ _ sound taken => sound.step taken

theorem LifecycleSound.moves (h : LifecycleSound s) {a : PrivacyAction δ}
    (taken : s.step S J a = some t) : RequestsMove s.db t.db := by
  rcases tablesSource taken with same | ⟨write,_,foreign⟩ | ⟨process,p,e,_,hp,phase⟩
  · exact .same (by rw [same])
  · exact .same (foreignRequests foreign)
  · exact (h.working process p t.db hp (by rw [phase]; rfl)).2

end Runs

/-- The histories a request can have had. -/
def requestHistories : List (List PrivacyStatus) :=
  [[],[.submitted],[.submitted,.hold],[.submitted,.cancelled],[.submitted,.hold,.cancelled],
   [.submitted,.fulfilling],[.submitted,.fulfilling,.completed]]

theorem closedNeverLeft {status next : PrivacyStatus} (closed : status = .cancelled ∨ status = .completed) :
    ¬ status.Moves next := by
  rcases closed with rfl | rfl <;> rintro (early | early | early) <;> simp at early

theorem pathFromHold {later : List PrivacyStatus}
    (path : (PrivacyStatus.hold::later).IsChain PrivacyStatus.Moves) : later = [] ∨ later = [.cancelled] := by
  cases later with
  | nil => exact .inl rfl
  | cons next rest =>
    obtain ⟨move,tail⟩ := List.isChain_cons_cons.mp path
    cases move with
    | cancel => exact .inr (by rw [Transition.pathEnds tail fun _ => closedNeverLeft (.inl rfl)])
    | hold early | fulfill early => simp at early

theorem pathFromFulfilling {later : List PrivacyStatus}
    (path : (PrivacyStatus.fulfilling::later).IsChain PrivacyStatus.Moves) :
    later = [] ∨ later = [.completed] := by
  cases later with
  | nil => exact .inl rfl
  | cons next rest =>
    obtain ⟨move,tail⟩ := List.isChain_cons_cons.mp path
    cases move with
    | complete => exact .inr (by rw [Transition.pathEnds tail fun _ => closedNeverLeft (.inr rfl)])
    | hold early | cancel early | fulfill early => simp at early

theorem pathHistories {later : List PrivacyStatus}
    (path : (PrivacyStatus.submitted::later).IsChain PrivacyStatus.Moves) :
    .submitted::later ∈ requestHistories := by
  cases later with
  | nil => simp [requestHistories]
  | cons next rest =>
    obtain ⟨move,tail⟩ := List.isChain_cons_cons.mp path
    cases move with
    | hold => rcases pathFromHold tail with rfl | rfl <;> simp [requestHistories]
    | cancel =>
      obtain rfl := Transition.pathEnds tail fun _ => closedNeverLeft (.inl rfl)
      simp [requestHistories]
    | fulfill => rcases pathFromFulfilling tail with rfl | rfl <;> simp [requestHistories]

/-- In every run each request is submitted and then follows one of the listed paths.
Its customer is gone, and its erasure recorded, exactly once fulfilment has started; it
completes with all external systems settled, a customer has at most one request that
is not cancelled, and no challenge is consumed twice. -/
theorem requestLifecycle [DecidableEq δ] {initial : PrivacyDb} (empty : initial.requests = Table.empty)
    (unused : initial.consumptions = []) {actions : List (PrivacyAction δ)} {states : List (PrivacySystem δ)}
    (ran : Transition.visited (PrivacySystem.step S J) (PrivacySystem.initial J initial) actions =
      some states) :
    (∀ id, (Transition.history (fun s => s.db.status id) states).IsChain PrivacyStatus.Moves ∧
      Transition.history (fun s => s.db.status id) states ∈ requestHistories) ∧
    ∀ s ∈ states,
      (∀ id r, s.db.requests.find id = some r → ∃ submission, s.db.submission id = some submission ∧
        submission.challenge = r.challengeId ∧
        r.activeSubject = (if cancellable r.status then some submission.customer else none) ∧
        (cancellable r.status → (s.db.customers.find submission.customer).isSome) ∧
        (r.databaseErasedAt.isSome ↔ r.status = .fulfilling ∨ r.status = .completed) ∧
        (r.databaseErasedAt.isSome ∧ s.db.customers.find submission.customer = none ↔
          r.status = .fulfilling ∨ r.status = .completed) ∧
        (r.status = .completed → r.tasks.map (·.system) = externalSystems ∧
          ∀ task ∈ r.tasks, task.status ≠ .pending)) ∧
      (∀ i j r r' x y, s.db.requests.find i = some r → s.db.requests.find j = some r' →
        s.db.submission i = some x → s.db.submission j = some y → x.customer = y.customer →
        r.status ≠ .cancelled → r'.status ≠ .cancelled → i = j) ∧
      (s.db.consumptions.map Consumption.challenge).Nodup := by
  obtain ⟨later,rfl⟩ := Transition.visitedHead ran
  have chain := Transition.visitedChain .start ran
  refine ⟨fun id => ?_,fun s mem => ?_⟩
  · have unborn : (PrivacySystem.initial J initial).db.status id = none := by
      simp [PrivacySystem.initial,PrivacyDb.status,empty]
    have step : ∀ s t, (Transition.Reachable (PrivacySystem.step S J) (PrivacySystem.initial J initial) s ∧
        ∃ a, s.step S J a = some t) → RequestsMove s.db t.db := by
      rintro s t ⟨reached,_,taken⟩
      exact (reachableLifecycle empty unused reached).moves taken
    have path := Transition.historyPath (fun s t next => (step s t next id).1)
      (fun s t status next => (step s t next id).2 status) unborn chain
    refine ⟨path.1,?_⟩
    rcases path.2 with none | ⟨later,start⟩
    · simp [none,requestHistories]
    · rw [start] at path ⊢
      exact pathHistories path.1
  · have sound := (reachableLifecycle empty unused
      (Transition.visitedReachable .start ran s mem)).published
    refine ⟨fun id r hr => ?_,sound.one,sound.once⟩
    obtain ⟨x,hx,request⟩ := sound.requests id r hr
    refine ⟨x,hx,request.challenge,?_,fun waiting => (request.waiting waiting).2.2,request.erasedAt,?_,?_⟩
    · split
      · exact (request.waiting (by assumption)).2.1
      · exact request.inactive (by assumption)
    · exact ⟨fun gone => request.erasedAt.mp gone.1,
        fun erased => ⟨request.erasedAt.mpr erased,request.erased erased⟩⟩
    · exact fun completed => ⟨request.tasks (.inr completed),request.checked completed⟩

def sampleDecision : RetentionDecision where
  policyReference := "retention policy 1"
  justification := "six years of tax records"
  taxYearEnd := "1970-12-31"
  financialRetainUntil := 220924800000
  personalFields := []
  financialFields := retainedFinancialFields
  unlinkedRecordsReviewed := true
  confirmed := true

/-- One transition, from its start to the acknowledgement of its outcome. -/
def transitionSteps (process : ProcessId) (operation : PrivacyOperation) (now : Time) :
    List (PrivacyAction RecoveryEvidence) :=
  [.start process operation now,.acquire process,.check process,.work process now,
   .record process operation.event,.append process,.commit process,.complete process]

def deletionRun : List (PrivacyAction RecoveryEvidence) :=
  transitionSteps 0 sampleSubmission 2 ++
  transitionSteps 0 (.fulfill "request" "admin" 0 "customer" sampleDecision) 3 ++
  (externalSystems.flatMap fun system =>
    transitionSteps 0 (.resolveExternal "request" "admin" system.name "checked by hand" none) 4) ++
  transitionSteps 0 (.complete "request" "admin") 5


theorem deletionRunLifecycle : ∃ states,
    Transition.visited (PrivacySystem.step sampleService sampleJournal)
      (PrivacySystem.initial sampleJournal verifiedDb) deletionRun = some states ∧
    Transition.history (fun s => s.db.status "request") states = [.submitted,.fulfilling,.completed] ∧
    (Transition.history (fun s => s.db.status "request") states).IsChain PrivacyStatus.Moves := by
  have ends : (Transition.visited (PrivacySystem.step sampleService sampleJournal)
      (PrivacySystem.initial sampleJournal verifiedDb) deletionRun).map
        (Transition.history fun s => s.db.status "request") = some [.submitted,.fulfilling,.completed] := by
    decide +kernel
  obtain ⟨states,ran,path⟩ := Option.map_eq_some_iff.mp ends
  exact ⟨states,ran,path,((requestLifecycle rfl rfl ran).1 "request").1⟩

end SpeedySweeties
