import SpeedySweeties.Library.TableWrites
import SpeedySweeties.Recovery.Reconcile

/-! What a judged case satisfies, and what one case of a reconciliation changes. -/
namespace SpeedySweeties

variable {δ : Type} {S : PrivacyService δ} {digestKey : String} {states : List RecoveryState}
  {t t' : RestoredDb} {state : RecoveryState} {verdict : CaseVerdict} {now : Time}

/-! ### Judgement -/

/-- The request row is no later than the case, and neither are its task rows. -/
structure RequestJudged (state : RecoveryState) (current : PrivacyDeletionRequest) : Prop where
  version : current.version ≤ state.request.version
  updated : current.updatedAt ≤ state.request.updatedAt
  held : state.request.databaseErasedAt.isSome → current.status ∉ [PrivacyStatus.cancelled,.hold]
  tasks : ∀ task ∈ current.tasks, ∃ recorded, state.task? task.system = some recorded ∧
    laterDate task.reviewedAt recorded.reviewedAt = false ∧ laterDate task.retainUntil recorded.retainUntil = false

structure OrderJudged (S : PrivacyService δ) (state : RecoveryState) (o : OrderRows) : Prop where
  bound : ∃ bound, state.scope.orders.find? (·.id = o.id) = some bound ∧ S.financialHash o = bound.financialHash ∧
    (erasedRow o = false → o.order.customerId = some state.scope.subjectId ∧ S.identityHash o.order = bound.identityHash)
  held : ∀ decision, state.decision = some decision → ∀ time, o.order.privacyRetainUntil = some time →
    time ≤ decision.financialRetainUntil

structure ScopeJudged (S : PrivacyService δ) (state : RecoveryState) (db : PrivacyDb) : Prop where
  whole : (state.ordersIn db).length = state.scope.orders.length
  owner : ∀ c, db.customers.find state.scope.subjectId = some c → S.ownerHash c = state.scope.ownerHash
  closed : ∀ o ∈ db.other.orders.rows, o.order.customerId = some state.scope.subjectId → o.id ∈ state.orderIds
  orders : ∀ o ∈ state.ordersIn db, OrderJudged S state o

/-- An erasure that the history has decided under this key. -/
structure CaseDecided (S : PrivacyService δ) (digestKey : String) (state : RecoveryState) (marker : PrivacyDeletedIdentity) :
    Prop where
  decided : state.decision.isSome
  marked : state.marker = some marker
  key : marker.keyFingerprint = S.digest digestKey
  status : state.request.status ∉ [PrivacyStatus.cancelled,.hold]

structure ErasureJudged (S : PrivacyService δ) (digestKey : String) (state : RecoveryState) (db : PrivacyDb)
    (marker : PrivacyDeletedIdentity) : Prop extends CaseDecided S digestKey state marker where
  prior : ∀ prior, db.identities.find state.scope.phoneHash = some prior →
    prior.createdAt = marker.createdAt ∧ prior.reviewAt ≤ marker.reviewAt

structure ReplayJudged (state : RecoveryState) (db : PrivacyDb) (customer : Customer) : Prop where
  present : db.customers.find state.scope.subjectId = some customer
  whole : ∀ o ∈ state.ordersIn db, erasedRow o = false
  source : ∃ o ∈ state.ordersIn db, o.id = state.request.sourceOrderId
  linked : ∀ o ∈ db.other.orders.rows, ¬ (o.order.customerId = none ∧ o.order.privacyErasedAt = none ∧
    phoneDigits o.order.phone = customer.normalizedPhone)
  finished : ∀ o ∈ state.ordersIn db, o.order.orderStatus ∈ closedStatuses

inductive VerdictJudged (S : PrivacyService δ) (digestKey : String) (states : List RecoveryState) (state : RecoveryState)
    (db : PrivacyDb) : CaseVerdict → Prop where
  | preserved (unerased : state.request.databaseErasedAt = none)
      (agrees : (∃ c, db.customers.find state.scope.subjectId = some c) ∧ (∀ o ∈ state.ordersIn db, erasedRow o = false) ∨
        laterErasure states state = true) : VerdictJudged S digestKey states state db .preserved
  | erased (marker : PrivacyDeletedIdentity) (since : state.request.databaseErasedAt.isSome)
      (judged : ErasureJudged S digestKey state db marker) (gone : db.customers.find state.scope.subjectId = none)
      (all : ∀ o ∈ state.ordersIn db, erasedRow o = true) : VerdictJudged S digestKey states state db (.erased marker)
  | replay (customer : Customer) (erasedAt : Time) (decision : RecoveryDecision) (marker : PrivacyDeletedIdentity)
      (since : state.request.databaseErasedAt = some erasedAt) (decided : state.decision = some decision)
      (judged : ErasureJudged S digestKey state db marker) (replay : ReplayJudged state db customer) :
      VerdictJudged S digestKey states state db (.replay customer erasedAt decision marker)

structure CaseJudged (S : PrivacyService δ) (digestKey : String) (states : List RecoveryState) (state : RecoveryState)
    (db : PrivacyDb) (verdict : CaseVerdict) : Prop where
  request : ∀ current, db.requests.find state.id = some current → RequestJudged state current
  scope : ScopeJudged S state db
  verdict : VerdictJudged S digestKey states state db verdict

theorem judgeTaskOk {task : PrivacyExternalTask} {u : Unit} : judgeTask state task = .ok u ↔
    ∃ recorded, state.task? task.system = some recorded ∧ laterDate task.reviewedAt recorded.reviewedAt = false ∧
      laterDate task.retainUntil recorded.retainUntil = false := by
  simp [judgeTask,requireOk,Option.any_eq_true]

theorem judgeOrderOk {o : OrderRows} {u : Unit} : judgeOrder S state o = .ok u ↔ OrderJudged S state o := by
  simp only [judgeOrder,bindOk,foundOk,requireOk,decide_eq_true_eq]
  constructor
  · rintro ⟨bound,own,_,financial,_,owned,held⟩
    refine ⟨⟨bound,own,financial,fun whole => ?_⟩,fun decision decided time until_ => ?_⟩
    · simpa [whole] using owned
    · simpa [decided,until_] using held
  · rintro ⟨⟨bound,own,financial,owned⟩,held⟩
    refine ⟨bound,own,(),financial,(),?_,?_⟩
    · cases whole : erasedRow o
      · exact .inr (owned whole)
      · exact .inl rfl
    · simpa [Option.any_eq_true] using held

theorem judgeScopeOk {db : PrivacyDb} {u : Unit} :
    (judgeScope S db state = .ok u ∧ ∀ o ∈ state.ordersIn db, judgeOrder S state o = .ok ()) ↔ ScopeJudged S state db := by
  simp only [judgeScope,bindOk,requireOk,decide_eq_true_eq,judgeOrderOk]
  constructor
  · rintro ⟨⟨_,whole,_,owner,closed⟩,orders⟩
    exact ⟨whole,by simpa [Option.all_eq_true] using owner,
      by simpa only [List.all_eq_true,decide_eq_true_eq,not_and,not_not] using closed,orders⟩
  · rintro ⟨whole,owner,closed,orders⟩
    exact ⟨⟨(),whole,(),by simpa [Option.all_eq_true] using owner,
      by simpa only [List.all_eq_true,decide_eq_true_eq,not_and,not_not] using closed⟩,orders⟩

theorem judgeErasedOk {db : PrivacyDb} {erasedAt : Time} (since : state.request.databaseErasedAt = some erasedAt) :
    judgeErased S digestKey db state erasedAt = .ok verdict ↔ VerdictJudged S digestKey states state db verdict := by
  simp only [judgeErased,bindOk,foundOk,requireOk,decide_eq_true_eq]
  constructor
  · rintro ⟨decision,decided,marker,marked,_,⟨key,status⟩,_,prior,ok⟩
    have judged : ErasureJudged S digestKey state db marker :=
      ⟨⟨by simp [decided],marked,key,status⟩,by simpa [Option.all_eq_true] using prior⟩
    split at ok
    · rename_i customer present
      simp only [bindOk,requireOk,decide_eq_true_eq,pureOk] at ok
      obtain ⟨_,⟨whole,source⟩,_,⟨linked,finished⟩,rfl⟩ := ok
      refine .replay customer erasedAt decision marker since decided judged ⟨present,?_,?_,?_,?_⟩
      · simpa [List.any_eq_true] using whole
      · simpa using source
      · simpa only [List.all_eq_true,decide_eq_true_eq] using linked
      · simpa [List.all_eq_true] using finished
    · rename_i gone
      simp only [bindOk,requireOk,pureOk] at ok
      obtain ⟨_,all,rfl⟩ := ok
      exact .erased marker (by simp [since]) judged gone (by simpa [List.all_eq_true] using all)
  · intro judged
    cases judged with
    | preserved unerased => simp [since] at unerased
    | erased marker _ judged gone all =>
      obtain ⟨decision,decided⟩ := Option.isSome_iff_exists.mp judged.decided
      refine ⟨decision,decided,marker,judged.marked,(),⟨judged.key,judged.status⟩,(),
        by simpa [Option.all_eq_true] using judged.prior,?_⟩
      rw [gone]
      exact bindOk.mpr ⟨(),requireOk.mpr (List.all_eq_true.mpr all),rfl⟩
    | replay customer at_ decision marker since' decided judged replay =>
      cases since.symm.trans since'
      refine ⟨decision,decided,marker,judged.marked,(),⟨judged.key,judged.status⟩,(),
        by simpa [Option.all_eq_true] using judged.prior,?_⟩
      rw [replay.present]
      simp only [bindOk,requireOk,decide_eq_true_eq,pureOk]
      refine ⟨(),⟨by simpa [List.any_eq_true] using replay.whole,?_⟩,(),⟨?_,?_⟩,trivial⟩
      · obtain ⟨o,mem,source⟩ := replay.source
        exact List.mem_map.mpr ⟨o,mem,source⟩
      · simpa only [List.all_eq_true,decide_eq_true_eq] using replay.linked
      · simpa [List.all_eq_true] using replay.finished

theorem judgeUnerasedOk {db : PrivacyDb} (unerased : state.request.databaseErasedAt = none) :
    (do
      require (((db.customers.find state.scope.subjectId).isSome ∧ ¬ (state.ordersIn db).any erasedRow) ∨
        laterErasure states state) (.recovery "RECOVERY_NON_ERASURE_CONFLICT")
      pure CaseVerdict.preserved : Except PrivacyFailure CaseVerdict) = .ok verdict ↔
    VerdictJudged S digestKey states state db verdict := by
  simp only [bindOk,requireOk,decide_eq_true_eq,pureOk]
  constructor
  · rintro ⟨_,agrees,rfl⟩
    refine .preserved unerased ?_
    simpa [Option.isSome_iff_exists,List.any_eq_true] using agrees
  · intro judged
    cases judged with
    | preserved _ agrees =>
      exact ⟨(),by simpa [Option.isSome_iff_exists,List.any_eq_true] using agrees,rfl⟩
    | erased _ since => simp [unerased] at since
    | replay _ _ _ _ since => simp [unerased] at since

theorem judgeCaseOk {db : PrivacyDb} :
    judgeCase S digestKey states db state = .ok verdict ↔ CaseJudged S digestKey states state db verdict := by
  simp only [judgeCase,bindOk,forMOk]
  have requests {u : Unit} : (judgeRequest (db.requests.find state.id) state = .ok u ∧
      ∀ task ∈ ((db.requests.find state.id).map (·.tasks)).getD [], judgeTask state task = .ok ()) ↔
      ∀ current, db.requests.find state.id = some current → RequestJudged state current := by
    cases row : db.requests.find state.id with
    | none => simp [judgeRequest,pureOk]
    | some current =>
      simp only [judgeRequest,bindOk,requireOk,decide_eq_true_eq,judgeTaskOk,Option.map_some,Option.getD_some,
        Option.some.injEq,forall_eq']
      constructor
      · rintro ⟨⟨_,newer,held⟩,tasks⟩
        obtain ⟨version,updated⟩ := not_or.mp newer
        refine ⟨Nat.le_of_not_lt version,Nat.le_of_not_lt updated,fun erased status => held ⟨status,erased⟩,tasks⟩
      · rintro ⟨version,updated,held,tasks⟩
        refine ⟨⟨(),not_or.mpr ⟨Nat.not_lt.mpr version,Nat.not_lt.mpr updated⟩,?_⟩,tasks⟩
        rintro ⟨status,erased⟩
        exact held erased status
  constructor
  · rintro ⟨_,request,_,tasks,_,scope,_,orders,ok⟩
    refine ⟨requests.mp ⟨request,tasks⟩,judgeScopeOk.mp ⟨scope,orders⟩,?_⟩
    split at ok
    · rename_i unerased
      exact (judgeUnerasedOk unerased).mp ok
    · rename_i since
      exact (judgeErasedOk since).mp ok
  · rintro ⟨request,scope,judged⟩
    obtain ⟨first,tasks⟩ := (requests (u := ())).mpr request
    obtain ⟨scope,orders⟩ := (judgeScopeOk (u := ())).mpr scope
    refine ⟨(),first,(),tasks,(),scope,(),orders,?_⟩
    split
    · rename_i unerased
      exact (judgeUnerasedOk unerased).mpr judged
    · rename_i since
      exact (judgeErasedOk since).mpr judged

end SpeedySweeties
