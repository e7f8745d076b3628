import SpeedySweeties.Privacy.RequestLifecycle
import SpeedySweeties.Recovery.ReconcileFaithful

/-! What a reconciliation does to a restored database: each case of the history is in it
afterwards and the rest is left alone, nothing newer is overwritten, and a dry run
accepts whenever the run itself would. -/
namespace SpeedySweeties

variable {δ : Type} [DecidableEq δ] {S : PrivacyService δ} {J : PrivacyRecoveryJournal δ} {digestKey : String}
  {entries advanced : List (RecoveryEntry δ)} {history : Inspection δ} {dryRun : Bool} {now : Time} {t t' : RestoredDb}
  {report : Reconciled}

theorem reconcileOk : reconcileRecoveryTransaction S J entries advanced digestKey dryRun now t = .ok (t',report) ↔
    ∃ history current erased preserved, J.ready entries = .ok history ∧
      judgeKnown S digestKey t.db history.cases = .ok () ∧
      history.cases.rows.foldlM (reconcileCase S digestKey dryRun now history.cases.rows) (t,0,0) =
        .ok (t',erased,preserved) ∧
      J.ready advanced = .ok current ∧ current.prior = history.prior ∧
      report = ⟨history.cases.rows.length,erased,preserved,!dryRun⟩ := by
  simp only [reconcileRecoveryTransaction,bindOk,requireOk,decide_eq_true_eq,pureOk,Prod.mk.injEq,Prod.exists]
  constructor
  · rintro ⟨history,ready,_,known,_,erased,preserved,ran,current,again,_,same,rfl,rfl⟩
    exact ⟨history,current,erased,preserved,ready,known,ran,again,same,rfl⟩
  · rintro ⟨history,current,erased,preserved,ready,known,ran,again,same,rfl⟩
    exact ⟨history,ready,(),known,t',erased,preserved,ran,current,again,(),same,rfl,rfl⟩

structure Known (S : PrivacyService δ) (digestKey : String) (db : PrivacyDb) (cases : RecoveryCases) : Prop where
  requests : ∀ r ∈ db.requests.rows, ∃ s ∈ cases.rows, s.id = r.id
  key : ∀ m ∈ db.identities.rows, m.keyFingerprint = S.digest digestKey
  markers : ∀ m ∈ db.identities.rows, ∃ s ∈ cases.rows, ∃ marker, s.marker = some marker ∧ marker.phoneHash = m.phoneHash

omit [DecidableEq δ] in
theorem judgeKnownOk {db : PrivacyDb} {cases : RecoveryCases} {u : Unit} :
    judgeKnown S digestKey db cases = .ok u ↔ Known S digestKey db cases := by
  have present (r : PrivacyDeletionRequest) : (cases.find r.id).isSome ↔ ∃ s ∈ cases.rows, s.id = r.id := by
    constructor
    · intro some
      obtain ⟨s,own⟩ := Option.isSome_iff_exists.mp some
      exact ⟨s,(Table.find_some own).1,(Table.find_some own).2⟩
    · rintro ⟨s,mem,same⟩
      have own := Table.find_of_mem mem
      rw [show s.request.id = r.id from same] at own
      simp [own]
  simp only [judgeKnown,bindOk,requireOk,List.all_eq_true,List.any_eq_true,decide_eq_true_eq,Option.any_eq_true,present]
  constructor
  · rintro ⟨_,requests,_,key,markers⟩
    exact ⟨requests,key,markers⟩
  · rintro ⟨requests,key,markers⟩
    exact ⟨(),requests,(),key,markers⟩

omit [DecidableEq δ] in
theorem casesDistinct (cases : RecoveryCases) : (cases.rows.map (·.id)).Nodup := cases.unique

/-- The unique index of the task rows. -/
def UniqueTasks (t : RestoredDb) : Prop := ∀ r ∈ t.db.requests.rows, (r.tasks.map (·.system)).Nodup

theorem reconcileReplays (ready : J.ready entries = .ok history) (recorded : ∀ s ∈ history.cases.rows, RecordedCase S s)
    (unique : UniqueTasks t)
    (ok : reconcileRecoveryTransaction S J entries advanced digestKey false now t = .ok (t',report)) :
    Replayed now history.cases.rows t t' ∧ Known S digestKey t.db history.cases ∧
      report.preserved = history.cases.rows.countP unerasedCase := by
  obtain ⟨_,_,erased,preserved,ready',known,ran,_,_,rfl⟩ := reconcileOk.mp ok
  cases ready.symm.trans ready'
  obtain ⟨replayed,count⟩ := caseRun recorded (casesDistinct _) unique ran
  exact ⟨replayed,judgeKnownOk.mp known,count⟩

/-! ### Faithfulness -/

/-- The tables hold the history: each of its cases, each erasure it has decided, no other
request, and what no erased case covers is left as it was. -/
structure Reflects (S : PrivacyService δ) (states : List RecoveryState) (t t' : RestoredDb) : Prop where
  stored : ∀ s ∈ states, ∃ r, CaseStored S s t' r
  erased : ∀ s ∈ states, s.request.databaseErasedAt.isSome → Gone s t'.db
  requests : ∀ r ∈ t'.db.requests.rows, ∃ s ∈ states, s.id = r.id
  customers : ∀ k, (∀ s ∈ states, s.request.databaseErasedAt.isSome → s.scope.subjectId ≠ k) →
    t'.db.customers.find k = t.db.customers.find k
  orders : ∀ id, (∀ s ∈ states, s.request.databaseErasedAt.isSome → id ∉ s.orderIds) →
    t'.db.other.orders.find id = t.db.other.orders.find id

omit [DecidableEq δ] in
theorem Replayed.order {done : List RecoveryState} (h : Replayed now done t t') {id : OrderId} {o : OrderRows}
    (row : t.db.other.orders.find id = some o) :
    ∃ o', t'.db.other.orders.find id = some o' ∧ (o' = o ∨ ∃ s ∈ done, RowErased s o o') := by
  obtain ⟨f,keeps,rows,origin⟩ := h.orders
  obtain ⟨mem,own⟩ := Table.find_some row
  have later : f o ∈ t'.db.other.orders.rows := rows ▸ List.mem_map_of_mem mem
  have found := Table.find_of_mem later
  rw [keeps,show OrderRows.id o = id from own] at found
  exact ⟨f o,found,origin o mem⟩

omit [DecidableEq δ] in
theorem Replayed.orderAbsent {done : List RecoveryState} (h : Replayed now done t t') {id : OrderId}
    (absent : t.db.other.orders.find id = none) : t'.db.other.orders.find id = none := by
  obtain ⟨f,keeps,rows,_⟩ := h.orders
  rw [Table.find_none] at absent ⊢
  intro o mem
  rw [rows] at mem
  obtain ⟨o,here,rfl⟩ := List.mem_map.mp mem
  rw [keeps]
  exact absent o here

omit [DecidableEq δ] in
theorem RowErased.since {s : RecoveryState} {o o' : OrderRows} (h : RowErased s o o') :
    s.request.databaseErasedAt.isSome := by
  obtain ⟨_,_,since,_⟩ := h.result
  simp [since]

/-- After a reconciliation every case of the history is in the database. -/
theorem reconcileFaithful (ready : J.ready entries = .ok history)
    (recorded : ∀ s ∈ history.cases.rows, RecordedCase S s) (unique : UniqueTasks t)
    (ok : reconcileRecoveryTransaction S J entries advanced digestKey false now t = .ok (t',report)) :
    Reflects S history.cases.rows t t' := by
  obtain ⟨replayed,known,_⟩ := reconcileReplays ready recorded unique ok
  refine ⟨fun s mem => replayed.stored (recorded s mem) mem,replayed.gone,?_,?_,?_⟩
  · intro r mem
    by_contra unrecorded
    have others := replayed.others r.id fun s here same => unrecorded ⟨s,here,same⟩
    rw [Table.find_of_mem mem] at others
    exact unrecorded (known.requests r (Table.find_some others.symm).1)
  · intro k kept
    rcases replayed.customers k with same | ⟨_,s,mem,since,own⟩
    · exact same
    · exact absurd own (kept s mem since)
  · intro id kept
    cases row : t.db.other.orders.find id with
    | none => exact replayed.orderAbsent row
    | some o =>
      obtain ⟨o',row',rfl | ⟨s,mem,erased⟩⟩ := replayed.order row
      · exact row'
      · exact absurd (Table.find_key row ▸ erased.covered) (kept s mem erased.since)

/-! ### Nothing newer is lost -/

structure NoOlder (t t' : RestoredDb) : Prop where
  requests : ∀ r ∈ t.db.requests.rows, ∃ r', t'.db.requests.find r.id = some r' ∧ r.version ≤ r'.version ∧
    r.updatedAt ≤ r'.updatedAt ∧ (r'.databaseErasedAt.isSome → r.status ∉ [PrivacyStatus.cancelled,.hold]) ∧
    ∀ task ∈ r.tasks, ∃ task' ∈ r'.tasks, task'.system = task.system ∧
      laterDate task.reviewedAt task'.reviewedAt = false ∧ laterDate task.retainUntil task'.retainUntil = false
  markers : ∀ k m, t.db.identities.find k = some m → ∃ m', t'.db.identities.find k = some m' ∧ MarkerAgrees m m'
  orders : ∀ id o, t.db.other.orders.find id = some o → ∃ o', t'.db.other.orders.find id = some o' ∧
    ∀ time, o.order.privacyRetainUntil = some time → ∃ time', o'.order.privacyRetainUntil = some time' ∧ time ≤ time'

/-- A reconciliation lowers no version, review date or retention that it finds, and does
not erase under a request that the database has on hold or cancelled. -/
theorem reconcileKeepsNewer (ready : J.ready entries = .ok history)
    (recorded : ∀ s ∈ history.cases.rows, RecordedCase S s) (unique : UniqueTasks t)
    (ok : reconcileRecoveryTransaction S J entries advanced digestKey false now t = .ok (t',report)) : NoOlder t t' := by
  obtain ⟨replayed,known,_⟩ := reconcileReplays ready recorded unique ok
  refine ⟨fun r mem => ?_,replayed.identities,fun id o row => ?_⟩
  · obtain ⟨s,here,same⟩ := known.requests r mem
    have judged := replayed.earlier s here r (same ▸ Table.find_of_mem mem)
    obtain ⟨tasks,audit,row,fit,_⟩ := replayed.rows s here
    refine ⟨_,same ▸ row,judged.version,judged.updated,judged.held,fun task own => ?_⟩
    obtain ⟨found,recordedTask,reviewed,retained⟩ := judged.tasks task own
    have mem := List.mem_of_find?_eq_some recordedTask
    have system : found.system = task.system := by simpa using List.find?_some recordedTask
    exact ⟨replayedTask now found,(replayedTasksPerm (recorded s here) fit).mem_iff.mpr (List.mem_map_of_mem mem),system,
      reviewed,retained⟩
  · obtain ⟨o',row',rfl | ⟨s,_,erased⟩⟩ := replayed.order row
    · exact ⟨_,row',fun time kept => ⟨time,kept,le_rfl⟩⟩
    · obtain ⟨_,decision,_,_,rfl,held⟩ := erased.result
      exact ⟨_,row',fun time kept => ⟨_,rfl,held time kept⟩⟩

/-! ### The dry run -/

/-- No case shares its customer or an order with one that is erased. -/
def CasesApart (states : List RecoveryState) : Prop :=
  ∀ a ∈ states, ∀ s ∈ states, a.request.databaseErasedAt.isSome → a.id ≠ s.id →
    a.scope.subjectId ≠ s.scope.subjectId ∧ ∀ id ∈ a.orderIds, id ∉ s.orderIds

section
variable {done states : List RecoveryState} {s : RecoveryState} {verdict : CaseVerdict}

omit [DecidableEq δ] in
/-- What a case finds after the cases before it, it finds in the database they began with. -/
theorem CaseJudged.before (h : Replayed now done t t') (fresh : ∀ a ∈ done, a.id ≠ s.id)
    (apart : ∀ a ∈ done, a.request.databaseErasedAt.isSome →
      a.scope.subjectId ≠ s.scope.subjectId ∧ ∀ id ∈ a.orderIds, id ∉ s.orderIds)
    (judged : CaseJudged S digestKey states s t'.db verdict) : CaseJudged S digestKey states s t.db verdict := by
  obtain ⟨f,keeps,rows,origin⟩ := h.orders
  have customer : t'.db.customers.find s.scope.subjectId = t.db.customers.find s.scope.subjectId := by
    rcases h.customers s.scope.subjectId with same | ⟨_,a,mem,since,own⟩
    · exact same
    · exact absurd own (apart a mem since).1
  have kept : ∀ o ∈ t.db.other.orders.rows, o.id ∈ s.orderIds ∨ o.order.customerId = none ∨
      o.order.customerId = some s.scope.subjectId → f o = o := by
    intro o mem own
    rcases origin o mem with same | ⟨a,here,erased⟩
    · exact same
    · obtain ⟨subject,orders⟩ := apart a here erased.since
      rcases own with covered | free | owned
      · exact absurd covered (orders _ erased.covered)
      · exact absurd (erased.owned.symm.trans free) (by simp)
      · exact absurd (Option.some.inj (erased.owned.symm.trans owned)) subject
  have here : ∀ o ∈ t.db.other.orders.rows, o.id ∈ s.orderIds ∨ o.order.customerId = none ∨
      o.order.customerId = some s.scope.subjectId → o ∈ t'.db.other.orders.rows := by
    intro o mem own
    rw [rows]
    exact kept o mem own ▸ List.mem_map_of_mem mem
  have inScope : ∀ o ∈ s.ordersIn t.db, o ∈ s.ordersIn t'.db := by
    intro o mem
    obtain ⟨mem,covered⟩ := List.mem_filter.mp mem
    exact List.mem_filter.mpr ⟨here o mem (.inl (by simpa using covered)),covered⟩
  have length : (s.ordersIn t.db).length = (s.ordersIn t'.db).length := by
    rw [ordersInMap keeps rows,List.length_map]
  have prior {marker : PrivacyDeletedIdentity} (erasure : ErasureJudged S digestKey s t'.db marker) :
      ErasureJudged S digestKey s t.db marker := by
    refine ⟨erasure.toCaseDecided,fun m own => ?_⟩
    obtain ⟨m',own',agrees⟩ := h.identities _ m own
    obtain ⟨created,review⟩ := erasure.prior m' own'
    exact ⟨agrees.created.symm.trans created,agrees.review.trans review⟩
  refine ⟨fun r row => judged.request r ((h.others s.id fresh).trans row),?_,?_⟩
  · refine ⟨length.trans judged.scope.whole,fun c present => judged.scope.owner c (customer.trans present),?_,?_⟩
    · exact fun o mem owned => judged.scope.closed o (here o mem (.inr (.inr owned))) owned
    · exact fun o mem => judged.scope.orders o (inScope o mem)
  · cases judged.verdict with
    | preserved unerased agrees =>
      refine .preserved unerased (agrees.imp_left fun ⟨⟨c,present⟩,whole⟩ => ?_)
      exact ⟨⟨c,customer ▸ present⟩,fun o mem => whole o (inScope o mem)⟩
    | erased marker since erasure gone all =>
      exact .erased marker since (prior erasure) (customer ▸ gone) fun o mem => all o (inScope o mem)
    | replay c erasedAt decision marker since decided erasure replay =>
      refine .replay c erasedAt decision marker since decided (prior erasure)
        ⟨customer ▸ replay.present,fun o mem => replay.whole o (inScope o mem),?_,?_,fun o mem => replay.finished o (inScope o mem)⟩
      · obtain ⟨o,mem,source⟩ := replay.source
        rw [ordersInMap keeps rows] at mem
        obtain ⟨o,own,rfl⟩ := List.mem_map.mp mem
        exact ⟨o,own,(keeps o).symm.trans source⟩
      · exact fun o mem unlinked => replay.linked o (here o mem (.inr (.inl unlinked.1))) unlinked

omit [DecidableEq δ] in
theorem dryCases (recorded : ∀ s ∈ states, RecordedCase S s) (distinct : (states.map (·.id)).Nodup)
    (unique : UniqueTasks t) (apart : CasesApart states) {erased preserved : Nat}
    (ran : states.foldlM (reconcileCase S digestKey false now states) (t,0,0) = .ok (t',erased,preserved)) :
    states.foldlM (reconcileCase S digestKey true now states) (t,0,0) = .ok (t,erased,preserved) := by
  have all := foldOk (P := fun done run => Replayed now done t run.1 ∧
    done.foldlM (reconcileCase S digestKey true now states) (t,0,0) = .ok (t,run.2)) ran ⟨replayedStart,rfl⟩ ?_
  · exact all.2
  intro done s rest run next split ⟨before,dry⟩ taken
  obtain ⟨t₁,erased,preserved⟩ := run
  obtain ⟨verdict,judged,t₂,wrote,rfl⟩ := reconcileCaseOk.mp taken
  have mem : s ∈ states := by simp [split]
  have within : ∀ a ∈ done, a ∈ states := fun a mem => by simp [split,mem]
  have fresh : ∀ a ∈ done, a.id ≠ s.id := by
    intro a mem same
    rw [split,List.map_append,List.map_cons] at distinct
    exact (List.nodup_append.mp distinct).2.2 _ (List.mem_map_of_mem mem) _ List.mem_cons_self same
  have judged₀ := judged.before before fresh fun a here since => apart a (within a here) s mem since (fresh a here)
  refine ⟨before.next fresh unique (recorded s mem) judged (writeCaseSource (recorded s mem) judged wrote),?_⟩
  rw [List.foldlM_append,dry]
  refine bindOk.mpr ⟨_,rfl,?_⟩
  rw [List.foldlM_cons]
  exact bindOk.mpr ⟨_,reconcileCaseOk.mpr ⟨verdict,judged₀,t,rfl,rfl⟩,rfl⟩

end

/-- Where no case shares its customer or orders with an erased one, a dry run on the
database that a run would accept is accepted, with the same numbers and no change. -/
theorem dryRunAccepts (ready : J.ready entries = .ok history) (recorded : ∀ s ∈ history.cases.rows, RecordedCase S s)
    (unique : UniqueTasks t) (apart : CasesApart history.cases.rows)
    (ok : reconcileRecoveryTransaction S J entries advanced digestKey false now t = .ok (t',report)) :
    reconcileRecoveryTransaction S J entries advanced digestKey true now t =
      .ok (t,{ report with databaseReconciled := false }) := by
  obtain ⟨_,current,erased,preserved,ready',known,ran,again,same,rfl⟩ := reconcileOk.mp ok
  cases ready.symm.trans ready'
  have dry := dryCases recorded (casesDistinct _) unique apart ran
  exact reconcileOk.mpr ⟨history,current,erased,preserved,ready,known,dry,again,same,rfl⟩

/-! ### A restored database -/

def replayService : PrivacyService RecoveryEvidence := { sampleService with ownerHash := fun c => c.normalizedPhone }

def otherRows : OrderRows :=
  { deliveredRows with order :=
      { deliveredRows.order with id := "other order", customerId := some "other", phone := "4165550199" } }

/-- Two customers, each with a verified challenge. -/
def customersDb : PrivacyDb :=
  { verifiedDb with
    challenges := verifiedDb.challenges.put { verifiedChallenge with
      id := "other challenge", subjectId := some "other", sourceOrderId := some "other order"
      accessId := some "other access", contactFingerprint := some "other" }
    access := verifiedDb.access.put ⟨"other access","other","other order","other access",.email,"hash",0,0,none⟩
    customers := verifiedDb.customers.put ⟨"other","al","4165550199",none,none,none⟩
    other := { verifiedDb.other with orders := verifiedDb.other.orders.put otherRows } }

def otherSubmission : PrivacyOperation :=
  .submit ⟨"other request","other token","other challenge","proof:other challenge","other access",none,none,false⟩

def submittingSteps : List (PrivacyAction RecoveryEvidence) :=
  transitionSteps 0 sampleSubmission 2 ++ transitionSteps 1 otherSubmission 3

/-- The one customer is erased, the other one cancels. -/
def decidingSteps : List (PrivacyAction RecoveryEvidence) :=
  transitionSteps 2 (.fulfill "request" "admin" 0 "customer" sampleDecision) 4 ++
    transitionSteps 3 (.cancel "other request" "other token") 5

def recordsCase (s : RecoveryState) : Bool :=
  s.scope.phoneHash = "phone:" ++ s.scope.ownerHash ∧ s.marker.all (·.phoneHash = s.scope.phoneHash) ∧
    (s.tasks.map (·.system)).Nodup ∧ (s.request.databaseErasedAt.isSome → ∀ system ∈ externalSystems, system ∈ s.tasks.map (·.system)) ∧
    s.tasks.all (·.evidenceHash = none)

theorem recordsCaseSound {s : RecoveryState} (records : recordsCase s = true) : RecordedCase replayService s := by
  simp only [recordsCase,decide_eq_true_eq,Bool.decide_and,Bool.and_eq_true] at records
  obtain ⟨phone,marker,systems,external,evidence⟩ := records
  refine ⟨fun c same => ?_,by simpa [Option.all_eq_true] using marker,systems,external,fun task mem hash some => ?_⟩
  · rw [phone,← same]
    rfl
  · simp only [List.all_eq_true,decide_eq_true_eq] at evidence
    simp [evidence task mem] at some

/-- A backup from between the requests and the decisions on them, the history of both,
and the reconciliation of the one with the other. -/
structure SampleRestore where
  backup : RestoredDb
  entries : List (RecoveryEntry RecoveryEvidence)
  history : Inspection RecoveryEvidence
  restored : RestoredDb

def sampleRestore : Option SampleRestore := do
  let submitted ← Transition.run (PrivacySystem.step replayService sampleJournal)
    (PrivacySystem.initial sampleJournal customersDb) submittingSteps
  let decided ← Transition.run (PrivacySystem.step replayService sampleJournal) submitted decidingSteps
  let backup : RestoredDb := ⟨submitted.db,fun _ => none⟩
  let history ← (sampleJournal.ready decided.entries).toOption
  let (restored,report) ← (reconcileRecoveryTransaction replayService sampleJournal decided.entries decided.entries "key"
    false 9 backup).toOption
  if report = ⟨2,1,1,true⟩ then some ⟨backup,decided.entries,history,restored⟩ else none

structure SampleRestore.Sound (r : SampleRestore) : Prop where
  requests : r.backup.db.requests.rows.map (·.status) = [.submitted,.submitted]
  unique : UniqueTasks r.backup
  ready : sampleJournal.ready r.entries = .ok r.history
  recorded : ∀ s ∈ r.history.cases.rows, RecordedCase replayService s
  apart : CasesApart r.history.cases.rows
  phones : ∀ a ∈ r.history.cases.rows, ∀ s ∈ r.history.cases.rows, a.id ≠ s.id → a.scope.phoneHash ≠ s.scope.phoneHash
  undecided : ∀ s ∈ r.history.cases.rows, s.request.databaseErasedAt = none → s.decision = none
  reconciled : reconcileRecoveryTransaction replayService sampleJournal r.entries r.entries "key" false 9 r.backup =
    .ok (r.restored,⟨2,1,1,true⟩)

theorem acceptedOk {α : Type} {x : Except PrivacyFailure α} {a : α} (some : x.toOption = some a) : x = .ok a := by
  cases x <;> simp_all [Except.toOption]

theorem sampleRestored : ∃ r, sampleRestore = some r ∧ r.Sound := by
  have checked : sampleRestore.map (fun r => (r.backup.db.requests.rows.map (·.status),
      decide (∀ q ∈ r.backup.db.requests.rows, (q.tasks.map (·.system)).Nodup),r.history.cases.rows.all recordsCase,
      decide (∀ a ∈ r.history.cases.rows, ∀ s ∈ r.history.cases.rows, a.request.databaseErasedAt.isSome → a.id ≠ s.id →
        a.scope.subjectId ≠ s.scope.subjectId ∧ ∀ id ∈ a.orderIds, id ∉ s.orderIds),
      decide (∀ a ∈ r.history.cases.rows, ∀ s ∈ r.history.cases.rows, a.id ≠ s.id → a.scope.phoneHash ≠ s.scope.phoneHash),
      decide (∀ s ∈ r.history.cases.rows, s.request.databaseErasedAt = none → s.decision = none))) =
      some ([.submitted,.submitted],true,true,true,true,true) := by
    decide +kernel
  obtain ⟨r,restore,checked⟩ := Option.map_eq_some_iff.mp checked
  simp only [Prod.mk.injEq,decide_eq_true_eq,List.all_eq_true] at checked
  obtain ⟨requests,unique,records,apart,phones,undecided⟩ := checked
  have parts := restore
  simp only [sampleRestore,Option.bind_eq_bind,Option.bind_eq_some_iff] at parts
  obtain ⟨submitted,_,decided,_,history,ready,⟨restored,report⟩,ok,last⟩ := parts
  split at last
  · rename_i counts
    cases counts
    cases last
    exact ⟨_,restore,requests,unique,acceptedOk ready,fun s mem => recordsCaseSound (records s mem),apart,phones,undecided,
      acceptedOk ok⟩
  · cases last

theorem restoredKeepsNewer : ∃ r, sampleRestore = some r ∧ r.backup.db.requests.rows.length = 2 ∧
    NoOlder r.backup r.restored := by
  obtain ⟨r,restore,sound⟩ := sampleRestored
  have two := congrArg List.length sound.requests
  rw [List.length_map] at two
  exact ⟨r,restore,two,reconcileKeepsNewer sound.ready sound.recorded sound.unique sound.reconciled⟩

theorem restoredDryRun : ∃ r, sampleRestore = some r ∧
    reconcileRecoveryTransaction replayService sampleJournal r.entries r.entries "key" true 9 r.backup =
      .ok (r.backup,⟨2,1,1,false⟩) := by
  obtain ⟨r,restore,sound⟩ := sampleRestored
  exact ⟨r,restore,dryRunAccepts sound.ready sound.recorded sound.unique sound.apart sound.reconciled⟩

end SpeedySweeties
