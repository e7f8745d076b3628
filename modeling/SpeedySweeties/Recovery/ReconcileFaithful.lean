import SpeedySweeties.Recovery.ReconcileWrites

/-! A reconciliation that succeeds: every case is in the tables afterwards, whatever the
later cases wrote, and nothing in the tables was newer than the history. -/
namespace SpeedySweeties

variable {δ : Type} {S : PrivacyService δ} {digestKey : String} {states done : List RecoveryState}
  {t₀ t t' : RestoredDb} {state s : RecoveryState} {verdict : CaseVerdict} {now : Time}

/-- How a case has rewritten an order of its customer. -/
structure RowErased (s : RecoveryState) (o o' : OrderRows) : Prop where
  covered : o.id ∈ s.orderIds
  owned : o.order.customerId = some s.scope.subjectId
  whole : erasedRow o = false
  result : ∃ erasedAt decision, s.request.databaseErasedAt = some erasedAt ∧ s.decision = some decision ∧
    o' = eraseRows erasedAt decision.financialRetainUntil o ∧
    ∀ time, o.order.privacyRetainUntil = some time → time ≤ decision.financialRetainUntil

theorem RowErased.erased {o o' : OrderRows} (h : RowErased s o o') : erasedRow o' = true ∧ o'.order.customerId = none := by
  obtain ⟨_,_,_,_,rfl,_⟩ := h.result
  exact ⟨rfl,rfl⟩

/-- The marker of a case or a later review of it. -/
structure MarkerAgrees (marker m : PrivacyDeletedIdentity) : Prop where
  created : m.createdAt = marker.createdAt
  review : marker.reviewAt ≤ m.reviewAt

theorem MarkerAgrees.refl (m : PrivacyDeletedIdentity) : MarkerAgrees m m := ⟨rfl,le_rfl⟩

theorem MarkerAgrees.trans {a b c : PrivacyDeletedIdentity} (h : MarkerAgrees a b) (next : MarkerAgrees b c) :
    MarkerAgrees a c :=
  ⟨next.created.trans h.created,h.review.trans next.review⟩

/-- An erased case in the tables. -/
structure Gone (s : RecoveryState) (db : PrivacyDb) : Prop where
  customer : db.customers.find s.scope.subjectId = none
  whole : (s.ordersIn db).length = s.scope.orders.length
  orders : ∀ o ∈ s.ordersIn db, erasedRow o = true
  marker : ∃ marker m, s.marker = some marker ∧ db.identities.find s.scope.phoneHash = some m ∧ MarkerAgrees marker m

structure TasksFit (s : RecoveryState) (tasks : List PrivacyExternalTask) : Prop where
  unique : (tasks.map (·.system)).Nodup
  recorded : ∀ task ∈ tasks, task.system ∈ s.tasks.map (·.system)

/-- Neither of two requests stands in the way of the other. -/
def Apart (a b : RequestColumns) : Prop :=
  a.challengeId ≠ b.challengeId ∧ (b.activeSubject = none ∨ a.activeSubject ≠ b.activeSubject)

theorem Apart.symm {a b : RequestColumns} (h : Apart a b) : Apart b a := by
  refine ⟨h.1.symm,?_⟩
  rcases h.2 with idle | differ
  · cases active : a.activeSubject with
    | none => exact .inl rfl
    | some _ => exact .inr (by simp [idle])
  · exact .inr differ.symm

/-- What the cases that are done have made of the tables. -/
structure Replayed (now : Time) (done : List RecoveryState) (t₀ t : RestoredDb) : Prop where
  rows : ∀ s ∈ done, ∃ tasks audit, t.db.requests.find s.id = some (finishedRequest now s tasks audit) ∧ TasksFit s tasks ∧
    t.replayed s.id = s.decision
  earlier : ∀ s ∈ done, ∀ r, t₀.db.requests.find s.id = some r → RequestJudged s r
  others : ∀ id, (∀ s ∈ done, s.id ≠ id) → t.db.requests.find id = t₀.db.requests.find id
  apart : ∀ a ∈ done, ∀ b ∈ done, a.id ≠ b.id → Apart a.request b.request
  gone : ∀ s ∈ done, s.request.databaseErasedAt.isSome → Gone s t.db
  customers : ∀ k, t.db.customers.find k = t₀.db.customers.find k ∨ t.db.customers.find k = none ∧
    ∃ s ∈ done, s.request.databaseErasedAt.isSome ∧ s.scope.subjectId = k
  identities : ∀ k m, t₀.db.identities.find k = some m → ∃ m', t.db.identities.find k = some m' ∧ MarkerAgrees m m'
  orders : ∃ f : OrderRows → OrderRows, (∀ o, (f o).id = o.id) ∧
    t.db.other.orders.rows = t₀.db.other.orders.rows.map f ∧
    ∀ o ∈ t₀.db.other.orders.rows, f o = o ∨ ∃ s ∈ done, RowErased s o (f o)

theorem replayedStart : Replayed now [] t₀ t₀ where
  rows := by simp
  earlier := by simp
  others := fun _ _ => rfl
  apart := by simp
  gone := by simp
  customers := fun _ => .inl rfl
  identities := fun _ m own => ⟨m,own,.refl m⟩
  orders := ⟨id,fun _ => rfl,(List.map_id _).symm,fun _ _ => .inl rfl⟩

/-! ### The step -/

theorem ordersInMap {db db' : PrivacyDb} {f : OrderRows → OrderRows} (keeps : ∀ o, (f o).id = o.id)
    (rows : db'.other.orders.rows = db.other.orders.rows.map f) : s.ordersIn db' = (s.ordersIn db).map f := by
  simp only [RecoveryState.ordersIn,rows,List.filter_map]
  congr 2
  funext o
  simp [keeps]

theorem rewriteErased {o : OrderRows} (erased : erasedRow o = true) : erasedRow (verdict.rewrite state o) = true := by
  cases verdict with
  | replay _ erasedAt decision =>
    simp only [CaseVerdict.rewrite,replayedRow]
    split
    · rfl
    · exact erased
  | preserved => exact erased
  | erased => exact erased

theorem CaseWritten.ordersIn (h : CaseWritten now t state verdict t') :
    s.ordersIn t'.db = (s.ordersIn t.db).map (verdict.rewrite state) :=
  ordersInMap (verdict.rewriteId state) h.orders

theorem CaseWritten.absent {k : CustomerId} (h : CaseWritten now t state verdict t')
    (gone : t.db.customers.find k = none) : t'.db.customers.find k = none := by
  rw [h.customers,gone]
  split <;> rfl

theorem markerFiltered {m : PrivacyDeletedIdentity} {k : String} :
    verdict.marker.filter (·.phoneHash = k) = some m ↔ verdict.marker = some m ∧ m.phoneHash = k := by
  cases verdict.marker <;> simp [Option.filter_eq_some_iff]

/-- A marker that is put in place of another one agrees with it. -/
theorem CaseWritten.agrees {k : String} {m : PrivacyDeletedIdentity} (h : CaseWritten now t state verdict t')
    (recorded : RecordedCase S state) (judged : CaseJudged S digestKey states state t.db verdict)
    (own : t.db.identities.find k = some m) : ∃ m', t'.db.identities.find k = some m' ∧ MarkerAgrees m m' := by
  rw [h.identities,own]
  cases put : verdict.marker.filter (·.phoneHash = k) with
  | none => exact ⟨m,rfl,.refl m⟩
  | some marker =>
    obtain ⟨verdict_,rfl⟩ := markerFiltered.mp put
    refine ⟨marker,rfl,?_⟩
    have erasure : ErasureJudged S digestKey state t.db marker := by
      cases judged.verdict with
      | preserved => cases verdict_
      | erased _ _ own => cases verdict_; exact own
      | replay _ _ _ _ _ _ own => cases verdict_; exact own
    have hash := recorded.marker marker erasure.marked
    obtain ⟨created,review⟩ := erasure.prior m (hash ▸ own)
    exact ⟨created.symm,review⟩

theorem Gone.kept (h : Gone s t.db) (written : CaseWritten now t state verdict t') (recorded : RecordedCase S state)
    (judged : CaseJudged S digestKey states state t.db verdict) : Gone s t'.db where
  customer := written.absent h.customer
  whole := by rw [written.ordersIn,List.length_map]; exact h.whole
  orders := by
    intro o mem
    rw [written.ordersIn] at mem
    obtain ⟨o,here,rfl⟩ := List.mem_map.mp mem
    exact rewriteErased (h.orders o here)
  marker := by
    obtain ⟨marker,m,marked,own,agrees⟩ := h.marker
    obtain ⟨m',own',later⟩ := written.agrees recorded judged own
    exact ⟨marker,m',marked,own',agrees.trans later⟩

theorem CaseWritten.markerPut {marker : PrivacyDeletedIdentity} (h : CaseWritten now t state verdict t')
    (put : verdict.marker = some marker) : t'.db.identities.find marker.phoneHash = some marker := by
  rw [h.identities,markerFiltered.mpr ⟨put,rfl⟩]
  rfl

theorem goneNow (written : CaseWritten now t state verdict t') (recorded : RecordedCase S state)
    (judged : CaseJudged S digestKey states state t.db verdict) (erased : state.request.databaseErasedAt.isSome) :
    Gone state t'.db := by
  have length : (state.ordersIn t'.db).length = state.scope.orders.length := by
    rw [written.ordersIn,List.length_map]
    exact judged.scope.whole
  cases judged.verdict with
  | preserved unerased => simp [unerased] at erased
  | erased marker _ judged' gone all =>
    have put := written.markerPut rfl
    rw [recorded.marker marker judged'.marked] at put
    refine ⟨written.absent gone,length,?_,marker,marker,judged'.marked,put,.refl marker⟩
    intro o mem
    rw [written.ordersIn] at mem
    obtain ⟨o,here,rfl⟩ := List.mem_map.mp mem
    exact all o here
  | replay customer erasedAt decision marker since decided judged' replay =>
    have put := written.markerPut rfl
    rw [recorded.marker marker judged'.marked] at put
    refine ⟨by rw [written.customers]; exact if_pos rfl,length,?_,marker,marker,judged'.marked,put,.refl marker⟩
    intro o mem
    rw [written.ordersIn] at mem
    obtain ⟨o,here,rfl⟩ := List.mem_map.mp mem
    obtain ⟨_,_,_,owned⟩ := (judged.scope.orders o here).bound
    simp only [CaseVerdict.rewrite,replayedRow]
    rw [if_pos (owned (replay.whole o here)).1]
    rfl

theorem newTasksFit (recorded : RecordedCase S state) (erased : state.request.databaseErasedAt.isSome) (erasedAt : Time) :
    TasksFit state (newTasks erasedAt) := by
  have systems : (newTasks erasedAt).map (·.system) = externalSystems := by simp [newTasks,Function.comp_def]
  refine ⟨by rw [systems]; decide,fun task mem => ?_⟩
  obtain ⟨system,listed,rfl⟩ := List.mem_map.mp mem
  exact recorded.external erased system listed

theorem tasksFit (recorded : RecordedCase S state) (judged : CaseJudged S digestKey states state t.db verdict)
    (unique : ∀ r, t.db.requests.find state.id = some r → (r.tasks.map (·.system)).Nodup) :
    TasksFit state (verdict.tasks (t.db.requests.find state.id)) := by
  have present : TasksFit state (((t.db.requests.find state.id).map (·.tasks)).getD []) := by
    cases row : t.db.requests.find state.id with
    | none => exact ⟨List.nodup_nil,by simp⟩
    | some r =>
      refine ⟨unique r row,fun task mem => ?_⟩
      obtain ⟨found,recorded,_⟩ := (judged.request r row).tasks task mem
      have same : found.system = task.system := by simpa using List.find?_some recorded
      exact same ▸ List.mem_map_of_mem (List.mem_of_find?_eq_some recorded)
  cases judged.verdict with
  | preserved => exact present
  | erased => exact present
  | replay _ erasedAt _ _ since => exact newTasksFit recorded (by simp [since]) erasedAt

theorem rowRewritten {o o' : OrderRows} (judged : CaseJudged S digestKey states state t.db verdict)
    (mem : o' ∈ t.db.other.orders.rows) (before : o' = o ∨ ∃ s ∈ done, RowErased s o o') :
    verdict.rewrite state o' = o ∨ ∃ s ∈ done ++ [state], RowErased s o (verdict.rewrite state o') := by
  have kept : o' = o ∨ ∃ s ∈ done ++ [state], RowErased s o o' :=
    before.imp_right fun ⟨s,here,erased⟩ => ⟨s,List.mem_append_left _ here,erased⟩
  cases judged.verdict with
  | preserved => exact kept
  | erased => exact kept
  | replay customer erasedAt decision marker since decided judged' replay =>
    simp only [CaseVerdict.rewrite,replayedRow]
    split
    · rename_i owned
      rcases before with rfl | ⟨s,_,erased⟩
      · have covered := judged.scope.closed o' mem owned
        have here : o' ∈ state.ordersIn t.db := List.mem_filter.mpr ⟨mem,by simpa using covered⟩
        refine .inr ⟨state,by simp,covered,owned,replay.whole o' here,erasedAt,decision,since,decided,rfl,?_⟩
        exact (judged.scope.orders o' here).held decision decided
      · rw [erased.erased.2] at owned
        cases owned
    · exact kept

theorem Replayed.next (h : Replayed now done t₀ t) (fresh : ∀ s ∈ done, s.id ≠ state.id)
    (unique : ∀ r ∈ t₀.db.requests.rows, (r.tasks.map (·.system)).Nodup) (recorded : RecordedCase S state)
    (judged : CaseJudged S digestKey states state t.db verdict) (written : CaseWritten now t state verdict t') :
    Replayed now (done ++ [state]) t₀ t' := by
  have untouched := h.others state.id fresh
  have each {P : RecoveryState → Prop} (before : ∀ s ∈ done, P s) (here : P state) : ∀ s ∈ done ++ [state], P s := by
    intro s mem
    rcases List.mem_append.mp mem with mem | mem
    · exact before s mem
    · exact List.mem_singleton.mp mem ▸ here
  have beside : ∀ a ∈ done, Apart a.request state.request := by
    intro a mem
    obtain ⟨tasks,audit,row,_⟩ := h.rows a mem
    exact written.admitted _ (Table.find_some row).1 (fresh a mem)
  constructor
  · refine each (fun s mem => ?_) ?_
    · obtain ⟨tasks,audit,row,fit,decision⟩ := h.rows s mem
      exact ⟨tasks,audit,(written.others s.id (fresh s mem)).trans row,fit,(written.replayed s.id (fresh s mem)).trans decision⟩
    · obtain ⟨audit,row⟩ := written.row
      refine ⟨_,audit,row,tasksFit recorded judged fun r row => ?_,written.decision⟩
      exact unique r (Table.find_some (untouched ▸ row)).1
  · exact each h.earlier fun r row => judged.request r (untouched ▸ row)
  · intro id apart
    rw [written.others id (apart state (by simp)).symm]
    exact h.others id fun s mem => apart s (List.mem_append_left _ mem)
  · refine each (fun a mem => ?_) ?_
    · exact each (h.apart a mem) fun _ => beside a mem
    · exact each (fun b mem _ => (beside b mem).symm) fun differ => absurd rfl differ
  · refine each (fun s mem erased => ?_) fun erased => goneNow written recorded judged erased
    exact (h.gone s mem erased).kept written recorded judged
  · intro k
    have later : (∃ s ∈ done, s.request.databaseErasedAt.isSome ∧ s.scope.subjectId = k) →
        ∃ s ∈ done ++ [state], s.request.databaseErasedAt.isSome ∧ s.scope.subjectId = k := by
      rintro ⟨s,mem,own⟩
      exact ⟨s,List.mem_append_left _ mem,own⟩
    rw [written.customers]
    split
    · rename_i removed
      refine .inr ⟨rfl,state,by simp,?_⟩
      cases judged.verdict with
      | preserved => cases removed
      | erased => cases removed
      | replay _ _ _ _ since => exact ⟨by simp [since],Option.some.inj removed⟩
    · exact (h.customers k).imp_right (And.imp_right later)
  · intro k m own
    obtain ⟨m',own',agrees⟩ := h.identities k m own
    obtain ⟨m'',own'',later⟩ := written.agrees recorded judged own'
    exact ⟨m'',own'',agrees.trans later⟩
  · obtain ⟨f,keeps,rows,origin⟩ := h.orders
    refine ⟨verdict.rewrite state ∘ f,fun o => (verdict.rewriteId state _).trans (keeps o),?_,fun o mem => ?_⟩
    · rw [written.orders,rows,List.map_map]
    · exact rowRewritten judged (rows ▸ List.mem_map_of_mem mem) (origin o mem)

/-! ### The run -/

def unerasedCase (s : RecoveryState) : Bool := s.request.databaseErasedAt.isNone

theorem verdictPreserves {db : PrivacyDb} (judged : VerdictJudged S digestKey states state db verdict) :
    verdict.preserves = if unerasedCase state then 1 else 0 := by
  cases judged with
  | preserved unerased => simp [unerasedCase,unerased,CaseVerdict.preserves]
  | erased _ since =>
    obtain ⟨_,since⟩ := Option.isSome_iff_exists.mp since
    simp [unerasedCase,since,CaseVerdict.preserves]
  | replay _ _ _ _ since => simp [unerasedCase,since,CaseVerdict.preserves]

theorem reconcileCaseOk {dryRun : Bool} {erased preserved : Nat} {run : RestoredDb × Nat × Nat} :
    reconcileCase S digestKey dryRun now states (t,erased,preserved) state = .ok run ↔
      ∃ verdict, CaseJudged S digestKey states state t.db verdict ∧ ∃ t',
        (if dryRun then .ok t else writeCase S now t state verdict) = Except.ok t' ∧
        run = (t',erased + verdict.erases,preserved + verdict.preserves) := by
  cases dryRun with
  | true =>
    simp only [reconcileCase,bindOk,judgeCaseOk,if_true]
    constructor
    · rintro ⟨verdict,judged,_,same,done⟩
      exact ⟨verdict,judged,_,congrArg _ (pureOk.mp same),(pureOk.mp done).symm⟩
    · rintro ⟨verdict,judged,_,same,rfl⟩
      exact ⟨verdict,judged,_,same,rfl⟩
  | false =>
    simp only [reconcileCase,bindOk,judgeCaseOk,Bool.false_eq_true,if_false]
    constructor
    · rintro ⟨verdict,judged,t',wrote,done⟩
      exact ⟨verdict,judged,t',wrote,(pureOk.mp done).symm⟩
    · rintro ⟨verdict,judged,t',wrote,rfl⟩
      exact ⟨verdict,judged,t',wrote,rfl⟩

theorem caseRun (recorded : ∀ s ∈ states, RecordedCase S s) (distinct : (states.map (·.id)).Nodup)
    (unique : ∀ r ∈ t₀.db.requests.rows, (r.tasks.map (·.system)).Nodup) {erased preserved : Nat}
    (ran : states.foldlM (reconcileCase S digestKey false now states) (t₀,0,0) = .ok (t,erased,preserved)) :
    Replayed now states t₀ t ∧ preserved = states.countP unerasedCase := by
  refine foldOk (P := fun done run => Replayed now done t₀ run.1 ∧ run.2.2 = done.countP unerasedCase) ran
    ⟨replayedStart,rfl⟩ fun done s rest run next split ⟨before,count⟩ taken => ?_
  obtain ⟨t,erased,preserved⟩ := run
  obtain ⟨verdict,judged,t',wrote,rfl⟩ := reconcileCaseOk.mp taken
  have recorded := recorded s (by simp [split])
  have fresh : ∀ a ∈ done, a.id ≠ s.id := by
    intro a mem same
    rw [split,List.map_append,List.map_cons] at distinct
    exact (List.nodup_append.mp distinct).2.2 _ (List.mem_map_of_mem mem) _ List.mem_cons_self same
  refine ⟨before.next fresh unique recorded judged (writeCaseSource recorded judged wrote),?_⟩
  rw [List.countP_append,List.countP_singleton,← verdictPreserves judged.verdict,← count]

/-- The columns of a case, the hash of its decision, and the outcomes of its tasks. -/
structure CaseStored (S : PrivacyService δ) (s : RecoveryState) (t : RestoredDb) (r : PrivacyDeletionRequest) : Prop where
  row : t.db.requests.find s.id = some r
  columns : r.toRequestColumns = s.request
  decision : t.replayed s.id = s.decision
  tasks : (r.tasks.map (recoveryTask S)).Perm s.tasks

theorem replayTasksPutRows (tasks : List RecoveryTask) (rows : List PrivacyExternalTask) :
    replayTasks now tasks rows = Table.putRows PrivacyExternalTask.system (tasks.map (replayedTask now)) rows := by
  simp only [replayTasks,Table.putRows,List.foldl_map]

theorem replayedTaskRead (recorded : RecordedCase S s) {task : RecoveryTask} (mem : task ∈ s.tasks) :
    recoveryTask S (replayedTask now task) = task := by
  have evidence := recorded.evidence task mem
  obtain ⟨system,status,hash,retainUntil,reviewedAt⟩ := task
  cases hash with
  | none => rfl
  | some hash =>
    obtain ⟨nonempty,read⟩ := evidence hash rfl
    have labelled : reconciledLabel ++ hash ≠ "" := by
      intro empty
      have chars := congrArg String.toList empty
      simp [reconciledLabel] at chars
    simp [recoveryTask,replayedTask,Option.filter,nonempty,labelled,read]

theorem taskSystems (tasks : List RecoveryTask) :
    (tasks.map (replayedTask now)).map PrivacyExternalTask.system = tasks.map (·.system) := by
  simp [List.map_map,Function.comp_def,replayedTask]

theorem replayedTasksPerm (recorded : RecordedCase S s) {tasks : List PrivacyExternalTask} (fit : TasksFit s tasks) :
    (replayTasks now s.tasks tasks).Perm (s.tasks.map (replayedTask now)) := by
  rw [replayTasksPutRows]
  exact Table.putRows_perm fit.unique (taskSystems s.tasks ▸ recorded.systems)
    fun task mem => taskSystems s.tasks ▸ fit.recorded task mem

theorem replayedTasksRead (recorded : RecordedCase S s) {tasks : List PrivacyExternalTask} (fit : TasksFit s tasks) :
    ((replayTasks now s.tasks tasks).map (recoveryTask S)).Perm s.tasks := by
  refine ((replayedTasksPerm recorded fit).map _).trans (List.Perm.of_eq ?_)
  rw [List.map_map]
  exact (List.map_congr_left fun task mem => replayedTaskRead recorded mem).trans (List.map_id _)

theorem Replayed.stored (h : Replayed now done t₀ t) (recorded : RecordedCase S s) (mem : s ∈ done) :
    ∃ r, CaseStored S s t r := by
  obtain ⟨tasks,audit,row,fit,decision⟩ := h.rows s mem
  exact ⟨_,row,rfl,decision,replayedTasksRead recorded fit⟩

end SpeedySweeties
