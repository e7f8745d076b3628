import SpeedySweeties.Library.TableRows
import SpeedySweeties.Recovery.ReconcileOutcomes

/-! A reconciliation that is run again over an unchanged history finds nothing to erase
and only touches the tasks it writes. -/
namespace SpeedySweeties

variable {δ : Type} {S : PrivacyService δ} {J : PrivacyRecoveryJournal δ} {digestKey : String}
  {states done : List RecoveryState} {t₀ t t' : RestoredDb} {state s : RecoveryState} {verdict : CaseVerdict} {now now' : Time}

/-- What the cases of one history agree on: an unerased case of a customer that another
one erased was cancelled before that and has no decision, and one phone has one marker. -/
structure CasesAgree (states : List RecoveryState) : Prop where
  cancelled : ∀ a ∈ states, a.request.databaseErasedAt = none → ∀ s ∈ states, ∀ erasedAt,
    s.request.databaseErasedAt = some erasedAt → s.scope.subjectId = a.scope.subjectId →
    a.request.status = .cancelled ∧ ∃ closedAt, a.request.closedAt = some closedAt ∧ closedAt ≤ erasedAt
  undecided : ∀ a ∈ states, a.request.databaseErasedAt = none → a.decision = none
  markers : ∀ a ∈ states, ∀ s ∈ states, a.request.databaseErasedAt.isSome → s.request.databaseErasedAt.isSome →
    a.scope.phoneHash = s.scope.phoneHash → a.marker = s.marker

/-- The erasure keeps the financial evidence of an order it has not erased before. -/
def FinanciallyStable (S : PrivacyService δ) (db : PrivacyDb) : Prop :=
  ∀ o ∈ db.other.orders.rows, erasedRow o = false →
    ∀ now retainUntil, S.financialHash (eraseRows now retainUntil o) = S.financialHash o

theorem Replayed.stable (h : Replayed now done t₀ t) (stable : FinanciallyStable S t₀.db) : FinanciallyStable S t.db := by
  obtain ⟨f,_,rows,origin⟩ := h.orders
  intro o mem whole
  rw [rows] at mem
  obtain ⟨o,here,rfl⟩ := List.mem_map.mp mem
  rcases origin o here with same | ⟨a,_,erased⟩
  · rw [same] at whole ⊢
    exact stable o here whole
  · rw [erased.erased.1] at whole
    cases whole

theorem CasesAgree.later {a : RecoveryState} (h : CasesAgree states) (mem : a ∈ states) (unerased : a.request.databaseErasedAt = none)
    (here : s ∈ states) (since : s.request.databaseErasedAt.isSome) (same : s.scope.subjectId = a.scope.subjectId) :
    laterErasure states a = true := by
  obtain ⟨erasedAt,since⟩ := Option.isSome_iff_exists.mp since
  obtain ⟨status,closedAt,closed,before⟩ := h.cancelled a mem unerased s here erasedAt since same
  simp only [laterErasure,status,closed,Option.any_some,List.any_eq_true,decide_eq_true_eq,true_and]
  exact ⟨s,here,by simp [same,since,before]⟩

/-! ### What a second run will find -/

def CaseAgrees (states : List RecoveryState) (s : RecoveryState) (db : PrivacyDb) : Prop :=
  (∃ c, db.customers.find s.scope.subjectId = some c) ∧ (∀ o ∈ s.ordersIn db, erasedRow o = false) ∨
    laterErasure states s = true

structure Settled (S : PrivacyService δ) (digestKey : String) (states done : List RecoveryState) (db : PrivacyDb) : Prop where
  scope : ∀ s ∈ done, ScopeJudged S s db
  agrees : ∀ s ∈ done, s.request.databaseErasedAt = none → CaseAgrees states s db
  marked : ∀ s ∈ done, s.request.databaseErasedAt.isSome →
    ∃ marker, CaseDecided S digestKey s marker ∧ db.identities.find s.scope.phoneHash = some marker
  identities : ∀ k m, db.identities.find k = some m → m.keyFingerprint = S.digest digestKey ∧
    ∃ s ∈ states, ∃ marker, s.marker = some marker ∧ marker.phoneHash = k

theorem settledStart {cases : RecoveryCases} {db : PrivacyDb} (known : Known S digestKey db cases) :
    Settled S digestKey cases.rows [] db := by
  refine ⟨by simp,by simp,by simp,fun k m own => ?_⟩
  obtain ⟨mem,rfl⟩ := Table.find_some own
  exact ⟨known.key m mem,known.markers m mem⟩

theorem rewriteKept {o : OrderRows} (judged : CaseJudged S digestKey states state t.db verdict)
    (mem : o ∈ t.db.other.orders.rows) (erased : erasedRow o = true) : verdict.rewrite state o = o := by
  cases judged.verdict with
  | preserved => rfl
  | erased => rfl
  | replay _ _ _ _ _ _ _ replay =>
    refine if_neg fun owned => ?_
    have covered := judged.scope.closed o mem owned
    have whole := replay.whole o (List.mem_filter.mpr ⟨mem,by simpa using covered⟩)
    rw [erased] at whole
    cases whole

/-- An order that a case rewrites is one of its own, and has its retention. -/
theorem rewriteSource {o : OrderRows} (judged : CaseJudged S digestKey states state t.db verdict) :
    verdict.rewrite state o = o ∨ state.request.databaseErasedAt.isSome ∧ o.order.customerId = some state.scope.subjectId ∧
      ∃ erasedAt decision, state.decision = some decision ∧
        verdict.rewrite state o = eraseRows erasedAt decision.financialRetainUntil o := by
  cases judged.verdict with
  | preserved => exact .inl rfl
  | erased => exact .inl rfl
  | replay _ erasedAt decision _ since decided =>
    simp only [CaseVerdict.rewrite,replayedRow]
    split
    · rename_i owned
      exact .inr ⟨by simp [since],owned,erasedAt,decision,decided,rfl⟩
    · exact .inl rfl

theorem ScopeJudged.kept (h : ScopeJudged S s t.db) (stable : FinanciallyStable S t.db)
    (judged : CaseJudged S digestKey states state t.db verdict) (written : CaseWritten now t state verdict t')
    (own : ∀ o ∈ s.ordersIn t.db, verdict.rewrite state o = o ∨ s.decision = none ∨ s = state) : ScopeJudged S s t'.db where
  whole := by
    rw [written.ordersIn,List.length_map]
    exact h.whole
  owner := by
    intro c present
    rw [written.customers] at present
    split at present
    · cases present
    · exact h.owner c present
  closed := by
    intro o mem owned
    rw [written.orders] at mem
    obtain ⟨o,here,rfl⟩ := List.mem_map.mp mem
    rw [verdict.rewriteId]
    rcases rewriteSource (o := o) judged with same | ⟨_,_,_,_,_,erased⟩
    · exact h.closed o here (same ▸ owned)
    · rw [erased] at owned
      cases owned
  orders := by
    intro o mem
    rw [written.ordersIn] at mem
    obtain ⟨o,here,rfl⟩ := List.mem_map.mp mem
    rcases rewriteSource (o := o) judged with same | ⟨_,_,erasedAt,decision,decided,erased⟩
    · exact same.symm ▸ h.orders o here
    have mem := (List.mem_filter.mp here).1
    rcases own o here with same | mine
    · exact same.symm ▸ h.orders o here
    cases present : erasedRow o with
    | true => exact (rewriteKept judged mem present).symm ▸ h.orders o here
    | false =>
      obtain ⟨bound,own,financial,_⟩ := (h.orders o here).bound
      rw [erased]
      refine ⟨⟨bound,own,(stable o mem present _ _).trans financial,fun whole => by cases whole⟩,?_⟩
      rintro d recorded time ⟨⟩
      rcases mine with undecided | rfl
      · rw [undecided] at recorded
        cases recorded
      · cases decided.symm.trans recorded
        exact le_rfl

theorem CaseAgrees.kept (h : CaseAgrees states s t.db) (agree : CasesAgree states) (mem : s ∈ states)
    (unerased : s.request.databaseErasedAt = none) (scope : ScopeJudged S s t.db) (here : state ∈ states)
    (judged : CaseJudged S digestKey states state t.db verdict) (written : CaseWritten now t state verdict t') :
    CaseAgrees states s t'.db := by
  rcases h with ⟨⟨c,present⟩,whole⟩ | later
  · by_cases same : state.request.databaseErasedAt.isSome ∧ state.scope.subjectId = s.scope.subjectId
    · exact .inr (agree.later mem unerased here same.1 same.2)
    refine .inl ⟨⟨c,?_⟩,?_⟩
    · rw [written.customers,if_neg fun removed => same ?_]
      · exact present
      · cases judged.verdict with
        | preserved => cases removed
        | erased => cases removed
        | replay _ _ _ _ since => exact ⟨by simp [since],Option.some.inj removed⟩
    · intro o listed
      rw [written.ordersIn] at listed
      obtain ⟨o,before,rfl⟩ := List.mem_map.mp listed
      rcases rewriteSource (o := o) judged with kept | ⟨since,owned,_⟩
      · rw [kept]
        exact whole o before
      · obtain ⟨_,_,_,owner⟩ := (scope.orders o before).bound
        have subject := Option.some.inj (owned.symm.trans (owner (whole o before)).1)
        exact absurd ⟨since,subject⟩ same
  · exact .inr later

theorem markerSource (judged : CaseJudged S digestKey states state t.db verdict) {marker : PrivacyDeletedIdentity}
    (put : verdict.marker = some marker) : state.request.databaseErasedAt.isSome ∧ CaseDecided S digestKey state marker := by
  cases judged.verdict with
  | preserved => cases put
  | erased _ since own =>
    cases put
    exact ⟨since,own.toCaseDecided⟩
  | replay _ _ _ _ since _ own =>
    cases put
    exact ⟨by simp [since],own.toCaseDecided⟩

theorem Settled.next (h : Settled S digestKey states done t.db) (before : Replayed now done t₀ t)
    (stable : FinanciallyStable S t₀.db) (agree : CasesAgree states) (within : ∀ a ∈ done, a ∈ states) (mem : state ∈ states)
    (recorded : RecordedCase S state) (judged : CaseJudged S digestKey states state t.db verdict)
    (written : CaseWritten now t state verdict t') : Settled S digestKey states (done ++ [state]) t'.db := by
  have stable := before.stable stable
  have each {P : RecoveryState → Prop} (before : ∀ s ∈ done, P s) (here : P state) : ∀ s ∈ done ++ [state], P s := by
    intro s mem
    rcases List.mem_append.mp mem with mem | mem
    · exact before s mem
    · exact List.mem_singleton.mp mem ▸ here
  refine ⟨each (fun s own => ?_) ?_,each (fun s own unerased => ?_) fun unerased => ?_,each (fun s own since => ?_) fun since => ?_,?_⟩
  · refine (h.scope s own).kept stable judged written fun o listed => ?_
    cases since : s.request.databaseErasedAt with
    | none => exact .inr (.inl (agree.undecided s (within s own) since))
    | some _ =>
      have gone := before.gone s own (by simp [since])
      exact .inl (rewriteKept judged (List.mem_filter.mp listed).1 (gone.orders o listed))
  · exact judged.scope.kept stable judged written fun _ _ => .inr (.inr rfl)
  · exact (h.agrees s own unerased).kept agree (within s own) unerased (h.scope s own) mem judged written
  · have found : CaseAgrees states state t.db := by
      cases judged.verdict with
      | preserved _ agrees => exact agrees
      | erased _ since => simp [unerased] at since
      | replay _ _ _ _ since => simp [unerased] at since
    exact found.kept agree mem unerased judged.scope mem judged written
  · obtain ⟨marker,decided,own'⟩ := h.marked s own since
    refine ⟨marker,decided,?_⟩
    rw [written.identities,own']
    cases put : verdict.marker.filter (·.phoneHash = s.scope.phoneHash) with
    | none => rfl
    | some other =>
      obtain ⟨verdict_,hash⟩ := markerFiltered.mp put
      obtain ⟨erased,other'⟩ := markerSource judged verdict_
      have phone : s.scope.phoneHash = state.scope.phoneHash := hash ▸ recorded.marker other other'.marked
      have same := agree.markers s (within s own) state mem since erased phone
      rw [decided.marked,other'.marked] at same
      exact same ▸ rfl
  · cases judged.verdict with
    | preserved unerased => simp [unerased] at since
    | erased marker _ own =>
      have put := written.markerPut rfl
      rw [recorded.marker marker own.marked] at put
      exact ⟨marker,own.toCaseDecided,put⟩
    | replay _ _ _ marker _ _ own =>
      have put := written.markerPut rfl
      rw [recorded.marker marker own.marked] at put
      exact ⟨marker,own.toCaseDecided,put⟩

  · intro k m own
    rw [written.identities] at own
    cases put : verdict.marker.filter (·.phoneHash = k) with
    | none => exact h.identities k m (by simpa [put] using own)
    | some other =>
      obtain ⟨verdict_,hash⟩ := markerFiltered.mp put
      have decided := (markerSource judged verdict_).2
      obtain rfl : other = m := by simpa [put] using own
      exact ⟨decided.key,state,mem,other,decided.marked,hash⟩

theorem settledRun {cases : RecoveryCases} (recorded : ∀ s ∈ cases.rows, RecordedCase S s) (unique : UniqueTasks t₀)
    (known : Known S digestKey t₀.db cases) (agree : CasesAgree cases.rows) (stable : FinanciallyStable S t₀.db)
    {erased preserved : Nat}
    (ran : cases.rows.foldlM (reconcileCase S digestKey false now cases.rows) (t₀,0,0) = .ok (t,erased,preserved)) :
    Settled S digestKey cases.rows cases.rows t.db := by
  have all := foldOk (P := fun done run => Replayed now done t₀ run.1 ∧ Settled S digestKey cases.rows done run.1.db) ran
    ⟨replayedStart,settledStart known⟩ ?_
  · exact all.2
  intro done s rest run next split ⟨before,settled⟩ taken
  obtain ⟨t₁,erased,preserved⟩ := run
  obtain ⟨verdict,judged,t₂,wrote,rfl⟩ := reconcileCaseOk.mp taken
  have mem : s ∈ cases.rows := by simp [split]
  have within : ∀ a ∈ done, a ∈ cases.rows := fun a mem => by simp [split,mem]
  have fresh : ∀ a ∈ done, a.id ≠ s.id := by
    intro a here same
    have distinct := casesDistinct cases
    rw [split,List.map_append,List.map_cons] at distinct
    exact (List.nodup_append.mp distinct).2.2 _ (List.mem_map_of_mem here) _ List.mem_cons_self same
  have written := writeCaseSource (recorded s mem) judged wrote
  exact ⟨before.next fresh unique (recorded s mem) judged written,
    settled.next before stable agree within mem (recorded s mem) judged written⟩

/-! ### The second run -/

def touchTask (now : Time) (task : PrivacyExternalTask) : PrivacyExternalTask := { task with updatedAt := now }

def touchRequest (now : Time) (r : PrivacyDeletionRequest) : PrivacyDeletionRequest :=
  { r with tasks := r.tasks.map (touchTask now) }

def touchIn (ids : List PrivacyRequestId) (now : Time) (r : PrivacyDeletionRequest) : PrivacyDeletionRequest :=
  if r.id ∈ ids then touchRequest now r else r

theorem touchInId (ids : List PrivacyRequestId) (now : Time) (r : PrivacyDeletionRequest) : (touchIn ids now r).id = r.id := by
  unfold touchIn
  split <;> rfl

theorem touchInColumns (ids : List PrivacyRequestId) (now : Time) (r : PrivacyDeletionRequest) :
    (touchIn ids now r).toRequestColumns = r.toRequestColumns := by
  unfold touchIn
  split <;> rfl

def RestoredDb.touchedIn (ids : List PrivacyRequestId) (now : Time) (t : RestoredDb) : RestoredDb :=
  { t with db := { t.db with requests := t.db.requests.update (touchIn ids now) (touchInId ids now) } }

/-- The same tables, with the write times of all tasks. -/
def RestoredDb.touched (now : Time) (t : RestoredDb) : RestoredDb :=
  { t with db := { t.db with requests := t.db.requests.update (touchRequest now) fun _ => rfl } }

theorem laterDateSelf (date : Option Time) : laterDate date date = false := by
  cases date <;> simp [laterDate]

theorem taskFound (recorded : RecordedCase S s) {task : RecoveryTask} (mem : task ∈ s.tasks) :
    s.task? task.system = some task :=
  Table.find_of_mem (t := ⟨s.tasks,recorded.systems⟩) mem

theorem finishedJudged (recorded : RecordedCase S s) {tasks : List PrivacyExternalTask} {audit : List PrivacyAudit}
    (fit : TasksFit s tasks) (held : s.request.databaseErasedAt.isSome → s.request.status ∉ [PrivacyStatus.cancelled,.hold]) :
    RequestJudged s (finishedRequest now s tasks audit) := by
  refine ⟨le_rfl,le_rfl,held,fun task mem => ?_⟩
  obtain ⟨found,here,rfl⟩ := List.mem_map.mp ((replayedTasksPerm recorded fit).mem_iff.mp mem)
  exact ⟨found,taskFound recorded here,laterDateSelf _,laterDateSelf _⟩

/-- The tasks of a case written again change in their write times only. -/
theorem replayTasksAgain (recorded : RecordedCase S s) {tasks : List PrivacyExternalTask} (fit : TasksFit s tasks) :
    replayTasks now' s.tasks (replayTasks now s.tasks tasks) = (replayTasks now s.tasks tasks).map (touchTask now') := by
  have perm : (replayTasks now s.tasks tasks).Perm (s.tasks.map (replayedTask now)) := replayedTasksPerm recorded fit
  have unique : ((replayTasks now s.tasks tasks).map PrivacyExternalTask.system).Nodup := by
    rw [(perm.map _).nodup_iff,taskSystems]
    exact recorded.systems
  rw [replayTasksPutRows,Table.putRows_map (f := touchTask now') unique _ (fun _ => rfl) (fun _ => rfl)]
  · refine List.map_congr_left fun task mem => if_pos ?_
    rw [taskSystems]
    have own := List.mem_map_of_mem (f := PrivacyExternalTask.system) (perm.mem_iff.mp mem)
    rwa [taskSystems] at own
  · intro task mem
    obtain ⟨found,here,rfl⟩ := List.mem_map.mp mem
    exact ⟨replayedTask now found,perm.mem_iff.mpr (List.mem_map_of_mem here),rfl,rfl⟩

theorem touchNext (ids : List PrivacyRequestId) (now : Time) {requests : Table PrivacyDeletionRequest fun r => r.id}
    {r : PrivacyDeletionRequest} (row : requests.find r.id = some r) :
    (requests.update (touchIn ids now) (touchInId ids now)).put (touchRequest now r) =
      requests.update (touchIn (ids ++ [r.id]) now) (touchInId (ids ++ [r.id]) now) := by
  have mem := (Table.find_some row).1
  have present : (touchRequest now r).id ∈ (requests.rows.map (touchIn ids now)).map (fun r => r.id) := by
    refine List.mem_map.mpr ⟨_,List.mem_map_of_mem mem,?_⟩
    rw [touchInId]
    rfl
  have unique : ((requests.rows.map (touchIn ids now)).map fun r => r.id).Nodup :=
    (requests.update (touchIn ids now) (touchInId ids now)).unique
  refine Table.eq_of_rows ?_
  simp only [Table.put,Table.update]
  rw [Table.putRow_map unique present,List.map_map]
  refine List.map_congr_left fun other here => ?_
  simp only [Function.comp,touchInId]
  change (if other.id = r.id then touchRequest now r else touchIn ids now other) = _
  by_cases same : other.id = r.id
  · have found := Table.find_of_mem here
    rw [same,row] at found
    obtain rfl := Option.some.inj found
    rw [if_pos rfl]
    exact (if_pos (by simp)).symm
  · rw [if_neg same]
    simp [touchIn,same]

section
variable {ids : List PrivacyRequestId} (now') (replayed : Replayed now states t₀ t)
include replayed

theorem admittedAgain (requests : ∀ r ∈ t.db.requests.rows, ∃ s ∈ states, s.id = r.id) (mem : s ∈ states) :
    Admits (t.touchedIn ids now') s.request := by
  intro other here differ
  obtain ⟨r,own,rfl⟩ := List.mem_map.mp here
  rw [touchInColumns] at differ ⊢
  obtain ⟨a,there,same⟩ := requests r own
  obtain ⟨tasks,audit,row,_⟩ := replayed.rows a there
  have found := Table.find_of_mem own
  rw [← same,row] at found
  obtain rfl := Option.some.inj found
  exact replayed.apart a there s mem differ

theorem touchedRow (mem : s ∈ states) (fresh : s.id ∉ ids) : ∃ tasks audit, TasksFit s tasks ∧
    t.db.requests.find s.id = some (finishedRequest now s tasks audit) ∧
    (t.touchedIn ids now').db.requests.find s.id = some (finishedRequest now s tasks audit) := by
  obtain ⟨tasks,audit,row,fit,_⟩ := replayed.rows s mem
  refine ⟨tasks,audit,fit,row,?_⟩
  have own : (finishedRequest now s tasks audit).id ∉ ids := fresh
  have kept : touchIn ids now' (finishedRequest now s tasks audit) = finishedRequest now s tasks audit := if_neg own
  have found := Table.find_update t.db.requests (touchIn ids now') (touchInId ids now') s.id
  rw [row,Option.map_some,kept] at found
  exact found

variable (recorded : ∀ s ∈ states, RecordedCase S s)
include recorded

theorem finishedAgain (mem : s ∈ states) (fresh : s.id ∉ ids) :
    (t.touchedIn ids now').finished now' s = t.touchedIn (ids ++ [s.id]) now' := by
  obtain ⟨tasks,audit,fit,row,here⟩ := touchedRow now' replayed mem fresh
  obtain ⟨_,_,_,_,decision⟩ := replayed.rows s mem
  have again : finishedRow now' (t.touchedIn ids now') s = touchRequest now' (finishedRequest now s tasks audit) := by
    simp only [finishedRow,here,Option.map_some,Option.getD_some,finishedRequest,touchRequest,
      replayTasksAgain (recorded s mem) fit]
  have kept : Function.update (t.touchedIn ids now').replayed s.id s.decision = t.replayed := by
    rw [← decision]
    exact Function.update_eq_self _ _
  have rows := touchNext (r := finishedRequest now s tasks audit) ids now' row
  simp only [RestoredDb.finished,again,kept]
  exact congrArg (fun requests => ({ t with db := { t.db with requests } } : RestoredDb)) rows

variable (settled : Settled S digestKey states states t.db)
include settled

/-- A case that is judged again has nothing to erase. -/
theorem judgedAgain (mem : s ∈ states) (fresh : s.id ∉ ids) : ∃ verdict,
    CaseJudged S digestKey states s (t.touchedIn ids now').db verdict ∧ verdict.erases = 0 ∧
    (verdict = .preserved ∨ ∃ marker, verdict = .erased marker ∧ t.db.identities.find marker.phoneHash = some marker) := by
  obtain ⟨tasks,audit,fit,_,row⟩ := touchedRow now' replayed mem fresh
  have scope := settled.scope s mem
  have held : s.request.databaseErasedAt.isSome → s.request.status ∉ [PrivacyStatus.cancelled,.hold] := by
    intro since
    obtain ⟨_,decided,_⟩ := settled.marked s mem since
    exact decided.status
  have request : ∀ r, (t.touchedIn ids now').db.requests.find s.id = some r → RequestJudged s r := by
    intro r found
    cases row.symm.trans found
    exact finishedJudged (recorded s mem) fit held
  have scope : ScopeJudged S s (t.touchedIn ids now').db := ⟨scope.whole,scope.owner,scope.closed,scope.orders⟩
  cases since : s.request.databaseErasedAt with
  | none => exact ⟨.preserved,⟨request,scope,.preserved since (settled.agrees s mem since)⟩,rfl,.inl rfl⟩
  | some erasedAt =>
    have present : s.request.databaseErasedAt.isSome := by simp [since]
    obtain ⟨marker,decided,own⟩ := settled.marked s mem present
    have gone := replayed.gone s mem present
    have hash := (recorded s mem).marker marker decided.marked
    refine ⟨.erased marker,⟨request,scope,.erased marker present ⟨decided,fun prior found => ?_⟩ gone.customer gone.orders⟩,rfl,
      .inr ⟨marker,rfl,hash ▸ own⟩⟩
    cases own.symm.trans found
    exact ⟨rfl,le_rfl⟩

variable (requests : ∀ r ∈ t.db.requests.rows, ∃ s ∈ states, s.id = r.id)
include requests

theorem caseAgain (mem : s ∈ states) (fresh : s.id ∉ ids) (erased preserved : Nat) :
    reconcileCase S digestKey false now' states (t.touchedIn ids now',erased,preserved) s =
      .ok (t.touchedIn (ids ++ [s.id]) now',erased,preserved + if unerasedCase s then 1 else 0) := by
  obtain ⟨verdict,judged,erases,which⟩ := judgedAgain now' replayed recorded settled mem fresh
  have admitted : Admits (t.touchedIn ids now') s.request := admittedAgain now' replayed requests mem
  have finished : _ = t.touchedIn (ids ++ [s.id]) now' := finishedAgain now' replayed recorded mem fresh
  refine reconcileCaseOk.mpr ⟨verdict,judged,t.touchedIn (ids ++ [s.id]) now',?_,?_⟩
  · rcases which with rfl | ⟨marker,rfl,own⟩
    · exact finishCaseOk.mpr ⟨admitted,finished.symm⟩
    · have marked : (t.touchedIn ids now').mark marker = t.touchedIn ids now' := by
        have same := Table.put_same own
        simp only [RestoredDb.mark,RestoredDb.touchedIn,same]
      change finishCase now' ((t.touchedIn ids now').mark marker) s = _
      rw [marked]
      exact finishCaseOk.mpr ⟨admitted,finished.symm⟩
  · rw [erases,verdictPreserves judged.verdict]
    rfl

theorem casesAgain (distinct : (states.map (·.id)).Nodup) (rest : List RecoveryState) (split : states = done ++ rest)
    (erased preserved : Nat) :
    rest.foldlM (reconcileCase S digestKey false now' states) (t.touchedIn (done.map (·.id)) now',erased,preserved) =
      .ok (t.touchedIn (states.map (·.id)) now',erased,preserved + rest.countP unerasedCase) := by
  induction rest generalizing done preserved with
  | nil =>
    rw [split,List.append_nil]
    rfl
  | cons s rest ih =>
    have mem : s ∈ states := by simp [split]
    have fresh : s.id ∉ done.map (·.id) := by
      rw [split,List.map_append,List.map_cons] at distinct
      exact fun here => (List.nodup_append.mp distinct).2.2 _ here _ List.mem_cons_self rfl
    have onward : states = (done ++ [s]) ++ rest := by simp [split]
    have later := ih onward (preserved + if unerasedCase s then 1 else 0)
    rw [List.map_append] at later
    rw [List.foldlM_cons,List.countP_cons]
    refine bindOk.mpr ⟨_,caseAgain now' replayed recorded settled requests mem fresh erased preserved,later.trans ?_⟩
    rw [Nat.add_assoc,Nat.add_comm (List.countP _ _)]

end

/-- A reconciliation over the same history that runs on what the first one has left
succeeds, erases nothing and changes the write times of the tasks only. -/
theorem reconcileAgain [DecidableEq δ] {entries advanced : List (RecoveryEntry δ)} {history : Inspection δ}
    {report : Reconciled} (ready : J.ready entries = .ok history) (recorded : ∀ s ∈ history.cases.rows, RecordedCase S s)
    (unique : UniqueTasks t) (agree : CasesAgree history.cases.rows) (stable : FinanciallyStable S t.db)
    (ok : reconcileRecoveryTransaction S J entries advanced digestKey false now t = .ok (t',report)) (now' : Time) :
    reconcileRecoveryTransaction S J entries advanced digestKey false now' t' =
      .ok (t'.touched now',{ report with erased := 0 }) := by
  have reflects := reconcileFaithful ready recorded unique ok
  obtain ⟨replayed,known,_⟩ := reconcileReplays ready recorded unique ok
  obtain ⟨_,current,erased,preserved,ready',_,ran,again,same,rfl⟩ := reconcileOk.mp ok
  cases ready.symm.trans ready'
  have settled := settledRun recorded unique known agree stable ran
  have count := (caseRun recorded (casesDistinct _) unique ran).2
  have whole : history.cases.rows = [] ++ history.cases.rows := rfl
  have runs := casesAgain now' replayed recorded settled reflects.requests (casesDistinct _) _ whole 0 0
  have first : t'.touchedIn [] now' = t' := by
    have rows : t'.db.requests.update (touchIn [] now') (touchInId [] now') = t'.db.requests :=
      Table.eq_of_rows (List.map_id _)
    simp only [RestoredDb.touchedIn,rows]
  have last : t'.touchedIn (history.cases.rows.map (·.id)) now' = t'.touched now' := by
    have rows : t'.db.requests.update (touchIn (history.cases.rows.map (·.id)) now') (touchInId _ now') =
        t'.db.requests.update (touchRequest now') fun _ => rfl := by
      refine Table.eq_of_rows (List.map_congr_left fun r mem => if_pos ?_)
      obtain ⟨s,here,same⟩ := reflects.requests r mem
      exact List.mem_map.mpr ⟨s,here,same⟩
    simp only [RestoredDb.touchedIn,RestoredDb.touched,rows]
  rw [List.map_nil,first,last,Nat.zero_add,← count] at runs
  refine reconcileOk.mpr ⟨history,current,0,preserved,ready,judgeKnownOk.mpr ⟨reflects.requests,?_,?_⟩,runs,again,same,rfl⟩
  · exact fun m mem => (settled.identities _ m (Table.find_of_mem mem)).1
  · exact fun m mem => (settled.identities _ m (Table.find_of_mem mem)).2

/-- Cases of different customers and phones agree. -/
theorem agreeApart {cases : RecoveryCases} (apart : CasesApart cases.rows)
    (phones : ∀ a ∈ cases.rows, ∀ s ∈ cases.rows, a.id ≠ s.id → a.scope.phoneHash ≠ s.scope.phoneHash)
    (undecided : ∀ s ∈ cases.rows, s.request.databaseErasedAt = none → s.decision = none) : CasesAgree cases.rows := by
  refine ⟨fun a mem unerased s here erasedAt since same => ?_,undecided,fun a mem s here _ _ same => ?_⟩
  · have differ : s.id ≠ a.id := by
      intro same
      have found := Table.find_of_mem mem
      rw [show a.request.id = s.request.id from same.symm,Table.find_of_mem here] at found
      cases found
      rw [unerased] at since
      cases since
    exact absurd same (apart s here a mem (by simp [since]) differ).1
  · by_cases one : a.id = s.id
    · have found := Table.find_of_mem mem
      rw [show a.request.id = s.request.id from one,Table.find_of_mem here] at found
      cases found
      rfl
    · exact absurd same (phones a mem s here one)

theorem restoredAgain : ∃ r, sampleRestore = some r ∧
    reconcileRecoveryTransaction replayService sampleJournal r.entries r.entries "key" false 10 r.restored =
      .ok (r.restored.touched 10,⟨2,0,1,true⟩) := by
  obtain ⟨r,restore,sound⟩ := sampleRestored
  have agree := agreeApart sound.apart sound.phones sound.undecided
  exact ⟨r,restore,reconcileAgain sound.ready sound.recorded sound.unique agree (fun _ _ _ _ _ => rfl) sound.reconciled 10⟩

end SpeedySweeties
