import SpeedySweeties.Privacy.JournalEvidence
import SpeedySweeties.Recovery.ReconcileOutcomes

/-! The histories that the service itself writes: every case of them is one that a
reconciliation can replay. -/
namespace SpeedySweeties
open PrivacyRecoveryJournal

variable {δ : Type} {S : PrivacyService δ} {J : PrivacyRecoveryJournal δ}

/-- The hash of an owner binds the phone, and a hash has 64 hexadecimal digits. -/
structure HashesBind (S : PrivacyService δ) : Prop where
  owner : ∀ c c', S.ownerHash c = S.ownerHash c' → c.normalizedPhone = c'.normalizedPhone
  hex : ∀ text, reconciledEvidence (reconciledLabel ++ S.hash text) = some (S.hash text)

def ScopeBound (S : PrivacyService δ) (scope : RecoveryScope) : Prop :=
  ∀ c, S.ownerHash c = scope.ownerHash → S.hash ("phone:" ++ c.normalizedPhone) = scope.phoneHash

/-- The unique index of the task rows. -/
def TasksOnce (db : PrivacyDb) : Prop := ∀ r ∈ db.requests.rows, (r.tasks.map (·.system)).Nodup

/-! ### The task rows -/

variable {db db' : PrivacyDb} {now : Time}

theorem TasksOnce.put (h : TasksOnce db) {r : PrivacyDeletionRequest} (once : (r.tasks.map (·.system)).Nodup)
    (requests : db'.requests = db.requests.put r) : TasksOnce db' := by
  intro other mem
  rw [requests] at mem
  rcases Table.mem_put mem with rfl | ⟨mem,_⟩
  · exact once
  · exact h other mem

theorem TasksOnce.found (h : TasksOnce db) {id : PrivacyRequestId} {r : PrivacyDeletionRequest}
    (stored : db.requests.find id = some r) : (r.tasks.map (·.system)).Nodup :=
  h r (Table.find_some stored).1

theorem resolvedSystems (system actor evidence : String) (outcome : ExternalTaskStatus) (retainUntil : Option Time)
    (r : PrivacyDeletionRequest) :
    (externallyResolved system actor outcome evidence retainUntil now r).tasks.map (·.system) = r.tasks.map (·.system) := by
  simp only [externallyResolved,List.map_map]
  refine List.map_congr_left fun task _ => ?_
  simp only [Function.comp]
  split <;> rfl

theorem RequestStep.tasksOnce {id : PrivacyRequestId} (h : RequestStep S db now db' id) (once : TasksOnce db) :
    TasksOnce db' := by
  cases h with
  | same => exact once
  | submitted input audit c customer sourceOrder timeframe =>
    exact once.put (r := newRequest S input now audit c customer sourceOrder timeframe) List.nodup_nil rfl
  | recovered input audit c customer r _ stored =>
    have own := once.found stored
    exact once.put (r := recoveredRequest S input now audit r) own rfl
  | cancelled r stored =>
    have own := once.found stored
    exact once.put (r := cancelledRequest now r) own rfl
  | held actor r stored =>
    have own := once.found stored
    exact once.put (r := heldRequest now actor r) own rfl
  | erased actor decision p _ _ _ _ _ _ untasked =>
    refine once.put (r := erasedRequest S decision now actor p.request) ?_ rfl
    simp only [erasedRequest,untasked,List.nil_append,List.map_map,Function.comp_def,List.map_id']
    decide
  | resolved system actor evidence outcome retainUntil r stored =>
    have own := once.found stored
    refine once.put (r := externallyResolved system actor outcome evidence retainUntil now r) ?_ rfl
    rwa [resolvedSystems]
  | completed actor r stored =>
    have own := once.found stored
    exact once.put (r := completedRequest S now actor r) own rfl

/-! ### The state of a request -/

theorem reconciledShape {rest : List Char} (length : rest.length = 64)
    (hex : rest.all (fun c => c.isDigit || ('a' ≤ c && c ≤ 'f')) = true) :
    reconciledEvidence (reconciledLabel ++ String.ofList rest) = some (String.ofList rest) := by
  have label : reconciledLabel.length = reconciledLabel.toList.length := String.length_toList.symm
  simp only [reconciledEvidence,String.toList_append,String.toList_ofList,label,List.take_left,List.drop_left]
  exact if_pos ⟨trivial,length,hex⟩

theorem reconciledSource {text hash : String} (reconciled : reconciledEvidence text = some hash) :
    hash ≠ "" ∧ reconciledEvidence (reconciledLabel ++ hash) = some hash := by
  simp only [reconciledEvidence] at reconciled
  split at reconciled
  · rename_i shape
    cases Option.some.inj reconciled
    refine ⟨fun empty => ?_,reconciledShape shape.2.1 shape.2.2⟩
    have none : _ = "".toList := congrArg String.toList empty
    rw [String.toList_ofList] at none
    simp [none] at shape
  · cases reconciled

theorem HashesBind.evidence (hashes : HashesBind S) {task : PrivacyExternalTask} {hash : String}
    (own : (recoveryTask S task).evidenceHash = some hash) :
    hash ≠ "" ∧ reconciledEvidence (reconciledLabel ++ hash) = some hash := by
  simp only [recoveryTask,Option.bind_eq_some_iff] at own
  obtain ⟨text,_,own⟩ := own
  split at own
  · cases own
  · cases Option.some.inj own
    cases reconciled : reconciledEvidence text with
    | none => exact reconciledSource (hashes.hex text)
    | some hash => exact reconciledSource reconciled

theorem recoveryScopeBound (hashes : HashesBind S) {r : PrivacyDeletionRequest} {prior : Option RecoveryScope}
    {scope : RecoveryScope} (bound : ∀ scope, prior = some scope → ScopeBound S scope)
    (read : recoveryScope S db r prior = .ok (some scope)) : ScopeBound S scope := by
  unfold recoveryScope at read
  split at read
  · exact bound scope (pureOk.mp read)
  · simp only [bindOk,foundOk,pureOk,Option.some.injEq] at read
    obtain ⟨c,_,rfl⟩ := read
    intro other same
    have phone := hashes.owner other c same
    rw [phone]

theorem recoveryStateRecorded (hashes : HashesBind S) (sound : RequestsSound db) (once : TasksOnce db)
    {id : PrivacyRequestId} {prior : Option RecoveryScope} {state : RecoveryState}
    (bound : ∀ scope, prior = some scope → ScopeBound S scope)
    (read : recoveryState S db id prior = .ok (some state)) : RecordedCase S state := by
  unfold recoveryState at read
  split at read
  · cases read
  · rename_i r stored
    simp only [bindOk,foundOk,pureOk,Option.some.injEq] at read
    obtain ⟨_,covered,scope,rfl,rfl⟩ := read
    have systems : (r.tasks.map (recoveryTask S)).map (·.system) = r.tasks.map (·.system) := by
      rw [List.map_map]
      rfl
    obtain ⟨_,_,own⟩ := sound.requests id r stored
    refine ⟨recoveryScopeBound hashes bound covered,fun marker here => Table.find_key here,?_,fun since system mem => ?_,?_⟩
    · rw [systems]
      exact once.found stored
    · rwa [systems,own.tasks (own.erasedAt.mp since)]
    · intro task mem hash some
      obtain ⟨found,_,rfl⟩ := List.mem_map.mp mem
      exact hashes.evidence some

/-! ### The fold of the journal -/

def RecoveryPayload.states : RecoveryPayload δ → List RecoveryState
  | .intent p => [p.state]
  | .retained state => [state]
  | _ => []

def EntryRecorded (S : PrivacyService δ) (e : RecoveryEntry δ) : Prop := ∀ s ∈ e.payload.states, RecordedCase S s

theorem settleRecorded {cases : RecoveryCases} {state : RecoveryState} (recorded : ∀ s ∈ cases.rows, RecordedCase S s)
    (own : RecordedCase S state) : ∀ s ∈ (settle cases state).rows, RecordedCase S s := by
  intro s mem
  rcases Table.mem_put mem with rfl | ⟨mem,_⟩
  · exact ⟨own.phone,own.marker,own.systems,own.external,own.evidence⟩
  · exact recorded s mem

section Fold
variable [DecidableEq δ] {entries : List (RecoveryEntry δ)} {st : Inspection δ} {cases : RecoveryCases}

omit [DecidableEq δ] in
theorem Opening.recorded (h : Opening J entries cases) (recorded : ∀ e ∈ entries, EntryRecorded S e) :
    ∀ s ∈ cases.rows, RecordedCase S s := by
  cases h with
  | genesis => exact fun _ mem => absurd mem List.not_mem_nil
  | successor _ _ retained _ _ _ _ _ states rows =>
    intro s mem
    rw [rows] at mem
    obtain ⟨r,here,rfl⟩ := List.mem_map.mp mem
    have own := recorded r.1 (by simp [List.mem_map_of_mem here])
    rw [EntryRecorded,states r here] at own
    exact own r.2 (List.mem_singleton_self _)

theorem decisionsRecorded (decisions : List (Closure δ)) (valid : ∀ d ∈ decisions, d.Valid)
    (recorded : ∀ d ∈ decisions, EntryRecorded S d.intent) (first : ∀ s ∈ cases.rows, RecordedCase S s) :
    ∀ s ∈ (decidedCases cases decisions).rows, RecordedCase S s := by
  unfold decidedCases
  induction decisions generalizing cases with
  | nil => exact first
  | cons d rest ih =>
    obtain ⟨own,later⟩ := List.forall_mem_cons.mp recorded
    obtain ⟨closed,all⟩ := List.forall_mem_cons.mp valid
    refine ih all later ?_
    dsimp only
    split
    · rw [EntryRecorded,closed.intent] at own
      exact settleRecorded first (own _ (List.mem_singleton_self _))
    · exact first

theorem Chronicle.recorded (h : Chronicle J entries cases) (recorded : ∀ e ∈ entries, EntryRecorded S e) :
    ∀ s ∈ cases.rows, RecordedCase S s := by
  obtain ⟨opening,first,decisions,opened,valid,rfl,rfl⟩ := h
  refine decisionsRecorded decisions valid (fun d mem => recorded _ ?_) (opened.recorded fun e mem => recorded e ?_)
  · exact List.mem_append_right _ (List.mem_flatMap.mpr ⟨d,mem,by simp [Closure.pair]⟩)
  · exact List.mem_append_left _ mem

theorem historyRecorded (recorded : ∀ e ∈ entries, EntryRecorded S e) (ok : J.history entries = .ok st) :
    ∀ s ∈ st.cases.rows, RecordedCase S s := by
  have part {told rest : List (RecoveryEntry δ)} (split : entries = told ++ rest) : ∀ e ∈ told, EntryRecorded S e :=
    fun e mem => recorded e (split ▸ List.mem_append_left _ mem)
  cases (historyStage ok).1 with
  | covering _ retained _ _ _ _ states here rows =>
    intro s mem
    rw [rows] at mem
    obtain ⟨r,own,rfl⟩ := List.mem_map.mp mem
    have kept := recorded r.1 (by simp [here,List.mem_map_of_mem own])
    rw [EntryRecorded,states r own] at kept
    exact kept r.2 (List.mem_singleton_self _)
  | idle told => exact told.recorded recorded
  | pending _ _ _ told _ split => exact told.recorded (part split)
  | sealed _ _ _ told split => exact told.recorded (part split)

theorem readyRecorded (recorded : ∀ e ∈ entries, EntryRecorded S e) (ready : J.ready entries = .ok st) :
    ∀ s ∈ st.cases.rows, RecordedCase S s :=
  historyRecorded recorded (inspectOk.mp ready).history

end Fold

/-! ### Every run -/

def CheckBound (S : PrivacyService δ) (c : CheckedTransition δ) : Prop := ∀ scope, c.scope = some scope → ScopeBound S scope

def PhaseRecorded (S : PrivacyService δ) : TransitionPhase δ → Prop
  | .waiting | .locked => True
  | .checked c => CheckBound S c
  | .worked c _ db => CheckBound S c ∧ TasksOnce db
  | .prepared _ e db => EntryRecorded S e ∧ TasksOnce db
  | .acknowledged e db => EntryRecorded S e ∧ TasksOnce db
  | .committed e => EntryRecorded S e

structure HistoryRecorded (S : PrivacyService δ) (s : PrivacySystem δ) : Prop where
  tasks : TasksOnce s.db
  entries : ∀ e ∈ s.entries, EntryRecorded S e
  inFlight : ∀ x ∈ s.inFlight, EntryRecorded S x.2
  phases : ∀ process p, s.processes process = some p → PhaseRecorded S p.phase

variable {s t : PrivacySystem δ} {process : ProcessId}

theorem HistoryRecorded.update (h : HistoryRecorded S s) (next : Option (TransitionProcess δ))
    (processes : t.processes = Function.update s.processes process next) (tasks : TasksOnce t.db)
    (entries : ∀ e ∈ t.entries, EntryRecorded S e) (inFlight : ∀ x ∈ t.inFlight, EntryRecorded S x.2)
    (own : ∀ p, next = some p → PhaseRecorded S p.phase) : HistoryRecorded S t where
  tasks := tasks
  entries := entries
  inFlight := inFlight
  phases other p hp := by
    rw [processes] at hp
    rcases updatedProcess hp with ⟨rfl,new⟩ | ⟨_,hp⟩
    · exact own p new
    · exact h.phases other p hp

theorem HistoryRecorded.advance (h : HistoryRecorded S s) (process : ProcessId) {p : TransitionProcess δ}
    {phase : TransitionPhase δ} (own : PhaseRecorded S phase) : HistoryRecorded S (s.advance process p phase) :=
  h.update (some { p with phase }) rfl h.tasks h.entries h.inFlight fun q same => by cases same; exact own

theorem HistoryRecorded.drop (h : HistoryRecorded S s) (process : ProcessId) :
    HistoryRecorded S (s.setProcess process none) :=
  h.update none rfl h.tasks h.entries h.inFlight (by simp)

theorem HistoryRecorded.abort (h : HistoryRecorded S s) (process : ProcessId) : HistoryRecorded S (s.abort process) :=
  h.update none rfl h.tasks h.entries h.inFlight (by simp)

theorem HistoryRecorded.push (h : HistoryRecorded S s) {e : RecoveryEntry δ} (own : EntryRecorded S e) :
    HistoryRecorded S (s.push e) where
  tasks := h.tasks
  entries := List.forall_mem_append.mpr ⟨h.entries,by simpa using own⟩
  inFlight := h.inFlight
  phases := h.phases

theorem HistoryRecorded.launch (h : HistoryRecorded S s) {x : RecoveryHead × RecoveryEntry δ} (own : EntryRecorded S x.2) :
    HistoryRecorded S { s with inFlight := s.inFlight ++ [x] } where
  tasks := h.tasks
  entries := h.entries
  inFlight := List.forall_mem_append.mpr ⟨h.inFlight,by simpa using own⟩
  phases := h.phases

theorem PhaseRecorded.mapDb {phase : TransitionPhase δ} (h : PhaseRecorded S phase) {f : PrivacyDb → PrivacyDb}
    (requests : ∀ db, (f db).requests = db.requests) : PhaseRecorded S (phase.mapDb f) := by
  have kept {db : PrivacyDb} (once : TasksOnce db) : TasksOnce (f db) := fun r mem => once r (requests db ▸ mem)
  cases phase with
  | waiting | locked | checked | committed => exact h
  | worked | prepared | acknowledged => exact ⟨h.1,kept h.2⟩

theorem HistoryRecorded.mapDb (h : HistoryRecorded S s) {f g : PrivacyDb → PrivacyDb}
    (published : (f s.db).requests = s.db.requests) (working : ∀ db, (g db).requests = db.requests) :
    HistoryRecorded S (s.mapDb f g) where
  tasks r mem := h.tasks r (published ▸ mem)
  entries := h.entries
  inFlight := h.inFlight
  phases process p hp := by
    simp only [PrivacySystem.mapDb,Option.map_eq_some_iff] at hp
    obtain ⟨q,hq,rfl⟩ := hp
    exact (h.phases process q hq).mapDb working

theorem HistoryRecorded.retable (h : HistoryRecorded S s) {db : PrivacyDb} (requests : db.requests = s.db.requests) :
    HistoryRecorded S { s with db } :=
  ⟨fun r mem => h.tasks r (requests ▸ mem),h.entries,h.inFlight,h.phases⟩

theorem HistoryRecorded.write (h : HistoryRecorded S s) {write : ForeignWrite} (taken : s.writeForeign write = some t) :
    HistoryRecorded S t := by
  cases write with
  | issueChallenge | access | createCustomer =>
    simp only [PrivacySystem.writeForeign] at taken
    split at taken <;> cases taken
    exact h.retable rfl
  | updateChallenge =>
    simp only [PrivacySystem.writeForeign,bind,Option.bind_eq_some_iff] at taken
    obtain ⟨_,_,taken⟩ := taken
    split at taken <;> cases taken
    exact h.retable rfl
  | editCustomer c =>
    cases Option.some.inj taken
    have kept (db : PrivacyDb) : (if (db.customers.find c.id).isSome then
        { db with customers := db.customers.put c } else db).requests = db.requests := by
      split <;> rfl
    exact h.mapDb (kept s.db) kept
  | others published working =>
    cases Option.some.inj taken
    exact h.mapDb rfl fun _ => rfl

section Steps
variable [DecidableEq δ] (hashes : HashesBind S)
include hashes

theorem checkBound (h : HistoryRecorded S s) (sound : RequestsSound s.db) {id : PrivacyRequestId}
    {checked : CheckedTransition δ} (ok : checkTransition S J s.entries s.db id = .ok checked) : CheckBound S checked := by
  simp only [checkTransition,bindOk] at ok
  obtain ⟨history,ready,before,read,ok⟩ := ok
  have prior : ∀ scope, (history.cases.find id).map (·.scope) = some scope → ScopeBound S scope := by
    intro scope own
    obtain ⟨state,stored,rfl⟩ := Option.map_eq_some_iff.mp own
    exact (readyRecorded h.entries ready state (Table.find_some stored).1).phone
  split at ok
  · cases pureOk.mp ok
    exact prior
  · simp only [bindOk,pureOk] at ok
    obtain ⟨_,_,_,_,rfl⟩ := ok
    rintro _ ⟨⟩
    exact (recoveryStateRecorded hashes sound h.tasks prior read).phone

omit [DecidableEq δ] in
theorem recordRecorded {checked : CheckedTransition δ} {db : PrivacyDb} {request : PrivacyRequestId}
    {event operation : String} {e : RecoveryEntry δ} (bound : CheckBound S checked) (sound : RequestsSound db)
    (once : TasksOnce db) (ok : recordIntent S J checked db request event operation = .ok e) : EntryRecorded S e := by
  simp only [recordIntent,bindOk,foundOk,pureOk] at ok
  obtain ⟨_,read,state,rfl,rfl⟩ := ok
  intro own mem
  cases List.mem_singleton.mp mem
  exact recoveryStateRecorded hashes sound once bound read

theorem HistoryRecorded.step (h : HistoryRecorded S s) (life : LifecycleSound s) {a : PrivacyAction δ}
    (taken : s.step S J a = some t) : HistoryRecorded S t := by
  have closing (head : RecoveryHead) (operation hash : String) : EntryRecorded S (J.entry head operation (.commit hash)) :=
    fun _ mem => absurd mem List.not_mem_nil
  cases a with
  | write write => exact h.write taken
  | start process operation now =>
    simp only [PrivacySystem.step] at taken
    split at taken <;> try contradiction
    split at taken <;> try contradiction
    cases Option.some.inj taken
    exact h.update _ rfl h.tasks h.entries h.inFlight (by rintro _ ⟨⟩; trivial)
  | acquire process =>
    simp only [PrivacySystem.step,bind,Option.bind_eq_some_iff] at taken
    obtain ⟨p,hp,taken⟩ := taken
    split at taken <;> try contradiction
    split at taken <;> try contradiction
    cases Option.some.inj taken
    exact h.update _ rfl h.tasks h.entries h.inFlight (by rintro _ ⟨⟩; trivial)
  | check process =>
    simp only [PrivacySystem.step,bind,Option.bind_eq_some_iff] at taken
    obtain ⟨p,hp,taken⟩ := taken
    split at taken <;> try contradiction
    split at taken <;> cases Option.some.inj taken
    · rename_i checked ok
      exact h.advance process (checkBound hashes h life.published ok)
    · exact h.abort process
  | work process now =>
    simp only [PrivacySystem.step,bind,Option.bind_eq_some_iff] at taken
    obtain ⟨p,hp,taken⟩ := taken
    split at taken <;> try contradiction
    rename_i phase
    split at taken <;> cases Option.some.inj taken
    · rename_i worked
      have bound := h.phases process p hp
      rw [phase] at bound
      exact h.advance process ⟨bound,(workSource worked).tasksOnce h.tasks⟩
    · exact h.abort process
  | record process =>
    simp only [PrivacySystem.step,bind,Option.bind_eq_some_iff] at taken
    obtain ⟨p,hp,taken⟩ := taken
    split at taken <;> try contradiction
    rename_i db phase
    split at taken <;> cases Option.some.inj taken
    · rename_i recorded
      have own := h.phases process p hp
      rw [phase] at own
      have sound := (life.working process p db hp (by rw [phase]; rfl)).1
      exact h.advance process ⟨recordRecorded hashes own.1 sound own.2 recorded,own.2⟩
    · exact h.abort process
  | append process =>
    simp only [PrivacySystem.step,bind,Option.bind_eq_some_iff] at taken
    obtain ⟨p,hp,taken⟩ := taken
    split at taken <;> try contradiction
    rename_i phase
    split at taken <;> cases Option.some.inj taken
    · have own := h.phases process p hp
      rw [phase] at own
      refine HistoryRecorded.push (h.advance process ?_) own.1
      exact own
    · exact h.abort process
  | loseAcknowledgement process =>
    simp only [PrivacySystem.step,bind,Option.bind_eq_some_iff] at taken
    obtain ⟨p,hp,taken⟩ := taken
    split at taken <;> try contradiction
    rename_i phase
    cases Option.some.inj taken
    have own := h.phases process p hp
    rw [phase] at own
    exact (h.abort process).launch own.1
  | commit process =>
    simp only [PrivacySystem.step,bind,Option.bind_eq_some_iff] at taken
    obtain ⟨p,hp,taken⟩ := taken
    split at taken <;> try contradiction
    rename_i phase
    cases Option.some.inj taken
    have own := h.phases process p hp
    rw [phase] at own
    exact h.update _ rfl own.2 h.entries h.inFlight (by rintro _ ⟨⟩; exact own.1)
  | conflict process =>
    simp only [PrivacySystem.step,bind,Option.bind_eq_some_iff] at taken
    obtain ⟨p,hp,taken⟩ := taken
    split at taken <;> cases taken
    exact h.update _ rfl h.tasks h.entries h.inFlight (by rintro _ ⟨⟩; trivial)
  | complete process =>
    simp only [PrivacySystem.step,bind,Option.bind_eq_some_iff] at taken
    obtain ⟨p,hp,taken⟩ := taken
    split at taken <;> try contradiction
    split at taken <;> cases Option.some.inj taken
    · exact (h.drop process).push (closing _ _ _)
    · exact h.drop process
  | loseCompletion process =>
    simp only [PrivacySystem.step,bind,Option.bind_eq_some_iff] at taken
    obtain ⟨p,hp,taken⟩ := taken
    split at taken <;> try contradiction
    cases Option.some.inj taken
    exact (h.drop process).launch (closing _ _ _)
  | fail process =>
    simp only [PrivacySystem.step,bind,Option.bind_eq_some_iff] at taken
    obtain ⟨p,hp,taken⟩ := taken
    cases Option.some.inj taken
    exact h.abort process
  | arrive index =>
    simp only [PrivacySystem.step,bind,Option.bind_eq_some_iff] at taken
    obtain ⟨x,flying,taken⟩ := taken
    have own := h.inFlight x (List.mem_of_getElem? flying)
    have rest : HistoryRecorded S { s with inFlight := s.inFlight.eraseIdx index } :=
      ⟨h.tasks,h.entries,fun y mem => h.inFlight y (List.mem_of_mem_eraseIdx mem),h.phases⟩
    split at taken <;> cases Option.some.inj taken
    · exact rest.push own
    · exact rest
  | resolve reviewDigest =>
    simp only [PrivacySystem.step] at taken
    split at taken <;> try contradiction
    split at taken <;> try contradiction
    rename_i resolution ok
    cases Option.some.inj taken
    simp only [resolvePending,bindOk,pureOk] at ok
    obtain ⟨_,_,_,_,_,_,_,_,rfl⟩ := ok
    exact h.launch fun _ mem => absurd mem List.not_mem_nil

theorem reachableRecorded {initial : PrivacyDb} (empty : initial.requests = Table.empty) (unused : initial.consumptions = [])
    (reached : PrivacySystem.Reachable S J initial s) : HistoryRecorded S s := by
  refine Transition.ReachableUnder.invariantWith reached ?_ fun s a t before recorded _ taken =>
    recorded.step hashes (reachableLifecycle empty unused before) taken
  have none : initial.requests.rows = [] := by
    rw [empty]
    rfl
  refine ⟨by simp [TasksOnce,PrivacySystem.initial,none],?_,by simp [PrivacySystem.initial],by simp [PrivacySystem.initial]⟩
  intro e mem
  cases List.mem_singleton.mp mem
  exact fun _ mem => absurd mem List.not_mem_nil

/-- Every case of a history that the service has written can be replayed. -/
theorem reachableCases {initial : PrivacyDb} {history : Inspection δ} (empty : initial.requests = Table.empty)
    (unused : initial.consumptions = []) (reached : PrivacySystem.Reachable S J initial s)
    (ready : J.ready s.entries = .ok history) : ∀ c ∈ history.cases.rows, RecordedCase S c :=
  readyRecorded (reachableRecorded hashes empty unused reached).entries ready

end Steps
end SpeedySweeties
