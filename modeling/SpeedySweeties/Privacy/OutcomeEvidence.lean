import SpeedySweeties.Privacy.RequestLifecycle

/-! Whether the outcome of a pending intent can be told from the tables. A transition whose
intent is durable has committed or been rolled back; the operator compares what it finds
with the two digests that the intent recorded. -/
namespace SpeedySweeties
open PrivacyRecoveryJournal

variable {δ : Type} (S : PrivacyService δ) (J : PrivacyRecoveryJournal δ)

section Intents
variable [DecidableEq δ]

/-- The transaction of `transition` up to its intent, with the tables it has written. -/
def transitionIntent (entries : List (RecoveryEntry δ)) (db : PrivacyDb) (now : Time) (operation : PrivacyOperation)
    (name : String) : Except PrivacyFailure (PrivacyDb × RecoveryEntry δ) := do
  let checked ← checkTransition S J entries db operation.id
  let (written,reply) ← operation.work S J entries db now
  let intent ← recordIntent S J checked written (reply.requestId operation.id) operation.event name
  pure (written,intent)

def PrivacyService.undigested (S : PrivacyService δ) : PrivacyService RecoveryEvidence :=
  { S with evidenceDigest := fun rows => rows }

/-- The rows that the operator digests. -/
def observedRows (db : PrivacyDb) (id : PrivacyRequestId) (scope : RecoveryScope) : RecoveryEvidence :=
  observedEvidence S.undigested db id scope

def outcomeOf (committed : Bool) : ResolutionOutcome := if committed then .committed else .notCommitted

def Resolves (entries : List (RecoveryEntry δ)) (db : PrivacyDb) (outcome : ResolutionOutcome) : Prop :=
  ∀ reviewDigest, ∃ head e r, resolvePending S J entries db reviewDigest = .ok (head,e) ∧ e.payload = .resolve r ∧
    r.outcome = outcome

/-- Whether the transaction has committed or not, and with nothing else written to the rows
that the evidence of the intent covers, the operator finds the outcome. -/
def OutcomeDecided (entries : List (RecoveryEntry δ)) (db written : PrivacyDb) (intent : RecoveryEntry δ) : Prop :=
  ∀ p, intent.payload = .intent p → ∀ (committed : Bool) (found : PrivacyDb),
    observedRows S found p.state.request.id p.state.scope =
      observedRows S (if committed then written else db) p.state.request.id p.state.scope →
    Resolves S J (entries ++ [intent]) found (outcomeOf committed)

end Intents

/-- The operation is no repetition of one that has been done, and a submission finds no
request of its customer. -/
def ChangesOwnRequest (db : PrivacyDb) : PrivacyOperation → Prop
  | .submit input => db.requests.find input.id = none ∧ (submitReads S db input).active = none
  | .cancel id _ => ∀ r, db.requests.find id = some r → r.status ≠ .cancelled
  | .hold .. => True
  | .fulfill id .. => ∀ r, db.requests.find id = some r → r.databaseErasedAt = none
  | .resolveExternal id _ system _ _ => ∀ r task, db.requests.find id = some r →
    r.tasks.find? (·.system.name = system) = some task → task.status = .pending
  | .complete id _ => ∀ r, db.requests.find id = some r → r.status ≠ .completed

variable {S J} {db db' : PrivacyDb} {now : Time} {id actual : PrivacyRequestId} {entries : List (RecoveryEntry δ)}

/-! ### The journal with the intent -/

section Journal
variable [DecidableEq δ]

theorem inspectEntrySource {enrollment : String} {st next : Inspection δ} {e : RecoveryEntry δ}
    (h : J.inspectEntry enrollment st e = .ok next) : next.prior.sequence = st.prior.sequence + 1 := by
  have finish {α : Type} {step : Except PrivacyFailure α} {f : α → Inspection δ}
      (taken : (step >>= fun st => pure { f st with prior := e.head }) = Except.ok next) : next.prior = e.head := by
    obtain ⟨_,_,last⟩ := bindOk.mp taken
    cases pureOk.mp last
    rfl
  dsimp only [inspectEntry] at h
  by_cases invalid : e.scope ≠ J.scope ∨ e.sequence ≠ st.prior.sequence + 1 ∨ e.previous ≠ st.prior.hash ∨
      e.hash ≠ J.sealValue e.toUnsealedEntry
  · rw [if_pos invalid] at h
    cases h
  rw [if_neg invalid] at h
  have sequence : e.sequence = st.prior.sequence + 1 := by
    by_contra differ
    exact invalid (.inr (.inl differ))
  have head : next.prior = e.head := by
    split at h
    · exact finish h
    split at h
    · cases h
    split at h <;> exact finish h
  rw [head]
  exact sequence

theorem historySequence {st : Inspection δ} (h : J.history entries = .ok st) : st.prior.sequence = entries.length := by
  have fold (enrollment : String) (entries : List (RecoveryEntry δ)) : ∀ first last : Inspection δ,
      entries.foldlM (J.inspectEntry enrollment) first = .ok last →
        last.prior.sequence = first.prior.sequence + entries.length := by
    induction entries with
    | nil =>
      intro first last ran
      cases pureOk.mp ran
      rfl
    | cons e rest ih =>
      intro first last ran
      rw [List.foldlM_cons] at ran
      obtain ⟨next,taken,later⟩ := bindOk.mp ran
      have moved := inspectEntrySource taken
      have after := ih next last later
      rw [List.length_cons]
      omega
  cases entries with
  | nil => cases h
  | cons first rest =>
    have length := fold first.hash (first::rest) blank st h
    simpa [blank] using length

structure Inspected (J : PrivacyRecoveryJournal δ) (entries : List (RecoveryEntry δ)) (allowSealed allowPending : Bool)
    (st : Inspection δ) : Prop where
  history : J.history entries = .ok st
  head : st.prior = journalHead entries
  covered : ¬ (st.checkpoint.isSome ∧ st.coverageHead.isNone)
  idle : ¬ (st.pending.isSome ∧ ¬ allowPending)
  unsealed : ¬ (st.sealed.isSome ∧ ¬ allowSealed)

theorem inspectOk {allowSealed allowPending : Bool} {st : Inspection δ} :
    J.inspect entries allowSealed allowPending = .ok st ↔ Inspected J entries allowSealed allowPending st := by
  dsimp only [inspect]
  constructor
  · intro h
    obtain ⟨found,folded,h⟩ := bindOk.mp h
    by_cases incomplete : found.prior ≠ journalHead entries
    · rw [if_pos incomplete] at h
      cases h
    rw [if_neg incomplete] at h
    by_cases uncovered : found.checkpoint.isSome ∧ found.coverageHead.isNone
    · rw [if_pos uncovered] at h
      cases h
    rw [if_neg uncovered] at h
    by_cases busy : found.pending.isSome ∧ ¬ allowPending
    · rw [if_pos busy] at h
      cases h
    rw [if_neg busy] at h
    by_cases locked : found.sealed.isSome ∧ ¬ allowSealed
    · rw [if_pos locked] at h
      cases h
    rw [if_neg locked] at h
    cases pureOk.mp h
    exact ⟨folded,not_not.mp incomplete,uncovered,busy,locked⟩
  · rintro ⟨folded,head,covered,idle,unsealed⟩
    refine bindOk.mpr ⟨st,folded,?_⟩
    rw [if_neg (not_not.mpr head),if_neg covered,if_neg idle,if_neg unsealed]
    rfl

/-- Any history that is ready for a transition takes its intent. -/
theorem readyIntent {history : Inspection δ} (ready : J.ready entries = .ok history) (name : String)
    (p : IntentPayload δ) :
    let e := J.entry history.prior name (.intent p)
    J.inspect (entries ++ [e]) false true = .ok { history with prior := e.head, pending := some (e,p) } := by
  intro e
  obtain ⟨folded,_,covered,idle,unsealed⟩ := inspectOk.mp ready
  have enrolled : entries ≠ [] := by
    rintro rfl
    cases folded
  have later : e.sequence ≠ 1 := by
    have length := historySequence folded
    have nonempty := List.length_pos_iff.mpr enrolled
    show history.prior.sequence + 1 ≠ 1
    omega
  have free : history.pending = none := by simpa using idle
  have unsealedNow : history.sealed = none := by simpa using unsealed
  have decision : J.inspectDecision history e = .ok { history with pending := some (e,p) } := by
    simp [inspectDecision,e,entry,free]
  have taken : J.inspectEntry (entries.head enrolled).hash history e =
      .ok { history with prior := e.head, pending := some (e,p) } := by
    dsimp only [inspectEntry]
    rw [if_neg (by simp [e,entry]),if_neg later,if_neg (by simp [unsealedNow])]
    split
    · rename_i checkpoint uncovered
      exact absurd ⟨by rw [checkpoint]; rfl,by rw [uncovered]; rfl⟩ covered
    · rw [decision]
      rfl
  refine inspectOk.mpr ⟨?_,(journalHeadAppend ..).symm,covered,by simp,by simp [unsealedNow]⟩
  rw [J.historyAppend enrolled,folded]
  exact taken

end Journal

/-! ### Two kinds of transitions -/

/-- The request of the operation is written. -/
inductive OwnWrite (db db' : PrivacyDb) (id : PrivacyRequestId) : Prop where
  | created (absent : db.requests.find id = none) (r : PrivacyDeletionRequest)
      (stored : db'.requests.find id = some r)
  | updated (r r' : PrivacyDeletionRequest) (before : db.requests.find id = some r)
      (after : db'.requests.find id = some r') (differ : r' ≠ r)
      (subject : r'.subjectId = none ∨
        r'.subjectId = r.subjectId ∧ db'.customers = db.customers ∧ db'.other = db.other)

/-- Nothing is written, or the active request of the customer under another id. -/
inductive OtherWrite (db db' : PrivacyDb) (id actual : PrivacyRequestId) : Prop where
  | repeated (same : db' = db) (own : actual = id) (r : PrivacyDeletionRequest) (stored : db.requests.find id = some r)
  | known (same : db' = db) (absent : db.requests.find id = none) (r : PrivacyDeletionRequest)
      (stored : db.requests.find actual = some r)
  | recovered (absent : db.requests.find id = none) (r r' : PrivacyDeletionRequest)
      (before : db.requests.find actual = some r) (after : db'.requests.find actual = some r') (differ : r' ≠ r)

/-- What a transition has written is told by the operation and the tables before it. -/
def Writes (S : PrivacyService δ) (db db' : PrivacyDb) (operation : PrivacyOperation) (actual : PrivacyRequestId) : Prop :=
  ChangesOwnRequest S db operation ∧ actual = operation.id ∧ OwnWrite db db' operation.id ∨
    ¬ ChangesOwnRequest S db operation ∧ OtherWrite db db' operation.id actual

theorem OwnWrite.put {r r' : PrivacyDeletionRequest} (written : db'.requests = db.requests.put r')
    (stored : db.requests.find id = some r) (key : r'.id = r.id) (differ : r' ≠ r)
    (subject : r'.subjectId = none ∨
      r'.subjectId = r.subjectId ∧ db'.customers = db.customers ∧ db'.other = db.other) : OwnWrite db db' id := by
  refine .updated r r' stored ?_ differ subject
  have own := Table.find_key stored
  rw [written,Table.find_put,if_pos (key.trans own)]

theorem advancedDiffers {r r' : PrivacyDeletionRequest} (version : r'.version = r.version + 1) : r' ≠ r := by
  rintro rfl
  omega

theorem cancelWrites {token : String} {reply : PrivacyReply} (h : cancel S db now id token = .ok (db',reply)) :
    Writes S db db' (.cancel id token) (reply.requestId id) := by
  simp only [cancel,bindOk,foundOk] at h
  obtain ⟨r,stored,_,_,h⟩ := h
  have key := Table.find_key stored
  split at h
  · rename_i cancelled
    cases Except.ok.inj h
    exact .inr ⟨fun fresh => fresh r stored cancelled,.repeated rfl key r stored⟩
  · rename_i active
    simp only [bindOk,pureOk] at h
    obtain ⟨_,_,last⟩ := h
    cases last
    refine .inl ⟨fun q found => ?_,key,.put rfl stored rfl (advancedDiffers rfl) (.inr ⟨rfl,rfl,rfl⟩)⟩
    cases Option.some.inj (stored.symm.trans found)
    exact active

theorem holdWrites {actor : String} {reply : PrivacyReply} (h : hold db now id actor = .ok (db',reply)) :
    Writes S db db' (.hold id actor) (reply.requestId id) := by
  simp only [hold,bindOk,foundOk,pureOk] at h
  obtain ⟨r,stored,_,_,last⟩ := h
  have key := Table.find_key stored
  cases last
  exact .inl ⟨trivial,key,.put rfl stored rfl (advancedDiffers rfl) (.inr ⟨rfl,rfl,rfl⟩)⟩

theorem fulfillWrites {actor previewHash : String} {version : Nat} {decision : RetentionDecision} {reply : PrivacyReply}
    (h : fulfill S db now id actor version previewHash decision = .ok (db',reply)) :
    Writes S db db' (.fulfill id actor version previewHash decision) (reply.requestId id) := by
  simp only [fulfill,bindOk,foundOk] at h
  obtain ⟨r,stored,h⟩ := h
  have key := Table.find_key stored
  split at h
  · rename_i erased
    cases Except.ok.inj h
    refine .inr ⟨fun fresh => ?_,.repeated rfl key r stored⟩
    rw [fresh r stored] at erased
    contradiction
  · rename_i unerased
    simp only [bindOk,eraseScoped,pureOk] at h
    obtain ⟨_,_,_,_,p,hp,_,_,_,_,_,_,_,_,last⟩ := h
    cases last
    obtain ⟨same,_,_⟩ := previewSource hp
    obtain rfl : r = p.request := Option.some.inj (stored.symm.trans same)
    refine .inl ⟨fun q found => ?_,key,.put rfl stored rfl (advancedDiffers rfl) (.inl rfl)⟩
    cases Option.some.inj (stored.symm.trans found)
    simpa using unerased

theorem resolveExternalWrites {actor system evidence : String} {retainUntil : Option (String × Time)}
    {reply : PrivacyReply} (h : resolveExternal db now id actor system evidence retainUntil = .ok (db',reply)) :
    Writes S db db' (.resolveExternal id actor system evidence retainUntil) (reply.requestId id) := by
  simp only [resolveExternal,bindOk,foundOk] at h
  obtain ⟨r,stored,_,_,task,named,h⟩ := h
  have key := Table.find_key stored
  split at h
  · rename_i pending
    cases Except.ok.inj h
    refine .inl ⟨fun q other found listed => ?_,rfl,.put rfl stored rfl ?_ (.inr ⟨rfl,rfl,rfl⟩)⟩
    · cases Option.some.inj (stored.symm.trans found)
      cases Option.some.inj (named.symm.trans listed)
      exact pending
    · intro same
      have audits := congrArg (fun q : PrivacyDeletionRequest => q.audit.length) same
      simp [externallyResolved] at audits
  · rename_i recorded
    simp only [bindOk,pureOk] at h
    obtain ⟨_,_,last⟩ := h
    cases last
    exact .inr ⟨fun fresh => recorded (fresh r task stored named),.repeated rfl rfl r stored⟩

theorem completeWrites {actor : String} {reply : PrivacyReply} (h : complete S db now id actor = .ok (db',reply)) :
    Writes S db db' (.complete id actor) (reply.requestId id) := by
  simp only [complete,bindOk,foundOk] at h
  obtain ⟨r,stored,h⟩ := h
  have key := Table.find_key stored
  split at h
  · rename_i completed
    cases Except.ok.inj h
    exact .inr ⟨fun fresh => fresh r stored completed,.repeated rfl key r stored⟩
  · rename_i unfinished
    simp only [bindOk,pureOk] at h
    obtain ⟨_,_,last⟩ := h
    cases last
    refine .inl ⟨fun q found => ?_,key,.put rfl stored rfl (advancedDiffers rfl) (.inr ⟨rfl,rfl,rfl⟩)⟩
    cases Option.some.inj (stored.symm.trans found)
    exact unfinished

theorem activeStored {input : SubmitInput} {active : PrivacyDeletionRequest}
    (found : (submitReads S db input).active = some active) : db.requests.find active.id = some active := by
  obtain ⟨_,_,found⟩ := Option.bind_eq_some_iff.mp found
  exact Table.find_of_mem (List.mem_of_find?_eq_some found)

theorem recordSubmissionWrites {input : SubmitInput} {audit : List (String × String)} {reply : PrivacyReply}
    (fresh : db.requests.find input.id = none)
    (h : recordSubmission S db now input (submitReads S db input) audit = .ok (db',reply)) :
    Writes S db db' (.submit input) (reply.requestId input.id) := by
  simp only [recordSubmission,bindOk,foundOk] at h
  obtain ⟨c,_,customer,_,sourceOrder,_,h⟩ := h
  split at h
  · rename_i active found
    cases Except.ok.inj h
    refine .inr ⟨fun alone => ?_,.recovered fresh active (recoveredRequest S input now audit active)
      (activeStored found) (Table.find_put_self ..) (advancedDiffers rfl)⟩
    cases found.symm.trans alone.2
  · rename_i alone
    simp only [bindOk,foundOk,PrivacyDb.insertRequest,pureOk] at h
    obtain ⟨timeframe,_,_,_,last⟩ := h
    cases last
    exact .inl ⟨⟨fresh,alone⟩,rfl,.created fresh _ (Table.find_put_self ..)⟩

theorem submitWrites [DecidableEq δ] {input : SubmitInput} {reply : PrivacyReply}
    (h : submit S J entries db now input = .ok (db',reply)) :
    Writes S db db' (.submit input) (reply.requestId input.id) := by
  unfold submit at h
  split at h
  · rename_i existing stored
    simp only [bindOk,pureOk] at h
    obtain ⟨_,_,last⟩ := h
    cases last
    have key := Table.find_key stored
    refine .inr ⟨fun fresh => ?_,.repeated rfl key existing stored⟩
    cases stored.symm.trans fresh.1
  · rename_i fresh
    dsimp only at h
    split at h
    · obtain ⟨audit,_,record⟩ := bindOk.mp h
      exact recordSubmissionWrites fresh record
    · rename_i active found
      obtain ⟨_,_,h⟩ := bindOk.mp h
      split at h
      · cases Except.ok.inj h
        refine .inr ⟨fun alone => ?_,.known rfl fresh active (activeStored found)⟩
        cases found.symm.trans alone.2
      · obtain ⟨audit,_,record⟩ := bindOk.mp h
        exact recordSubmissionWrites fresh record

theorem workWrites [DecidableEq δ] {operation : PrivacyOperation} {reply : PrivacyReply}
    (h : operation.work S J entries db now = .ok (db',reply)) :
    Writes S db db' operation (reply.requestId operation.id) := by
  cases operation with
  | submit input => exact submitWrites h
  | cancel => exact cancelWrites h
  | hold => exact holdWrites h
  | fulfill => exact fulfillWrites h
  | resolveExternal => exact resolveExternalWrites h
  | complete => exact completeWrites h

/-! ### The recorded digests -/

theorem observedDigest (db : PrivacyDb) (id : PrivacyRequestId) (scope : RecoveryScope) :
    observedEvidence S db id scope = S.evidenceDigest (observedRows S db id scope) := by
  unfold observedRows observedEvidence
  split <;> rfl

theorem observedAbsent {scope : RecoveryScope} (absent : db.requests.find id = none) :
    observedRows S db id scope = .requestAbsent id := by
  simp [observedRows,observedEvidence,absent,PrivacyService.undigested]

theorem observedStoredRows {scope : RecoveryScope} {r : PrivacyDeletionRequest} (stored : db.requests.find id = some r) :
    observedRows S db id scope = scopedRecoveryEvidence S.undigested db id scope := by
  simp [observedRows,observedEvidence,stored]

theorem observedRequest {scope scope' : RecoveryScope} {r : PrivacyDeletionRequest}
    (stored : db.requests.find id = some r) (same : observedRows S db id scope = observedRows S db' actual scope') :
    db'.requests.find actual = some r := by
  rw [observedStoredRows stored] at same
  cases other : db'.requests.find actual with
  | none =>
    rw [observedAbsent other] at same
    cases same
  | some q =>
    rw [observedStoredRows other] at same
    simp only [scopedRecoveryEvidence,PrivacyService.undigested,RecoveryEvidence.requestRows.injEq] at same
    rw [← other,← same.1,stored]

theorem ownDiffers (own : OwnWrite db db' id) (scope : RecoveryScope) :
    observedRows S db id scope ≠ observedRows S db' id scope := by
  intro same
  cases own with
  | created absent r stored => cases absent.symm.trans (observedRequest stored same.symm)
  | updated r r' before after differ => exact differ (Option.some.inj (after.symm.trans (observedRequest before same)))

theorem recoveryStateScope {prior : Option RecoveryScope} {state : RecoveryState}
    (h : recoveryState S db id prior = .ok (some state)) :
    ∃ r, db.requests.find id = some r ∧ recoveryScope S db r prior = .ok (some state.scope) := by
  unfold recoveryState at h
  split at h
  · cases h
  · rename_i r stored
    simp only [bindOk,foundOk,pureOk,Option.some.injEq] at h
    obtain ⟨_,read,scope,rfl,last⟩ := h
    subst last
    exact ⟨r,stored,read⟩

theorem scopeKept {r r' : PrivacyDeletionRequest} {prior : Option RecoveryScope} {scope scope' : RecoveryScope}
    (before : recoveryScope S db r prior = .ok (some scope))
    (after : recoveryScope S db' r' (some scope) = .ok (some scope'))
    (subject : r'.subjectId = none ∨
      r'.subjectId = r.subjectId ∧ db'.customers = db.customers ∧ db'.other = db.other) : scope' = scope := by
  have lost (none : r'.subjectId = none) : scope' = scope := by
    rw [recoveryScope,none] at after
    exact (Option.some.inj (pureOk.mp after)).symm
  rcases subject with none | ⟨same,customers,other⟩
  · exact lost none
  cases kept : r.subjectId with
  | none => exact lost (same.trans kept)
  | some subject =>
    rw [recoveryScope,kept] at before
    rw [recoveryScope,same,kept,customers] at after
    have orders (c : CustomerId) : db'.ordersOf c = db.ordersOf c := by rw [PrivacyDb.ordersOf,PrivacyDb.ordersOf,other]
    simp only [orders] at after
    exact Option.some.inj (Except.ok.inj (after.symm.trans before))

/-- What the intent records: the digests of the rows before the transition and after it. -/
structure Recording (S : PrivacyService δ) (db db' : PrivacyDb) (id actual : PrivacyRequestId) (p : IntentPayload δ) :
    Prop where
  request : p.state.request.id = actual
  evidence : p.evidence = some
    ⟨some (observedEvidence S db id p.state.scope),observedEvidence S db' actual p.state.scope⟩

section Outcomes
variable [DecidableEq δ]

theorem workScope {operation : PrivacyOperation} {reply : PrivacyReply} {prior : Option RecoveryScope}
    {before state : RecoveryState} (worked : operation.work S J entries db now = .ok (db',reply))
    (read : recoveryState S db operation.id prior = .ok (some before))
    (written : recoveryState S db' (reply.requestId operation.id) (some before.scope) = .ok (some state)) :
    state.scope = before.scope := by
  obtain ⟨r,stored,first⟩ := recoveryStateScope read
  obtain ⟨r',stored',second⟩ := recoveryStateScope written
  rcases workWrites worked with ⟨_,own,write⟩ | ⟨_,write⟩
  · rw [own] at stored'
    cases write with
    | created absent => cases absent.symm.trans stored
    | updated q q' before after differ subject =>
      cases Option.some.inj (before.symm.trans stored)
      cases Option.some.inj (after.symm.trans stored')
      exact scopeKept first second subject
  · cases write with
    | repeated same own =>
      subst same
      rw [own] at stored'
      cases Option.some.inj (stored.symm.trans stored')
      exact scopeKept first second (.inr ⟨rfl,rfl,rfl⟩)
    | known _ absent => cases absent.symm.trans stored
    | recovered absent => cases absent.symm.trans stored

theorem intentRecording {operation : PrivacyOperation} {name : String} {intent : RecoveryEntry δ}
    (h : transitionIntent S J entries db now operation name = .ok (db',intent)) :
    ∃ reply history p, J.ready entries = .ok history ∧ intent = J.entry history.prior name (.intent p) ∧
      operation.work S J entries db now = .ok (db',reply) ∧
      Recording S db db' operation.id (reply.requestId operation.id) p := by
  simp only [transitionIntent,bindOk] at h
  obtain ⟨checked,check,⟨written,reply⟩,worked,intent,recorded,last⟩ := h
  cases pureOk.mp last
  simp only [checkTransition,bindOk] at check
  obtain ⟨history,ready,before,read,check⟩ := check
  simp only [recordIntent,bindOk,foundOk,pureOk] at recorded
  obtain ⟨state,hstate,state',rfl,last⟩ := recorded
  obtain ⟨request,stored⟩ := recoveryStateSource hstate
  have digested : checked.beforeEvidenceDigest = observedEvidence S db operation.id state'.scope ∧
      checked.head = history.prior := by
    split at check
    · cases pureOk.mp check
      exact ⟨by simp [observedEvidence,recoveryStateAbsent read],rfl⟩
    · rename_i before
      simp only [bindOk,pureOk] at check
      obtain ⟨_,_,_,_,last⟩ := check
      subst last
      have kept := workScope worked read hstate
      exact ⟨by rw [kept,observedStored (recoveryStateSource read).2],rfl⟩
  rw [digested.2] at last
  refine ⟨reply,history,_,ready,last.symm,worked,request,?_⟩
  rw [digested.1,observedStored stored]

theorem resolvesIff {st : Inspection δ} {intent : RecoveryEntry δ} {p : IntentPayload δ} {before after : δ}
    {outcome : ResolutionOutcome} (inspected : J.inspect entries false true = .ok st)
    (pending : st.pending = some (intent,p)) (evidence : p.evidence = some ⟨some before,after⟩) :
    Resolves S J entries db outcome ↔
      let observed := observedEvidence S db p.state.request.id p.state.scope
      (before = observed ↔ after ≠ observed) ∧ outcome = if after = observed then .committed else .notCommitted := by
  have digests {observed : δ} : decide (some before = some observed) ≠ decide (after = observed) ↔
      (before = observed ↔ after ≠ observed) := by
    by_cases first : before = observed <;> by_cases second : after = observed <;> simp [first,second]
  constructor
  · intro h
    obtain ⟨head,e,r,ok,payload,rfl⟩ := h before
    simp only [resolvePending,bindOk,foundOk,requireOk,inspected] at ok
    obtain ⟨_,same,⟨_,_⟩,found,_,digested,_,decisive,last⟩ := ok
    cases same
    cases pending.symm.trans found
    cases evidence.symm.trans digested
    cases pureOk.mp last
    cases payload
    exact ⟨digests.mp (of_decide_eq_true decisive),rfl⟩
  · rintro ⟨decisive,rfl⟩ reviewDigest
    have ok : resolvePending S J entries db reviewDigest = .ok (st.prior,J.entry st.prior intent.operation (.resolve {
        intentHash := intent.hash
        outcome := if after = observedEvidence S db p.state.request.id p.state.scope then .committed else .notCommitted
        evidenceDigest := observedEvidence S db p.state.request.id p.state.scope, reviewDigest })) := by
      simp only [resolvePending,bindOk,foundOk,requireOk]
      exact ⟨st,inspected,_,pending,_,evidence,(),decide_eq_true (digests.mpr decisive),rfl⟩
    exact ⟨_,_,_,ok,rfl,rfl⟩

end Outcomes

def cancelledRun : List (PrivacyAction RecoveryEvidence) :=
  transitionSteps 0 sampleSubmission 2 ++ transitionSteps 0 (.cancel "request" "token") 3

def PrivacyFailure.of {α : Type} : Except PrivacyFailure α → Option PrivacyFailure
  | .error failure => some failure
  | .ok _ => none

end SpeedySweeties
