import SpeedySweeties.Library.WriteAhead
import SpeedySweeties.Privacy.RequestSteps
import SpeedySweeties.Privacy.Transitions

/-! Histories of intents, commits and resolutions: what the fold of the journal
makes of each appended entry, and what evidence binds an intent to the tables. -/
namespace SpeedySweeties
open PrivacyRecoveryJournal

variable {δ : Type} [DecidableEq δ] {S : PrivacyService δ} {J : PrivacyRecoveryJournal δ}

/-- What the claim of agreement compares: a request and its tasks. -/
abbrev CaseRecord := RequestColumns × List RecoveryTask

def PrivacyDb.records (S : PrivacyService δ) (db : PrivacyDb) (id : PrivacyRequestId) : Option CaseRecord :=
  (db.requests.find id).map fun r => (r.toRequestColumns,r.tasks.map (recoveryTask S))

def decided (cases : RecoveryCases) (id : PrivacyRequestId) : Option CaseRecord :=
  (cases.find id).map fun state => (state.request,state.tasks)

def IntentPayload.decision (p : IntentPayload δ) : WriteAhead.Decision PrivacyRequestId CaseRecord :=
  ⟨p.state.request.id,(p.state.request,p.state.tasks)⟩

omit [DecidableEq δ] in
theorem decidedSettle (cases : RecoveryCases) (p : IntentPayload δ) :
    decided (settle cases p.state) = p.decision.apply (decided cases) := by
  funext id
  simp only [decided,settle,Table.find_put,IntentPayload.decision,WriteAhead.Decision.apply,
    Function.update_apply]
  by_cases same : p.state.request.id = id
  · simp [same]
  · simp [same,Ne.symm same]

/-! ### Sound histories -/

/-- A complete history outside of any maintenance, and its fold. -/
structure Recorded (J : PrivacyRecoveryJournal δ) (entries : List (RecoveryEntry δ)) (st : Inspection δ) :
    Prop where
  history : J.history entries = .ok st
  length : st.prior.sequence = entries.length
  head : st.prior = journalHead entries
  unsealed : st.sealed = none
  uncovered : st.checkpoint = none
  last : ∀ e p, st.pending = some (e,p) → entries.getLast? = some e ∧ e.payload = .intent p

omit [DecidableEq δ] in
theorem journalHeadAppend (entries : List (RecoveryEntry δ)) (e : RecoveryEntry δ) :
    journalHead (entries ++ [e]) = e.head := by
  simp [journalHead]

theorem genesisRecorded : Recorded J [J.genesis] { blank with prior := J.genesis.head } where
  history := by
    simp [history,inspectEntry,inspectFirst,genesis,entry,blank,bind,Except.bind,pure,Except.pure]
  length := rfl
  head := rfl
  unsealed := rfl
  uncovered := rfl
  last := by simp [blank]

variable {entries : List (RecoveryEntry δ)} {st : Inspection δ}

theorem Recorded.enrolled (h : Recorded J entries st) : entries ≠ [] := by
  intro empty
  have history := h.history
  simp [empty,PrivacyRecoveryJournal.history] at history

theorem Recorded.append (h : Recorded J entries st) (operation : String) (payload : RecoveryPayload δ)
    (next : Inspection δ) (taken : J.inspectDecision st (J.entry st.prior operation payload) = .ok next) :
    J.history (entries ++ [J.entry st.prior operation payload]) =
      .ok { next with prior := (J.entry st.prior operation payload).head } := by
  have later : (J.entry st.prior operation payload).sequence ≠ 1 := by
    have enrolled := List.length_pos_iff.mpr h.enrolled
    have length := h.length
    simp only [entry]
    omega
  rw [J.historyAppend h.enrolled,h.history]
  simp only [Except.bind,inspectEntry]
  rw [if_neg (by simp [entry]),if_neg later]
  simp [h.unsealed,h.uncovered,taken,bind,Except.bind,pure,Except.pure]

theorem Recorded.intent (h : Recorded J entries st) (idle : st.pending = none) (operation : String)
    (p : IntentPayload δ) :
    let e := J.entry st.prior operation (.intent p)
    Recorded J (entries ++ [e]) { st with prior := e.head, pending := some (e,p) } where
  history := h.append _ _ { st with pending := some (J.entry st.prior operation (.intent p),p) }
    (by simp [inspectDecision,entry,idle])
  length := by simp [entry,RecoveryEntry.head,h.length]
  head := (journalHeadAppend ..).symm
  unsealed := h.unsealed
  uncovered := h.uncovered
  last := by
    intro e' p' same
    cases same
    exact ⟨by simp,rfl⟩

theorem Recorded.commit (h : Recorded J entries st) {intent : RecoveryEntry δ} {p : IntentPayload δ}
    (pending : st.pending = some (intent,p)) :
    let e := J.entry st.prior intent.operation (.commit intent.hash)
    Recorded J (entries ++ [e])
      { st with prior := e.head, cases := settle st.cases p.state, pending := none } where
  history := h.append _ _ { st with cases := settle st.cases p.state, pending := none }
    (by simp [inspectDecision,entry,pending])
  length := by simp [entry,RecoveryEntry.head,h.length]
  head := (journalHeadAppend ..).symm
  unsealed := h.unsealed
  uncovered := h.uncovered
  last := by simp

theorem Recorded.resolve (h : Recorded J entries st) {intent : RecoveryEntry δ} {p : IntentPayload δ}
    {r : Resolution δ} (pending : st.pending = some (intent,p)) (named : r.intentHash = intent.hash)
    (supported : Resolution.supported r p) :
    let e := J.entry st.prior intent.operation (.resolve r)
    Recorded J (entries ++ [e])
      { st with
        prior := e.head, cases := settleOutcome st.cases p.state r.outcome, pending := none } where
  history := h.append _ _
    { st with cases := settleOutcome st.cases p.state r.outcome, pending := none }
    (by simp [inspectDecision,entry,pending,named,supported])
  length := by simp [entry,RecoveryEntry.head,h.length]
  head := (journalHeadAppend ..).symm
  unsealed := h.unsealed
  uncovered := h.uncovered
  last := by simp

theorem Recorded.inspect (h : Recorded J entries st) (allowPending : Bool) :
    J.inspect entries false allowPending =
      if st.pending.isSome ∧ ¬ allowPending then .error (.recovery "RECOVERY_UNFINISHED_OPERATION")
      else .ok st := by
  simp only [PrivacyRecoveryJournal.inspect,h.history,bind,Except.bind,h.head,h.unsealed,h.uncovered]
  simp [pure,Except.pure]
  rfl

theorem Recorded.readySource (h : Recorded J entries st) {history : Inspection δ}
    (ready : J.ready entries = .ok history) : history = st ∧ st.pending = none := by
  simp only [PrivacyRecoveryJournal.ready,h.inspect] at ready
  split at ready <;> try contradiction
  rename_i finished
  exact ⟨(Except.ok.inj ready).symm,by simpa using finished⟩

/-! ### What the parts of a transition establish -/

omit [DecidableEq δ] in
theorem recoveryStateSource {db : PrivacyDb} {id : PrivacyRequestId} {prior : Option RecoveryScope}
    {state : RecoveryState} (h : recoveryState S db id prior = .ok (some state)) :
    state.request.id = id ∧ db.records S id = some (state.request,state.tasks) := by
  unfold recoveryState at h
  split at h
  · simp at h
  · rename_i r stored
    simp only [bindOk,foundOk,pureOk,Option.some.injEq] at h
    obtain ⟨_,_,scope,_,last⟩ := h
    subst last
    have id := Table.find_key stored
    exact ⟨id,by simp [PrivacyDb.records,stored]⟩

omit [DecidableEq δ] in
theorem recoveryStateAbsent {db : PrivacyDb} {id : PrivacyRequestId} {prior : Option RecoveryScope}
    (h : recoveryState S db id prior = .ok none) : db.requests.find id = none := by
  unfold recoveryState at h
  split at h
  · assumption
  · simp only [bindOk,foundOk,pureOk] at h
    obtain ⟨_,_,_,_,last⟩ := h
    contradiction

omit [DecidableEq δ] in
theorem observedStored {db : PrivacyDb} {id : PrivacyRequestId} {record : CaseRecord}
    (stored : db.records S id = some record) (scope : RecoveryScope) :
    observedEvidence S db id scope = scopedRecoveryEvidence S db id scope := by
  simp only [PrivacyDb.records,Option.map_eq_some_iff] at stored
  obtain ⟨r,found,_⟩ := stored
  simp [observedEvidence,found]

omit [DecidableEq δ] in
theorem observedBinds (binding : Function.Injective S.evidenceDigest) {db db' : PrivacyDb}
    {id id' : PrivacyRequestId} {scope scope' : RecoveryScope}
    (same : observedEvidence S db id scope = observedEvidence S db' id' scope') :
    id = id' ∧ db.records S id = db'.records S id' := by
  unfold observedEvidence at same
  split at same <;> split at same <;> have digested := binding same
  · rename_i absent _ absent'
    cases digested
    exact ⟨rfl,by simp [PrivacyDb.records,absent,absent']⟩
  · cases digested
  · cases digested
  · rename_i r stored _ r' stored'
    simp only [RecoveryEvidence.requestRows.injEq] at digested
    have row : r = r' := by simpa [stored,stored'] using digested.1
    subst row
    have id := Table.find_key stored
    have id' := Table.find_key stored'
    exact ⟨id.symm.trans id',by simp [PrivacyDb.records,stored,stored']⟩

theorem checkSource (h : Recorded J entries st) {db : PrivacyDb} {id : PrivacyRequestId}
    {checked : CheckedTransition δ} (ok : checkTransition S J entries db id = .ok checked) :
    st.pending = none ∧ checked.head = st.prior ∧
      ∃ scope, checked.beforeEvidenceDigest = observedEvidence S db id scope := by
  simp only [checkTransition,bindOk] at ok
  obtain ⟨history,ready,before,hbefore,ok⟩ := ok
  obtain ⟨rfl,idle⟩ := h.readySource ready
  split at ok
  · cases pureOk.mp ok
    refine ⟨idle,rfl,⟨"","","","",[]⟩,?_⟩
    simp [observedEvidence,recoveryStateAbsent hbefore]
  · rename_i state
    simp only [bindOk,pureOk] at ok
    obtain ⟨_,_,_,_,last⟩ := ok
    subst last
    exact ⟨idle,rfl,state.scope,(observedStored (recoveryStateSource hbefore).2 state.scope).symm⟩

omit [DecidableEq δ] in
theorem recordSource {checked : CheckedTransition δ} {db : PrivacyDb} {request : PrivacyRequestId}
    {event operation : String} {e : RecoveryEntry δ}
    (ok : recordIntent S J checked db request event operation = .ok e) :
    ∃ p : IntentPayload δ, e = J.entry checked.head operation (.intent p) ∧ p.state.request.id = request ∧
      db.records S request = some (p.state.request,p.state.tasks) ∧
      p.evidence = some ⟨some checked.beforeEvidenceDigest,observedEvidence S db request p.state.scope⟩ := by
  simp only [recordIntent,bindOk,foundOk,pureOk] at ok
  obtain ⟨state,hstate,state',rfl,last⟩ := ok
  obtain ⟨id,stored⟩ := recoveryStateSource hstate
  exact ⟨_,last.symm,id,stored,by rw [observedStored stored]⟩

/-- The evidence digests of an intent are those of tables that had the decided record
of some request, and of tables that had the intended one. -/
structure Witnessed (S : PrivacyService δ) (cases : RecoveryCases) (p : IntentPayload δ) : Prop where
  digests : ∃ before after, p.evidence = some ⟨some before,after⟩ ∧
    (∃ db id scope, before = observedEvidence S db id scope ∧ db.records S id = decided cases id) ∧
    ∃ db scope, after = observedEvidence S db p.state.request.id scope ∧
      db.records S p.state.request.id = some (p.state.request,p.state.tasks)

theorem resolveSource (binding : Function.Injective S.evidenceDigest) (h : Recorded J entries st)
    {db : PrivacyDb} {reviewDigest : δ} {head : RecoveryHead} {e : RecoveryEntry δ}
    (witnessed : ∀ intent p, st.pending = some (intent,p) → Witnessed S st.cases p)
    (consistent : ∀ intent p, st.pending = some (intent,p) →
      db.records S = decided st.cases ∨ db.records S = p.decision.apply (decided st.cases))
    (ok : resolvePending S J entries db reviewDigest = .ok (head,e)) :
    head = st.prior ∧ ∃ intent p r, st.pending = some (intent,p) ∧
      e = J.entry st.prior intent.operation (.resolve r) ∧ r.intentHash = intent.hash ∧
      Resolution.supported r p ∧
      db.records S = decided (settleOutcome st.cases p.state r.outcome) := by
  simp only [resolvePending,bindOk,foundOk,requireOk,h.inspect] at ok
  obtain ⟨history,ready,⟨intent,p⟩,pending,evidence,hevidence,_,decisive,last⟩ := ok
  obtain rfl : st = history := by
    split at ready <;> try contradiction
    exact Except.ok.inj ready
  cases pureOk.mp last
  obtain ⟨before,after,digests,⟨db₀,id₀,scope₀,hbefore,stored₀⟩,db₁,scope₁,hafter,stored₁⟩ :=
    (witnessed intent p pending).digests
  obtain rfl : evidence = ⟨some before,after⟩ := Option.some.inj (hevidence.symm.trans digests)
  refine ⟨rfl,intent,p,_,pending,rfl,rfl,?_⟩
  dsimp only at decisive ⊢
  by_cases committed : after = observedEvidence S db p.state.request.id p.state.scope
  · rw [if_pos committed]
    refine ⟨by simp [Resolution.supported,digests,committed],?_⟩
    obtain ⟨_,same⟩ := observedBinds binding (hafter.symm.trans committed)
    have shown : db.records S p.decision.key = some p.decision.value := same.symm.trans stored₁
    rw [settleOutcome,decidedSettle]
    rcases consistent intent p pending with published | published
    · rw [← published]
      exact (p.decision.applySame shown).symm
    · exact published
  · rw [if_neg committed]
    have unpublished : some before = some (observedEvidence S db p.state.request.id p.state.scope) := by
      simpa [committed] using decisive
    refine ⟨by simp [Resolution.supported,digests,Option.some.inj unpublished],?_⟩
    obtain ⟨same,record⟩ := observedBinds binding (hbefore.symm.trans (Option.some.inj unpublished))
    have shown : db.records S p.state.request.id = decided st.cases p.state.request.id := by
      rw [← record,stored₀,same]
    rcases consistent intent p pending with published | published
    · exact published
    · rw [settleOutcome]
      funext id
      by_cases here : id = p.state.request.id
      · rw [here,shown]
      · rw [published]
        simp [WriteAhead.Decision.apply,IntentPayload.decision,here]

end SpeedySweeties
