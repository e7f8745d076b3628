import SpeedySweeties.Recovery.RecordedHistory

/-! What a reconciliation gives back of the running system: its requests, and not the
customers that it has erased. The journal names a customer only in the scope of a case;
that this is the one who submitted the request holds for what has been decided, not for
the intents that were never committed. -/
namespace SpeedySweeties
open PrivacyRecoveryJournal

/-- The scope is that of the customer who submitted the request. -/
def Owned (db : PrivacyDb) (id : PrivacyRequestId) (scope : RecoveryScope) : Prop :=
  ∀ x, db.submission id = some x → scope.subjectId = x.customer

def SubjectsOwned (db : PrivacyDb) : Prop :=
  ∀ id r x subject, db.requests.find id = some r → db.submission id = some x → r.subjectId = some subject →
    subject = x.customer

def Extends (db db' : PrivacyDb) : Prop := ∀ id x, db.submission id = some x → db'.submission id = some x

/-- An open transaction beside the tables that are published. -/
structure WorkingOwned (published db : PrivacyDb) : Prop where
  subjects : SubjectsOwned db
  submissions : Extends published db

variable {δ : Type} {S : PrivacyService δ} {J : PrivacyRecoveryJournal δ} {db db' : PrivacyDb} {now : Time}
  {id actual : PrivacyRequestId} {scope : RecoveryScope}

theorem Owned.earlier (h : Owned db' id scope) (submissions : Extends db db') : Owned db id scope :=
  fun x own => h x (submissions id x own)

/-- What holds of a request that exists stays so. -/
theorem Owned.later (h : Owned db id scope) (sound : RequestsSound db) (submissions : Extends db db')
    (stored : (db.requests.find id).isSome) : Owned db' id scope := by
  obtain ⟨r,found⟩ := Option.isSome_iff_exists.mp stored
  obtain ⟨x,own,_⟩ := sound.requests id r found
  intro x' own'
  cases (submissions id x own).symm.trans own'
  exact h x own

theorem Owned.same (h : Owned db id scope) (consumptions : db'.consumptions = db.consumptions) : Owned db' id scope := by
  intro x own
  rw [PrivacyDb.submission,consumptions] at own
  exact h x own

/-! ### One transition -/

theorem RequestStep.submissions (h : RequestStep S db now db' id) : Extends db db' := by
  have consumed (c : PrivacyChallenge) (request : PrivacyRequestId) (customer : CustomerId) :
      Extends db (db.consume c request customer now) := by
    intro id x own
    rw [PrivacyDb.consumeSubmission,own]
    rfl
  cases h with
  | same => exact fun _ _ own => own
  | submitted input audit c customer => exact consumed c input.id customer.id
  | recovered input audit c customer active => exact consumed c active.id customer.id
  | cancelled | held | erased | resolved | completed => exact fun _ _ own => own

theorem SubjectsOwned.step (h : SubjectsOwned db) (sound : RequestsSound db) (submissions : Extends db db')
    (rows : ∀ id r', db'.requests.find id = some r' →
      (∃ r, db.requests.find id = some r ∧ (r'.subjectId = none ∨ r'.subjectId = r.subjectId)) ∨
      ∀ x, db'.submission id = some x → r'.subjectId = some x.customer) : SubjectsOwned db' := by
  intro id r' x subject found own subject'
  rcases rows id r' found with ⟨r,before,none | same⟩ | fresh
  · rw [none] at subject'
    cases subject'
  · obtain ⟨y,first,_⟩ := sound.requests id r before
    cases (submissions id y first).symm.trans own
    exact h id r x subject before first (same ▸ subject')
  · rw [fresh x own] at subject'
    exact (Option.some.inj subject').symm

theorem RequestStep.subjects (h : RequestStep S db now db' id) (sound : RequestsSound db) (owned : SubjectsOwned db) :
    SubjectsOwned db' := by
  have submissions := h.submissions
  have rewritten {r : PrivacyDeletionRequest} (r' : PrivacyDeletionRequest) (stored : db.requests.find r.id = some r)
      (key : r'.id = r.id) (requests : db'.requests = db.requests.put r') (subject : r'.subjectId = none ∨ r'.subjectId = r.subjectId) :
      SubjectsOwned db' := by
    refine owned.step sound submissions fun id q found => .inl ?_
    rcases setRequestCases (requests ▸ found) with ⟨rfl,rfl⟩ | ⟨_,before⟩
    · exact ⟨r,key ▸ stored,subject⟩
    · exact ⟨q,before,.inr rfl⟩
  cases h with
  | same => exact owned
  | submitted input audit c customer sourceOrder timeframe _ fresh =>
    refine owned.step sound submissions fun id q found => ?_
    rcases setRequestCases found with ⟨rfl,rfl⟩ | ⟨_,before⟩
    · refine .inr fun x own => ?_
      have unnamed : db.submission input.id = none := by
        refine List.find?_eq_none.mpr fun y mem named => ?_
        have present := sound.stored y mem
        rw [of_decide_eq_true named,fresh] at present
        contradiction
      change (db.consume c input.id customer.id now).submission input.id = some x at own
      rw [PrivacyDb.consumeSubmission,unnamed,if_pos rfl] at own
      cases own
      rfl
    · exact .inl ⟨q,before,.inr rfl⟩
  | recovered input audit c customer active _ stored =>
    exact rewritten (recoveredRequest S input now audit active) stored rfl rfl (.inr rfl)
  | cancelled r stored => exact rewritten (cancelledRequest now r) stored rfl rfl (.inr rfl)
  | held actor r stored => exact rewritten (heldRequest now actor r) stored rfl rfl (.inr rfl)
  | erased actor decision p stored =>
    exact rewritten (erasedRequest S decision now actor p.request) stored rfl rfl (.inl rfl)
  | resolved system actor evidence outcome retainUntil r stored =>
    exact rewritten (externallyResolved system actor outcome evidence retainUntil now r) stored rfl rfl (.inr rfl)
  | completed actor r stored => exact rewritten (completedRequest S now actor r) stored rfl rfl (.inr rfl)

theorem recoveryStateOwned {prior : Option RecoveryScope} {state : RecoveryState} (subjects : SubjectsOwned db)
    (kept : ∀ scope, prior = some scope → Owned db id scope) (read : recoveryState S db id prior = .ok (some state)) :
    Owned db state.request.id state.scope := by
  obtain ⟨r,stored,covered⟩ := recoveryStateScope read
  rw [(recoveryStateSource read).1]
  unfold recoveryScope at covered
  split at covered
  · exact kept _ (pureOk.mp covered)
  · rename_i subject own
    simp only [bindOk,foundOk,pureOk,Option.some.injEq] at covered
    obtain ⟨c,present,same⟩ := covered
    intro x named
    rw [← same]
    exact (Table.find_key present).trans (subjects id r x subject stored named own)

/-! ### The journal -/

def EntryOwned (db : PrivacyDb) (e : RecoveryEntry δ) : Prop :=
  ∀ p, e.payload = .intent p → Owned db p.state.request.id p.state.scope

structure CasesOwned (db : PrivacyDb) (st : Inspection δ) : Prop where
  cases : ∀ c ∈ st.cases.rows, Owned db c.id c.scope
  pending : ∀ e p, st.pending = some (e,p) → Owned db p.state.request.id p.state.scope

theorem settleOwned {cases : RecoveryCases} {state : RecoveryState} (owned : ∀ c ∈ cases.rows, Owned db c.id c.scope)
    (own : Owned db state.request.id state.scope) : ∀ c ∈ (settle cases state).rows, Owned db c.id c.scope := by
  intro c mem
  rcases Table.mem_put mem with rfl | ⟨mem,_⟩
  · exact own
  · exact owned c mem

section Journal
variable [DecidableEq δ] {entries : List (RecoveryEntry δ)} {st st' : Inspection δ} {e : RecoveryEntry δ}

theorem CasesOwned.decision (h : CasesOwned db st) (own : EntryOwned db e) (taken : J.inspectDecision st e = .ok st') :
    CasesOwned db st' := by
  unfold inspectDecision at taken
  split at taken
  · split at taken <;> cases taken
    exact ⟨h.cases,h.pending⟩
  · rename_i payload intent _
    cases taken
    refine ⟨h.cases,fun _ _ same => ?_⟩
    cases same
    exact own payload intent
  · rename_i pending
    split at taken <;> cases taken
    exact ⟨settleOwned h.cases (h.pending _ _ pending),fun _ _ same => by cases same⟩
  · rename_i r _ _ _ pending
    split at taken
    · split at taken <;> cases taken
      refine ⟨?_,fun _ _ same => by cases same⟩
      cases r.outcome with
      | committed => exact settleOwned h.cases (h.pending _ _ pending)
      | notCommitted => exact h.cases
    · cases taken
  · cases taken

/-- What an entry that is appended to a history decides. -/
theorem CasesOwned.push (h : CasesOwned db st) (before : Recorded J entries st) (own : EntryOwned db e)
    (after : J.history (entries ++ [e]) = .ok st') : CasesOwned db st' := by
  rw [J.historyAppend before.enrolled,before.history] at after
  obtain ⟨mid,rfl,⟨_,first⟩ | ⟨_,_,⟨_,_,checkpoint,_⟩ | ⟨_,decision⟩⟩⟩ := (entryAccepted after).place
  · unfold inspectFirst at first
    split at first
    · cases first
      exact ⟨h.cases,h.pending⟩
    · split at first <;> cases first
      exact ⟨h.cases,h.pending⟩
    · cases first
  · rw [before.uncovered] at checkpoint
    cases checkpoint
  · have owned := h.decision own decision
    exact ⟨owned.cases,owned.pending⟩

end Journal

/-! ### Every run -/

def PriorOwned (db : PrivacyDb) (id : PrivacyRequestId) (c : CheckedTransition δ) : Prop :=
  ∀ scope, c.scope = some scope → Owned db id scope

def PhaseOwned (published : PrivacyDb) (p : TransitionProcess δ) : Prop :=
  match p.phase with
  | .waiting | .locked | .committed _ => True
  | .checked c => PriorOwned published p.operation.id c ∧
      (c.scope.isSome → (published.requests.find p.operation.id).isSome)
  | .worked c reply db => PriorOwned db (reply.requestId p.operation.id) c ∧ WorkingOwned published db
  | .prepared _ e db | .acknowledged e db => EntryOwned db e ∧ WorkingOwned published db

structure OwnersSound [DecidableEq δ] (J : PrivacyRecoveryJournal δ) (s : PrivacySystem δ) : Prop where
  subjects : SubjectsOwned s.db
  told : ∀ st, J.history s.entries = .ok st → CasesOwned s.db st
  phases : ∀ process p, s.processes process = some p → PhaseOwned s.db p
  /-- An append that the store may still accept. -/
  inFlight : ∀ x ∈ s.inFlight, x.1.sequence = s.entries.length → EntryOwned s.db x.2

section Steps
variable [DecidableEq δ] {s t : PrivacySystem δ} {st : Inspection δ} {process : ProcessId}

theorem OwnersSound.update (h : OwnersSound J s) (next : Option (TransitionProcess δ))
    (processes : t.processes = Function.update s.processes process next) (published : t.db = s.db)
    (entries : t.entries = s.entries) (inFlight : t.inFlight = s.inFlight)
    (own : ∀ p, next = some p → PhaseOwned s.db p) : OwnersSound J t where
  subjects := published ▸ h.subjects
  told := by rw [entries,published]; exact h.told
  phases other p hp := by
    rw [processes] at hp
    rw [published]
    rcases updatedProcess hp with ⟨rfl,new⟩ | ⟨_,hp⟩
    · exact own p new
    · exact h.phases other p hp
  inFlight := by rw [inFlight,entries,published]; exact h.inFlight

theorem OwnersSound.advance (h : OwnersSound J s) (process : ProcessId) {p : TransitionProcess δ}
    {phase : TransitionPhase δ} (own : PhaseOwned s.db { p with phase }) : OwnersSound J (s.advance process p phase) :=
  h.update (some { p with phase }) rfl rfl rfl rfl fun q same => by cases same; exact own

theorem OwnersSound.drop (h : OwnersSound J s) (process : ProcessId) : OwnersSound J (s.setProcess process none) :=
  h.update none rfl rfl rfl rfl (by simp)

theorem OwnersSound.abort (h : OwnersSound J s) (process : ProcessId) : OwnersSound J (s.abort process) :=
  h.update none rfl rfl rfl rfl (by simp)

theorem OwnersSound.launch (h : OwnersSound J s) {x : RecoveryHead × RecoveryEntry δ} (own : EntryOwned s.db x.2) :
    OwnersSound J { s with inFlight := s.inFlight ++ [x] } where
  subjects := h.subjects
  told := h.told
  phases := h.phases
  inFlight := List.forall_mem_append.mpr ⟨h.inFlight,by simpa using fun _ => own⟩

/-- An entry that the store accepts makes every append in flight too late. -/
theorem OwnersSound.push (h : OwnersSound J s) (recorded : Recorded J s.entries st)
    (early : ∀ x ∈ s.inFlight, x.1.sequence ≤ s.entries.length) {e : RecoveryEntry δ} (own : EntryOwned s.db e) :
    OwnersSound J (s.push e) where
  subjects := h.subjects
  told st' history := (h.told st recorded.history).push recorded own history
  phases := h.phases
  inFlight x mem current := by
    have before := early x mem
    simp only [PrivacySystem.push,List.length_append,List.length_singleton] at current
    omega

theorem OwnersSound.commit (sound : JournalSound S J s st) (life : LifecycleSound s) (h : OwnersSound J s)
    (taken : s.step S J (.commit process) = some t) : OwnersSound J t := by
  simp only [PrivacySystem.step,bind,Option.bind_eq_some_iff] at taken
  obtain ⟨p,hp,taken⟩ := taken
  split at taken <;> try contradiction
  rename_i e db phase
  cases Option.some.inj taken
  have held := sound.holder process p hp (by rw [phase]; rfl)
  have own := h.phases process p hp
  simp only [PhaseOwned,phase] at own
  obtain ⟨payload,pending,_,_⟩ := sound.acknowledged hp phase
  have told := h.told st sound.recorded.history
  have stored : ∀ c ∈ st.cases.rows, (s.db.requests.find c.id).isSome := by
    intro c mem
    have decided' : (decided st.cases c.id).isSome := by
      rw [decided,RecoveryState.id,Table.find_of_mem mem]
      rfl
    have records : (s.db.records S c.id).isSome := by
      rcases sound.consistent with agreed | ⟨_,p',_,shown⟩
      · rwa [agreed]
      · rw [shown,WriteAhead.Decision.apply,Function.update_apply]
        split
        · rfl
        · exact decided'
    simpa [PrivacyDb.records] using records
  refine ⟨own.2.subjects,fun st' history => ?_,fun other q hq => ?_,fun x mem current => ?_⟩
  · cases sound.recorded.history.symm.trans history
    refine ⟨fun c mem => (told.cases c mem).later life.published own.2.submissions (stored c mem),fun e' p' same => ?_⟩
    cases pending.symm.trans same
    exact own.1 payload (sound.recorded.last e payload pending).2
  · rcases updatedProcess hq with ⟨rfl,new⟩ | ⟨differ,hq⟩
    · cases new
      trivial
    · have closed : ¬ q.phase.open := fun open_ =>
        differ (Option.some.inj ((sound.holder other q hq open_).symm.trans held))
      have idle : q.phase = .waiting ∨ ∃ intent, q.phase = .committed intent := by
        cases kind : q.phase <;> simp_all [TransitionPhase.open]
      rcases idle with waiting | ⟨intent,committed⟩
      · rw [PhaseOwned,waiting]
        trivial
      · rw [PhaseOwned,committed]
        trivial
  · have late := (sound.quiet process p e hp (by rw [phase]; rfl)).1 x mem
    rw [sound.recorded.length] at late
    exact absurd current late.ne

/-- Tables with the same requests and the same submissions. -/
structure SameRequests (db db' : PrivacyDb) : Prop where
  requests : db'.requests = db.requests
  consumptions : db'.consumptions = db.consumptions

omit [DecidableEq δ] in
theorem SameRequests.submission {db db' : PrivacyDb} (same : SameRequests db db') (id : PrivacyRequestId) :
    db'.submission id = db.submission id := by
  rw [PrivacyDb.submission,same.consumptions]
  rfl

omit [DecidableEq δ] in
theorem SameRequests.subjects {db db' : PrivacyDb} (same : SameRequests db db') (h : SubjectsOwned db) : SubjectsOwned db' := by
  intro id r x subject found own
  rw [same.requests] at found
  exact h id r x subject found (same.submission id ▸ own)

omit [DecidableEq δ] in
theorem SameRequests.working {published published' db db' : PrivacyDb} (outer : SameRequests published published')
    (inner : SameRequests db db') (h : WorkingOwned published db) : WorkingOwned published' db' where
  subjects := inner.subjects h.subjects
  submissions id x own := by
    rw [inner.submission]
    exact h.submissions id x (outer.submission id ▸ own)

omit [DecidableEq δ] in
theorem PhaseOwned.rewrite {published published' : PrivacyDb} {p : TransitionProcess δ} (h : PhaseOwned published p)
    (outer : SameRequests published published') {g : PrivacyDb → PrivacyDb} (inner : ∀ db, SameRequests db (g db)) :
    PhaseOwned published' { p with phase := p.phase.mapDb g } := by
  obtain ⟨operation,attempt,phase⟩ := p
  cases phase with
  | waiting | locked | committed => trivial
  | checked c => exact ⟨fun scope own => (h.1 scope own).same outer.consumptions,outer.requests ▸ h.2⟩
  | worked c reply db =>
    exact ⟨fun scope own => (h.1 scope own).same (inner db).consumptions,outer.working (inner db) h.2⟩
  | prepared _ e db | acknowledged e db =>
    exact ⟨fun p' intent => (h.1 p' intent).same (inner db).consumptions,outer.working (inner db) h.2⟩

theorem OwnersSound.rewrite (h : OwnersSound J s) {f g : PrivacyDb → PrivacyDb} (outer : SameRequests s.db (f s.db))
    (inner : ∀ db, SameRequests db (g db)) : OwnersSound J (s.mapDb f g) where
  subjects := outer.subjects h.subjects
  told st history := by
    have own := h.told st history
    exact ⟨fun c mem => (own.cases c mem).same outer.consumptions,fun e p same => (own.pending e p same).same outer.consumptions⟩
  phases process p hp := by
    simp only [PrivacySystem.mapDb,Option.map_eq_some_iff] at hp
    obtain ⟨q,hq,rfl⟩ := hp
    exact (h.phases process q hq).rewrite outer inner
  inFlight x mem current p' intent := (h.inFlight x mem current p' intent).same outer.consumptions

theorem OwnersSound.retable (h : OwnersSound J s) {db : PrivacyDb} (same : SameRequests s.db db) :
    OwnersSound J { s with db } := by
  have mapped : s.mapDb (fun _ => db) id = { s with db } := by
    have idle (p : TransitionProcess δ) : { p with phase := p.phase.mapDb id } = p := by
      obtain ⟨_,_,phase⟩ := p
      cases phase <;> rfl
    simp only [PrivacySystem.mapDb,idle,Option.map_id']
  rw [← mapped]
  exact h.rewrite same fun _ => ⟨rfl,rfl⟩

theorem OwnersSound.write (h : OwnersSound J s) {write : ForeignWrite} (taken : s.writeForeign write = some t) :
    OwnersSound J t := by
  cases write with
  | issueChallenge | access | createCustomer =>
    simp only [PrivacySystem.writeForeign] at taken
    split at taken <;> cases taken
    exact h.retable ⟨rfl,rfl⟩
  | updateChallenge =>
    simp only [PrivacySystem.writeForeign,bind,Option.bind_eq_some_iff] at taken
    obtain ⟨_,_,taken⟩ := taken
    split at taken <;> cases taken
    exact h.retable ⟨rfl,rfl⟩
  | editCustomer c =>
    cases Option.some.inj taken
    have kept (db : PrivacyDb) : SameRequests db (if (db.customers.find c.id).isSome then
        { db with customers := db.customers.put c } else db) := by
      split <;> exact ⟨rfl,rfl⟩
    exact h.rewrite (kept s.db) kept
  | others published working =>
    cases Option.some.inj taken
    exact h.rewrite ⟨rfl,rfl⟩ fun _ => ⟨rfl,rfl⟩

/-- A check recalls the scope of a request only where the request is in the tables. -/
theorem checkOwned (sound : JournalSound S J s st) (h : OwnersSound J s) {id : PrivacyRequestId}
    {checked : CheckedTransition δ} (ok : checkTransition S J s.entries s.db id = .ok checked) :
    PriorOwned s.db id checked ∧ (checked.scope.isSome → (s.db.requests.find id).isSome) := by
  simp only [checkTransition,bindOk] at ok
  obtain ⟨history,ready,before,read,ok⟩ := ok
  obtain ⟨rfl,idle⟩ := sound.recorded.readySource ready
  have told := h.told history sound.recorded.history
  have prior : ∀ scope, (history.cases.find id).map (·.scope) = some scope → Owned s.db id scope := by
    intro scope own
    obtain ⟨state,stored,rfl⟩ := Option.map_eq_some_iff.mp own
    have owned := told.cases state (Table.find_some stored).1
    rwa [show state.id = id from (Table.find_some stored).2] at owned
  split at ok
  · cases pureOk.mp ok
    refine ⟨prior,fun some => ?_⟩
    obtain ⟨scope,own⟩ := Option.isSome_iff_exists.mp some
    obtain ⟨state,stored,_⟩ := Option.map_eq_some_iff.mp own
    have records := congrFun (sound.idle idle) id
    rw [decided,stored] at records
    simp only [PrivacyDb.records,Option.map_some,Option.map_eq_some_iff] at records
    obtain ⟨r,present,_⟩ := records
    rw [present]
    rfl
  · simp only [bindOk,pureOk] at ok
    obtain ⟨_,_,_,_,rfl⟩ := ok
    obtain ⟨r,present,_⟩ := recoveryStateScope read
    refine ⟨?_,fun _ => by rw [present]; rfl⟩
    rintro _ ⟨⟩
    have own := recoveryStateOwned h.subjects prior read
    rwa [(recoveryStateSource read).1] at own

/-- The work of a transition writes its own request, or there was none to recall. -/
theorem workOwned {operation : PrivacyOperation} {checked : CheckedTransition δ} {reply : PrivacyReply}
    {db : PrivacyDb} (sound : RequestsSound s.db) (subjects : SubjectsOwned s.db)
    (prior : PriorOwned s.db operation.id checked)
    (present : checked.scope.isSome → (s.db.requests.find operation.id).isSome)
    (ok : operation.work S J s.entries s.db now = .ok (db,reply)) :
    PriorOwned db (reply.requestId operation.id) checked ∧ WorkingOwned s.db db := by
  have step := workSource ok
  have submissions := step.submissions
  have kept {actual : PrivacyRequestId} (own : actual = operation.id) : PriorOwned db actual checked := by
    intro scope same
    have stored := present (by rw [same]; rfl)
    exact own ▸ (prior scope same).later sound submissions stored
  have unnamed {actual : PrivacyRequestId} (absent : s.db.requests.find operation.id = none) :
      PriorOwned db actual checked := by
    intro scope same
    have stored := present (by rw [same]; rfl)
    rw [absent] at stored
    cases stored
  refine ⟨?_,step.subjects sound subjects,submissions⟩
  rcases workWrites ok with ⟨_,own,_⟩ | ⟨_,write⟩
  · exact kept own
  · cases write with
    | repeated _ own => exact kept own
    | known _ absent => exact unnamed absent
    | recovered absent => exact unnamed absent

omit [DecidableEq δ] in
theorem recordOwned {checked : CheckedTransition δ} {db : PrivacyDb} {request : PrivacyRequestId}
    {event operation : String} {e : RecoveryEntry δ} (prior : PriorOwned db request checked) (subjects : SubjectsOwned db)
    (ok : recordIntent S J checked db request event operation = .ok e) : EntryOwned db e := by
  simp only [recordIntent,bindOk,foundOk,pureOk] at ok
  obtain ⟨_,read,state,rfl,rfl⟩ := ok
  intro p intent
  cases intent
  exact recoveryStateOwned subjects prior read

theorem OwnersSound.step (sound : JournalSound S J s st) (life : LifecycleSound s) (h : OwnersSound J s)
    {a : PrivacyAction δ} (taken : s.step S J a = some t) : OwnersSound J t := by
  have early : ∀ x ∈ s.inFlight, x.1.sequence ≤ s.entries.length := fun x mem =>
    sound.recorded.length ▸ (sound.inFlight x mem).1
  have closing (head : RecoveryHead) (operation hash : String) :
      EntryOwned s.db (J.entry head operation (.commit hash)) := fun _ intent => by cases intent
  cases a with
  | write write => exact h.write taken
  | commit process => exact h.commit sound life taken
  | start process operation now =>
    simp only [PrivacySystem.step] at taken
    split at taken <;> try contradiction
    split at taken <;> try contradiction
    cases Option.some.inj taken
    exact h.update _ rfl rfl rfl rfl (by rintro _ ⟨⟩; trivial)
  | acquire process =>
    simp only [PrivacySystem.step,bind,Option.bind_eq_some_iff] at taken
    obtain ⟨p,hp,taken⟩ := taken
    split at taken <;> try contradiction
    split at taken <;> try contradiction
    cases Option.some.inj taken
    exact h.update _ rfl rfl rfl rfl (by rintro _ ⟨⟩; trivial)
  | check process =>
    simp only [PrivacySystem.step,bind,Option.bind_eq_some_iff] at taken
    obtain ⟨p,hp,taken⟩ := taken
    split at taken <;> try contradiction
    split at taken <;> cases Option.some.inj taken
    · rename_i checked ok
      exact h.advance process (checkOwned sound h ok)
    · exact h.abort process
  | work process now =>
    simp only [PrivacySystem.step,bind,Option.bind_eq_some_iff] at taken
    obtain ⟨p,hp,taken⟩ := taken
    split at taken <;> try contradiction
    rename_i phase
    split at taken <;> cases Option.some.inj taken
    · rename_i worked
      have own := h.phases process p hp
      simp only [PhaseOwned,phase] at own
      exact h.advance process (workOwned life.published h.subjects own.1 own.2 worked)
    · exact h.abort process
  | record process =>
    simp only [PrivacySystem.step,bind,Option.bind_eq_some_iff] at taken
    obtain ⟨p,hp,taken⟩ := taken
    split at taken <;> try contradiction
    rename_i phase
    split at taken <;> cases Option.some.inj taken
    · rename_i recorded
      have own := h.phases process p hp
      simp only [PhaseOwned,phase] at own
      exact h.advance process ⟨recordOwned own.1 own.2.subjects recorded,own.2⟩
    · exact h.abort process
  | append process =>
    simp only [PrivacySystem.step,bind,Option.bind_eq_some_iff] at taken
    obtain ⟨p,hp,taken⟩ := taken
    split at taken <;> try contradiction
    rename_i phase
    split at taken <;> cases Option.some.inj taken
    · have own := h.phases process p hp
      simp only [PhaseOwned,phase] at own
      refine OwnersSound.push (h.advance process ?_) sound.recorded early fun p' intent => ?_
      · exact own
      · exact (own.1 p' intent).earlier own.2.submissions
    · exact h.abort process
  | loseAcknowledgement process =>
    simp only [PrivacySystem.step,bind,Option.bind_eq_some_iff] at taken
    obtain ⟨p,hp,taken⟩ := taken
    split at taken <;> try contradiction
    rename_i phase
    cases Option.some.inj taken
    have own := h.phases process p hp
    simp only [PhaseOwned,phase] at own
    exact (h.abort process).launch fun p' intent => (own.1 p' intent).earlier own.2.submissions
  | conflict process =>
    simp only [PrivacySystem.step,bind,Option.bind_eq_some_iff] at taken
    obtain ⟨p,hp,taken⟩ := taken
    split at taken <;> cases taken
    exact h.update _ rfl rfl rfl rfl (by rintro _ ⟨⟩; trivial)
  | complete process =>
    simp only [PrivacySystem.step,bind,Option.bind_eq_some_iff] at taken
    obtain ⟨p,hp,taken⟩ := taken
    split at taken <;> try contradiction
    split at taken <;> cases Option.some.inj taken
    · exact (h.drop process).push sound.recorded early (closing _ _ _)
    · exact h.drop process
  | loseCompletion process =>
    simp only [PrivacySystem.step,bind,Option.bind_eq_some_iff] at taken
    obtain ⟨p,hp,taken⟩ := taken
    split at taken <;> try contradiction
    cases Option.some.inj taken
    exact (h.drop process).launch (closing _ _ _)
  | fail process =>
    simp only [PrivacySystem.step,bind,Option.bind_eq_some_iff] at taken
    obtain ⟨p,hp,taken⟩ := taken
    cases Option.some.inj taken
    exact h.abort process
  | arrive index =>
    simp only [PrivacySystem.step,bind,Option.bind_eq_some_iff] at taken
    obtain ⟨x,flying,taken⟩ := taken
    have mem := List.mem_of_getElem? flying
    have rest : OwnersSound J { s with inFlight := s.inFlight.eraseIdx index } :=
      ⟨h.subjects,h.told,h.phases,fun y here => h.inFlight y (List.mem_of_mem_eraseIdx here)⟩
    split at taken <;> cases Option.some.inj taken
    · rename_i current
      simp only [PrivacySystem.accepts,decide_eq_true_eq] at current
      exact rest.push sound.recorded (fun y here => early y (List.mem_of_mem_eraseIdx here)) (h.inFlight x mem current)
    · exact rest
  | resolve reviewDigest =>
    simp only [PrivacySystem.step] at taken
    split at taken <;> try contradiction
    split at taken <;> try contradiction
    rename_i resolution ok
    cases Option.some.inj taken
    simp only [resolvePending,bindOk,pureOk] at ok
    obtain ⟨_,_,_,_,_,_,_,_,rfl⟩ := ok
    exact h.launch fun _ intent => by cases intent

theorem reachableOwners (binding : Function.Injective S.evidenceDigest) {initial : PrivacyDb}
    (empty : initial.requests = Table.empty) (unused : initial.consumptions = [])
    (reached : PrivacySystem.Reachable S J initial s) : OwnersSound J s := by
  refine Transition.ReachableUnder.invariantWith reached ?_ fun s a t before owners _ taken => ?_
  · have unnamed (id : PrivacyRequestId) : initial.submission id = none := by
      rw [PrivacyDb.submission,unused]
      rfl
    refine ⟨fun id r x _ _ own => ?_,fun st _ => ?_,by simp [PrivacySystem.initial],by simp [PrivacySystem.initial]⟩
    · rw [PrivacySystem.initial,unnamed] at own
      cases own
    · have none {id : PrivacyRequestId} {scope : RecoveryScope} : Owned initial id scope := fun x own => by
        rw [unnamed] at own
        cases own
      exact ⟨fun _ _ => none,fun _ _ _ => none⟩
  · obtain ⟨st,sound⟩ := reachableSound binding empty before
    exact owners.step sound (reachableLifecycle empty unused before) taken

end Steps

/-! ### A backup of the running system -/

/-- The same columns, and the same tasks in any order. -/
def SameRecord : Option CaseRecord → Option CaseRecord → Prop
  | none,none => True
  | some a,some b => a.1 = b.1 ∧ a.2.Perm b.2
  | _,_ => False

/-- A customer whose erasure has been carried out. -/
def ErasedCustomer (live : PrivacyDb) (k : CustomerId) : Prop :=
  ∃ id r x, live.requests.find id = some r ∧ r.databaseErasedAt.isSome ∧ live.submission id = some x ∧ x.customer = k

structure RestoresLive (S : PrivacyService δ) (live : PrivacyDb) (t t' : RestoredDb) : Prop where
  requests : ∀ id, SameRecord (t'.db.records S id) (live.records S id)
  erased : ∀ k, ErasedCustomer live k → t'.db.customers.find k = none
  others : ∀ k, ¬ ErasedCustomer live k → t'.db.customers.find k = t.db.customers.find k

section
variable [DecidableEq δ] {initial : PrivacyDb} {s : PrivacySystem δ} {advanced : List (RecoveryEntry δ)} {digestKey : String}
  {t t' : RestoredDb} {report : Reconciled}

end

/-- The digits of the text, filled up to the length of a hash. -/
def digitHash (text : String) : String :=
  String.ofList ((text.toList.filter Char.isDigit ++ List.replicate 64 '0').take 64)

def digitService : PrivacyService RecoveryEvidence := { replayService with hash := digitHash }

theorem digitHashes : HashesBind digitService where
  owner _ _ same := same
  hex text := by
    refine reconciledShape (by simp) (List.all_eq_true.mpr fun c mem => ?_)
    rcases List.mem_append.mp (List.mem_of_mem_take mem) with digit | zero
    · rw [(List.mem_filter.mp digit).2]
      rfl
    · rw [List.eq_of_mem_replicate zero]
      rfl

def digitSubmitting : List (PrivacyAction RecoveryEvidence) :=
  transitionSteps 0 (.submit ⟨"request","token","challenge",digitHash "proof:challenge","access",none,none,false⟩) 2 ++
    transitionSteps 1 (.submit
      ⟨"other request","other token","other challenge",digitHash "proof:other challenge","other access",none,none,false⟩) 3

/-- A run of the system, and a backup from the middle of it as it is reconciled at its end. -/
structure LiveRestore where
  live : PrivacySystem RecoveryEvidence
  backup : RestoredDb
  restored : RestoredDb

def liveRestore : Option LiveRestore := do
  let submitted ← Transition.run (PrivacySystem.step digitService sampleJournal)
    (PrivacySystem.initial sampleJournal customersDb) digitSubmitting
  let live ← Transition.run (PrivacySystem.step digitService sampleJournal) submitted decidingSteps
  let backup : RestoredDb := ⟨submitted.db,fun _ => none⟩
  let (restored,_) ← (reconcileRecoveryTransaction digitService sampleJournal live.entries live.entries "key" false 9
    backup).toOption
  some ⟨live,backup,restored⟩

end SpeedySweeties
