import SpeedySweeties.Order.Lifecycle
import SpeedySweeties.Privacy.JournalHistory

/-! The decision journal refines a write-ahead journal. What an open transaction or
an append in flight relies on holds for as long as the head it has read is current;
once another entry has been appended the store refuses it. -/
namespace SpeedySweeties
open PrivacyRecoveryJournal

variable {δ : Type} [DecidableEq δ] {S : PrivacyService δ} {J : PrivacyRecoveryJournal δ}

abbrev CaseRecords := PrivacyRequestId → Option CaseRecord

/-- An entry that the sound history `st` can take next. -/
inductive Appendable (S : PrivacyService δ) (J : PrivacyRecoveryJournal δ) (records : CaseRecords)
    (st : Inspection δ) : RecoveryEntry δ → Prop where
  | intent (operation : String) (p : IntentPayload δ) (idle : st.pending = none)
      (witnessed : Witnessed S st.cases p) :
      Appendable S J records st (J.entry st.prior operation (.intent p))
  | commit (intent : RecoveryEntry δ) (p : IntentPayload δ) (pending : st.pending = some (intent,p))
      (published : records = p.decision.apply (decided st.cases)) :
      Appendable S J records st (J.entry st.prior intent.operation (.commit intent.hash))
  | resolve (intent : RecoveryEntry δ) (p : IntentPayload δ) (r : Resolution δ)
      (pending : st.pending = some (intent,p)) (named : r.intentHash = intent.hash)
      (supported : Resolution.supported r p)
      (shown : records = decided (settleOutcome st.cases p.state r.outcome)) :
      Appendable S J records st (J.entry st.prior intent.operation (.resolve r))

/-- What holds of an append whose expected head is at `sequence`. -/
def Timely (st : Inspection δ) (sequence : Nat) (current : Prop) : Prop :=
  sequence ≤ st.prior.sequence ∧ (sequence = st.prior.sequence → current)

def CheckedSound (S : PrivacyService δ) (st : Inspection δ) (c : CheckedTransition δ) : Prop :=
  Timely st c.head.sequence (c.head = st.prior ∧ st.pending = none ∧
    ∃ db id scope, c.beforeEvidenceDigest = observedEvidence S db id scope ∧
      db.records S id = decided st.cases id)

def PhaseSound (S : PrivacyService δ) (J : PrivacyRecoveryJournal δ) (records : CaseRecords)
    (st : Inspection δ) (p : TransitionProcess δ) : Prop :=
  match p.phase with
  | .waiting | .locked => True
  | .checked c => CheckedSound S st c
  | .worked c reply db => CheckedSound S st c ∧
      ∀ id, id ≠ reply.requestId p.operation.id → db.records S id = records id
  | .prepared head e db => ∃ operation payload, e = J.entry head operation (.intent payload) ∧
      db.records S = payload.decision.apply records ∧
      Timely st head.sequence (head = st.prior ∧ st.pending = none ∧ Witnessed S st.cases payload)
  | .acknowledged e db => ∃ payload, st.pending = some (e,payload) ∧
      db.records S = payload.decision.apply (decided st.cases)
  | .committed e => Timely st e.sequence
      (∃ payload, st.pending = some (e,payload) ∧ records = payload.decision.apply (decided st.cases))

/-- A transaction whose intent is durable, before and after its commit. -/
def TransitionPhase.durable : TransitionPhase δ → Option (Bool × RecoveryEntry δ)
  | .acknowledged e _ => some (false,e)
  | .committed e => some (true,e)
  | _ => none

structure JournalSound (S : PrivacyService δ) (J : PrivacyRecoveryJournal δ) (s : PrivacySystem δ)
    (st : Inspection δ) : Prop where
  recorded : Recorded J s.entries st
  consistent : s.db.records S = decided st.cases ∨
    ∃ e p, st.pending = some (e,p) ∧ s.db.records S = p.decision.apply (decided st.cases)
  witnessed : ∀ e p, st.pending = some (e,p) → Witnessed S st.cases p
  holder : ∀ process p, s.processes process = some p → p.phase.open → s.lock = some process
  phases : ∀ process p, s.processes process = some p → PhaseSound S J (s.db.records S) st p
  inFlight : ∀ x ∈ s.inFlight,
    Timely st x.1.sequence (x.1 = st.prior ∧ Appendable S J (s.db.records S) st x.2)
  /-- Between an intent and its commit nothing can be appended. -/
  quiet : ∀ process p e, s.processes process = some p → p.phase.durable = some (false,e) →
    (∀ x ∈ s.inFlight, x.1.sequence < st.prior.sequence) ∧
    ∀ other q e', s.processes other = some q → q.phase.durable = some (true,e') →
      e'.sequence < st.prior.sequence

/-- The journal and the requests as a write-ahead journal. -/
def PrivacySystem.writeAhead (S : PrivacyService δ) (s : PrivacySystem δ) (st : Inspection δ) :
    WriteAhead.State PrivacyRequestId CaseRecord :=
  ⟨decided st.cases,st.pending.map (·.2.decision),s.db.records S⟩

def Moved (S : PrivacyService δ) (J : PrivacyRecoveryJournal δ) (s : PrivacySystem δ) (st : Inspection δ)
    (t : PrivacySystem δ) : Prop :=
  ∃ st', JournalSound S J t st' ∧ WriteAhead.Step (s.writeAhead S st) (t.writeAhead S st') ∧
    (t.entries = s.entries ∨ ∃ e, t.entries = s.entries ++ [e] ∧ Appendable S J (s.db.records S) st e)

variable {s t : PrivacySystem δ} {st : Inspection δ}

theorem initialSound {db : PrivacyDb} (empty : db.requests = Table.empty) :
    JournalSound S J (.initial J db) { blank with prior := J.genesis.head } where
  recorded := genesisRecorded
  consistent := .inl (by
    funext id
    simp [PrivacySystem.initial,PrivacyDb.records,decided,blank,empty])
  witnessed := by simp [blank]
  holder := by simp [PrivacySystem.initial]
  phases := by simp [PrivacySystem.initial]
  inFlight := by simp [PrivacySystem.initial]
  quiet := by simp [PrivacySystem.initial]

omit [DecidableEq δ] in
theorem Timely.stale {st : Inspection δ} {sequence : Nat} {current : Prop}
    (past : sequence < st.prior.sequence) : Timely st sequence current :=
  ⟨past.le,fun same => absurd same past.ne⟩

omit [DecidableEq δ] in
theorem Timely.past {st st' : Inspection δ} {sequence : Nat} {current : Prop}
    (h : Timely st sequence current) (next : st'.prior.sequence = st.prior.sequence + 1) :
    sequence < st'.prior.sequence := by
  have before := h.1
  omega

theorem JournalSound.idle (h : JournalSound S J s st) (idle : st.pending = none) :
    s.db.records S = decided st.cases := by
  rcases h.consistent with agreed | ⟨_,_,pending,_⟩
  · exact agreed
  · simp [idle] at pending

/-! ### Steps that leave the journal and the requests -/

theorem JournalSound.still (h : JournalSound S J t st) (records : t.db.records S = s.db.records S)
    (entries : t.entries = s.entries) : Moved S J s st t := by
  refine ⟨st,h,?_,.inl entries⟩
  have same : t.writeAhead S st = s.writeAhead S st := by simp [PrivacySystem.writeAhead,records]
  rw [same]
  exact .stay

theorem JournalSound.stay (h : JournalSound S J s st) (entries : t.entries = s.entries)
    (records : t.db.records S = s.db.records S) (inFlight : ∀ x ∈ t.inFlight, x ∈ s.inFlight)
    (holder : ∀ process p, t.processes process = some p → p.phase.open → t.lock = some process)
    (phases : ∀ process p, t.processes process = some p → PhaseSound S J (s.db.records S) st p ∧
      (p.phase.durable = none ∨ ∃ old, s.processes process = some old ∧ old.phase.durable = p.phase.durable)) :
    JournalSound S J t st := by
  refine ⟨entries ▸ h.recorded,records ▸ h.consistent,h.witnessed,holder,?_,?_,?_⟩
  · intro process p hp
    rw [records]
    exact (phases process p hp).1
  · intro x mem
    rw [records]
    exact h.inFlight x (inFlight x mem)
  · intro process p e hp durable
    rcases (phases process p hp).2 with none | ⟨old,hold,same⟩
    · simp [none] at durable
    · obtain ⟨flight,processes⟩ := h.quiet process old e hold (same.trans durable)
      refine ⟨fun x mem => flight x (inFlight x mem),?_⟩
      intro other q e' hq committed
      rcases (phases other q hq).2 with none | ⟨old',hold',same'⟩
      · simp [none] at committed
      · exact processes other old' e' hold' (same'.trans committed)

omit [DecidableEq δ] in
theorem updatedProcess {processes : ProcessId → Option (TransitionProcess δ)} {process other : ProcessId}
    {next : Option (TransitionProcess δ)} {q : TransitionProcess δ}
    (hq : Function.update processes process next other = some q) :
    (other = process ∧ next = some q) ∨ (other ≠ process ∧ processes other = some q) := by
  by_cases same : other = process
  · subst same
    exact .inl ⟨rfl,by simpa using hq⟩
  · exact .inr ⟨same,by simpa [same] using hq⟩

/-- One process goes on, or is gone; the lock stays with any other holder. -/
theorem JournalSound.update (h : JournalSound S J s st) (process : ProcessId)
    (next : Option (TransitionProcess δ)) (processes : t.processes = Function.update s.processes process next)
    (entries : t.entries = s.entries) (records : t.db.records S = s.db.records S)
    (inFlight : t.inFlight = s.inFlight)
    (kept : ∀ other, other ≠ process → s.lock = some other → t.lock = some other)
    (holder : ∀ p, next = some p → p.phase.open → t.lock = some process)
    (sound : ∀ p, next = some p → PhaseSound S J (s.db.records S) st p ∧ p.phase.durable = none) :
    JournalSound S J t st := by
  refine h.stay entries records (fun x mem => inFlight ▸ mem) ?_ ?_
  · intro other p hp open_
    rw [processes] at hp
    rcases updatedProcess hp with ⟨rfl,new⟩ | ⟨differ,hp⟩
    · exact holder p new open_
    · exact kept other differ (h.holder other p hp open_)
  · intro other p hp
    rw [processes] at hp
    rcases updatedProcess hp with ⟨rfl,new⟩ | ⟨_,hp⟩
    · exact ⟨(sound p new).1,.inl (sound p new).2⟩
    · exact ⟨h.phases other p hp,.inr ⟨p,hp,rfl⟩⟩

omit [DecidableEq δ] in
theorem unlockKeeps (s : PrivacySystem δ) (process other : ProcessId) (differ : other ≠ process)
    (held : s.lock = some other) : (s.unlock process).lock = some other := by
  simp [PrivacySystem.unlock,held,differ]

theorem JournalSound.abort (h : JournalSound S J s st) (process : ProcessId) :
    JournalSound S J (s.abort process) st :=
  h.update process none rfl rfl rfl rfl (unlockKeeps (s.setProcess process none) process)
    (by simp) (by simp)

theorem JournalSound.remove (h : JournalSound S J s st) (process : ProcessId) :
    JournalSound S J (s.setProcess process none) st :=
  h.update process none rfl rfl rfl rfl (fun _ _ held => held) (by simp) (by simp)

theorem JournalSound.advance (h : JournalSound S J s st) {process : ProcessId} {p : TransitionProcess δ}
    (hp : s.processes process = some p) (held : p.phase.open) {phase : TransitionPhase δ}
    (sound : PhaseSound S J (s.db.records S) st { p with phase }) (undecided : phase.durable = none) :
    JournalSound S J (s.advance process p phase) st :=
  h.update process (some { p with phase }) rfl rfl rfl rfl (fun _ _ held => held)
    (fun _ _ _ => h.holder process p hp held) (fun q hq => by cases hq; exact ⟨sound,undecided⟩)

theorem JournalSound.wait (h : JournalSound S J s st) (process : ProcessId) (operation : PrivacyOperation)
    (attempt : Nat) (free : t = (s.setProcess process (some ⟨operation,attempt,.waiting⟩)).unlock process ∨
      t = s.setProcess process (some ⟨operation,attempt,.waiting⟩)) : JournalSound S J t st := by
  have idle : ∀ p, some (⟨operation,attempt,.waiting⟩ : TransitionProcess δ) = some p →
      PhaseSound S J (s.db.records S) st p ∧ p.phase.durable = none := by
    intro p hp
    cases hp
    exact ⟨trivial,rfl⟩
  have closed : ∀ p, some (⟨operation,attempt,.waiting⟩ : TransitionProcess δ) = some p →
      ¬ p.phase.open := by
    intro p hp
    cases hp
    simp [TransitionPhase.open]
  rcases free with rfl | rfl
  · exact h.update process _ rfl rfl rfl rfl (unlockKeeps (s.setProcess process _) process)
      (fun p hp open_ => absurd open_ (closed p hp)) idle
  · exact h.update process _ rfl rfl rfl rfl (fun _ _ held => held)
      (fun p hp open_ => absurd open_ (closed p hp)) idle

theorem JournalSound.launch (h : JournalSound S J s st) (x : RecoveryHead × RecoveryEntry δ)
    (timely : Timely st x.1.sequence (x.1 = st.prior ∧ Appendable S J (s.db.records S) st x.2))
    (calm : ∀ process p e, s.processes process = some p → p.phase.durable = some (false,e) →
      x.1.sequence < st.prior.sequence) :
    JournalSound S J { s with inFlight := s.inFlight ++ [x] } st where
  recorded := h.recorded
  consistent := h.consistent
  witnessed := h.witnessed
  holder := h.holder
  phases := h.phases
  inFlight := by
    intro y mem
    rcases List.mem_append.mp mem with mem | mem
    · exact h.inFlight y mem
    · obtain rfl := List.mem_singleton.mp mem
      exact timely
  quiet := by
    intro process p e hp durable
    obtain ⟨flight,processes⟩ := h.quiet process p e hp durable
    refine ⟨?_,processes⟩
    intro y mem
    rcases List.mem_append.mp mem with mem | mem
    · exact flight y mem
    · obtain rfl := List.mem_singleton.mp mem
      exact calm process p e hp durable

/-! ### Steps that extend the journal -/

/-- Every append that another process or nobody waits for is refused from now on. -/
structure Superseded (s : PrivacySystem δ) (st : Inspection δ) : Prop where
  inFlight : ∀ x ∈ s.inFlight, x.1.sequence < st.prior.sequence
  committed : ∀ process p e, s.processes process = some p → p.phase.durable = some (true,e) →
    e.sequence < st.prior.sequence

omit [DecidableEq δ] in
theorem PhaseSound.push {records : CaseRecords} {st' : Inspection δ} {p : TransitionProcess δ}
    (h : PhaseSound S J records st p) (next : st'.prior.sequence = st.prior.sequence + 1)
    (unacknowledged : ∀ e, p.phase.durable ≠ some (false,e)) : PhaseSound S J records st' p := by
  unfold PhaseSound at h ⊢
  split at h
  · trivial
  · trivial
  · exact .stale (h.past next)
  · exact ⟨.stale (h.1.past next),h.2⟩
  · obtain ⟨operation,payload,entry,applied,timely⟩ := h
    exact ⟨operation,payload,entry,applied,.stale (timely.past next)⟩
  · rename_i e db phase
    exact absurd (by rw [phase]; rfl) (unacknowledged e)
  · exact .stale (h.past next)

theorem JournalSound.push (h : JournalSound S J s st) {e : RecoveryEntry δ} {st' : Inspection δ}
    (recorded : Recorded J (s.entries ++ [e]) st') (next : st'.prior.sequence = st.prior.sequence + 1)
    (unacknowledged : ∀ process p e, s.processes process = some p → p.phase.durable ≠ some (false,e))
    (consistent : s.db.records S = decided st'.cases ∨
      ∃ e p, st'.pending = some (e,p) ∧ s.db.records S = p.decision.apply (decided st'.cases))
    (witnessed : ∀ e p, st'.pending = some (e,p) → Witnessed S st'.cases p) :
    JournalSound S J (s.push e) st' ∧ Superseded (s.push e) st' := by
  have flight : ∀ x ∈ s.inFlight, x.1.sequence < st'.prior.sequence :=
    fun x mem => (h.inFlight x mem).past next
  refine ⟨⟨recorded,consistent,witnessed,h.holder,?_,fun x mem => .stale (flight x mem),?_⟩,flight,?_⟩
  · intro process p hp
    exact (h.phases process p hp).push next (unacknowledged process p · hp)
  · intro process p e hp durable
    exact absurd durable (unacknowledged process p e hp)
  · intro process p e hp durable
    have sound := h.phases process p hp
    cases phase : p.phase <;> simp only [phase,TransitionPhase.durable] at durable <;> try contradiction
    · cases durable
    · cases durable
      simp only [PhaseSound,phase] at sound
      exact sound.past next

theorem Appendable.push (h : JournalSound S J s st) {e : RecoveryEntry δ}
    (ok : Appendable S J (s.db.records S) st e)
    (unacknowledged : ∀ process p e, s.processes process = some p → p.phase.durable ≠ some (false,e)) :
    ∃ st', JournalSound S J (s.push e) st' ∧ Superseded (s.push e) st' ∧
      WriteAhead.Step (s.writeAhead S st) ((s.push e).writeAhead S st') ∧
      ∀ p, e.payload = .intent p → st'.pending = some (e,p) ∧ st'.cases = st.cases := by
  cases ok with
  | intent operation p idle witnessed =>
    have agreed := h.idle idle
    obtain ⟨sound,superseded⟩ := h.push (h.recorded.intent idle operation p) rfl unacknowledged (.inl agreed)
      (by rintro e p' same; cases same; exact witnessed)
    refine ⟨_,sound,superseded,?_,?_⟩
    · exact .intend p.decision (by simp [PrivacySystem.writeAhead,idle])
    · rintro p' same
      cases same
      exact ⟨rfl,rfl⟩
  | commit intent p pending published =>
    have settled := decidedSettle st.cases p
    obtain ⟨sound,superseded⟩ := h.push (h.recorded.commit pending) rfl unacknowledged
      (.inl (published.trans settled.symm)) (by simp)
    refine ⟨_,sound,superseded,?_,by rintro _ ⟨⟩⟩
    have intended : (s.writeAhead S st).pending = some p.decision := by
      simp [PrivacySystem.writeAhead,pending]
    simpa [PrivacySystem.writeAhead,settled] using WriteAhead.Step.settle p.decision intended published
  | resolve intent p r pending named supported shown =>
    obtain ⟨sound,superseded⟩ := h.push (h.recorded.resolve pending named supported) rfl unacknowledged
      (.inl shown) (by simp)
    refine ⟨_,sound,superseded,?_,by rintro _ ⟨⟩⟩
    have intended : (s.writeAhead S st).pending = some p.decision := by
      simp [PrivacySystem.writeAhead,pending]
    cases outcome : r.outcome with
    | committed =>
      have settled := decidedSettle st.cases p
      rw [outcome,settleOutcome,settled] at shown
      simpa [PrivacySystem.writeAhead,outcome,settleOutcome,settled] using
        WriteAhead.Step.settle p.decision intended shown
    | notCommitted =>
      rw [outcome,settleOutcome] at shown
      simpa [PrivacySystem.writeAhead,outcome,settleOutcome] using
        WriteAhead.Step.revoke p.decision intended shown

/-! ### Every step moves the write-ahead journal -/

theorem JournalSound.unacknowledged (h : JournalSound S J s st) {process : ProcessId}
    (held : s.lock = some process) (other : ProcessId) (p : TransitionProcess δ) (e : RecoveryEntry δ)
    (hp : s.processes other = some p) (durable : p.phase.durable = some (false,e)) : other = process := by
  have open_ : p.phase.open := by
    cases phase : p.phase <;> simp [phase,TransitionPhase.durable] at durable
    rfl
  have lock := h.holder other p hp open_
  rw [held] at lock
  exact (Option.some.inj lock).symm

theorem checkMoved (h : JournalSound S J s st) {process : ProcessId}
    (taken : s.step S J (.check process) = some t) : Moved S J s st t := by
  simp only [PrivacySystem.step,bind,Option.bind_eq_some_iff] at taken
  obtain ⟨p,hp,taken⟩ := taken
  split at taken <;> try contradiction
  rename_i phase
  split at taken
  · rename_i checked ok
    cases Option.some.inj taken
    obtain ⟨idle,head,scope,before⟩ := checkSource h.recorded ok
    have agreed := h.idle idle
    refine (h.advance hp (by simp [phase,TransitionPhase.open]) ?_ rfl).still rfl rfl
    exact ⟨by rw [head],fun _ => ⟨head,idle,s.db,_,scope,before,congrFun agreed _⟩⟩
  · cases Option.some.inj taken
    exact (h.abort process).still rfl rfl

theorem workMoved (h : JournalSound S J s st) {process : ProcessId} {now : Time}
    (taken : s.step S J (.work process now) = some t) : Moved S J s st t := by
  simp only [PrivacySystem.step,bind,Option.bind_eq_some_iff] at taken
  obtain ⟨p,hp,taken⟩ := taken
  split at taken <;> try contradiction
  rename_i checked phase
  split at taken
  · rename_i db reply ok
    cases Option.some.inj taken
    have sound := h.phases process p hp
    simp only [PhaseSound,phase] at sound
    refine (h.advance hp (by simp [phase,TransitionPhase.open]) ?_ rfl).still rfl rfl
    refine ⟨sound,fun id differ => ?_⟩
    simp only [PrivacyDb.records,(workSource ok).frame differ]
  · cases Option.some.inj taken
    exact (h.abort process).still rfl rfl

theorem recordMoved (h : JournalSound S J s st) {process : ProcessId} {operation : String}
    (taken : s.step S J (.record process operation) = some t) : Moved S J s st t := by
  simp only [PrivacySystem.step,bind,Option.bind_eq_some_iff] at taken
  obtain ⟨p,hp,taken⟩ := taken
  split at taken <;> try contradiction
  rename_i checked reply db phase
  split at taken
  · rename_i e ok
    cases Option.some.inj taken
    have sound := h.phases process p hp
    simp only [PhaseSound,phase] at sound
    obtain ⟨timely,frame⟩ := sound
    obtain ⟨payload,entry,id,stored,digests⟩ := recordSource ok
    refine (h.advance hp (by simp [phase,TransitionPhase.open]) ?_ rfl).still rfl rfl
    refine ⟨operation,payload,entry,?_,timely.1,fun current => ?_⟩
    · funext other
      by_cases same : other = payload.state.request.id
      · rw [same]
        simp only [WriteAhead.Decision.apply,IntentPayload.decision,Function.update_self]
        rw [id]
        exact stored
      · rw [frame other (id ▸ same)]
        simp [WriteAhead.Decision.apply,IntentPayload.decision,same]
    · obtain ⟨head,idle,db₀,id₀,scope₀,before,decided₀⟩ := timely.2 current
      exact ⟨head,idle,_,_,digests,⟨db₀,id₀,scope₀,before,decided₀⟩,db,_,by rw [id],by rw [id]; exact stored⟩
  · cases Option.some.inj taken
    exact (h.abort process).still rfl rfl

theorem acquireMoved (h : JournalSound S J s st) {process : ProcessId}
    (taken : s.step S J (.acquire process) = some t) : Moved S J s st t := by
  simp only [PrivacySystem.step,bind,Option.bind_eq_some_iff] at taken
  obtain ⟨p,hp,taken⟩ := taken
  split at taken <;> try contradiction
  split at taken <;> try contradiction
  rename_i free
  cases Option.some.inj taken
  have free : s.lock = none := by simpa using free
  refine JournalSound.still (h.update process (some { p with phase := .locked }) rfl rfl rfl rfl ?_
    (fun _ _ _ => rfl) ?_) rfl rfl
  · intro other _ held
    simp [free] at held
  · rintro q ⟨⟩
    exact ⟨trivial,rfl⟩

/-- With nothing else that could be appended, the holder's intent is acknowledged. -/
theorem JournalSound.acknowledge (h : JournalSound S J s st) (superseded : Superseded s st)
    {process : ProcessId} {p : TransitionProcess δ} {e : RecoveryEntry δ} {payload : IntentPayload δ}
    {db : PrivacyDb} (hp : t.processes process = some { p with phase := .acknowledged e db })
    (others : ∀ other, other ≠ process → t.processes other = s.processes other)
    (rest : t.entries = s.entries ∧ t.db = s.db ∧ t.inFlight = s.inFlight ∧ t.lock = s.lock)
    (held : s.lock = some process) (pending : st.pending = some (e,payload))
    (applied : db.records S = payload.decision.apply (decided st.cases)) : JournalSound S J t st := by
  obtain ⟨entries,tables,flight,lock⟩ := rest
  refine ⟨entries ▸ h.recorded,tables ▸ h.consistent,h.witnessed,?_,?_,by rw [flight,tables]; exact h.inFlight,?_⟩
  · intro other q hq open_
    by_cases same : other = process
    · rw [same,lock,held]
    · rw [others other same] at hq
      exact lock ▸ h.holder other q hq open_
  · intro other q hq
    rw [tables]
    by_cases same : other = process
    · subst same
      obtain rfl := Option.some.inj (hp.symm.trans hq)
      exact ⟨payload,pending,applied⟩
    · exact h.phases other q (others other same ▸ hq)
  · intro _ _ _ _ _
    refine ⟨flight ▸ superseded.inFlight,?_⟩
    intro other q e' hq durable
    by_cases same : other = process
    · subst same
      obtain rfl := Option.some.inj (hp.symm.trans hq)
      simp [TransitionPhase.durable] at durable
    · exact superseded.committed other q e' (others other same ▸ hq) durable

theorem appendMoved (h : JournalSound S J s st) {process : ProcessId}
    (taken : s.step S J (.append process) = some t) : Moved S J s st t := by
  simp only [PrivacySystem.step,bind,Option.bind_eq_some_iff] at taken
  obtain ⟨p,hp,taken⟩ := taken
  split at taken <;> try contradiction
  rename_i head e db phase
  split at taken <;> cases Option.some.inj taken
  · rename_i accepted
    have held := h.holder process p hp (by simp [phase,TransitionPhase.open])
    have sound := h.phases process p hp
    simp only [PhaseSound,phase] at sound
    obtain ⟨operation,payload,rfl,applied,timely⟩ := sound
    obtain ⟨rfl,idle,witnessed⟩ := timely.2 (by
      rw [h.recorded.length]
      simpa [PrivacySystem.accepts] using accepted)
    have agreed := h.idle idle
    obtain ⟨st',sound,superseded,step,intended⟩ :=
      Appendable.push (h.remove process) (.intent operation payload idle witnessed) (by
        intro other q e' hq durable
        obtain rfl := (h.remove process).unacknowledged held other q e' hq durable
        simp [PrivacySystem.setProcess] at hq)
    obtain ⟨pending,cases_⟩ := intended payload rfl
    refine ⟨st',sound.acknowledge superseded (Function.update_self ..) ?_ ⟨rfl,rfl,rfl,rfl⟩ held pending ?_,step,
      .inr ⟨_,rfl,.intent operation payload idle witnessed⟩⟩
    · intro other differ
      simp [PrivacySystem.push,PrivacySystem.advance,PrivacySystem.setProcess,differ]
    · rw [applied,cases_,agreed]
  · exact (h.abort process).still rfl rfl

omit [DecidableEq δ] in
theorem removedProcess {process other : ProcessId} {q : TransitionProcess δ}
    (hq : (s.setProcess process none).processes other = some q) :
    other ≠ process ∧ s.processes other = some q := by
  by_cases same : other = process
  · simp [PrivacySystem.setProcess,same] at hq
  · exact ⟨same,by simpa [PrivacySystem.setProcess,same] using hq⟩

theorem loseAcknowledgementMoved (h : JournalSound S J s st) {process : ProcessId}
    (taken : s.step S J (.loseAcknowledgement process) = some t) : Moved S J s st t := by
  simp only [PrivacySystem.step,bind,Option.bind_eq_some_iff] at taken
  obtain ⟨p,hp,taken⟩ := taken
  split at taken <;> try contradiction
  rename_i head e db phase
  cases Option.some.inj taken
  have held := h.holder process p hp (by simp [phase,TransitionPhase.open])
  have sound := h.phases process p hp
  simp only [PhaseSound,phase] at sound
  obtain ⟨operation,payload,entry,_,timely⟩ := sound
  refine ((h.abort process).launch (head,e) ⟨timely.1,fun current => ?_⟩ ?_).still rfl rfl
  · obtain ⟨rfl,idle,witnessed⟩ := timely.2 current
    exact ⟨rfl,entry ▸ .intent operation payload idle witnessed⟩
  · intro other q e' hq durable
    obtain ⟨differ,hq⟩ := removedProcess hq
    exact absurd (h.unacknowledged held other q e' hq durable) differ

omit [DecidableEq δ] in
theorem PhaseSound.closed {records : CaseRecords} {p : TransitionProcess δ}
    (closed : ¬ p.phase.open)
    (superseded : ∀ e, p.phase.durable = some (true,e) → e.sequence < st.prior.sequence) :
    PhaseSound S J records st p := by
  cases phase : p.phase <;> simp only [phase,TransitionPhase.open] at closed <;> try contradiction
  · simp [PhaseSound,phase]
  · rename_i e
    simp only [PhaseSound,phase]
    exact .stale (superseded e (by rw [phase]; rfl))

theorem Recorded.intentHead {entries : List (RecoveryEntry δ)} (h : Recorded J entries st)
    {e : RecoveryEntry δ} {p : IntentPayload δ} (pending : st.pending = some (e,p)) : st.prior = e.head := by
  rw [h.head,journalHead,(h.last e p pending).1]
  rfl

/-- What the transaction is about to commit is what the pending intent makes of the requests. -/
theorem JournalSound.acknowledged (h : JournalSound S J s st) {process : ProcessId} {p : TransitionProcess δ}
    {e : RecoveryEntry δ} {db : PrivacyDb} (hp : s.processes process = some p)
    (phase : p.phase = .acknowledged e db) : ∃ payload, st.pending = some (e,payload) ∧
      db.records S = payload.decision.apply (decided st.cases) ∧
      db.records S = payload.decision.apply (s.db.records S) := by
  have sound := h.phases process p hp
  simp only [PhaseSound,phase] at sound
  obtain ⟨payload,pending,applied⟩ := sound
  refine ⟨payload,pending,applied,?_⟩
  rcases h.consistent with agreed | ⟨e',p',pending',shown⟩
  · rw [agreed,applied]
  · cases Option.some.inj (pending.symm.trans pending')
    rw [shown,applied,WriteAhead.Decision.applyApply]

/-- The transaction commits what its intent, the last entry, has announced. -/
theorem commitMoved (h : JournalSound S J s st) {process : ProcessId}
    (taken : s.step S J (.commit process) = some t) : Moved S J s st t := by
  simp only [PrivacySystem.step,bind,Option.bind_eq_some_iff] at taken
  obtain ⟨p,hp,taken⟩ := taken
  split at taken <;> try contradiction
  rename_i e db phase
  cases Option.some.inj taken
  have held := h.holder process p hp (by simp [phase,TransitionPhase.open])
  obtain ⟨payload,pending,applied,published⟩ := h.acknowledged hp phase
  obtain ⟨flight,committed⟩ := h.quiet process p e hp (by rw [phase]; rfl)
  have others : ∀ other q, other ≠ process → s.processes other = some q → ¬ q.phase.open := by
    intro other q differ hq open_
    have lock := h.holder other q hq open_
    rw [held] at lock
    exact differ (Option.some.inj lock).symm
  refine ⟨st,⟨h.recorded,.inr ⟨e,payload,pending,applied⟩,h.witnessed,?_,?_,fun x mem => .stale (flight x mem),?_⟩,?_,.inl rfl⟩
  · intro other q hq open_
    rcases updatedProcess hq with ⟨rfl,new⟩ | ⟨differ,hq⟩
    · cases new
      simp [TransitionPhase.open] at open_
    · exact absurd open_ (others other q differ hq)
  · intro other q hq
    rcases updatedProcess hq with ⟨rfl,new⟩ | ⟨differ,hq⟩
    · cases new
      have current : e.sequence = st.prior.sequence := by rw [h.recorded.intentHead pending]; rfl
      exact ⟨current.le,fun _ => ⟨payload,pending,applied⟩⟩
    · exact PhaseSound.closed (others other q differ hq) (fun e' durable => committed other q e' hq durable)
  · intro other q e' hq durable
    rcases updatedProcess hq with ⟨rfl,new⟩ | ⟨differ,hq⟩
    · cases new
      simp [TransitionPhase.durable] at durable
    · exact absurd (h.unacknowledged held other q e' hq durable) differ
  · have intended : (s.writeAhead S st).pending = some payload.decision := by
      simp [PrivacySystem.writeAhead,pending]
    have step := WriteAhead.Step.publish payload.decision intended
    rwa [show (s.writeAhead S st).records = s.db.records S from rfl,← published] at step

theorem conflictMoved (h : JournalSound S J s st) {process : ProcessId}
    (taken : s.step S J (.conflict process) = some t) : Moved S J s st t := by
  simp only [PrivacySystem.step,bind,Option.bind_eq_some_iff] at taken
  obtain ⟨p,_,taken⟩ := taken
  split at taken <;> try contradiction
  cases Option.some.inj taken
  exact (h.wait process p.operation (p.attempt + 1) (.inl rfl)).still rfl rfl

theorem completeMoved (h : JournalSound S J s st) {process : ProcessId}
    (taken : s.step S J (.complete process) = some t) : Moved S J s st t := by
  simp only [PrivacySystem.step,bind,Option.bind_eq_some_iff] at taken
  obtain ⟨p,hp,taken⟩ := taken
  split at taken <;> try contradiction
  rename_i e phase
  split at taken <;> cases Option.some.inj taken
  · rename_i accepted
    have sound := h.phases process p hp
    simp only [PhaseSound,phase] at sound
    have current : e.head.sequence = st.prior.sequence := by
      rw [h.recorded.length]
      simpa [PrivacySystem.accepts,PrivacySystem.setProcess] using accepted
    obtain ⟨payload,pending,published⟩ := sound.2 current
    have head := h.recorded.intentHead pending
    obtain ⟨st',sound,_,step,_⟩ := Appendable.push (h.remove process) (.commit e payload pending published) (by
      intro other q e' hq durable
      obtain ⟨_,hq⟩ := removedProcess hq
      have past := (h.quiet other q e' hq durable).2 process p e hp (by rw [phase]; rfl)
      exact past.ne current)
    rw [head] at sound step
    exact ⟨st',sound,step,.inr ⟨_,rfl,head ▸ .commit e payload pending published⟩⟩
  · exact (h.remove process).still rfl rfl

theorem loseCompletionMoved (h : JournalSound S J s st) {process : ProcessId}
    (taken : s.step S J (.loseCompletion process) = some t) : Moved S J s st t := by
  simp only [PrivacySystem.step,bind,Option.bind_eq_some_iff] at taken
  obtain ⟨p,hp,taken⟩ := taken
  split at taken <;> try contradiction
  rename_i e phase
  cases Option.some.inj taken
  have sound := h.phases process p hp
  simp only [PhaseSound,phase] at sound
  refine ((h.remove process).launch (e.head,_) ⟨sound.1,fun current => ?_⟩ ?_).still rfl rfl
  · obtain ⟨payload,pending,published⟩ := sound.2 current
    have head := h.recorded.intentHead pending
    exact ⟨head.symm,head ▸ .commit e payload pending published⟩
  · intro other q e' hq durable
    obtain ⟨_,hq⟩ := removedProcess hq
    exact (h.quiet other q e' hq durable).2 process p e hp (by rw [phase]; rfl)

theorem arriveMoved (h : JournalSound S J s st) {index : Nat}
    (taken : s.step S J (.arrive index) = some t) : Moved S J s st t := by
  simp only [PrivacySystem.step,bind,Option.bind_eq_some_iff] at taken
  obtain ⟨⟨head,e⟩,hx,taken⟩ := taken
  have mem := List.mem_of_getElem? hx
  have rest : JournalSound S J { s with inFlight := s.inFlight.eraseIdx index } st :=
    h.stay rfl rfl (fun x mem => List.mem_of_mem_eraseIdx mem) h.holder
      (fun process p hp => ⟨h.phases process p hp,.inr ⟨p,hp,rfl⟩⟩)
  dsimp only at taken
  split at taken <;> cases Option.some.inj taken
  · rename_i accepted
    have current : head.sequence = st.prior.sequence := by
      rw [h.recorded.length]
      simpa [PrivacySystem.accepts] using accepted
    have appendable := ((h.inFlight _ mem).2 current).2
    obtain ⟨st',sound,_,step,_⟩ := Appendable.push rest appendable (by
      intro other q e' hq durable
      exact ((h.quiet other q e' hq durable).1 _ mem).ne current)
    exact ⟨st',sound,step,.inr ⟨e,rfl,appendable⟩⟩
  · exact rest.still rfl rfl

theorem resolveMoved (binding : Function.Injective S.evidenceDigest) (h : JournalSound S J s st)
    {reviewDigest : δ} (taken : s.step S J (.resolve reviewDigest) = some t) : Moved S J s st t := by
  simp only [PrivacySystem.step] at taken
  split at taken <;> try contradiction
  rename_i free
  split at taken <;> try contradiction
  rename_i resolution ok
  cases Option.some.inj taken
  obtain ⟨head,e⟩ := resolution
  obtain ⟨rfl,intent,p,r,pending,rfl,named,supported,shown⟩ := resolveSource binding h.recorded h.witnessed
    (by
      intro intent p pending
      rcases h.consistent with agreed | ⟨e',p',pending',shown⟩
      · exact .inl agreed
      · cases Option.some.inj (pending.symm.trans pending')
        exact .inr shown) ok
  refine (h.launch (st.prior,_) ⟨le_rfl,fun _ => ⟨rfl,.resolve intent p r pending named supported shown⟩⟩ ?_).still rfl rfl
  intro process q e' hq durable
  have open_ : q.phase.open := by
    cases phase : q.phase <;> simp [phase,TransitionPhase.durable] at durable
    rfl
  simp [h.holder process q hq open_] at free

omit [DecidableEq δ] in
@[simp] theorem openMapDb (f : PrivacyDb → PrivacyDb) (phase : TransitionPhase δ) :
    (phase.mapDb f).open = phase.open := by
  cases phase <;> rfl

omit [DecidableEq δ] in
@[simp] theorem durableMapDb (f : PrivacyDb → PrivacyDb) (phase : TransitionPhase δ) :
    (phase.mapDb f).durable = phase.durable := by
  cases phase <;> rfl

omit [DecidableEq δ] in
theorem PhaseSound.mapDb {records : CaseRecords} {p : TransitionProcess δ} {f : PrivacyDb → PrivacyDb}
    (h : PhaseSound S J records st p) (keeps : ∀ db, (f db).records S = db.records S) :
    PhaseSound S J records st { p with phase := p.phase.mapDb f } := by
  unfold PhaseSound at h ⊢
  cases phase : p.phase <;> simp only [phase,TransitionPhase.mapDb,keeps] at h ⊢ <;> exact h

theorem JournalSound.mapDb (h : JournalSound S J s st) (f g : PrivacyDb → PrivacyDb)
    (published : ∀ db, (f db).records S = db.records S) (working : ∀ db, (g db).records S = db.records S) :
    JournalSound S J (s.mapDb f g) st := by
  refine h.stay rfl (published s.db) (fun _ mem => mem) ?_ ?_
  · intro process p hp open_
    simp only [PrivacySystem.mapDb,Option.map_eq_some_iff] at hp
    obtain ⟨q,hq,rfl⟩ := hp
    exact h.holder process q hq (by simpa using open_)
  · intro process p hp
    simp only [PrivacySystem.mapDb,Option.map_eq_some_iff] at hp
    obtain ⟨q,hq,rfl⟩ := hp
    exact ⟨(h.phases process q hq).mapDb working,.inr ⟨q,hq,(durableMapDb g q.phase).symm⟩⟩

theorem JournalSound.retable (h : JournalSound S J s st) (db : PrivacyDb)
    (records : db.records S = s.db.records S) : Moved S J s st { s with db } := by
  have next : JournalSound S J { s with db } st :=
    h.stay rfl records (fun _ mem => mem) h.holder
      (fun process p hp => ⟨h.phases process p hp,.inr ⟨p,hp,rfl⟩⟩)
  exact next.still records rfl

theorem writeMoved (h : JournalSound S J s st) {write : ForeignWrite}
    (taken : s.step S J (.write write) = some t) : Moved S J s st t := by
  simp only [PrivacySystem.step,PrivacySystem.writeForeign] at taken
  cases write with
  | issueChallenge | access | createCustomer =>
    simp only at taken
    split at taken <;> try contradiction
    cases Option.some.inj taken
    exact h.retable _ rfl
  | updateChallenge =>
    simp only [bind,Option.bind_eq_some_iff] at taken
    obtain ⟨_,_,taken⟩ := taken
    split at taken <;> try contradiction
    cases Option.some.inj taken
    exact h.retable _ rfl
  | editCustomer c =>
    cases Option.some.inj taken
    have keeps (db : PrivacyDb) : PrivacyDb.records S (if (db.customers.find c.id).isSome then
        { db with customers := db.customers.put c } else db) = db.records S := by split <;> rfl
    exact (h.mapDb _ _ keeps keeps).still (keeps s.db) rfl
  | others published working =>
    cases Option.some.inj taken
    exact (h.mapDb (fun db => { db with other := published }) (fun db => { db with other := working })
      (fun _ => rfl) (fun _ => rfl)).still rfl rfl

theorem stepMoved (binding : Function.Injective S.evidenceDigest) (h : JournalSound S J s st)
    {a : PrivacyAction δ} (taken : s.step S J a = some t) : Moved S J s st t := by
  cases a with
  | start process operation now =>
    simp only [PrivacySystem.step] at taken
    split at taken <;> try contradiction
    split at taken <;> try contradiction
    cases Option.some.inj taken
    exact (h.wait process _ 0 (.inr rfl)).still rfl rfl
  | acquire => exact acquireMoved h taken
  | check => exact checkMoved h taken
  | work => exact workMoved h taken
  | record => exact recordMoved h taken
  | append => exact appendMoved h taken
  | loseAcknowledgement => exact loseAcknowledgementMoved h taken
  | commit => exact commitMoved h taken
  | conflict => exact conflictMoved h taken
  | complete => exact completeMoved h taken
  | loseCompletion => exact loseCompletionMoved h taken
  | fail process =>
    simp only [PrivacySystem.step,bind,Option.bind_eq_some_iff] at taken
    obtain ⟨_,_,taken⟩ := taken
    cases Option.some.inj taken
    exact (h.abort process).still rfl rfl
  | arrive => exact arriveMoved h taken
  | resolve => exact resolveMoved binding h taken
  | write => exact writeMoved h taken

/-! ### Every run -/

def PrivacySystem.Sound (S : PrivacyService δ) (J : PrivacyRecoveryJournal δ) (s : PrivacySystem δ) : Prop :=
  ∃ st, JournalSound S J s st

theorem reachableSound (binding : Function.Injective S.evidenceDigest) {db : PrivacyDb}
    (empty : db.requests = Table.empty) (h : PrivacySystem.Reachable S J db s) : s.Sound S J := by
  refine Transition.Reachable.invariant h ?_ ?_
  · exact ⟨_,initialSound empty⟩
  · rintro s a t ⟨st,sound⟩ taken
    obtain ⟨st',sound',_⟩ := stepMoved binding sound taken
    exact ⟨st',sound'⟩

/-- With the intent `p` unresolved no transition passes its check, none appends an
intent, and the requests can only become what `p` announces. -/
structure RefusesTransitions (S : PrivacyService δ) (J : PrivacyRecoveryJournal δ) (s : PrivacySystem δ)
    (p : IntentPayload δ) : Prop where
  unready : J.ready s.entries = .error (.recovery "RECOVERY_UNFINISHED_OPERATION")
  checks : ∀ process t, s.step S J (.check process) = some t → t = s.abort process
  appends : ∀ a t, s.step S J a = some t → t.entries = s.entries ∨ ∃ e, t.entries = s.entries ++ [e] ∧
    ((∃ intentHash, e.payload = .commit intentHash) ∨ ∃ r, e.payload = .resolve r)
  records : ∀ a t, s.step S J a = some t →
    t.db.records S = s.db.records S ∨ t.db.records S = p.decision.apply (s.db.records S)

theorem JournalSound.refuses (binding : Function.Injective S.evidenceDigest) (h : JournalSound S J s st)
    {e : RecoveryEntry δ} {p : IntentPayload δ} (pending : st.pending = some (e,p)) :
    RefusesTransitions S J s p := by
  have unready : J.ready s.entries = .error (.recovery "RECOVERY_UNFINISHED_OPERATION") := by
    simp [PrivacyRecoveryJournal.ready,h.recorded.inspect,pending]
  refine ⟨unready,?_,?_,?_⟩
  · intro process t taken
    simp only [PrivacySystem.step,bind,Option.bind_eq_some_iff] at taken
    obtain ⟨q,_,taken⟩ := taken
    split at taken <;> try contradiction
    simp only [checkTransition,unready,bind,Except.bind] at taken
    exact (Option.some.inj taken).symm
  · intro a t taken
    obtain ⟨_,_,_,same | ⟨e',extended,appendable⟩⟩ := stepMoved binding h taken
    · exact .inl same
    · refine .inr ⟨e',extended,?_⟩
      cases appendable with
      | intent _ _ idle => simp [pending] at idle
      | commit intent => exact .inl ⟨_,rfl⟩
      | resolve _ _ r => exact .inr ⟨r,rfl⟩
  · intro a t taken
    obtain ⟨st',_,step,_⟩ := stepMoved binding h taken
    by_cases same : t.db.records S = s.db.records S
    · exact .inl same
    · obtain ⟨d,intended,published⟩ := step.published same
      obtain rfl : p.decision = d := by simpa [PrivacySystem.writeAhead,pending] using intended
      exact .inr published

theorem JournalSound.commits (h : JournalSound S J s st) {process : ProcessId}
    (taken : s.step S J (.commit process) = some t) :
    ∃ e p, s.entries.getLast? = some e ∧ e.payload = .intent p ∧ t.entries = s.entries ∧
      t.db.records S = p.decision.apply (s.db.records S) := by
  simp only [PrivacySystem.step,bind,Option.bind_eq_some_iff] at taken
  obtain ⟨p,hp,taken⟩ := taken
  split at taken <;> try contradiction
  rename_i e db phase
  cases Option.some.inj taken
  obtain ⟨payload,pending,_,published⟩ := h.acknowledged hp phase
  obtain ⟨last,intent⟩ := h.recorded.last e payload pending
  exact ⟨e,payload,last,intent,rfl,published⟩

theorem tablesSource {a : PrivacyAction δ} (taken : s.step S J a = some t) :
    t.db = s.db ∨ (∃ write, a = .write write ∧ s.writeForeign write = some t) ∨
    ∃ process p e, a = .commit process ∧ s.processes process = some p ∧ p.phase = .acknowledged e t.db := by
  cases a with
  | write w => exact .inr (.inl ⟨w,rfl,taken⟩)
  | commit process =>
    simp only [PrivacySystem.step,bind,Option.bind_eq_some_iff] at taken
    obtain ⟨p,hp,taken⟩ := taken
    split at taken <;> try contradiction
    cases Option.some.inj taken
    exact .inr (.inr ⟨process,p,_,rfl,hp,by assumption⟩)
  | start | resolve =>
    simp only [PrivacySystem.step] at taken
    split at taken <;> try contradiction
    split at taken <;> try contradiction
    cases Option.some.inj taken
    exact .inl rfl
  | acquire | loseAcknowledgement | loseCompletion | conflict | fail =>
    simp only [PrivacySystem.step,bind,Option.bind_eq_some_iff] at taken
    obtain ⟨p,_,taken⟩ := taken
    repeat (split at taken <;> try contradiction)
    all_goals
      cases Option.some.inj taken
      exact .inl rfl
  | check | work | record | append | complete =>
    simp only [PrivacySystem.step,bind,Option.bind_eq_some_iff] at taken
    obtain ⟨p,_,taken⟩ := taken
    split at taken <;> try contradiction
    split at taken <;> cases Option.some.inj taken <;> exact .inl rfl
  | arrive =>
    simp only [PrivacySystem.step,bind,Option.bind_eq_some_iff] at taken
    obtain ⟨_,_,taken⟩ := taken
    split at taken <;> cases Option.some.inj taken <;> exact .inl rfl

omit [DecidableEq δ] in
theorem foreignRequests {write : ForeignWrite} (taken : s.writeForeign write = some t) :
    t.db.requests = s.db.requests := by
  unfold PrivacySystem.writeForeign at taken
  split at taken
  · split at taken <;> try contradiction
    cases Option.some.inj taken
    rfl
  · simp only [bind,Option.bind_eq_some_iff] at taken
    obtain ⟨_,_,taken⟩ := taken
    split at taken <;> try contradiction
    cases Option.some.inj taken
    rfl
  · split at taken <;> try contradiction
    cases Option.some.inj taken
    rfl
  · split at taken <;> try contradiction
    cases Option.some.inj taken
    rfl
  · cases Option.some.inj taken
    dsimp only [PrivacySystem.mapDb]
    split <;> rfl
  · cases Option.some.inj taken
    rfl

theorem stepRecords {a : PrivacyAction δ} (taken : s.step S J a = some t)
    (changed : t.db.records S ≠ s.db.records S) : ∃ process, a = .commit process := by
  rcases tablesSource taken with same | ⟨write,_,foreign⟩ | ⟨process,_,_,rfl,_⟩
  · exact absurd (congrArg (PrivacyDb.records S) same) changed
  · exact absurd (funext fun id => by simp only [PrivacyDb.records,foreignRequests foreign]) changed
  · exact ⟨process,rfl⟩

/-- No transition commits before its intent ends the journal; and the journal's cases
are the requests in the database, or its last entry is an intent until whose
resolution every transition is refused. -/
theorem writeAheadJournal (binding : Function.Injective S.evidenceDigest) {db : PrivacyDb}
    (empty : db.requests = Table.empty) (h : PrivacySystem.Reachable S J db s) :
    (∀ process t, s.step S J (.commit process) = some t → ∃ e p, s.entries.getLast? = some e ∧
      e.payload = .intent p ∧ t.entries = s.entries ∧ t.db.records S = p.decision.apply (s.db.records S)) ∧
    (∀ a t, s.step S J a = some t → t.db.records S ≠ s.db.records S → ∃ process, a = .commit process) ∧
    ((∃ history, J.ready s.entries = .ok history ∧ s.db.records S = decided history.cases) ∨
      ∃ e p, s.entries.getLast? = some e ∧ e.payload = .intent p ∧ RefusesTransitions S J s p) := by
  obtain ⟨st,sound⟩ := reachableSound binding empty h
  refine ⟨fun _ _ => sound.commits,fun _ _ => stepRecords,?_⟩
  cases pending : st.pending with
  | none =>
    refine .inl ⟨st,?_,sound.idle pending⟩
    simp [PrivacyRecoveryJournal.ready,sound.recorded.inspect,pending]
  | some last =>
    obtain ⟨e,p⟩ := last
    obtain ⟨ends,intent⟩ := sound.recorded.last e p pending
    exact .inr ⟨e,p,ends,intent,sound.refuses binding pending⟩

/-! ### A run -/

def sampleService : PrivacyService RecoveryEvidence where
  hash := fun text => text
  digest := fun text => text
  keyFingerprint := "key"
  fingerprint := fun c => c.id
  ownerHash := fun c => c.id
  identityHash := fun o => o.id
  financialHash := fun r => r.id
  scopeHash := fun content => content.customer.id
  intakeProof := fun claims => claims.id
  evidenceDigest := fun evidence => evidence
  decodeGrant := fun _ => none
  isEmail := fun text => text.toList.contains '@'
  toLowerCase := fun text => text
  toISOString := fun time => toString time
  canFulfill := fun decision => decision.confirmed
  completionTimeframe := "30 days"
  fiscalYearEndMonthDay := "12-31"
  adminUserIds := ["admin"]

def sampleJournal : PrivacyRecoveryJournal RecoveryEvidence where
  scope := "production"
  sealValue := fun value => toString value.sequence
  casesDigest := fun states => .requestAbsent (toString states.length)

def deliveredRows : OrderRows where
  order := { createdOrder "order" sampleOrder 0 with orderStatus := .delivered }
  items := []
  digitalReceipt := none
  helpRequest := none
  dispatchEvents := []
  editPauses := []
  pickupStops := []
  checkIns := []

def verifiedChallenge : PrivacyChallenge where
  id := "challenge"
  subjectId := some "customer"
  sourceOrderId := some "order"
  accessId := some "access"
  purpose := .enrollDelete
  channel := some .email
  destinationHash := none
  providerReference := none
  completionTimeframe := some "30 days"
  contactFingerprint := some "customer"
  phoneHash := "hash"
  requesterHash := "hash"
  codeHash := "code"
  delivery := .sent
  attempts := 1
  verifiedAt := some 1
  consumedAt := none
  expiresAt := 1000
  createdAt := 0

def verifiedDb : PrivacyDb where
  requests := Table.empty
  challenges := Table.empty.put verifiedChallenge
  access := Table.empty.put ⟨"access","customer","order","access",.email,"hash",0,0,none⟩
  identities := Table.empty
  customers := Table.empty.put ⟨"customer","jo","4165550100",some "jo@example.com",none,none⟩
  other := ⟨Table.empty.put deliveredRows,fun _ => none,[]⟩
  consumptions := []

def sampleSubmission : PrivacyOperation :=
  .submit ⟨"request","token","challenge","proof:challenge","access",none,none,false⟩

/-- One process crashes after its intent and another after its commit; each intent is
resolved before the next transition. -/
def crashingRun : List (PrivacyAction RecoveryEvidence) :=
  [.start 0 sampleSubmission 2,.acquire 0,.check 0,.work 0 2,.record 0 "first",.append 0,.fail 0,
   .resolve (.requestAbsent "review"),.arrive 0,
   .start 1 sampleSubmission 3,.acquire 1,.check 1,.work 1 3,.record 1 "second",.append 1,.commit 1,
   .loseCompletion 1,.resolve (.requestAbsent "review"),.arrive 1,
   .start 2 (.cancel "request" "token") 4,.acquire 2,.check 2,.work 2 4,.record 2 "third",.append 2]

theorem crashingRunJournal : ∃ s,
    Transition.run (PrivacySystem.step sampleService sampleJournal)
      (PrivacySystem.initial sampleJournal verifiedDb) crashingRun = some s ∧ s.entries.length = 6 ∧
    ((∃ history, sampleJournal.ready s.entries = .ok history ∧
        s.db.records sampleService = decided history.cases) ∨
      ∃ e p, s.entries.getLast? = some e ∧ e.payload = .intent p ∧
        RefusesTransitions sampleService sampleJournal s p) := by
  have ends : (Transition.run (PrivacySystem.step sampleService sampleJournal)
      (PrivacySystem.initial sampleJournal verifiedDb) crashingRun).map (·.entries.length) = some 6 := by
    decide +kernel
  obtain ⟨s,ran,length⟩ := Option.map_eq_some_iff.mp ends
  have reached := Transition.runReachable .start ran
  exact ⟨s,ran,length,(writeAheadJournal (fun _ _ same => same) rfl reached).2.2⟩

end SpeedySweeties
