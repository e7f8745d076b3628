import SpeedySweeties.Library.HashChain
import SpeedySweeties.Library.TableRows
import SpeedySweeties.Privacy.OutcomeEvidence

/-! What a history that `inspect` accepts proves about itself: its head commits to all of
its entries, and its cases are what its own decisions make of them. -/
namespace SpeedySweeties
open PrivacyRecoveryJournal

variable {δ : Type} {J : PrivacyRecoveryJournal δ}

/-- The chain of the journal; an entry consists of its body and its hash. -/
def journalChain (J : PrivacyRecoveryJournal δ) : HashChain (RecoveryEntry δ) (UnsealedEntry δ) String where
  body := RecoveryEntry.toUnsealedEntry
  hash := RecoveryEntry.hash
  sequence := UnsealedEntry.sequence
  previous := UnsealedEntry.previous
  digest := J.sealValue
  whole := by
    intro a b body hash
    cases a
    cases b
    cases body
    cases hash
    rfl

def RecoveryHead.position (h : RecoveryHead) : Nat × String := (h.sequence,h.hash)

variable [DecidableEq δ] {entries : List (RecoveryEntry δ)} {st next : Inspection δ} {enrollment : String}
  {e : RecoveryEntry δ}

/-- What every accepted entry satisfies, beside the rule for its place. -/
structure EntryAccepted (J : PrivacyRecoveryJournal δ) (enrollment : String) (st : Inspection δ)
    (e : RecoveryEntry δ) (next : Inspection δ) : Prop where
  follows : (journalChain J).Follows st.prior.position e
  scope : e.scope = J.scope
  place : ∃ mid, next = { mid with prior := e.head } ∧
    (e.sequence = 1 ∧ J.inspectFirst st e = .ok mid ∨
     e.sequence ≠ 1 ∧ st.sealed = none ∧
      ((∃ coverage sealedHead, st.checkpoint = some (coverage,sealedHead) ∧ st.coverageHead = none ∧
          J.inspectCovering enrollment coverage st e = .ok mid) ∨
        (st.checkpoint = none ∨ st.coverageHead ≠ none) ∧ J.inspectDecision st e = .ok mid))

theorem entryAccepted (ok : J.inspectEntry enrollment st e = .ok next) : EntryAccepted J enrollment st e next := by
  have finish {step : Except PrivacyFailure (Inspection δ)}
      (taken : (step >>= fun st => pure { st with prior := e.head }) = Except.ok next) :
      ∃ mid, step = .ok mid ∧ next = { mid with prior := e.head } := by
    obtain ⟨mid,ok,last⟩ := bindOk.mp taken
    exact ⟨mid,ok,(pureOk.mp last).symm⟩
  dsimp only [inspectEntry] at ok
  by_cases invalid : e.scope ≠ J.scope ∨ e.sequence ≠ st.prior.sequence + 1 ∨ e.previous ≠ st.prior.hash ∨
      e.hash ≠ J.sealValue e.toUnsealedEntry
  · rw [if_pos invalid] at ok
    cases ok
  rw [if_neg invalid] at ok
  simp only [not_or,not_not,ne_eq] at invalid
  obtain ⟨scope,sequence,previous,sealed⟩ := invalid
  refine ⟨⟨sequence,previous,sealed⟩,scope,?_⟩
  split at ok
  · rename_i first
    obtain ⟨mid,ok,last⟩ := finish ok
    exact ⟨mid,last,.inl ⟨first,ok⟩⟩
  rename_i later
  split at ok
  · cases ok
  rename_i unsealed
  have unsealed : st.sealed = none := by simpa using unsealed
  split at ok
  · rename_i coverage sealedHead checkpoint uncovered
    obtain ⟨mid,ok,last⟩ := finish ok
    exact ⟨mid,last,.inr ⟨later,unsealed,.inl ⟨coverage,sealedHead,checkpoint,uncovered,ok⟩⟩⟩
  · rename_i settled
    obtain ⟨mid,ok,last⟩ := finish ok
    refine ⟨mid,last,.inr ⟨later,unsealed,.inr ⟨?_,ok⟩⟩⟩
    by_contra unfinished
    simp only [not_or,not_not,ne_eq] at unfinished
    obtain ⟨⟨coverage,sealedHead⟩,checkpoint⟩ := Option.ne_none_iff_exists'.mp unfinished.1
    exact settled coverage sealedHead checkpoint unfinished.2

theorem EntryAccepted.head (h : EntryAccepted J enrollment st e next) : next.prior = e.head := by
  obtain ⟨mid,rfl,_⟩ := h.place
  rfl

/-! ### Commitment -/

theorem foldLinked {first last : Inspection δ} (ran : entries.foldlM (J.inspectEntry enrollment) first = .ok last) :
    (journalChain J).Linked first.prior.position entries := by
  induction entries generalizing first with
  | nil => trivial
  | cons e rest ih =>
    rw [List.foldlM_cons] at ran
    obtain ⟨next,taken,later⟩ := bindOk.mp ran
    have accepted := entryAccepted taken
    refine ⟨accepted.follows,?_⟩
    have linked := ih later
    rw [accepted.head] at linked
    exact linked

theorem historyLinked (ok : J.history entries = .ok st) : (journalChain J).Linked (0,"") entries := by
  unfold history at ok
  split at ok
  · cases ok
  · exact foldLinked ok

/-- Where the keyed hashes of two accepted histories do not collide, the head of the one
commits to all of it: if the other contains this head, it starts with the same entries. -/
theorem headCommits {other : List (RecoveryEntry δ)} (collisionFree : (journalChain J).CollisionFree entries other)
    {found : Inspection δ} {allowSealed allowPending allowSealed' allowPending' : Bool}
    (ok : J.inspect entries allowSealed allowPending = .ok st)
    (ok' : J.inspect other allowSealed' allowPending' = .ok found)
    (mem : ∃ e ∈ other, e.hash = st.prior.hash) : entries <+: other := by
  obtain ⟨history,head,_⟩ := inspectOk.mp ok
  obtain ⟨history',_⟩ := inspectOk.mp ok'
  obtain ⟨e,mem,same⟩ := mem
  cases ends : entries.getLast? with
  | none =>
    rw [List.getLast?_eq_none_iff.mp ends] at history
    cases history
  | some last =>
    rw [head,journalHead,ends] at same
    exact HashChain.commits (C := journalChain J) collisionFree (historyLinked history) (historyLinked history') ends mem same

/-- The entries of a run after which a third operation is pending, and the verdict on them. -/
theorem crashingRunInspected : ∃ entries before st found,
    (Transition.run (PrivacySystem.step sampleService sampleJournal)
      (PrivacySystem.initial sampleJournal verifiedDb) crashingRun).map (·.entries) = some entries ∧
    before = entries.take 5 ∧ sampleJournal.inspect before false false = .ok st ∧
    sampleJournal.inspect entries false true = .ok found ∧ before.length = 5 ∧ entries.length = 6 ∧
    (journalChain sampleJournal).CollisionFree before entries ∧ ∃ e ∈ entries, e.hash = st.prior.hash := by
  have ends : ((Transition.run (PrivacySystem.step sampleService sampleJournal)
      (PrivacySystem.initial sampleJournal verifiedDb) crashingRun).bind fun s =>
        (sampleJournal.inspect (s.entries.take 5) false false).toOption.bind fun st =>
          (sampleJournal.inspect s.entries false true).toOption.map fun _ =>
            ((s.entries.take 5).length,s.entries.length,
              decide (∀ a ∈ s.entries.take 5, ∀ b ∈ s.entries,
                sampleJournal.sealValue a.toUnsealedEntry = sampleJournal.sealValue b.toUnsealedEntry →
                  a.toUnsealedEntry = b.toUnsealedEntry),
              decide (∃ e ∈ s.entries, e.hash = st.prior.hash))) = some (5,6,true,true) := by
    decide +kernel
  obtain ⟨s,ran,ends⟩ := Option.bind_eq_some_iff.mp ends
  obtain ⟨st,ok,ends⟩ := Option.bind_eq_some_iff.mp ends
  obtain ⟨found,ok',ends⟩ := Option.map_eq_some_iff.mp ends
  simp only [Prod.mk.injEq,decide_eq_true_eq] at ends
  obtain ⟨five,six,free,mem⟩ := ends
  have accepted {α : Type} {x : Except PrivacyFailure α} {a : α} (some : x.toOption = some a) : x = .ok a := by
    cases x <;> simp_all [Except.toOption]
  exact ⟨s.entries,_,st,found,by rw [ran]; rfl,rfl,accepted ok,accepted ok',five,six,free,mem⟩

theorem crashingRunCommits : ∃ entries before : List (RecoveryEntry RecoveryEvidence),
    (Transition.run (PrivacySystem.step sampleService sampleJournal)
      (PrivacySystem.initial sampleJournal verifiedDb) crashingRun).map (·.entries) = some entries ∧
    before.length = 5 ∧ entries.length = 6 ∧ before <+: entries := by
  obtain ⟨entries,before,st,found,ran,_,ok,ok',five,six,free,mem⟩ := crashingRunInspected
  exact ⟨entries,before,ran,five,six,headCommits free ok ok' mem⟩

/-! ### Decisions -/

/-- An intent with the entry that closes it. -/
structure Closure (δ : Type) where
  intent : RecoveryEntry δ
  payload : IntentPayload δ
  closing : RecoveryEntry δ
  applied : Bool

def Closure.pair (d : Closure δ) : List (RecoveryEntry δ) := [d.intent,d.closing]

/-- The closing entry names the intent before it, and a resolution has its evidence. -/
structure Closure.Valid (d : Closure δ) : Prop where
  intent : d.intent.payload = .intent d.payload
  operation : d.closing.operation = d.intent.operation
  outcome : d.closing.payload = .commit d.intent.hash ∧ d.applied = true ∨
    ∃ r, d.closing.payload = .resolve r ∧ r.intentHash = d.intent.hash ∧ Resolution.supported r d.payload ∧
      (d.applied = true ↔ r.outcome = .committed)

omit [DecidableEq δ] in
def decidedCases (cases : RecoveryCases) (decisions : List (Closure δ)) : RecoveryCases :=
  decisions.foldl (fun cases d => if d.applied then settle cases d.payload.state else cases) cases

/-- The entries before the first decision, with the cases they bring along: a genesis, or
the checkpoint of a successor with what it retains. -/
inductive Opening (J : PrivacyRecoveryJournal δ) : List (RecoveryEntry δ) → RecoveryCases → Prop where
  | genesis (e : RecoveryEntry δ) (first : e.payload = .genesis) : Opening J [e] Table.empty
  | successor (e covered : RecoveryEntry δ) (retained : List (RecoveryEntry δ × RecoveryState)) (cases : RecoveryCases)
      (coverage : SuccessorCoverage δ) (sealedHead : RecoveryHead) (first : e.payload = .checkpoint coverage sealedHead)
      (target : coverage.targetScope = J.scope) (states : ∀ r ∈ retained, r.1.payload = .retained r.2)
      (rows : cases.rows = retained.map Prod.snd) (count : cases.rows.length = coverage.retainedCount)
      (digest : J.casesDigest cases.rows = coverage.retainedDigest) (last : covered.payload = .covered e.hash) :
      Opening J (e::retained.map Prod.fst ++ [covered]) cases

/-- An accepted history up to its last closed decision. -/
def Chronicle (J : PrivacyRecoveryJournal δ) (entries : List (RecoveryEntry δ)) (cases : RecoveryCases) : Prop :=
  ∃ opening first decisions, Opening J opening first ∧ (∀ d ∈ decisions, d.Valid) ∧
    entries = opening ++ decisions.flatMap Closure.pair ∧ cases = decidedCases first decisions

theorem Opening.chronicle {cases : RecoveryCases} (h : Opening J entries cases) : Chronicle J entries cases :=
  ⟨entries,cases,[],h,by simp,by simp,rfl⟩

theorem Chronicle.close {cases : RecoveryCases} {d : Closure δ} (h : Chronicle J entries cases) (valid : d.Valid) :
    Chronicle J (entries ++ [d.intent] ++ [d.closing])
      (if d.applied then settle cases d.payload.state else cases) := by
  obtain ⟨opening,first,decisions,opened,all,rfl,rfl⟩ := h
  refine ⟨opening,first,decisions ++ [d],opened,?_,by simp [Closure.pair],by simp [decidedCases]⟩
  intro x mem
  rcases List.mem_append.mp mem with before | here
  · exact all x before
  · exact List.mem_singleton.mp here ▸ valid

/-- Where an accepted history stands. -/
inductive Stage (J : PrivacyRecoveryJournal δ) (entries : List (RecoveryEntry δ)) (st : Inspection δ) : Prop where
  | covering (e : RecoveryEntry δ) (retained : List (RecoveryEntry δ × RecoveryState)) (coverage : SuccessorCoverage δ)
      (sealedHead : RecoveryHead) (first : e.payload = .checkpoint coverage sealedHead)
      (target : coverage.targetScope = J.scope) (states : ∀ r ∈ retained, r.1.payload = .retained r.2)
      (here : entries = e::retained.map Prod.fst) (rows : st.cases.rows = retained.map Prod.snd)
      (checkpoint : st.checkpoint = some (coverage,sealedHead)) (uncovered : st.coverageHead = none)
      (idle : st.pending = none) (unsealed : st.sealed = none) : Stage J entries st
  | idle (told : Chronicle J entries st.cases) (covered : st.checkpoint = none ∨ st.coverageHead ≠ none)
      (idle : st.pending = none) (unsealed : st.sealed = none) : Stage J entries st
  | pending (before : List (RecoveryEntry δ)) (e : RecoveryEntry δ) (p : IntentPayload δ)
      (told : Chronicle J before st.cases) (covered : st.checkpoint = none ∨ st.coverageHead ≠ none)
      (here : entries = before ++ [e]) (intent : e.payload = .intent p) (pending : st.pending = some (e,p))
      (unsealed : st.sealed = none) : Stage J entries st
  | sealed (before : List (RecoveryEntry δ)) (e : RecoveryEntry δ) (c : SuccessorCoverage δ)
      (told : Chronicle J before st.cases) (here : entries = before ++ [e]) (last : e.payload = .sealScope c)
      (head : c.sourceHead = journalHead before) (count : c.sourceCount = st.cases.rows.length)
      (digest : c.sourceDigest = J.casesDigest st.cases.rows) (covered : st.checkpoint = none ∨ st.coverageHead ≠ none)
      (idle : st.pending = none) (sealed : st.sealed = some c) : Stage J entries st

theorem firstStage {mid : Inspection δ} (ok : J.inspectFirst blank e = .ok mid) :
    Stage J [e] { mid with prior := e.head } := by
  unfold inspectFirst at ok
  split at ok
  · rename_i genesis
    cases Except.ok.inj ok
    exact .idle (Opening.genesis e genesis).chronicle (.inl rfl) rfl rfl
  · rename_i coverage sealedHead checkpoint
    split at ok
    · rename_i valid
      cases Except.ok.inj ok
      exact .covering e [] coverage sealedHead checkpoint valid.2.1 (by simp) rfl rfl rfl rfl rfl rfl
    · cases ok
  · cases ok

theorem coveringStage {mid : Inspection δ} {first : RecoveryEntry δ}
    {retained : List (RecoveryEntry δ × RecoveryState)} {coverage : SuccessorCoverage δ} {sealedHead : RecoveryHead}
    (checkpoint : first.payload = .checkpoint coverage sealedHead) (target : coverage.targetScope = J.scope)
    (states : ∀ r ∈ retained, r.1.payload = .retained r.2) (rows : st.cases.rows = retained.map Prod.snd)
    (covering : st.checkpoint = some (coverage,sealedHead)) (uncovered : st.coverageHead = none)
    (idle : st.pending = none) (unsealed : st.sealed = none)
    (ok : J.inspectCovering first.hash coverage st e = .ok mid) :
    Stage J (first::retained.map Prod.fst ++ [e]) { mid with prior := e.head } := by
  unfold inspectCovering at ok
  split at ok
  · rename_i state payload
    split at ok
    · cases ok
    · rename_i fresh
      simp only [not_or,Option.isSome_iff_ne_none,not_not] at fresh
      cases Except.ok.inj ok
      refine .covering first (retained ++ [(e,state)]) coverage sealedHead checkpoint target ?_ (by simp) ?_ covering
        uncovered idle unsealed
      · intro r mem
        rcases List.mem_append.mp mem with before | here
        · exact states r before
        · rw [List.mem_singleton.mp here]
          exact payload
      · have added : (st.cases.put state).rows = st.cases.rows ++ [state] := Table.put_fresh fresh.1
        simp [added,rows]
  · rename_i checkpointHash payload
    split at ok
    · rename_i valid
      cases Except.ok.inj ok
      have opening := Opening.successor first e retained st.cases coverage sealedHead checkpoint target states rows
        valid.2.1 valid.2.2 (valid.1 ▸ payload)
      exact .idle opening.chronicle (.inr (by simp)) idle unsealed
    · cases ok
  · cases ok

theorem decisionStage {mid : Inspection δ} (stage : Stage J entries st) (head : st.prior = journalHead entries)
    (unsealed : st.sealed = none) (covered : st.checkpoint = none ∨ st.coverageHead ≠ none)
    (ok : J.inspectDecision st e = .ok mid) : Stage J (entries ++ [e]) { mid with prior := e.head } := by
  unfold inspectDecision at ok
  cases stage with
  | covering _ _ _ _ _ _ _ _ _ checkpoint uncovered =>
    rcases covered with absent | present
    · rw [checkpoint] at absent
      cases absent
    · exact absurd uncovered present
  | idle told _ idle =>
    split at ok
    · rename_i c last _
      split at ok
      · rename_i valid
        cases Except.ok.inj ok
        exact .sealed entries e c told rfl last (valid.2.2.1.trans head) valid.2.2.2.1 valid.2.2.2.2 covered idle rfl
      · cases ok
    · rename_i p intent _
      cases Except.ok.inj ok
      exact .pending entries e p told covered rfl intent rfl unsealed
    · rename_i pending
      rw [idle] at pending
      cases pending
    · rename_i pending
      rw [idle] at pending
      cases pending
    · cases ok
  | pending before intent p told _ here isIntent pending =>
    split at ok
    · rename_i free
      rw [pending] at free
      cases free
    · rename_i free
      rw [pending] at free
      cases free
    · rename_i intentHash found payload commit waiting
      rw [pending] at waiting
      cases waiting
      split at ok
      · rename_i valid
        cases Except.ok.inj ok
        have closed : Closure.Valid ⟨intent,p,e,true⟩ :=
          ⟨isIntent,valid.1,.inl ⟨valid.2 ▸ commit,rfl⟩⟩
        exact .idle (here ▸ told.close closed) covered rfl unsealed
      · cases ok
    · rename_i r found payload resolve waiting
      rw [pending] at waiting
      cases waiting
      split at ok
      · rename_i operation
        split at ok
        · rename_i valid
          cases Except.ok.inj ok
          have closed : Closure.Valid ⟨intent,p,e,decide (r.outcome = .committed)⟩ :=
            ⟨isIntent,operation,.inr ⟨r,resolve,valid.1,valid.2,by simp⟩⟩
          have told := told.close closed
          refine .idle ?_ covered rfl unsealed
          cases outcome : r.outcome <;> simpa [here,outcome,settleOutcome] using told
        · cases ok
      · cases ok
    · cases ok
  | sealed _ _ _ _ _ _ _ _ _ _ _ locked =>
    rw [unsealed] at locked
    cases locked

theorem historyStage (ok : J.history entries = .ok st) : Stage J entries st ∧ st.prior = journalHead entries := by
  induction entries using List.reverseRecOn generalizing st with
  | nil => cases ok
  | append_singleton before e ih =>
    cases before with
    | nil =>
      have taken : J.inspectEntry e.hash blank e = .ok st := by simpa [history] using ok
      have accepted := entryAccepted taken
      refine ⟨?_,accepted.head⟩
      obtain ⟨mid,rfl,⟨_,first⟩ | ⟨later,_⟩⟩ := accepted.place
      · exact firstStage first
      · exact absurd accepted.follows.sequence later
    | cons first rest =>
      have enrolled : first::rest ≠ [] := by simp
      rw [J.historyAppend enrolled] at ok
      obtain ⟨prior,told,taken⟩ := bindOk.mp ok
      obtain ⟨stage,head⟩ := ih told
      have accepted := entryAccepted taken
      refine ⟨?_,accepted.head.trans (journalHeadAppend _ e).symm⟩
      obtain ⟨mid,rfl,⟨early,_⟩ | ⟨_,unsealed,⟨coverage,sealedHead,checkpoint,uncovered,covering⟩ | ⟨covered,decision⟩⟩⟩ :=
        accepted.place
      · have length := historySequence told
        have sequence := accepted.follows.sequence
        simp only [journalChain,RecoveryHead.position] at sequence
        rw [length,List.length_cons] at sequence
        omega
      · cases stage with
        | covering first' retained coverage' sealedHead' payload target states here rows checkpoint' uncovered' idle =>
          cases checkpoint.symm.trans checkpoint'
          cases here
          exact coveringStage payload target states rows checkpoint uncovered idle unsealed covering
        | idle _ covered =>
          rcases covered with absent | present
          · rw [checkpoint] at absent
            cases absent
          · exact absurd uncovered present
        | pending _ _ _ _ covered =>
          rcases covered with absent | present
          · rw [checkpoint] at absent
            cases absent
          · exact absurd uncovered present
        | sealed _ _ _ _ _ _ _ _ _ covered =>
          rcases covered with absent | present
          · rw [checkpoint] at absent
            cases absent
          · exact absurd uncovered present
      · exact decisionStage stage head unsealed covered decision

/-- What may follow the last closed decision. -/
inductive Remainder (J : PrivacyRecoveryJournal δ) (told : List (RecoveryEntry δ)) (st : Inspection δ)
    (allowSealed allowPending : Bool) : List (RecoveryEntry δ) → Prop where
  | nothing (idle : st.pending = none) (unsealed : st.sealed = none) : Remainder J told st allowSealed allowPending []
  | pending (e : RecoveryEntry δ) (p : IntentPayload δ) (intent : e.payload = .intent p)
      (pending : st.pending = some (e,p)) (unsealed : st.sealed = none) (allowed : allowPending) :
      Remainder J told st allowSealed allowPending [e]
  | sealed (e : RecoveryEntry δ) (c : SuccessorCoverage δ) (last : e.payload = .sealScope c)
      (head : c.sourceHead = journalHead told) (count : c.sourceCount = st.cases.rows.length)
      (digest : c.sourceDigest = J.casesDigest st.cases.rows) (idle : st.pending = none)
      (sealed : st.sealed = some c) (allowed : allowSealed) : Remainder J told st allowSealed allowPending [e]

/-- An accepted history consists of an opening, of intents each closed by the next entry,
and at most one entry more, a pending intent or a seal; its cases are those of the opening
with the applied decisions in their order. -/
theorem acceptedDecisions {allowSealed allowPending : Bool} (ok : J.inspect entries allowSealed allowPending = .ok st) :
    ∃ told last, entries = told ++ last ∧ Chronicle J told st.cases ∧
      Remainder J told st allowSealed allowPending last := by
  obtain ⟨history,_,covered,idle,unsealed⟩ := inspectOk.mp ok
  cases (historyStage history).1 with
  | covering _ _ _ _ _ _ _ _ _ checkpoint uncovered =>
    exact absurd ⟨by simp [checkpoint],by simp [uncovered]⟩ covered
  | idle told _ free open' => exact ⟨entries,[],by simp,told,.nothing free open'⟩
  | pending before e p told _ here intent pending open' =>
    exact ⟨before,[e],here,told,.pending e p intent pending open' (by simpa [pending] using idle)⟩
  | sealed before e c told here last head count digest _ free locked =>
    exact ⟨before,[e],here,told,.sealed e c last head count digest free locked (by simpa [locked] using unsealed)⟩

theorem crashingRunDecisions : ∃ entries found,
    (Transition.run (PrivacySystem.step sampleService sampleJournal)
      (PrivacySystem.initial sampleJournal verifiedDb) crashingRun).map (·.entries) = some entries ∧
    entries.length = 6 ∧ ∃ told last, entries = told ++ last ∧ Chronicle sampleJournal told found.cases ∧
      Remainder sampleJournal told found false true last := by
  obtain ⟨entries,before,st,found,ran,_,_,ok',_,six,_⟩ := crashingRunInspected
  exact ⟨entries,found,ran,six,acceptedDecisions ok'⟩

end SpeedySweeties
