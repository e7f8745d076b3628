import SpeedySweeties.Retention.SentOnce

/-! The provider status of a message. A callback handler compares and sets, and answers with
success either way; the sender's last update gives way to any callback. Where neither loses
to a lower rank, the row always shows the highest rank that was answered. -/
namespace SpeedySweeties
namespace Retention

/-- The identifier the provider gives the message it accepts under an id, if it does. -/
structure Provider where
  sidOf : String → Option String
  valid : ∀ id sid, sidOf id = some sid → validSid sid = true

/-- The message and the status of an answered callback, or of the sender's last update. -/
def Event.answer : Event → Option (String × String)
  | .reported id params => some (id,params.messageStatus)
  | .concluded id status => some (id,status)
  | _ => none

def Answered (log : List Event) (id status : String) : Prop := ∃ e ∈ log, e.answer = some (id,status)

def SentTo (log : List Event) (id : String) : Prop := log.any (Event.sends id) = true

theorem Answered.cons {log : List Event} {id status : String} (h : Answered log id status) (e : Event) : Answered (e::log) id status :=
  h.imp fun _ held => ⟨List.mem_cons_of_mem e held.1,held.2⟩

theorem SentTo.cons {log : List Event} {id : String} (h : SentTo log id) (e : Event) : SentTo (e::log) id := by
  unfold SentTo at h ⊢
  rw [List.any_cons,h,Bool.or_true]

/-- What the provider does: it calls back about messages that were sent and accepted, under
their identifiers, and answers the sender with the same. -/
def Valid (P : Provider) (s : System) : Action → Prop
  | .callback _ id params _ =>
    P.sidOf id = some params.messageSid ∧ (deliveryRank params.messageStatus).isSome = true ∧ SentTo s.log id
  | .answer w response =>
    match s.workers w with
    | some (.campaign _ _ (.awaiting t _)) =>
      ((outcomeOf response).sid = none ∨ (outcomeOf response).sid = P.sidOf t.message.id) ∧
        ((outcomeOf response).status = "rejected" → P.sidOf t.message.id = none)
    | _ => True
  | _ => True

instance (P : Provider) (s : System) (a : Action) : Decidable (Valid P s a) := by
  unfold Valid SentTo
  split
  · infer_instance
  · split <;> infer_instance
  · infer_instance

/-- The row is as the writer expects it, or shows a status of the provider of at least the rank. -/
def Stands (s : System) (id : String) (expected : RetentionMessage → Prop) (status : String) : Prop :=
  match s.messages.find id with
  | some row => expected row ∨ covers row status = true
  | none => True

/-- No compare-and-set of a callback, and no last update of an accepted message, loses to a
status of the provider of lower rank. -/
def Undisturbed (s : System) : Action → Prop
  | .write w =>
    match s.workers w with
    | some (.writing record params _) => Stands s record.id
        (fun row => row.providerStatus = record.providerStatus ∧ row.providerMessageId = record.providerMessageId) params.messageStatus
    | _ => True
  | .record w =>
    match s.workers w with
    | some (.campaign _ _ (.recording t outcome _)) => outcome.sid.isSome = true → Stands s t.message.id
        (fun row => row.providerStatus = some "sending" ∧ row.providerMessageId = none) outcome.status
    | _ => True
  | _ => True

instance (s : System) (id status : String) (expected : RetentionMessage → Prop) [DecidablePred expected] :
    Decidable (Stands s id expected status) := by
  unfold Stands
  split <;> infer_instance

instance (s : System) (a : Action) : Decidable (Undisturbed s a) := by
  unfold Undisturbed
  split
  · split <;> infer_instance
  · split <;> infer_instance
  · infer_instance

/-- The row shows one of the answered statuses, and each answered one is of its rank at most. -/
def Converged (s : System) (id : String) : Prop :=
  (∀ status, Answered s.log id status → ∃ row, s.messages.find id = some row ∧ covers row status = true) ∧
    ∀ row, s.messages.find id = some row → row.providerMessageId ≠ none →
      ∃ stored, row.providerStatus = some stored ∧ Answered s.log id stored

def Attempted (row : RetentionMessage) : Prop := row.attemptedAt ≠ none ∧ row.provider = some "TWILIO"

/-- The row of a claim whose message has not been sent. -/
def Fresh (messages : RetentionMessages) (id : String) : Prop :=
  ∃ row, messages.find id = some row ∧ Attempted row ∧ row.providerStatus = some "sending" ∧ row.providerMessageId = none

def OutcomeSound (P : Provider) (id : String) (outcome : Outcome) : Prop :=
  (∀ sid, outcome.sid = some sid → P.sidOf id = some sid ∧ (deliveryRank outcome.status).isSome = true) ∧
    (outcome.sid = none → outcome.status ≠ "suppressed") ∧ (outcome.status = "rejected" → P.sidOf id = none)

def CallbackSound (P : Provider) (id : String) (params : CallbackParams) : Prop :=
  P.sidOf id = some params.messageSid ∧ (deliveryRank params.messageStatus).isSome = true

def WorkerSound (P : Provider) (log : List Event) (messages : RetentionMessages) : Worker → Prop
  | .campaign _ _ (.checking t _) | .campaign _ _ (.suppressing t _) | .campaign _ _ (.sending t _) => Fresh messages t.message.id
  | .campaign _ _ (.awaiting t _) => SentTo log t.message.id
  | .campaign _ _ (.stopping t outcome _ _) | .campaign _ _ (.recording t outcome _) =>
    SentTo log t.message.id ∧ OutcomeSound P t.message.id outcome
  | .reading id params _ => SentTo log id ∧ CallbackSound P id params
  | .writing record params _ => SentTo log record.id ∧ CallbackSound P record.id params ∧ covers record params.messageStatus = false
  | _ => True

/-- What the row of a message that was sent looks like. -/
structure RowSound (P : Provider) (log : List Event) (row : RetentionMessage) : Prop where
  attempted : Attempted row
  open_ : row.providerMessageId = none → row.providerStatus ≠ some "suppressed" ∧
    (row.providerStatus = some "rejected" → P.sidOf row.id = none)
  shown : ∀ sid, row.providerMessageId = some sid → P.sidOf row.id = some sid ∧
    ∃ stored, row.providerStatus = some stored ∧ (deliveryRank stored).isSome = true ∧ Answered log row.id stored

theorem WorkerSound.later {P : Provider} {log log' : List Event} {messages messages' : RetentionMessages} {x : Worker} (h : WorkerSound P log messages x)
    (grown : ∀ id, SentTo log id → SentTo log' id)
    (fresh : ∀ t now, x.unsent = some (t,now) → Fresh messages t.message.id → Fresh messages' t.message.id) : WorkerSound P log' messages' x := by
  cases x with
  | campaign config now stage =>
    cases stage with
    | checking t rest | suppressing t rest | sending t rest => exact fresh t now rfl h
    | awaiting t rest => exact grown _ h
    | stopping t outcome held rest | recording t outcome rest => exact ⟨grown _ h.1,h.2⟩
    | listing | next | locking | deciding => trivial
  | stop phone now held => trivial
  | reading id params now | writing record params now => exact ⟨grown _ h.1,h.2⟩

theorem RowSound.later {P : Provider} {log : List Event} {row : RetentionMessage} (h : RowSound P log row) (e : Event) : RowSound P (e::log) row where
  __ := h
  shown sid is := by
    obtain ⟨same,stored,shows,rank,told⟩ := h.shown sid is
    exact ⟨same,stored,shows,rank,told.cons e⟩

namespace System
variable {D : Deployment} {P : Provider} {s : System}

structure Tracked (P : Provider) (s : System) : Prop where
  rows : ∀ id row, s.messages.find id = some row → row.providerMessageId ≠ none → SentTo s.log id
  answered : ∀ id status, Answered s.log id status → ∃ row, s.messages.find id = some row ∧ covers row status = true
  sent : ∀ id, SentTo s.log id → ∃ row, s.messages.find id = some row ∧ RowSound P s.log row
  workers : ∀ w x, s.workers w = some x → WorkerSound P s.log s.messages x

theorem Tracked.same {t : System} (h : Tracked P s) (messages : t.messages = s.messages) (log : t.log = s.log)
    (workers : t.workers = s.workers) : Tracked P t where
  rows := by rw [messages,log]; exact h.rows
  answered := by rw [messages,log]; exact h.answered
  sent := by rw [messages,log]; exact h.sent
  workers := by rw [messages,log,workers]; exact h.workers

theorem Tracked.goto (h : Tracked P s) (w : Nat) {worker : Option Worker} (sound : ∀ x, worker = some x → WorkerSound P s.log s.messages x) :
    Tracked P (s.goto w worker) where
  __ := h
  workers v x at_ := by
    rcases gotoCases at_ with ⟨_,same⟩ | ⟨_,old⟩
    · exact sound x same
    · exact h.workers v x old

theorem sentBefore {log : List Event} {e : Event} {id : String} (h : SentTo (e::log) id) (quiet : e.sends id = false) : SentTo log id := by
  unfold SentTo at h ⊢
  rwa [List.any_cons,quiet,Bool.false_or] at h

theorem Tracked.note (h : Tracked P s) {e : Event} (silent : e.answer = none) (quiet : ∀ id, e.sends id = false) : Tracked P (s.note e) where
  rows id row found shown := (h.rows id row found shown).cons e
  answered id status told := by
    obtain ⟨e',mem,answers⟩ := told
    rcases List.mem_cons.mp mem with rfl | mem
    · exact nomatch silent.symm.trans answers
    · exact h.answered id status ⟨e',mem,answers⟩
  sent id told := by
    obtain ⟨row,found,sound⟩ := h.sent id (sentBefore told (quiet id))
    exact ⟨row,found,sound.later e⟩
  workers w x at_ := (h.workers w x at_).later (fun _ told => told.cons e) fun _ _ _ fresh => fresh

/-- The row of a message that has not been sent, or a new one. -/
theorem Tracked.putUnsent (h : Tracked P s) {m : RetentionMessage} (unsent : ¬ SentTo s.log m.id) (hidden : m.providerMessageId = none)
    (unclaimed : ∀ w x t now, s.workers w = some x → x.unsent = some (t,now) → t.message.id ≠ m.id) : Tracked P (s.putMessage m) where
  rows id row found shown := by
    by_cases mine : id = m.id
    · subst mine
      cases Option.some.inj ((Table.find_put_self _ _).symm.trans found)
      exact absurd hidden shown
    · exact h.rows id row ((Table.find_put_other mine).symm.trans found) shown
  answered id status told := by
    obtain ⟨row,found,covered⟩ := h.answered id status told
    have mine : id ≠ m.id := by
      rintro rfl
      refine unsent (h.rows _ row found fun none => ?_)
      simp [covers,none] at covered
    exact ⟨row,(Table.find_put_other mine).trans found,covered⟩
  sent id told := by
    obtain ⟨row,found,sound⟩ := h.sent id told
    have mine : id ≠ m.id := by
      rintro rfl
      exact unsent told
    exact ⟨row,(Table.find_put_other mine).trans found,sound⟩
  workers w x at_ := (h.workers w x at_).later (fun _ told => told) fun t now claims ⟨row,found,rest⟩ =>
    ⟨row,(Table.find_put_other (unclaimed w x t now at_ claims)).trans found,rest⟩

theorem Tracked.covered (h : Tracked P s) {e : Event} {id status : String} {row : RetentionMessage} (answers : e.answer = some (id,status))
    (quiet : ∀ id, e.sends id = false) (found : s.messages.find id = some row) (covered : covers row status = true) : Tracked P (s.note e) where
  rows other row found shown := (h.rows other row found shown).cons e
  answered other status' told := by
    obtain ⟨e',mem,answers'⟩ := told
    rcases List.mem_cons.mp mem with rfl | mem
    · cases answers.symm.trans answers'
      exact ⟨row,found,covered⟩
    · exact h.answered other status' ⟨e',mem,answers'⟩
  sent other told := by
    obtain ⟨row,found,sound⟩ := h.sent other (sentBefore told (quiet other))
    exact ⟨row,found,sound.later e⟩
  workers w x at_ := (h.workers w x at_).later (fun _ told => told.cons e) fun _ _ _ fresh => fresh

theorem Tracked.report (h : Tracked P s) {e : Event} {id status sid : String} {old m : RetentionMessage} (answers : e.answer = some (id,status))
    (quiet : ∀ id, e.sends id = false) (found : s.messages.find id = some old) (key : m.id = old.id) (told : SentTo s.log id)
    (shown : m.providerMessageId = some sid ∧ m.providerStatus = some status) (same : P.sidOf id = some sid)
    (rank : (deliveryRank status).isSome = true) (attempted : Attempted m) (more : ∀ earlier, covers old earlier = true → covers m earlier = true)
    (unclaimed : ∀ w x t now, s.workers w = some x → x.unsent = some (t,now) → t.message.id ≠ id) :
    Tracked P ((s.note e).putMessage m) := by
  obtain rfl : m.id = id := key.trans (Table.find_key found)
  have here : (s.messages.put m).find m.id = some m := Table.find_put_self ..
  have others : ∀ other, other ≠ m.id → (s.messages.put m).find other = s.messages.find other := fun _ differ => Table.find_put_other differ
  have sound : RowSound P (e::s.log) m := {
    attempted
    open_ := fun none => nomatch shown.1.symm.trans none
    shown := fun sid' is => by
      cases shown.1.symm.trans is
      exact ⟨same,status,shown.2,rank,e,List.mem_cons_self,answers⟩ }
  exact {
    rows := fun other row there is => by
      by_cases mine : other = m.id
      · exact mine ▸ told.cons e
      · exact (h.rows other row ((others other mine).symm.trans there) is).cons e
    answered := fun other status' ⟨e',mem,answers'⟩ => by
      by_cases mine : other = m.id
      · subst mine
        refine ⟨m,here,?_⟩
        rcases List.mem_cons.mp mem with rfl | mem
        · cases answers.symm.trans answers'
          obtain ⟨k,is⟩ := Option.isSome_iff_exists.mp rank
          simp [covers,shown.1,shown.2,is]
        · obtain ⟨row,there,covered⟩ := h.answered m.id status' ⟨e',mem,answers'⟩
          cases Option.some.inj (found.symm.trans there)
          exact more status' covered
      · rcases List.mem_cons.mp mem with rfl | mem
        · cases answers.symm.trans answers'
          exact absurd rfl mine
        · obtain ⟨row,there,covered⟩ := h.answered other status' ⟨e',mem,answers'⟩
          exact ⟨row,(others other mine).trans there,covered⟩
    sent := fun other told => by
      by_cases mine : other = m.id
      · exact mine ▸ ⟨m,here,sound⟩
      · obtain ⟨row,there,is⟩ := h.sent other (sentBefore told (quiet other))
        exact ⟨row,(others other mine).trans there,is.later e⟩
    workers := fun w x at_ => (h.workers w x at_).later (fun _ told => told.cons e) fun t now claims ⟨row,there,rest⟩ =>
      ⟨row,(others _ (unclaimed w x t now at_ claims)).trans there,rest⟩ }

/-- The last update of a message that the provider has not accepted, before any callback. -/
theorem Tracked.putOpen (h : Tracked P s) {id : String} {old m : RetentionMessage} (found : s.messages.find id = some old)
    (key : m.id = old.id) (told : SentTo s.log id) (hidden : old.providerMessageId = none) (sound : RowSound P s.log m)
    (unclaimed : ∀ w x t now, s.workers w = some x → x.unsent = some (t,now) → t.message.id ≠ id) : Tracked P (s.putMessage m) := by
  obtain rfl : m.id = id := key.trans (Table.find_key found)
  have others : ∀ other, other ≠ m.id → (s.messages.put m).find other = s.messages.find other := fun _ differ => Table.find_put_other differ
  exact {
    rows := fun other row there is => by
      by_cases mine : other = m.id
      · exact mine ▸ told
      · exact h.rows other row ((others other mine).symm.trans there) is
    answered := fun other status answered => by
      obtain ⟨row,there,covered⟩ := h.answered other status answered
      have mine : other ≠ m.id := by
        rintro rfl
        cases Option.some.inj (found.symm.trans there)
        simp [covers,hidden] at covered
      exact ⟨row,(others other mine).trans there,covered⟩
    sent := fun other told => by
      by_cases mine : other = m.id
      · exact mine ▸ ⟨m,Table.find_put_self _ _,sound⟩
      · obtain ⟨row,there,is⟩ := h.sent other told
        exact ⟨row,(others other mine).trans there,is⟩
    workers := fun w x at_ => (h.workers w x at_).later (fun _ told => told) fun t now claims ⟨row,there,rest⟩ =>
      ⟨row,(others _ (unclaimed w x t now at_ claims)).trans there,rest⟩ }

theorem Tracked.send (h : Tracked P s) {id phone : String} {now : Nat} (fresh : Fresh s.messages id) : Tracked P (s.note (.sent id phone now)) where
  rows other row found shown := (h.rows other row found shown).cons _
  answered other status told := by
    obtain ⟨e,mem,answers⟩ := told
    rcases List.mem_cons.mp mem with rfl | mem
    · cases answers
    · exact h.answered other status ⟨e,mem,answers⟩
  sent other told := by
    by_cases mine : other = id
    · subst mine
      obtain ⟨row,found,attempted,status,hidden⟩ := fresh
      exact ⟨row,found,attempted,fun _ => by simp [status],fun sid is => nomatch hidden.symm.trans is⟩
    · obtain ⟨row,found,sound⟩ := h.sent other (sentBefore told (by simp [Event.sends,Ne.symm mine]))
      exact ⟨row,found,sound.later _⟩
  workers w x at_ := (h.workers w x at_).later (fun _ told => told.cons _) fun _ _ _ fresh => fresh

theorem Sound.unclaimed (sound : Sound D s) {id : String} (told : SentTo s.log id) :
    ∀ w x t now, s.workers w = some x → x.unsent = some (t,now) → t.message.id ≠ id := by
  rintro w x t now at_ claims rfl
  obtain ⟨e,mem,sends⟩ := List.any_eq_true.mp told
  exact nomatch ((sound.unsent w x t now at_ claims).2 e mem).symm.trans sends

theorem outcomeSound {id : String} {response : Option TwilioResponse}
    (same : (outcomeOf response).sid = none ∨ (outcomeOf response).sid = P.sidOf id)
    (refused : (outcomeOf response).status = "rejected" → P.sidOf id = none) : OutcomeSound P id (outcomeOf response) := by
  have statuses : (∃ sid status, outcomeOf response = ⟨some sid,status,none⟩ ∧ status ∈ acceptedStatuses) ∨
      (outcomeOf response).sid = none ∧ (outcomeOf response).status ≠ "suppressed" := by
    have other : ∀ r, (outcomeOf.refused r).sid = none ∧ (outcomeOf.refused r).status ≠ "suppressed" := by
      intro r
      unfold outcomeOf.refused
      split <;> simp
    cases response with
    | none => exact .inr ⟨rfl,by simp [outcomeOf]⟩
    | some r =>
      dsimp only [outcomeOf]
      split
      · split
        · rename_i sid status _ _ accepted
          exact .inl ⟨sid,status,rfl,accepted.2.2.2⟩
        · exact .inr (other r)
      · exact .inr (other r)
  have ranked : ∀ status ∈ acceptedStatuses, (deliveryRank status).isSome = true := by decide
  rcases statuses with ⟨sid,status,is,accepted⟩ | ⟨none,notSuppressed⟩
  · refine ⟨fun sid' same' => ⟨?_,?_⟩,fun none => ?_,refused⟩
    · rcases same with none | same
      · exact nomatch none.symm.trans same'
      · exact same.symm.trans same'
    · rw [is]
      exact ranked status accepted
    · rw [is] at none
      cases none
  · exact ⟨fun sid is => (nomatch none.symm.trans is),fun _ => notSuppressed,refused⟩

theorem coversSame {row record : RetentionMessage} (status : row.providerStatus = record.providerStatus)
    (sid : row.providerMessageId = record.providerMessageId) (reported : String) : covers row reported = covers record reported := by
  unfold covers
  rw [status,sid]

theorem coversRise {old m : RetentionMessage} {status : String} (shown : m.providerMessageId.isSome = true ∧ m.providerStatus = some status)
    (rank : (deliveryRank status).isSome = true) (above : covers old status = false) (earlier : String) (covered : covers old earlier = true) :
    covers m earlier = true := by
  obtain ⟨k,is⟩ := Option.isSome_iff_exists.mp rank
  obtain ⟨isShown,covered⟩ := Bool.and_eq_true_iff.mp covered
  obtain ⟨stored,stands,below⟩ := (Option.any_eq_true _ _).mp covered
  obtain ⟨low,ranks,le⟩ := (Option.any_eq_true _ _).mp below
  have lt : stored < k := by
    simpa [covers,isShown,stands,is] using above
  have le : low ≤ stored := by simpa using le
  simp only [covers,shown.1,shown.2,Option.getD_some,is,ranks,Option.any_some,Bool.true_and,decide_eq_true_eq]
  omega

theorem ignoredCovered {row : RetentionMessage} {log : List Event} {params : CallbackParams} (sound : RowSound P log row)
    (valid : CallbackSound P row.id params) (ignored : takesCallback row params = false) : covers row params.messageStatus = true := by
  by_contra not
  have same : row.providerMessageId.all (· = params.messageSid) = true := by
    cases is : row.providerMessageId with
    | none => rfl
    | some sid => simpa using Option.some.inj ((sound.shown sid is).1.symm.trans valid.1)
  have taken : row.providerStatus.getD "" ∉ ["suppressed","rejected"] := by
    cases is : row.providerMessageId with
    | none =>
      obtain ⟨notSuppressed,rejected⟩ := sound.open_ is
      cases status : row.providerStatus with
      | none => simp
      | some shown =>
        rw [status] at notSuppressed rejected
        simp only [Option.getD_some,List.mem_cons,List.not_mem_nil,or_false,not_or]
        refine ⟨fun same => notSuppressed (congrArg some same),fun same => ?_⟩
        exact nomatch valid.1.symm.trans (rejected (congrArg some same))
    | some sid =>
      obtain ⟨_,shown,status,rank,_⟩ := sound.shown sid is
      rw [status]
      intro mem
      have unranked : ∀ status ∈ ["suppressed","rejected"], (deliveryRank status).isSome = false := by decide
      exact nomatch (unranked shown mem).symm.trans rank
  obtain ⟨attempted,provider⟩ := sound.attempted
  simp [takesCallback,Option.isSome_iff_ne_none,attempted,provider,same,not,taken] at ignored

/-! ### Steps -/

theorem Tracked.leave (h : Tracked P s) (w : Nat) : Tracked P (s.goto w none) := h.goto w fun _ is => nomatch is

theorem Tracked.unlock (h : Tracked P s) (w : Nat) : Tracked P (s.unlock w) := h.same rfl rfl rfl

theorem nextSound {log : List Event} {messages : RetentionMessages} {config : SmsConfig} {now : Nat} {rest : List RetentionMessage} :
    ∀ x, going config now (.next rest) = some x → WorkerSound P log messages x := by
  intro x is
  cases is
  trivial

theorem draftUnsent (h : Tracked P s) {id : String} {m : RetentionMessage} (found : s.messages.find id = some m) (free : m.attemptedAt = none) :
    ¬ SentTo s.log m.id ∧ m.providerMessageId = none ∧
      ∀ w x t now, s.workers w = some x → x.unsent = some (t,now) → t.message.id ≠ m.id := by
  obtain rfl : m.id = id := Table.find_key found
  have unsent : ¬ SentTo s.log m.id := by
    intro told
    obtain ⟨row,there,sound⟩ := h.sent m.id told
    cases Option.some.inj (found.symm.trans there)
    exact sound.attempted.1 free
  refine ⟨unsent,?_,fun w x t now at_ claims same => ?_⟩
  · by_contra shown
    exact unsent (h.rows m.id m found shown)
  · have fresh : Fresh s.messages t.message.id := by
      have sound := h.workers w x at_
      cases x with
      | campaign config clock stage => cases stage <;> cases claims <;> exact sound
      | stop phone clock held => cases claims
      | reading | writing => cases claims
    obtain ⟨row,there,attempted,_⟩ := fresh
    cases Option.some.inj (found.symm.trans (same ▸ there))
    exact attempted.1 free

theorem Tracked.commitClaim (h : Tracked P s) {w : Nat} {config : SmsConfig} {t : Target} {state : RecipientState} {now : Nat}
    {rest : List RetentionMessage} :
    Tracked P ((((s.commitClaim D config t state now).1).unlock w).goto w
      (going config now (if (s.commitClaim D config t state now).2 then .checking t rest else .next rest))) := by
  unfold System.commitClaim
  dsimp only
  split
  · rename_i reason m _ draft
    obtain ⟨found,free⟩ := draftSource draft
    obtain ⟨unsent,hidden,unclaimed⟩ := draftUnsent h found free
    have put := h.putUnsent (m := skipped m reason) unsent hidden unclaimed
    have written : Tracked P ((s.putSetting (recipientKey D t.phone) state).putMessage (skipped m reason)) := put.same rfl rfl rfl
    exact (written.unlock w).goto w nextSound
  · have written : Tracked P (s.putSetting (recipientKey D t.phone) state) := h.same rfl rfl rfl
    exact (written.unlock w).goto w nextSound
  · rename_i m _ draft
    obtain ⟨found,free⟩ := draftSource draft
    obtain ⟨unsent,hidden,unclaimed⟩ := draftUnsent h found free
    have put := h.putUnsent (m := claimed m config.body now) unsent hidden unclaimed
    have noted := put.note (e := .claimed t.message.id t.phone now) rfl fun _ => rfl
    have written : Tracked P (((s.putSetting (recipientKey D t.phone) { state with lastAttemptAt := some now }).putMessage
        (claimed m config.body now)).note (.claimed t.message.id t.phone now)) := noted.same rfl rfl rfl
    have here : (s.messages.put (claimed m config.body now)).find t.message.id = some (claimed m config.body now) := by
      rw [← Table.find_key found]
      exact Table.find_put_self s.messages (claimed m config.body now)
    refine (written.unlock w).goto w fun x is => ?_
    cases is
    exact ⟨claimed m config.body now,here,⟨Option.some_ne_none now,rfl⟩,rfl,hidden⟩

theorem Tracked.commitStop (h : Tracked P s) (phone : String) (state : RecipientState) (now : Nat) :
    Tracked P (s.commitStop D phone state now) := by
  have noted := h.note (e := .optedOut phone) rfl fun _ => rfl
  exact noted.same rfl rfl rfl

theorem Tracked.step (h : Tracked P s) (sound : Sound D s) {a : Action} {t : System} (valid : Valid P s a) (free : Undisturbed s a)
    (ok : s.step D a = some t) : Tracked P t := by
  cases a with
  | environment customers privacyPending =>
    cases ok
    exact h.same rfl rfl rfl
  | draft m =>
    dsimp only [System.step] at ok
    split at ok <;> cases ok
    rename_i absent
    have unsent : ¬ SentTo s.log m.id := by
      intro told
      obtain ⟨row,there,_⟩ := h.sent m.id told
      cases absent.symm.trans there
    refine h.putUnsent unsent rfl fun w x t now at_ claims same => ?_
    obtain ⟨row,there,_⟩ := sound.attempted _ _ _ (sound.unsent w x t now at_ claims).1
    rw [same] at there
    cases absent.symm.trans there
  | sendRetentionMessages w config now =>
    dsimp only [System.step] at ok
    split at ok <;> cases ok
    split
    · exact h
    · exact h.goto w fun x is => by cases is; trivial
  | inbound w from_ now =>
    dsimp only [System.step] at ok
    split at ok <;> cases ok
    exact h.goto w fun x is => by cases is; trivial
  | callback w id params now =>
    obtain ⟨sid,rank,told⟩ := valid
    dsimp only [System.step] at ok
    split at ok
    · cases ok
    split at ok <;> cases ok
    · rename_i refused
      simp [P.valid id _ sid,Option.isNone_iff_eq_none,Option.isSome_iff_ne_none.mp rank] at refused
    · exact h.goto w fun x is => by cases is; exact ⟨told,sid,rank⟩
  | crash w =>
    cases ok
    exact (h.unlock w).leave w
  | list w =>
    dsimp only [System.step] at ok
    split at ok <;> cases ok
    exact h.goto w nextSound
  | take w =>
    dsimp only [System.step] at ok
    split at ok
    · cases ok
      exact h.leave w
    · split at ok <;> cases ok
      · exact h.goto w nextSound
      · exact h.goto w fun x is => by cases is; trivial
    · cases ok
  | lock w =>
    dsimp only [System.step] at ok
    split at ok
    case h_4 => cases ok
    all_goals
      rename_i at_
      have told := h.workers w _ at_
      obtain ⟨state,_,rfl⟩ := Option.map_eq_some_iff.mp ok
      refine (h.same rfl rfl rfl : Tracked P (s.holdLock _ w)).goto w fun x is => ?_
      cases is
      trivial
  | commit w =>
    dsimp only [System.step] at ok
    split at ok
    · cases ok
      exact h.commitClaim
    · rename_i at_
      cases ok
      have told := h.workers w _ at_
      refine ((h.commitStop _ _ _).unlock w).goto w fun x is => ?_
      cases is
      exact ⟨told.1.cons _,told.2⟩
    · cases ok
      exact ((h.commitStop _ _ _).unlock w).leave w
    · cases ok
  | stopFails w =>
    dsimp only [System.step] at ok
    split at ok <;> cases ok
    rename_i at_
    have told := h.workers w _ at_
    exact (h.unlock w).goto w fun x is => by cases is; exact told
  | check w =>
    dsimp only [System.step] at ok
    split at ok
    case h_2 => cases ok
    rename_i at_
    have fresh := h.workers w _ at_
    split at ok
    · cases ok
      exact h.leave w
    split at ok <;> cases ok
    · exact h.goto w fun x is => by cases is; exact fresh
    · exact (h.note rfl fun _ => rfl).goto w fun x is => by cases is; exact fresh
  | suppress w =>
    dsimp only [System.step] at ok
    split at ok
    case h_2 => cases ok
    rename_i config now t rest at_
    split at ok <;> cases ok
    · exact h.leave w
    rename_i m found
    obtain ⟨row,there,_,_,hidden⟩ : Fresh s.messages t.message.id := h.workers w _ at_
    cases Option.some.inj (found.symm.trans there)
    have key : t.message.id = m.id := (Table.find_key found).symm
    have unsent : ¬ SentTo s.log m.id := by
      intro told
      obtain ⟨e,mem,sends⟩ := List.any_eq_true.mp told
      cases (key ▸ (sound.unsent w _ t now at_ rfl).2 e mem).symm.trans sends
    have moved : Tracked P (s.goto w (going config now (.next rest))) := h.goto w nextSound
    refine moved.putUnsent (m := suppressedBeforeSend m) unsent hidden fun v x u clock is claims same => ?_
    rcases gotoCases is with ⟨_,new⟩ | ⟨other,old⟩
    · cases new
      cases claims
    · exact other (sound.alone v w x _ u t clock now old at_ claims rfl (same.trans key.symm))
  | send w =>
    dsimp only [System.step] at ok
    split at ok <;> cases ok
    rename_i config now t rest at_
    exact (h.send (h.workers w _ at_)).goto w fun x is => by
      cases is
      exact (by simp [SentTo,System.note,Event.sends] : SentTo (s.note (.sent t.message.id t.phone now)).log t.message.id)
  | answer w response =>
    dsimp only [System.step] at ok
    split at ok <;> cases ok
    rename_i config now t rest at_
    have told : SentTo s.log t.message.id := h.workers w _ at_
    have valid : ((outcomeOf response).sid = none ∨ (outcomeOf response).sid = P.sidOf t.message.id) ∧
        ((outcomeOf response).status = "rejected" → P.sidOf t.message.id = none) := by simpa [Valid,at_] using valid
    have outcome := outcomeSound valid.1 valid.2
    refine h.goto w fun x is => ?_
    split at is <;> cases is <;> exact ⟨told,outcome⟩
  | record w =>
    dsimp only [System.step] at ok
    split at ok
    case h_2 => cases ok
    rename_i config now t outcome rest at_
    obtain ⟨told,outcomes,unsuppressed,rejected⟩ := h.workers w _ at_
    obtain ⟨row,found,is⟩ := h.sent t.message.id told
    have key : row.id = t.message.id := Table.find_key found
    simp only [found] at ok
    cases accepted : outcome.sid with
    | none =>
      simp only [accepted,Option.isSome_none,Bool.false_eq_true,↓reduceIte] at ok
      split at ok <;> cases ok
      · rename_i guard
        have open_ : RowSound P s.log (concluded row outcome now) := by
          refine ⟨is.attempted,fun _ => ⟨fun same => unsuppressed accepted (Option.some.inj same),fun same => ?_⟩,fun sid shown => ?_⟩
          · exact key ▸ rejected (Option.some.inj same)
          · simp [concluded,accepted,guard.2] at shown
        exact (h.putOpen (m := concluded row outcome now) found rfl told guard.2 open_ (sound.unclaimed told)).goto w nextSound
      · exact h.goto w nextSound
    | some sid =>
      obtain ⟨same,rank⟩ := outcomes sid accepted
      have stands : (row.providerStatus = some "sending" ∧ row.providerMessageId = none) ∨ covers row outcome.status = true := by
        simpa [Undisturbed,at_,accepted,Stands,found] using free
      simp only [accepted,Option.isSome_some,↓reduceIte] at ok
      split at ok <;> cases ok
      · rename_i guard
        have rise : ∀ earlier, covers row earlier = true → covers (concluded row outcome now) earlier = true := by
          intro earlier covered
          simp [covers,guard.2] at covered
        refine (h.report (e := .concluded t.message.id outcome.status) (m := concluded row outcome now) rfl (fun _ => rfl) found rfl told ⟨?_,rfl⟩ same rank is.attempted
          rise (sound.unclaimed told)).goto w nextSound
        simp [concluded,accepted]
      · rename_i guard
        exact (h.covered (e := .concluded t.message.id outcome.status) rfl (fun _ => rfl) found (stands.resolve_left guard)).goto w nextSound
  | read w =>
    dsimp only [System.step] at ok
    split at ok
    case h_2 => cases ok
    rename_i id params now at_
    obtain ⟨told,callback⟩ := h.workers w _ at_
    obtain ⟨row,found,is⟩ := h.sent id told
    obtain rfl : row.id = id := Table.find_key found
    simp only [found] at ok
    split at ok <;> cases ok
    · rename_i takes
      refine h.goto w fun x new => ?_
      cases new
      refine ⟨told,callback,?_⟩
      simp only [takesCallback,Bool.and_eq_true,Bool.not_eq_true'] at takes
      exact takes.1.2
    · rename_i leaves
      have covered := ignoredCovered is callback (by simpa using leaves)
      exact (h.covered (e := .reported row.id params) rfl (fun _ => rfl) found covered).leave w
  | write w =>
    dsimp only [System.step] at ok
    split at ok
    case h_2 => cases ok
    rename_i record params now at_
    obtain ⟨told,⟨same,rank⟩,above⟩ := h.workers w _ at_
    obtain ⟨row,found,is⟩ := h.sent record.id told
    have stands : (row.providerStatus = record.providerStatus ∧ row.providerMessageId = record.providerMessageId) ∨
        covers row params.messageStatus = true := by simpa [Undisturbed,at_,Stands,found] using free
    simp only [found] at ok
    split at ok <;> cases ok
    · rename_i guard
      have rise := coversRise (m := delivered row record params now) ⟨rfl,rfl⟩ rank (coversSame guard.1 guard.2 params.messageStatus ▸ above)
      exact (h.report (e := .reported record.id params) (m := delivered row record params now) rfl (fun _ => rfl) found rfl told ⟨rfl,rfl⟩ same rank is.attempted rise
        (sound.unclaimed told)).leave w
    · rename_i guard
      exact (h.covered (e := .reported record.id params) rfl (fun _ => rfl) found (stands.resolve_left guard)).leave w

/-! ### Convergence -/

theorem keptPut {messages : RetentionMessages} {old m row : RetentionMessage} {id other status : String}
    (found : messages.find id = some old) (key : m.id = old.id) (rise : covers old status = true → covers m status = true)
    (there : messages.find other = some row) (covered : covers row status = true) :
    ∃ later, (messages.put m).find other = some later ∧ covers later status = true := by
  obtain rfl : m.id = id := key.trans (Table.find_key found)
  by_cases mine : other = m.id
  · subst mine
    cases Option.some.inj (found.symm.trans there)
    exact ⟨m,Table.find_put_self _ _,rise covered⟩
  · exact ⟨row,(Table.find_put_other mine).trans there,covered⟩

theorem Tracked.coversKept (h : Tracked P s) {a : Action} {t : System} (ok : s.step D a = some t) {id status : String} {row : RetentionMessage}
    (there : s.messages.find id = some row) (covered : covers row status = true) :
    ∃ later, t.messages.find id = some later ∧ covers later status = true := by
  have same : ∀ {t : System}, t.messages = s.messages → ∃ later, t.messages.find id = some later ∧ covers later status = true :=
    fun same => ⟨row,same ▸ there,covered⟩
  have hidden : ∀ {old m : RetentionMessage}, old.providerMessageId = none → covers old status = true → covers m status = true :=
    fun none covered => by simp [covers,none] at covered
  cases a with
  | environment | crash =>
    cases ok
    exact same rfl
  | draft m =>
    dsimp only [System.step] at ok
    split at ok <;> cases ok
    rename_i absent
    have other : id ≠ m.id := by
      rintro rfl
      exact nomatch absent.symm.trans there
    have kept : ∀ new : RetentionMessage, new.id = m.id → (s.messages.put new).find id = some row :=
      fun new key => (Table.find_put_other (key ▸ other)).trans there
    exact ⟨row,kept _ rfl,covered⟩
  | sendRetentionMessages =>
    dsimp only [System.step] at ok
    split at ok <;> cases ok
    split <;> exact same rfl
  | inbound | list | stopFails | send | answer =>
    dsimp only [System.step] at ok
    split at ok <;> cases ok
    exact same rfl
  | callback =>
    dsimp only [System.step] at ok
    split at ok
    · cases ok
    split at ok <;> cases ok <;> exact same rfl
  | take =>
    dsimp only [System.step] at ok
    split at ok
    · cases ok
      exact same rfl
    · split at ok <;> cases ok <;> exact same rfl
    · cases ok
  | lock w =>
    dsimp only [System.step] at ok
    split at ok
    case h_4 => cases ok
    all_goals
      obtain ⟨state,_,rfl⟩ := Option.map_eq_some_iff.mp ok
      exact same rfl
  | commit w =>
    dsimp only [System.step] at ok
    split at ok
    · cases ok
      unfold System.commitClaim
      dsimp only
      split
      · rename_i reason m _ draft
        obtain ⟨found,free⟩ := draftSource draft
        exact keptPut (m := skipped m reason) found rfl (hidden (draftUnsent h found free).2.1) there covered
      · exact same rfl
      · rename_i m _ draft
        obtain ⟨found,free⟩ := draftSource draft
        exact keptPut (m := claimed m _ _) found rfl (hidden (draftUnsent h found free).2.1) there covered
    · cases ok
      exact same rfl
    · cases ok
      exact same rfl
    · cases ok
  | check w =>
    dsimp only [System.step] at ok
    split at ok
    case h_2 => cases ok
    split at ok
    · cases ok
      exact same rfl
    split at ok <;> cases ok <;> exact same rfl
  | suppress w =>
    dsimp only [System.step] at ok
    split at ok
    case h_2 => cases ok
    rename_i config now t rest at_
    split at ok <;> cases ok
    · exact same rfl
    rename_i m found
    obtain ⟨old,stored,_,_,none⟩ : Fresh s.messages t.message.id := h.workers w _ at_
    cases Option.some.inj (found.symm.trans stored)
    exact keptPut (m := suppressedBeforeSend m) found rfl (hidden none) there covered
  | record w =>
    dsimp only [System.step] at ok
    split at ok
    case h_2 => cases ok
    rename_i config now t outcome rest at_
    have messages : (if outcome.sid.isSome then s.note (.concluded t.message.id outcome.status) else s).messages = s.messages := by
      split <;> rfl
    split at ok
    · rename_i m found
      split at ok <;> cases ok
      · rename_i guard
        have kept := keptPut (m := concluded m outcome now) found rfl (hidden guard.2) there covered
        rw [← messages] at kept
        exact kept
      · exact same messages
    · cases ok
      exact same messages
  | read w =>
    dsimp only [System.step] at ok
    split at ok
    case h_2 => cases ok
    split at ok
    · split at ok <;> cases ok <;> exact same rfl
    · cases ok
      exact same rfl
  | write w =>
    dsimp only [System.step] at ok
    split at ok
    case h_2 => cases ok
    rename_i record params now at_
    obtain ⟨_,⟨_,rank⟩,above⟩ := h.workers w _ at_
    split at ok
    · rename_i m found
      split at ok <;> cases ok
      · rename_i guard
        have rise := coversRise (m := delivered m record params now) ⟨rfl,rfl⟩ rank
          (coversSame guard.1 guard.2 params.messageStatus ▸ above) status
        exact keptPut found rfl rise there covered
      · exact same rfl
    · cases ok
      exact same rfl

theorem Tracked.initial : Tracked P initial where
  rows _ _ found := nomatch found
  answered _ _ := fun ⟨_,mem,_⟩ => absurd mem List.not_mem_nil
  sent _ told := nomatch told
  workers _ _ at_ := nomatch at_

theorem Tracked.converged (h : Tracked P s) (id : String) : Converged s id := by
  refine ⟨h.answered id,fun row found shown => ?_⟩
  obtain ⟨other,there,sound⟩ := h.sent id (h.rows id row found shown)
  cases Option.some.inj (found.symm.trans there)
  obtain ⟨sid,is⟩ := Option.ne_none_iff_exists'.mp shown
  obtain ⟨_,stored,status,_,told⟩ := sound.shown sid is
  exact ⟨stored,status,Table.find_key found ▸ told⟩

/-- Every run of the provider's making in which no writer loses to a lower rank. -/
theorem deliveryConverges (D : Deployment) (P : Provider) {s : System}
    (reached : Transition.ReachableUnder (step D) (fun s a => Valid P s a ∧ Undisturbed s a) initial s) :
    (∀ id, Converged s id) ∧ ∀ a t, step D s a = some t → ∀ id row status, s.messages.find id = some row → covers row status = true →
      ∃ later, t.messages.find id = some later ∧ covers later status = true := by
  have both : Sound D s ∧ Tracked P s := reached.invariant (I := fun s => Sound D s ∧ Tracked P s) ⟨Sound.initial,Tracked.initial⟩
    fun _ _ _ held free taken => ⟨held.1.step taken,held.2.step held.1 free.1 free.2 taken⟩
  exact ⟨both.2.converged,fun a t taken id row status found covered => both.2.coversKept taken found covered⟩

/-! One send and its callbacks: in turn, and with the reads before the writes. -/

def sampleSid : String := "SMcccccccccccccccccccccccccccccccc"

def sampleProvider : Provider := ⟨fun _ => some sampleSid,fun _ _ same => by cases same; decide⟩

def sampleCallback (w : Nat) (status : String) : Action := .callback w "a" ⟨status,sampleSid,""⟩ w

def sampleSend : List Action :=
  [.environment [sampleCustomer "a"] [],.draft (sampleDraft "a"),.sendRetentionMessages 0 sampleConfig (100*dayMs),.list 0,.take 0,
    .lock 0,.commit 0,.check 0,.send 0]

def shownStatus (s : System) : Option String := (s.messages.find "a").bind (·.providerStatus)

def inTurn : List Action :=
  sampleSend ++ [.answer 0 (some sampleQueued),.record 0,sampleCallback 1 "sent",.read 1,.write 1,sampleCallback 2 "delivered",.read 2,.write 2,
    sampleCallback 3 "queued",.read 3]

theorem inTurnConverges : ∃ s, Transition.ReachableUnder (step sampleDeployment) (fun s a => Valid sampleProvider s a ∧ Undisturbed s a) initial s ∧
    shownStatus s = some "delivered" ∧ Converged s "a" := by
  have ends : (Transition.run (step sampleDeployment) initial inTurn).map shownStatus = some (some "delivered") := by decide +kernel
  obtain ⟨s,ran,status⟩ := Option.map_eq_some_iff.mp ends
  have allowed : Transition.AllowedRun (step sampleDeployment) (fun s a => Valid sampleProvider s a ∧ Undisturbed s a) initial inTurn := by
    decide +kernel
  have reached := Transition.runReachableUnder .start allowed ran
  exact ⟨s,reached,status,(deliveryConverges sampleDeployment sampleProvider reached).1 "a"⟩

def bothRead : List Action :=
  sampleSend ++ [sampleCallback 1 "sent",sampleCallback 2 "delivered",.read 1,.read 2,.write 1,.write 2]

/-- The callback of the delivery is answered with success, and the row shows `sent`. -/
theorem bothReadLosesDelivery : ¬ ∀ s, Transition.ReachableUnder (step sampleDeployment) (Valid sampleProvider) initial s → Converged s "a" := by
  intro converges
  have ends : (Transition.run (step sampleDeployment) initial bothRead).map (fun s => (shownStatus s,s.log.head?)) =
      some (some "sent",some (.reported "a" ⟨"delivered",sampleSid,""⟩)) := by decide +kernel
  obtain ⟨s,ran,shape⟩ := Option.map_eq_some_iff.mp ends
  obtain ⟨status,last⟩ := Prod.mk.inj shape
  have allowed : Transition.AllowedRun (step sampleDeployment) (Valid sampleProvider) initial bothRead := by decide +kernel
  obtain ⟨row,found,covered⟩ := (converges s (Transition.runReachableUnder .start allowed ran)).1 "delivered"
    ⟨_,List.mem_of_mem_head? last,rfl⟩
  have shows : row.providerStatus = some "sent" := by simpa [shownStatus,found] using status
  simp [covers,shows,deliveryRank,deliveryRanks,List.lookup_cons] at covered

end System
end Retention
end SpeedySweeties
