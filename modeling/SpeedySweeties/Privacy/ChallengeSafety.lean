import SpeedySweeties.Order.Ordering
import SpeedySweeties.Privacy.ChallengeSteps

/-! The code of a challenge reaches the transport at most once and is judged at most five
times, and a submission is accepted only for a challenge whose code has been judged right.
Each step is inverted once, by `stepProgress`; the calls in flight keep their claim on
the rows because no step takes it away. -/
namespace SpeedySweeties

def Verification.ticket (v : Verification) : ChallengeId × Nat := (v.challenge.id,v.challenge.attempts)
def Judgement.ticket (j : Judgement) : ChallengeId × Nat := j.verification.ticket

def ChallengeCall.delivering : ChallengeCall → Option ChallengeId
  | .deliver r => some r.id
  | _ => none

def ChallengeCall.judging : ChallengeCall → Option (ChallengeId × Nat)
  | .judge v => some v.ticket
  | _ => none

/-- No two calls hold the same key. -/
def Distinct {κ : Type} (key : ChallengeCall → Option κ) (calls : CallId → Option ChallengeCall) : Prop :=
  ∀ i j c d k, calls i = some c → calls j = some d → key c = some k → key d = some k → i = j

theorem Distinct.move {κ : Type} {key : ChallengeCall → Option κ} {old new : CallId → Option ChallengeCall}
    (call : CallId) (h : Distinct key old)
    (moved : ∀ i c, new i = some c → old i = some c ∨
      i = call ∧ ∀ k, key c = some k → ∀ j d, old j = some d → key d ≠ some k) : Distinct key new := by
  intro i j c d k hi hj hc hd
  rcases moved i c hi with before | ⟨rfl,fresh⟩
  · rcases moved j d hj with before' | ⟨rfl,fresh'⟩
    · exact h i j c d k before before' hc hd
    · exact absurd hc (fresh' k hd i c before)
  · rcases moved j d hj with before' | ⟨rfl,_⟩
    · exact absurd hd (fresh k hc j d before')
    · rfl

theorem updatedCall {calls : CallId → Option ChallengeCall} {call i : CallId} {new : Option ChallengeCall}
    {c : ChallengeCall} (h : Function.update calls call new i = some c) :
    calls i = some c ∨ i = call ∧ new = some c := by
  by_cases here : i = call
  · subst here
    exact .inr ⟨rfl,by simpa using h⟩
  · exact .inl (by simpa [Function.update_of_ne here] using h)

section
variable {δ : Type} (S : ChallengeService δ)

/-- The challenge could still be verified when the attempt was counted. -/
structure Opened (c : PrivacyChallenge) : Prop where
  sent : c.delivery = .sent
  unconsumed : c.consumedAt = none
  below : c.attempts < 5

def JudgementSound (sent : List SentCode) (j : Judgement) : Prop :=
  Opened j.verification.challenge ∧ ∃ m ∈ sent, m.challenge = j.verification.challenge.id ∧
    (j.approved → m.contact.channel = .email →
      codeHash S m.challenge j.verification.code = codeHash S m.challenge m.code)

structure RowSound (sent : List SentCode) (judged : List Judgement) (c : PrivacyChallenge) : Prop where
  attempts : c.attempts ≤ 5
  unissued : c.delivery = .intakeReady → c.id ∉ sent.map SentCode.challenge
  delivered : c.delivery = .sent → ∃ m ∈ sent, m.challenge = c.id ∧ Addressed S c m.contact ∧
    (c.consumedAt = none → c.codeHash = codeHash S c.id m.code)
  verified : ∀ time, c.verifiedAt = some time → c.delivery = .sent ∧ time < c.expiresAt ∧
    ∃ j ∈ judged, j.approved ∧ j.verification.challenge.id = c.id

/-- The row that a call in flight has reserved. -/
structure Reserved (r : ChallengeReservation) (c : PrivacyChallenge) : Prop where
  issued : c.delivery ≠ .intakeReady
  addressed : Addressed S c r.contact
  intake : r.grant.isSome → c.purpose = .adminIntake
  unconsumed : c.consumedAt = none → c.codeHash = codeHash S r.id r.code ∧ c.subjectId = some r.subjectId

theorem Reserved.evolves {r : ChallengeReservation} {c d : PrivacyChallenge} (h : Reserved S r c) (next : Evolves c d) :
    Reserved S r d where
  issued := fun ready => h.issued (next.ready ready)
  addressed := by
    obtain ⟨channel,text,mem,destination⟩ := h.addressed
    exact ⟨next.channel.trans channel,text,mem,next.destinationHash.trans destination⟩
  intake := fun grant => next.purpose.trans (h.intake grant)
  unconsumed := by
    intro free
    obtain ⟨before,subject,code⟩ := next.unconsumed free
    obtain ⟨own,customer⟩ := h.unconsumed before
    exact ⟨(code h.issued).trans own,subject.trans customer⟩

namespace ChallengeSystem

def CallSound (s : ChallengeSystem) : ChallengeCall → Prop
  | .deliver r => r.id ∉ s.sent.map SentCode.challenge ∧
      ∃ c, s.db.challenges.find r.id = some c ∧ Reserved S r c
  | .confirm r _ => r.sentCode ∈ s.sent ∧ ∃ c, s.db.challenges.find r.id = some c ∧ Reserved S r c
  | .judge v => v.ticket ∉ s.judged.map Judgement.ticket ∧ Opened v.challenge ∧
      (∃ m ∈ s.sent, m.challenge = v.challenge.id ∧ v.challenge.channel = some m.contact.channel ∧
        v.challenge.codeHash = codeHash S v.challenge.id m.code) ∧
      ∃ c, s.db.challenges.find v.challenge.id = some c ∧ c.delivery = .sent ∧
        v.challenge.attempts < c.attempts
  | .accept v => ⟨v,true⟩ ∈ s.judged ∧
      ∃ c, s.db.challenges.find v.challenge.id = some c ∧ c.delivery = .sent

structure Sound (s : ChallengeSystem) : Prop where
  rows : ∀ c ∈ s.db.challenges.rows, RowSound S s.sent s.judged c
  calls : ∀ i c, s.calls i = some c → CallSound S s c
  deliveries : Distinct ChallengeCall.delivering s.calls
  tickets : Distinct ChallengeCall.judging s.calls
  sentRows : ∀ m ∈ s.sent, (s.db.challenges.find m.challenge).isSome
  sentOnce : (s.sent.map SentCode.challenge).Nodup
  judgements : ∀ j ∈ s.judged, JudgementSound S s.sent j ∧
    ∃ c, s.db.challenges.find j.ticket.1 = some c ∧ j.ticket.2 < c.attempts
  judgedOnce : (s.judged.map Judgement.ticket).Nodup

end ChallengeSystem
end

variable {δ : Type} {S : ChallengeService δ} {s t : ChallengeSystem}

theorem RowSound.grow {sent sent' : List SentCode} {judged judged' : List Judgement} {c : PrivacyChallenge}
    (h : RowSound S sent judged c) (more : sent ⊆ sent') (later : judged ⊆ judged')
    (unissued : c.delivery = .intakeReady → c.id ∉ sent'.map SentCode.challenge) : RowSound S sent' judged' c where
  attempts := h.attempts
  unissued := unissued
  delivered := by
    intro delivered
    obtain ⟨m,mem,rest⟩ := h.delivered delivered
    exact ⟨m,more mem,rest⟩
  verified := by
    intro time verified
    obtain ⟨delivered,before,j,mem,rest⟩ := h.verified time verified
    exact ⟨delivered,before,j,later mem,rest⟩

/-- A write keeps a row sound: its own call knows the code and the judgement behind it. -/
theorem RowSound.change {now : Time} {c d : PrivacyChallenge} (h : RowSound S s.sent s.judged c)
    (row : s.db.challenges.find c.id = some c) (calls : ∀ i c, s.calls i = some c → s.CallSound S c)
    (change : RowChange S s.calls now c d) : RowSound S s.sent s.judged d := by
  cases change with
  | same => exact h
  | retired r =>
    refine ⟨r.attempts ▸ h.attempts,r.id ▸ r.delivery ▸ h.unissued,?_,?_⟩
    · intro delivered
      obtain ⟨m,mem,own,⟨channel,text,is,destination⟩,_⟩ := h.delivered (r.delivery ▸ delivered)
      exact ⟨m,mem,own.trans r.id.symm,⟨r.channel.trans channel,text,is,r.destinationHash.trans destination⟩,
        fun free => absurd free r.consumed⟩
    · rw [r.id,r.delivery,r.verifiedAt,r.expiresAt]
      exact h.verified
  | reserved requesterHash code ready =>
    refine ⟨h.attempts,fun later => by simp [reserveIntake] at later,fun later => by simp [reserveIntake] at later,?_⟩
    intro time verified
    have delivered := (h.verified time verified).1
    simp [ready] at delivered
  | delivered call r reference waiting own =>
    obtain ⟨given,c',row',reserved⟩ := calls call _ waiting
    obtain rfl : c = c' := Option.some.inj (row.symm.trans (own ▸ row'))
    refine ⟨h.attempts,fun later => by simp [markSent] at later,fun _ => ⟨_,given,own.symm,reserved.addressed,?_⟩,?_⟩
    · intro free
      have code := (reserved.unconsumed free).1
      rw [← own] at code
      exact code
    · intro time verified
      obtain ⟨_,rest⟩ := h.verified time verified
      exact ⟨rfl,rest⟩
  | counted below => exact ⟨below,h.unissued,h.delivered,h.verified⟩
  | verified call v accessId waiting own free unexpired =>
    obtain ⟨right,c',row',delivered⟩ := calls call _ waiting
    obtain rfl : c = c' := Option.some.inj (row.symm.trans (own ▸ row'))
    refine ⟨h.attempts,h.unissued,h.delivered,?_⟩
    intro time verified
    cases Option.some.inj verified
    exact ⟨delivered,unexpired,_,right,rfl,own.symm⟩

theorem NewRow.sound {now : Time} {c : PrivacyChallenge} (h : NewRow s.db now c)
    (unsent : c.id ∉ s.sent.map SentCode.challenge) : RowSound S s.sent s.judged c where
  attempts := h.attempts ▸ Nat.zero_le 5
  unissued := fun _ => unsent
  delivered := fun sent => absurd sent h.unsent
  verified := fun time verified => by simp [h.verifiedAt] at verified

namespace ChallengeSystem

theorem CallSound.move {c : ChallengeCall} (h : CallSound S s c)
    (forward : ∀ k c, s.db.challenges.find k = some c → ∃ d, t.db.challenges.find k = some d ∧ Evolves c d)
    (sent : s.sent ⊆ t.sent) (judged : s.judged ⊆ t.judged)
    (unsent : ∀ k, c.delivering = some k → k ∉ s.sent.map SentCode.challenge → k ∉ t.sent.map SentCode.challenge)
    (unjudged : ∀ k, c.judging = some k → k ∉ s.judged.map Judgement.ticket → k ∉ t.judged.map Judgement.ticket) :
    CallSound S t c := by
  cases c with
  | deliver r =>
    obtain ⟨absent,c,row,reserved⟩ := h
    obtain ⟨d,later,next⟩ := forward _ c row
    exact ⟨unsent _ rfl absent,d,later,reserved.evolves S next⟩
  | confirm r reference =>
    obtain ⟨given,c,row,reserved⟩ := h
    obtain ⟨d,later,next⟩ := forward _ c row
    exact ⟨sent given,d,later,reserved.evolves S next⟩
  | judge v =>
    obtain ⟨absent,opened,⟨m,mem,code⟩,c,row,delivered,below⟩ := h
    obtain ⟨d,later,next⟩ := forward _ c row
    exact ⟨unjudged _ rfl absent,opened,⟨m,sent mem,code⟩,d,later,next.sent delivered,below.trans_le next.attempts⟩
  | accept v =>
    obtain ⟨right,c,row,delivered⟩ := h
    obtain ⟨d,later,next⟩ := forward _ c row
    exact ⟨judged right,d,later,next.sent delivered⟩

theorem Sound.unsent (h : Sound S s) {id : ChallengeId} (absent : s.db.challenges.find id = none) :
    id ∉ s.sent.map SentCode.challenge := by
  intro mem
  obtain ⟨m,here,rfl⟩ := List.mem_map.mp mem
  have row := h.sentRows m here
  simp [absent] at row

theorem Sound.reservedIssued (h : Sound S s) {i : CallId} {call : ChallengeCall} {id : ChallengeId}
    (waiting : s.calls i = some call) (own : call.delivering = some id) :
    ∃ c, s.db.challenges.find id = some c ∧ c.delivery ≠ .intakeReady := by
  cases call with
  | deliver r =>
    obtain ⟨_,c,row,reserved⟩ := h.calls i _ waiting
    cases Option.some.inj own
    exact ⟨c,row,reserved.issued⟩
  | _ => cases own

theorem Sound.ticketCounted (h : Sound S s) {i : CallId} {call : ChallengeCall} {ticket : ChallengeId × Nat}
    (waiting : s.calls i = some call) (own : call.judging = some ticket) :
    ∃ c, s.db.challenges.find ticket.1 = some c ∧ ticket.2 < c.attempts := by
  cases call with
  | judge v =>
    obtain ⟨_,_,_,c,row,_,below⟩ := h.calls i _ waiting
    cases Option.some.inj own
    exact ⟨c,row,below⟩
  | _ => cases own

/-- A call that a transaction starts: its challenge was not issued before, its ticket is new. -/
structure Started (S : ChallengeService δ) (s t : ChallengeSystem) (call : ChallengeCall) : Prop where
  sound : CallSound S t call
  reservation : ∀ id, call.delivering = some id → ∀ c, s.db.challenges.find id = some c → c.delivery = .intakeReady
  ticket : ∀ ticket, call.judging = some ticket → ∀ c, s.db.challenges.find ticket.1 = some c →
    c.attempts ≤ ticket.2

/-- A step that neither sends nor judges. -/
theorem Sound.write {now : Time} {created : Option PrivacyChallenge} (call : CallId) (h : Sound S s)
    (progress : Progress S s.calls now s.db.challenges t.db.challenges created)
    (fresh : ∀ c, created = some c → NewRow s.db now c)
    (sent : t.sent = s.sent) (judged : t.judged = s.judged)
    (calls : ∀ i c, t.calls i = some c → s.calls i = some c ∨ i = call ∧ Started S s t c) : Sound S t where
  rows := by
    intro d mem
    rw [sent,judged]
    rcases progress.backward d mem with ⟨here,absent⟩ | ⟨c,row,change⟩
    · exact (fresh d here).sound (h.unsent absent)
    · have own := change.key ▸ row
      exact (h.rows c (Table.find_some row).1).change own h.calls change
  calls := by
    intro i c waiting
    rcases calls i c waiting with before | ⟨_,started⟩
    · exact (h.calls i c before).move progress.forward (by simp [sent]) (by simp [judged]) (fun _ _ => by rw [sent]; exact id)
        (fun _ _ => by rw [judged]; exact id)
    · exact started.sound
  deliveries := by
    refine h.deliveries.move call fun i c waiting => ?_
    rcases calls i c waiting with before | ⟨here,started⟩
    · exact .inl before
    · refine .inr ⟨here,fun id own j d other same => ?_⟩
      obtain ⟨row,found,issued⟩ := h.reservedIssued other same
      exact issued (started.reservation id own row found)
  tickets := by
    refine h.tickets.move call fun i c waiting => ?_
    rcases calls i c waiting with before | ⟨here,started⟩
    · exact .inl before
    · refine .inr ⟨here,fun ticket own j d other same => ?_⟩
      obtain ⟨row,found,below⟩ := h.ticketCounted other same
      exact absurd below (started.ticket ticket own row found).not_gt
  sentRows := by
    intro m mem
    obtain ⟨c,row⟩ := Option.isSome_iff_exists.mp (h.sentRows m (sent ▸ mem))
    obtain ⟨d,later,_⟩ := progress.forward _ c row
    simp [later]
  sentOnce := sent ▸ h.sentOnce
  judgements := by
    intro j mem
    obtain ⟨judgement,c,row,below⟩ := h.judgements j (judged ▸ mem)
    obtain ⟨d,later,next⟩ := progress.forward _ c row
    exact ⟨sent ▸ judgement,d,later,below.trans_le next.attempts⟩
  judgedOnce := judged ▸ h.judgedOnce

theorem Sound.idle (h : Sound S s) (db : t.db.challenges = s.db.challenges) (sent : t.sent = s.sent)
    (judged : t.judged = s.judged) (calls : ∀ i c, t.calls i = some c → s.calls i = some c) : Sound S t := by
  have progress : Progress S s.calls 0 s.db.challenges t.db.challenges none := db ▸ .same
  exact h.write 0 progress (by simp) sent judged fun i c waiting => .inl (calls i c waiting)

theorem droppedCall {calls : CallId → Option ChallengeCall} {call i : CallId} {c : ChallengeCall}
    (h : Function.update calls call none i = some c) : calls i = some c :=
  (updatedCall h).resolve_right fun ⟨_,new⟩ => by cases new

theorem Sound.deliver {call : CallId} {r : ChallengeReservation} {new : Option ChallengeCall} (h : Sound S s)
    (waiting : s.calls call = some (.deliver r))
    (next : ∀ c, new = some c → ∃ reference, c = .confirm r reference) :
    Sound S ({ s with sent := r.sentCode::s.sent }.setCall call new) := by
  obtain ⟨absent,c,row,reserved⟩ := h.calls call _ waiting
  have more : s.sent ⊆ r.sentCode::s.sent := List.subset_cons_self _ _
  have moved : ∀ i d, Function.update s.calls call new i = some d →
      s.calls i = some d ∧ i ≠ call ∨ i = call ∧ ∃ reference, d = .confirm r reference := by
    intro i d found
    by_cases here : i = call
    · subst here
      exact .inr ⟨rfl,next d (by simpa using found)⟩
    · exact .inl ⟨by simpa [Function.update_of_ne here] using found,here⟩
  refine ⟨?_,?_,?_,?_,?_,List.nodup_cons.mpr ⟨absent,h.sentOnce⟩,?_,h.judgedOnce⟩
  · intro d mem
    refine (h.rows d mem).grow more (fun _ mem => mem) fun ready => ?_
    intro sent
    rcases List.mem_cons.mp sent with own | before
    · have found := Table.find_of_mem mem
      rw [show d.id = r.id from own] at found
      obtain rfl : d = c := Option.some.inj (found.symm.trans row)
      exact reserved.issued ready
    · exact (h.rows d mem).unissued ready before
  · intro i d found
    rcases moved i d found with ⟨before,differ⟩ | ⟨_,reference,rfl⟩
    · refine (h.calls i d before).move (fun _ c row => ⟨c,row,.refl⟩) more (fun _ mem => mem) ?_ fun _ _ => id
      intro id own absent mem
      rcases List.mem_cons.mp mem with same | earlier
      · exact differ (h.deliveries i call _ _ id before waiting own (congrArg some same.symm))
      · exact absent earlier
    · exact ⟨List.mem_cons_self,c,row,reserved⟩
  · refine h.deliveries.move call fun i d found => ?_
    rcases moved i d found with ⟨before,_⟩ | ⟨here,_,rfl⟩
    · exact .inl before
    · exact .inr ⟨here,fun k own => by cases own⟩
  · refine h.tickets.move call fun i d found => ?_
    rcases moved i d found with ⟨before,_⟩ | ⟨here,_,rfl⟩
    · exact .inl before
    · exact .inr ⟨here,fun k own => by cases own⟩
  · intro m mem
    rcases List.mem_cons.mp mem with rfl | before
    · exact Option.isSome_iff_exists.mpr ⟨c,row⟩
    · exact h.sentRows m before
  · intro j mem
    obtain ⟨⟨opened,m,given,rest⟩,counted⟩ := h.judgements j mem
    exact ⟨⟨opened,m,more given,rest⟩,counted⟩

/-- An approved e-mail code has the keyed hash of the code that was sent. -/
theorem approvedCode {v : Verification} {provider : Bool} {m : SentCode} (own : m.challenge = v.challenge.id)
    (channel : v.challenge.channel = some m.contact.channel)
    (code : v.challenge.codeHash = codeHash S v.challenge.id m.code)
    (approved : v.approved S provider = true) (email : m.contact.channel = .email) :
    codeHash S m.challenge v.code = codeHash S m.challenge m.code := by
  have right : v.challenge.codeHash = codeHash S v.challenge.id v.code := by
    unfold Verification.approved at approved
    split at approved
    · exact of_decide_eq_true approved
    · rw [channel,email,if_pos rfl] at approved
      exact of_decide_eq_true approved
  rw [own,← right,code]

theorem Sound.judge {call : CallId} {v : Verification} {provider : Bool} (h : Sound S s)
    (waiting : s.calls call = some (.judge v)) :
    Sound S ({ s with judged := ⟨v,v.approved S provider⟩::s.judged }.setCall call
      (if v.approved S provider then some (.accept v) else none)) := by
  obtain ⟨absent,opened,⟨m,mem,own,channel,code⟩,c,row,delivered,below⟩ := h.calls call _ waiting
  have more : s.judged ⊆ ⟨v,v.approved S provider⟩::s.judged := List.subset_cons_self _ _
  have moved : ∀ i d, Function.update s.calls call
      (if v.approved S provider then some (.accept v) else none) i = some d →
      s.calls i = some d ∧ i ≠ call ∨ i = call ∧ v.approved S provider = true ∧ d = .accept v := by
    intro i d found
    by_cases here : i = call
    · subst here
      rw [Function.update_self] at found
      split at found <;> cases found
      exact .inr ⟨rfl,‹_›,rfl⟩
    · exact .inl ⟨by simpa [Function.update_of_ne here] using found,here⟩
  refine ⟨?_,?_,?_,?_,h.sentRows,h.sentOnce,?_,List.nodup_cons.mpr ⟨absent,h.judgedOnce⟩⟩
  · exact fun d mem => (h.rows d mem).grow (fun _ mem => mem) more (h.rows d mem).unissued
  · intro i d found
    rcases moved i d found with ⟨before,differ⟩ | ⟨_,approved,rfl⟩
    · refine (h.calls i d before).move (fun _ c row => ⟨c,row,.refl⟩) (fun _ mem => mem) more (fun _ _ => id) ?_
      intro ticket own absent mem
      rcases List.mem_cons.mp mem with same | earlier
      · exact differ (h.tickets i call _ _ ticket before waiting own (congrArg some same.symm))
      · exact absent earlier
    · exact ⟨by rw [← approved]; exact List.mem_cons_self,c,row,delivered⟩
  · refine h.deliveries.move call fun i d found => ?_
    rcases moved i d found with ⟨before,_⟩ | ⟨here,_,rfl⟩
    · exact .inl before
    · exact .inr ⟨here,fun k own => by cases own⟩
  · refine h.tickets.move call fun i d found => ?_
    rcases moved i d found with ⟨before,_⟩ | ⟨here,_,rfl⟩
    · exact .inl before
    · exact .inr ⟨here,fun k own => by cases own⟩
  · intro j here
    rcases List.mem_cons.mp here with rfl | before
    · exact ⟨⟨opened,m,mem,own,approvedCode own channel code⟩,c,row,below⟩
    · exact h.judgements j before

theorem newReserved {b : Bootstrap} (now : Time) {id code : String} (requesterHash : String) :
    Reserved S ⟨id,code,b.contact,b.customer.id,none⟩ (newChallenge S now id code requesterHash b) where
  issued := by simp [newChallenge]
  addressed := ⟨rfl,_,by simp,rfl⟩
  intake := fun grant => by cases grant
  unconsumed := fun _ => ⟨rfl,rfl⟩

theorem Sound.startedChallenge {tables : ChallengeTables} {credential : ChallengeCredential}
    {requester id code : String} {r : ChallengeReservation} {calls : CallId → Option ChallengeCall} (h : Sound S s)
    (ok : startChallenge S s.toChallengeTables s.clock credential requester id code = .ok (tables,r)) :
    Started S s { s with toChallengeTables := tables, calls := calls } (.deliver r) := by
  unfold startChallenge at ok
  split at ok
  · simp only [bindOk] at ok
    obtain ⟨_,_,ok⟩ := ok
    obtain ⟨c,requesterHash,row,_,ready,purpose,subject,addressed,own,rfl,_,same⟩ := redeemIntakeSource ok
    have unsent := (h.rows c (Table.find_some row).1).unissued ready
    refine ⟨⟨own ▸ unsent,reserveIntake S s.clock requesterHash r.code c,?_,?_⟩,?_,
      fun ticket judging => by cases judging⟩
    · rw [same,own]
      exact Table.find_put_self s.db.challenges (reserveIntake S s.clock requesterHash r.code c)
    · exact ⟨by simp [reserveIntake],addressed,fun _ => purpose,fun _ => ⟨own ▸ rfl,subject⟩⟩
    · intro id' delivering d found
      cases Option.some.inj delivering
      rw [own,row] at found
      cases found
      exact ready
  · obtain ⟨b,access,requesterHash,rfl,_,same,fresh,_⟩ := reserveChallengeSource ok
    refine ⟨⟨h.unsent fresh,_,?_,newReserved s.clock requesterHash⟩,?_,
      fun ticket judging => by cases judging⟩
    · rw [same]
      exact Table.find_put_self s.db.challenges (newChallenge S s.clock id code requesterHash b)
    · intro id' delivering d found
      cases Option.some.inj delivering
      simp [fresh] at found

theorem Sound.startedVerification {db : PrivacyDb} {now : Time} {v : Verification}
    {calls : CallId → Option ChallengeCall} (h : Sound S s) (prepared : Prepared now s.db db (some v)) :
    Started S s { s with db := db, calls := calls } (.judge v) := by
  cases prepared with
  | prepared _ row below delivered free =>
    have sound := h.rows _ (Table.find_some row).1
    obtain ⟨m,mem,own,⟨channel,_⟩,code⟩ := sound.delivered delivered
    refine ⟨⟨?_,⟨delivered,free,below⟩,⟨m,mem,own,channel,code free⟩,_,Table.find_put_self _ (countAttempt v.challenge),delivered,
      Nat.lt_succ_self _⟩,(fun id delivering => by cases delivering),?_⟩
    · intro mem
      obtain ⟨j,judged,same⟩ := List.mem_map.mp mem
      obtain ⟨_,c,found,counted⟩ := h.judgements j judged
      rw [same] at found counted
      obtain rfl := Option.some.inj (row.symm.trans found)
      exact absurd counted (Nat.lt_irrefl _)
    · intro ticket judging c found
      cases Option.some.inj judging
      obtain rfl := Option.some.inj (row.symm.trans found)
      exact le_rfl

variable [DecidableEq δ] {J : PrivacyRecoveryJournal δ}

theorem soundStep {a : ChallengeAction δ} (h : Sound S s) (taken : step S J s a = some t) : Sound S t := by
  obtain ⟨created,progress,fresh⟩ := stepProgress taken
  cases a with
  | tick now =>
    simp only [step] at taken
    split at taken <;> cases taken
    exact h.idle rfl rfl rfl fun _ _ => id
  | challenge call credential requester id code =>
    simp only [step] at taken
    split at taken
    · contradiction
    · split at taken
      · contradiction
      · rename_i ok
        cases taken
        refine h.write call progress fresh rfl rfl fun i c found => ?_
        rcases updatedCall found with before | ⟨here,new⟩
        · exact .inl before
        · cases Option.some.inj new
          exact .inr ⟨here,h.startedChallenge ok⟩
  | deliver call accepted reference =>
    simp only [step] at taken
    split at taken
    · rename_i waiting
      cases taken
      refine h.deliver waiting fun c new => ?_
      split at new <;> cases new
      exact ⟨reference,rfl⟩
    · contradiction
  | confirm call =>
    simp only [step] at taken
    split at taken
    · split at taken <;> cases taken
      · exact h.write call progress fresh rfl rfl fun i c found => .inl (droppedCall found)
      · exact h.idle rfl rfl rfl fun i c found => droppedCall found
    · contradiction
  | issueIntake input actor id =>
    simp only [step] at taken
    split at taken <;> cases taken
    exact h.write 0 progress fresh rfl rfl fun i c found => .inl found
  | verify call input =>
    simp only [step] at taken
    split at taken
    · contradiction
    · split at taken
      · contradiction
      · rename_i ok
        cases taken
        refine h.write call progress fresh rfl rfl fun i c found => ?_
        rcases updatedCall found with before | ⟨here,new⟩
        · exact .inl before
        · obtain ⟨v,some,rfl⟩ := Option.map_eq_some_iff.mp new
          subst some
          exact .inr ⟨here,h.startedVerification (startVerificationSource ok)⟩
  | judge call provider =>
    simp only [step] at taken
    split at taken
    · rename_i waiting
      cases taken
      exact h.judge waiting
    · contradiction
  | accept call newAccess =>
    simp only [step] at taken
    split at taken
    · split at taken <;> cases taken
      · exact h.write call progress fresh rfl rfl fun i c found => .inl (droppedCall found)
      · exact h.idle rfl rfl rfl fun i c found => droppedCall found
    · contradiction
  | fail call =>
    simp only [step] at taken
    split at taken <;> cases taken
    exact h.idle rfl rfl rfl fun i c found => droppedCall found
  | transition entries operation =>
    simp only [step] at taken
    split at taken <;> cases taken
    exact h.write 0 progress fresh rfl rfl fun i c found => .inl found
  | others writes =>
    cases taken
    exact h.idle rfl rfl rfl fun _ _ => id

/-- A privacy service that has not issued a challenge yet. -/
structure Unused (t : ChallengeTables) : Prop where
  challenges : t.db.challenges.rows = []
  consumptions : t.db.consumptions = []
  access : t.db.access.rows = []

omit [DecidableEq δ] in
theorem soundInitial {tables : ChallengeTables} {now : Time} (unused : Unused tables) :
    Sound S (initial tables now) where
  rows := by simp [initial,unused.challenges]
  calls := by simp [initial]
  deliveries := fun _ _ _ _ _ found => by cases found
  tickets := fun _ _ _ _ _ found => by cases found
  sentRows := by simp [initial]
  sentOnce := List.nodup_nil
  judgements := by simp [initial]
  judgedOnce := List.nodup_nil

theorem soundReachable {tables : ChallengeTables} {now : Time} (unused : Unused tables)
    (h : Reachable S J tables now s) : Sound S s :=
  Transition.Reachable.invariant h (soundInitial unused) fun _ _ _ sound taken => soundStep sound taken

/-! ### Bounds -/

theorem nodupCount {α κ : Type} [DecidableEq κ] {xs : List α} {key : α → κ} {p : α → Bool}
    (unique : (xs.map key).Nodup) (bound : List κ) (within : ∀ x ∈ xs, p x → key x ∈ bound) :
    xs.countP p ≤ bound.length := by
  rw [List.countP_eq_length_filter,← List.length_map key]
  refine (unique.sublist (List.filter_sublist.map key)).length_le_of_subset fun k mem => ?_
  obtain ⟨x,found,rfl⟩ := List.mem_map.mp mem
  obtain ⟨here,holds⟩ := List.mem_filter.mp found
  exact within x here holds

/-- Whatever calls run, crash or are repeated, the code of a challenge is handed to the
transport at most once, and at most five codes are judged against it. -/
theorem challengeAttempts {tables : ChallengeTables} {now : Time} (unused : Unused tables)
    (h : Reachable S J tables now s) (id : ChallengeId) :
    s.sent.countP (·.challenge = id) ≤ 1 ∧ s.judged.countP (·.verification.challenge.id = id) ≤ 5 := by
  have sound := soundReachable unused h
  constructor
  · refine nodupCount sound.sentOnce [id] fun m _ own => ?_
    simpa using own
  · refine nodupCount sound.judgedOnce ((List.range 5).map fun n => (id,n)) fun j mem own => ?_
    obtain ⟨_,c,row,below⟩ := sound.judgements j mem
    have attempts := (sound.rows c (Table.find_some row).1).attempts
    have own : j.ticket.1 = id := of_decide_eq_true own
    exact List.mem_map.mpr ⟨j.ticket.2,List.mem_range.mpr (below.trans_le attempts),Prod.ext own.symm rfl⟩

end ChallengeSystem

def sampleChallenges : ChallengeService RecoveryEvidence where
  toPrivacyService := sampleService
  synthetic := sampleSynthetic
  loyaltySubject := fun _ => none
  reviewHash := fun issue => issue.privateReviewReference
  signGrant := fun claims => claims.id

def trackedOrder : OrderRows :=
  { deliveredRows with
    order := { deliveredRows.order with trackingTokenHash := some "tracking", trackingTokenExpiresAt := some 500 } }

def unusedTables : ChallengeTables where
  db := { verifiedDb with
    challenges := Table.empty, access := Table.empty
    other := { verifiedDb.other with orders := Table.empty.put trackedOrder } }
  setting := none

theorem unusedTablesUnused : ChallengeSystem.Unused unusedTables := ⟨rfl,rfl,rfl⟩

def trackingCredential : ChallengeCredential := ⟨some "tracking",none,none,none,none⟩

def deviceToken : String := String.ofList (List.replicate 64 'a')

/-- A wrong code, the right one, and the submission. -/
def submittingRun : List (ChallengeAction RecoveryEvidence) :=
  [.challenge 0 trackingCredential "ip" "c" "12345678",.deliver 0 true none,.confirm 0,
   .verify 1 ⟨"c","1234",some deviceToken,none,none⟩,.judge 1 true,
   .verify 2 ⟨"c","12345678",some deviceToken,none,none⟩,.judge 2 true,.tick 5,.accept 2 "access",
   .transition [] (.submit ⟨"request","token","c","proof:c",deviceToken,none,none,false⟩)]

theorem submittingRunAttempts : ∃ s,
    Transition.run (ChallengeSystem.step sampleChallenges sampleJournal)
      (ChallengeSystem.initial unusedTables 0) submittingRun = some s ∧ s.judged.length = 2 ∧
    s.sent.countP (·.challenge = "c") ≤ 1 ∧ s.judged.countP (·.verification.challenge.id = "c") ≤ 5 := by
  have ends : (Transition.run (ChallengeSystem.step sampleChallenges sampleJournal)
      (ChallengeSystem.initial unusedTables 0) submittingRun).map (·.judged.length) = some 2 := by
    decide +kernel
  obtain ⟨s,ran,length⟩ := Option.map_eq_some_iff.mp ends
  have reached := Transition.runReachable .start ran
  exact ⟨s,ran,length,ChallengeSystem.challengeAttempts unusedTablesUnused reached "c"⟩

end SpeedySweeties
