import SpeedySweeties.Privacy.ChallengeOutcomes

/-! What stands behind an accepted submission: a code that was sent to the destination of
the challenge, and an attempt that presented it. -/
namespace SpeedySweeties
variable {δ : Type} {S : PrivacyService δ} {J : PrivacyRecoveryJournal δ}

theorem submissionVerified {db : PrivacyDb} {now : Time} {input : SubmitInput} {audit : List (String × String)}
    {c : PrivacyChallenge} (ok : SpeedySweeties.verified S db now input (submitReads S db input) = .ok audit)
    (read : (submitReads S db input).challenge = some c) : c.verifiedAt.isSome := by
  unfold SpeedySweeties.verified at ok
  split at ok
  · simp only [verifyIntakeSubmission,bindOk,foundOk,requireOk,decide_eq_true_eq] at ok
    obtain ⟨_,_,c',read',_,checks,_⟩ := ok
    obtain rfl : c = c' := Option.some.inj (read.symm.trans read')
    exact checks.2.1
  · simp only [verifySubmission,bindOk,foundOk,requireOk,decide_eq_true_eq] at ok
    obtain ⟨c',read',_,_,_,_,_,_,_,checks,_⟩ := ok
    obtain rfl : c = c' := Option.some.inj (read.symm.trans read')
    exact checks.1

/-- The operation accepts at most one challenge, a verified one that it consumes. -/
def Consumes (db db' : PrivacyDb) : Prop :=
  db'.consumptions = db.consumptions ∨ ∃ c k, db.challenges.find c.id = some c ∧ c.verifiedAt.isSome ∧
    c.consumedAt = none ∧ k.challenge = c.id ∧ db'.consumptions = db.consumptions ++ [k] ∧
    ∃ d, db'.challenges.find c.id = some d ∧ d.consumedAt ≠ none

theorem recordConsumes {db db' : PrivacyDb} {now : Time} {input : SubmitInput} {audit : List (String × String)}
    {reply : PrivacyReply}
    (checked : SpeedySweeties.verified S db now input (submitReads S db input) = .ok audit)
    (ok : recordSubmission S db now input (submitReads S db input) audit = .ok (db',reply)) : Consumes db db' := by
  simp only [recordSubmission,bindOk,foundOk] at ok
  obtain ⟨c,read,customer,hcustomer,sourceOrder,_,ok⟩ := ok
  have accepted := verifiedSource checked read hcustomer
  have verified := submissionVerified checked read
  have consumed : ∃ d, (db.challenges.put { c with consumedAt := some now }).find c.id = some d ∧
      d.consumedAt ≠ none := ⟨_,Table.find_put_self _ _,by simp⟩
  split at ok
  · cases Except.ok.inj ok
    exact .inr ⟨c,_,accepted.challenge,verified,accepted.unconsumed,rfl,rfl,consumed⟩
  · simp only [bindOk,foundOk,PrivacyDb.insertRequest,requireOk,pureOk] at ok
    obtain ⟨_,_,_,_,last⟩ := ok
    cases last
    exact .inr ⟨c,_,accepted.challenge,verified,accepted.unconsumed,rfl,rfl,consumed⟩

variable [DecidableEq δ]

theorem submitConsumes {entries : List (RecoveryEntry δ)} {db db' : PrivacyDb} {now : Time}
    {input : SubmitInput} {reply : PrivacyReply} (ok : submit S J entries db now input = .ok (db',reply)) :
    Consumes db db' := by
  unfold submit at ok
  split at ok
  · simp only [bindOk,pureOk,Prod.mk.injEq] at ok
    obtain ⟨_,_,rfl,_⟩ := ok
    exact .inl rfl
  · dsimp only at ok
    split at ok
    · simp only [bindOk] at ok
      obtain ⟨audit,checked,record⟩ := ok
      exact recordConsumes checked record
    · simp only [bindOk] at ok
      obtain ⟨_,_,ok⟩ := ok
      split at ok
      · cases Except.ok.inj ok
        exact .inl rfl
      · simp only [bindOk] at ok
        obtain ⟨audit,checked,record⟩ := ok
        exact recordConsumes checked record

theorem workConsumes {entries : List (RecoveryEntry δ)} {db db' : PrivacyDb} {now : Time}
    {operation : PrivacyOperation} {reply : PrivacyReply}
    (ok : operation.work S J entries db now = .ok (db',reply)) : Consumes db db' := by
  cases operation with
  | submit input => exact submitConsumes ok
  | cancel id token =>
    simp only [PrivacyOperation.work,cancel,bindOk,foundOk] at ok
    obtain ⟨r,_,_,_,ok⟩ := ok
    split at ok
    · cases Except.ok.inj ok
      exact .inl rfl
    · simp only [bindOk,pureOk,PrivacyDb.store,Prod.mk.injEq] at ok
      obtain ⟨_,_,rfl,_⟩ := ok
      exact .inl rfl
  | hold id actor =>
    simp only [PrivacyOperation.work,hold,bindOk,pureOk,PrivacyDb.store,Prod.mk.injEq] at ok
    obtain ⟨_,_,_,_,rfl,_⟩ := ok
    exact .inl rfl
  | fulfill id actor version previewHash decision =>
    simp only [PrivacyOperation.work,fulfill,bindOk] at ok
    obtain ⟨r,_,ok⟩ := ok
    split at ok
    · cases Except.ok.inj ok
      exact .inl rfl
    · simp only [bindOk,eraseScoped,pureOk,PrivacyDb.store,Prod.mk.injEq] at ok
      obtain ⟨_,_,_,_,_,_,_,_,_,_,_,_,_,_,rfl,_⟩ := ok
      exact .inl rfl
  | resolveExternal id actor system evidence retainUntil =>
    simp only [PrivacyOperation.work,resolveExternal,bindOk] at ok
    obtain ⟨r,_,_,_,task,_,ok⟩ := ok
    split at ok
    · cases Except.ok.inj ok
      exact .inl rfl
    · simp only [bindOk,pureOk,Prod.mk.injEq] at ok
      obtain ⟨_,_,rfl,_⟩ := ok
      exact .inl rfl
  | complete id actor =>
    simp only [PrivacyOperation.work,complete,bindOk] at ok
    obtain ⟨r,_,ok⟩ := ok
    split at ok
    · cases Except.ok.inj ok
      exact .inl rfl
    · simp only [bindOk,pureOk,PrivacyDb.store,Prod.mk.injEq] at ok
      obtain ⟨_,_,rfl,_⟩ := ok
      exact .inl rfl

namespace ChallengeSystem
variable {S : ChallengeService δ} {s t : ChallengeSystem}

section
omit [DecidableEq δ]

structure Spent (db : PrivacyDb) : Prop where
  verified : ∀ k ∈ db.consumptions, ∃ c, db.challenges.find k.challenge = some c ∧ c.consumedAt ≠ none ∧
    c.verifiedAt.isSome
  once : (db.consumptions.map Consumption.challenge).Nodup

theorem Spent.evolves {db db' : PrivacyDb} (h : Spent db) (same : db'.consumptions = db.consumptions)
    (forward : ∀ k c, db.challenges.find k = some c → ∃ d, db'.challenges.find k = some d ∧ Evolves c d) :
    Spent db' where
  verified := by
    intro k mem
    obtain ⟨c,row,consumed,verified⟩ := h.verified k (same ▸ mem)
    obtain ⟨d,later,next⟩ := forward _ c row
    exact ⟨d,later,fun free => consumed (next.unconsumed free).1,next.verified verified⟩
  once := same ▸ h.once

theorem Spent.consumes {db db' : PrivacyDb} (h : Spent db) (consumes : Consumes db db')
    (forward : ∀ k c, db.challenges.find k = some c → ∃ d, db'.challenges.find k = some d ∧ Evolves c d) :
    Spent db' := by
  rcases consumes with same | ⟨c,k,row,verified,free,own,grown,d,later,consumed⟩
  · exact h.evolves same forward
  · refine ⟨?_,?_⟩
    · intro k' mem
      rw [grown,List.mem_append,List.mem_singleton] at mem
      rcases mem with before | rfl
      · obtain ⟨c',row',consumed',verified'⟩ := h.verified k' before
        obtain ⟨d',later',next⟩ := forward _ c' row'
        exact ⟨d',later',fun free => consumed' (next.unconsumed free).1,next.verified verified'⟩
      · obtain ⟨d',later',next⟩ := forward _ c row
        obtain rfl : d = d' := Option.some.inj (later.symm.trans later')
        exact ⟨d,own ▸ later,consumed,next.verified verified⟩
    · rw [grown,List.map_append,List.map_singleton]
      refine List.nodup_append.mpr ⟨h.once,List.nodup_singleton _,?_⟩
      intro id mem other here
      rintro rfl
      obtain ⟨k',before,same⟩ := List.mem_map.mp mem
      obtain ⟨c',row',consumed',_⟩ := h.verified k' before
      rw [same,List.mem_singleton.mp here,own] at row'
      cases row.symm.trans row'
      exact consumed' free

theorem startConsumptions {tables tables' : ChallengeTables} {now : Time} {credential : ChallengeCredential}
    {requester id code : String} {r : ChallengeReservation}
    (ok : startChallenge S tables now credential requester id code = .ok (tables',r)) :
    tables'.db.consumptions = tables.db.consumptions := by
  unfold startChallenge at ok
  split at ok
  · simp only [bindOk] at ok
    obtain ⟨_,_,ok⟩ := ok
    obtain ⟨_,_,_,_,_,_,_,_,_,_,_,same⟩ := redeemIntakeSource ok
    rw [same]
    rfl
  · obtain ⟨_,_,_,_,_,same,_⟩ := reserveChallengeSource ok
    rw [same]
    rfl

theorem confirmConsumptions {db db' : PrivacyDb} {now : Time} {r : ChallengeReservation} {reference : Option String}
    (ok : confirmReservation S db now r reference = .ok db') : db'.consumptions = db.consumptions := by
  unfold confirmReservation at ok
  split at ok
  · obtain ⟨_,_,_,rfl⟩ := confirmRedemptionSource ok
    rfl
  · obtain ⟨_,_,_,_,rfl⟩ := confirmDeliverySource ok
    rfl

theorem preparedConsumptions {db db' : PrivacyDb} {now : Time} {v : Option Verification}
    (prepared : Prepared now db db' v) : db'.consumptions = db.consumptions := by
  cases prepared <;> rfl

end

/-- Only the transition of a request accepts a challenge. -/
theorem stepConsumes {a : ChallengeAction δ} (taken : step S J s a = some t) : Consumes s.db t.db := by
  cases a with
  | challenge call credential requester id code =>
    simp only [step] at taken
    split at taken
    · contradiction
    · split at taken
      · contradiction
      · rename_i ok
        cases taken
        exact .inl (startConsumptions ok)
  | confirm call =>
    simp only [step] at taken
    split at taken
    · split at taken <;> cases taken
      · rename_i ok
        exact .inl (confirmConsumptions ok)
      · exact .inl rfl
    · contradiction
  | issueIntake input actor id =>
    simp only [step] at taken
    split at taken <;> cases taken
    rename_i ok
    obtain ⟨_,_,_,_,_,_,rfl⟩ := issueIntakeSource ok
    exact .inl rfl
  | verify call input =>
    simp only [step] at taken
    split at taken
    · contradiction
    · split at taken
      · contradiction
      · rename_i ok
        cases taken
        exact .inl (preparedConsumptions (startVerificationSource ok))
  | accept call newAccess =>
    simp only [step] at taken
    split at taken
    · split at taken <;> cases taken
      · rename_i ok
        obtain ⟨_,_,_,_,_,_,_,_,rfl⟩ := acceptSource ok
        exact .inl rfl
      · exact .inl rfl
    · contradiction
  | transition entries operation =>
    simp only [step] at taken
    split at taken <;> cases taken
    rename_i ok
    exact workConsumes ok
  | tick | deliver | judge | fail =>
    simp only [step] at taken
    split at taken <;> cases taken
    exact .inl rfl
  | others writes =>
    cases taken
    exact .inl rfl

theorem spentReachable {tables : ChallengeTables} {now : Time} (unused : Unused tables)
    (h : Reachable S J tables now s) : Spent s.db := by
  refine Transition.Reachable.invariant (I := fun s => Spent s.db) h ⟨?_,?_⟩ fun s a t spent taken => ?_
  · simp [initial,unused.consumptions]
  · simp [initial,unused.consumptions]
  · obtain ⟨_,progress,_⟩ := stepProgress taken
    exact spent.consumes (stepConsumes taken) progress.forward

/-- The code of the challenge that was accepted: sent to the destination of the challenge,
and presented by an approved attempt. -/
def Evidence (S : ChallengeService δ) (s : ChallengeSystem) (id : ChallengeId) : Prop :=
  ∃ c m j, s.db.challenges.find id = some c ∧ m ∈ s.sent ∧ m.challenge = id ∧ Addressed S c m.contact ∧
    j ∈ s.judged ∧ j.verification.challenge.id = id ∧ Opened j.verification.challenge ∧ j.approved ∧
    (m.contact.channel = .email → codeHash S id j.verification.code = codeHash S id m.code)

omit [DecidableEq δ] in
theorem Sound.evidence (h : Sound S s) {c : PrivacyChallenge} (mem : c ∈ s.db.challenges.rows)
    (verified : c.verifiedAt.isSome) : Evidence S s c.id := by
  have sound := h.rows c mem
  obtain ⟨time,verified⟩ := Option.isSome_iff_exists.mp verified
  obtain ⟨delivered,_,j,judged,approved,own⟩ := sound.verified time verified
  obtain ⟨m,sent,challenge,addressed,_⟩ := sound.delivered delivered
  obtain ⟨⟨opened,m',sent',challenge',code⟩,_⟩ := h.judgements j judged
  -- a challenge has one code only
  have same : m = m' := List.inj_on_of_nodup_map h.sentOnce sent sent' (challenge.trans (challenge'.trans own).symm)
  subst same
  rw [challenge] at code
  exact ⟨c,m,j,Table.find_of_mem mem,sent,challenge,addressed,judged,own,opened,approved,code approved⟩

/-- Every accepted submission has used a challenge of its own, whose code was sent to the
destination of the challenge and presented by an approved attempt. -/
theorem submissionsAuthentic {tables : ChallengeTables} {now : Time} (unused : Unused tables)
    (h : Reachable S J tables now s) :
    (∀ k ∈ s.db.consumptions, Evidence S s k.challenge) ∧ (s.db.consumptions.map Consumption.challenge).Nodup := by
  have spent := spentReachable unused h
  refine ⟨fun k mem => ?_,spent.once⟩
  obtain ⟨c,row,_,verified⟩ := spent.verified k mem
  obtain ⟨here,own⟩ := Table.find_some row
  exact own ▸ (soundReachable unused h).evidence here verified

theorem submittingRunAuthentic : ∃ s,
    Transition.run (step sampleChallenges sampleJournal) (initial unusedTables 0) submittingRun = some s ∧
    s.db.consumptions = [⟨"c","request","customer"⟩] ∧
    (∀ k ∈ s.db.consumptions, Evidence sampleChallenges s k.challenge) ∧
    (s.db.consumptions.map Consumption.challenge).Nodup := by
  have ends : (Transition.run (step sampleChallenges sampleJournal) (initial unusedTables 0) submittingRun).map
      (·.db.consumptions) = some [⟨"c","request","customer"⟩] := by decide +kernel
  obtain ⟨s,ran,consumed⟩ := Option.map_eq_some_iff.mp ends
  exact ⟨s,ran,consumed,submissionsAuthentic unusedTablesUnused (Transition.runReachable .start ran)⟩

/-! ### Consumed challenges -/

/-- The challenge stays as verified as it was, and no other submission has used it. -/
def Finished (c : PrivacyChallenge) (before : List Consumption) (db : PrivacyDb) : Prop :=
  (∃ d, db.challenges.find c.id = some d ∧ d.consumedAt ≠ none ∧ d.verifiedAt = c.verifiedAt) ∧
    ∀ k ∈ db.consumptions, k.challenge = c.id → k ∈ before

theorem finishedStep {a : ChallengeAction δ} {c : PrivacyChallenge} {before : List Consumption}
    (h : Finished c before s.db) (taken : step S J s a = some t) : Finished c before t.db := by
  obtain ⟨⟨d,row,consumed,verified⟩,uses⟩ := h
  obtain ⟨created,progress,_⟩ := stepProgress taken
  refine ⟨?_,fun k mem own => ?_⟩
  · obtain ⟨e,later,_⟩ := progress.forward _ d row
    have id := Table.find_key later
    rcases progress.backward e (Table.find_some later).1 with ⟨_,absent⟩ | ⟨d',row',change⟩
    · rw [id,row] at absent
      cases absent
    · rw [id,row] at row'
      cases row'
      obtain ⟨still,same⟩ := change.consumed consumed
      exact ⟨e,later,still,same.trans verified⟩
  · rcases stepConsumes taken with same | ⟨c',k',row',_,free,own',grown,_⟩
    · exact uses k (same ▸ mem) own
    · rw [grown,List.mem_append,List.mem_singleton] at mem
      rcases mem with earlier | rfl
      · exact uses k earlier own
      · rw [← own',own,row] at row'
        cases row'
        exact absurd free consumed

/-- Whatever runs after a challenge is consumed or superseded, it is not verified any more
and no later submission uses it. -/
theorem consumedForGood {c : PrivacyChallenge} (mem : c ∈ s.db.challenges.rows) (consumed : c.consumedAt ≠ none)
    {actions : List (ChallengeAction δ)} (ran : Transition.run (step S J) s actions = some t) :
    Finished c s.db.consumptions t.db := by
  have reached : Transition.Reachable (step S J) s t := Transition.runReachable .start ran
  refine Transition.Reachable.invariant (I := fun t => Finished c s.db.consumptions t.db) reached ?_
    fun _ _ _ finished taken => finishedStep finished taken
  exact ⟨⟨c,Table.find_of_mem mem,consumed,rfl⟩,fun k here _ => here⟩

def resentTables : ChallengeSystem :=
  { initial unusedTables 0 with
    db := { unusedTables.db with
      challenges := Table.empty.put { verifiedChallenge with consumedAt := some 0, verifiedAt := none } } }

theorem supersededNotVerified : ∃ t,
    Transition.run (step sampleChallenges sampleJournal) resentTables
      [.verify 0 ⟨"challenge","12345678",some deviceToken,none,none⟩,
       .challenge 1 trackingCredential "ip" "c" "12345678"] = some t ∧
    t.db.challenges.rows.map (·.id) = ["challenge","c"] ∧
    Finished { verifiedChallenge with consumedAt := some 0, verifiedAt := none } [] t.db := by
  have ends : (Transition.run (step sampleChallenges sampleJournal) resentTables
      [.verify 0 ⟨"challenge","12345678",some deviceToken,none,none⟩,
       .challenge 1 trackingCredential "ip" "c" "12345678"]).map (fun t => t.db.challenges.rows.map (·.id)) =
      some ["challenge","c"] := by decide +kernel
  obtain ⟨t,ran,rows⟩ := Option.map_eq_some_iff.mp ends
  exact ⟨t,ran,rows,consumedForGood (s := resentTables) List.mem_cons_self (by simp) ran⟩

end ChallengeSystem
end SpeedySweeties
