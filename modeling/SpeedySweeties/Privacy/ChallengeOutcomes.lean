import SpeedySweeties.Library.TableRows
import SpeedySweeties.Privacy.ChallengeSafety

/-! What comes of challenges: which of them stay usable, how many a destination receives,
and what stands behind a submission. -/
namespace SpeedySweeties

/-- The customer for whom a code can be verified. -/
def usableFor (c : PrivacyChallenge) : Option CustomerId :=
  if c.purpose ≠ .adminIntake ∧ c.delivery = .sent ∧ c.consumedAt = none then c.subjectId else none

/-- The customer of an intake that is still open. -/
def intakeFor (c : PrivacyChallenge) : Option CustomerId :=
  if c.purpose = .adminIntake ∧ c.consumedAt = none then c.subjectId else none

/-- The customer to whom a credential still gives access. -/
def accessFor (a : PrivacyAccessCredential) : Option CustomerId :=
  if a.revokedAt = none then some a.customerId else none

theorem usableOk {c : PrivacyChallenge} {customer : CustomerId} : usableFor c = some customer ↔
    c.purpose ≠ .adminIntake ∧ c.delivery = .sent ∧ c.consumedAt = none ∧ c.subjectId = some customer := by
  unfold usableFor
  split <;> simp_all

theorem intakeOk {c : PrivacyChallenge} {customer : CustomerId} : intakeFor c = some customer ↔
    c.purpose = .adminIntake ∧ c.consumedAt = none ∧ c.subjectId = some customer := by
  unfold intakeFor
  split <;> simp_all

theorem accessOk {a : PrivacyAccessCredential} {customer : CustomerId} : accessFor a = some customer ↔
    a.revokedAt = none ∧ a.customerId = customer := by
  unfold accessFor
  split <;> simp_all

structure Exclusive (challenges : Challenges) : Prop where
  usable : challenges.Sole usableFor
  intake : challenges.Sole intakeFor

namespace Exclusive
variable {challenges : Challenges}

theorem put {c d : PrivacyChallenge} (h : Exclusive challenges) (row : challenges.find d.id = some c)
    (usable : ∀ g, usableFor d = some g → usableFor c = some g)
    (intake : ∀ g, intakeFor d = some g → intakeFor c = some g) : Exclusive (challenges.put d) :=
  ⟨h.usable.put row usable,h.intake.put row intake⟩

/-- A write that only retires challenges. -/
theorem retire {f : PrivacyChallenge → PrivacyChallenge} (keeps : ∀ c, (f c).id = c.id) (h : Exclusive challenges)
    (retires : ∀ c, f c = c ∨ (f c).consumedAt ≠ none) : Exclusive (challenges.update f keeps) := by
  refine ⟨h.usable.update fun c g usable => ?_,h.intake.update fun c g intake => ?_⟩
  · rcases retires c with same | consumed
    · exact same ▸ usable
    · exact absurd (usableOk.mp usable).2.2.1 consumed
  · rcases retires c with same | consumed
    · exact same ▸ intake
    · exact absurd (intakeOk.mp intake).2.1 consumed

end Exclusive

theorem supersedeRetires (keep : ChallengeId) (subject : CustomerId) (now : Time) (c : PrivacyChallenge) :
    supersede keep subject now c = c ∨ (supersede keep subject now c).consumedAt ≠ none := by
  unfold supersede
  split <;> simp

theorem supersedeIntakeRetires (subject : CustomerId) (now : Time) (c : PrivacyChallenge) :
    supersedeIntake subject now c = c ∨ (supersedeIntake subject now c).consumedAt ≠ none := by
  unfold supersedeIntake
  split <;> simp

theorem revokedRetires (customer : CustomerId) (now : Time) (c : PrivacyChallenge) :
    revokedChallenge customer now c = c ∨ (revokedChallenge customer now c).consumedAt ≠ none := by
  unfold revokedChallenge
  split <;> simp

variable {δ : Type} {S : ChallengeService δ} {J : PrivacyRecoveryJournal δ}

theorem deliveryExclusive {db db' : PrivacyDb} {now : Time} {r : ChallengeReservation} {reference : Option String}
    (h : Exclusive db.challenges) (reserved : ∀ c, db.challenges.find r.id = some c → Reserved S r c)
    (ok : confirmDelivery db now r reference = .ok db') : Exclusive db'.challenges := by
  obtain ⟨c,row,own,free,rfl⟩ := confirmDeliverySource ok
  have subject := ((reserved c (own ▸ row)).unconsumed free).2
  have others := h.retire (supersedeId r.id r.subjectId now) (supersedeRetires _ _ _)
  have kept : supersede r.id r.subjectId now c = c := by simp [supersede,own]
  have stays : (db.challenges.update (supersede r.id r.subjectId now)
      (supersedeId r.id r.subjectId now)).find (markSent reference c).id = some c := by
    rw [Table.find_update,show (markSent reference c).id = c.id from rfl,row,Option.map_some,kept]
  refine ⟨others.usable.enter fun b mem g usable entered => ?_,others.intake.put stays fun g => id⟩
  obtain ⟨c',here,rfl⟩ := List.mem_map.mp mem
  obtain ⟨_,_,unconsumed,owner⟩ := usableOk.mp usable
  obtain ⟨_,_,_,customer⟩ := usableOk.mp entered
  obtain rfl : r.subjectId = g := Option.some.inj (subject.symm.trans customer)
  rw [supersedeId]
  -- every other challenge of the customer has just been consumed
  by_contra differ
  have differ : c'.id ≠ r.id := fun same => differ (same.trans own.symm)
  unfold supersede at unconsumed owner
  split at unconsumed
  · cases unconsumed
  · rename_i open'
    rw [if_neg open'] at owner
    exact open' ⟨owner,differ,unconsumed⟩

theorem redemptionExclusive {db db' : PrivacyDb} {now : Time} {r : ChallengeReservation} {grant : String}
    {reference : Option String} (h : Exclusive db.challenges) (own : r.grant = some grant)
    (reserved : ∀ c, db.challenges.find r.id = some c → Reserved S r c)
    (ok : confirmRedemption S db now r grant reference = .ok db') : Exclusive db'.challenges := by
  obtain ⟨c,row,same,rfl⟩ := confirmRedemptionSource ok
  have purpose := (reserved c (same ▸ row)).intake (by simp [own])
  exact h.put row (fun g usable => absurd purpose (usableOk.mp usable).1) fun g => id

theorem issueExclusive {t : ChallengeTables} {now : Time} {input : IntakeIssue} {actor : IntakeActor}
    {id : ChallengeId} {db : PrivacyDb} {grant : String} (h : Exclusive t.db.challenges)
    (ok : issueIntake S t now input actor id = .ok (db,grant)) : Exclusive db.challenges := by
  obtain ⟨p,claims,requesterHash,_,_,_,rfl⟩ := issueIntakeSource ok
  have others := h.retire (supersedeIntakeId p.customer.id now) (supersedeIntakeRetires _ _)
  refine ⟨others.usable.stayOut (by simp [usableFor,intakeChallenge]),
    others.intake.enter fun b mem g intake entered => ?_⟩
  obtain ⟨c,here,rfl⟩ := List.mem_map.mp mem
  obtain ⟨purpose,unconsumed,owner⟩ := intakeOk.mp intake
  obtain ⟨_,_,customer⟩ := intakeOk.mp entered
  obtain rfl : p.customer.id = g := Option.some.inj customer
  unfold supersedeIntake at purpose unconsumed owner
  split at unconsumed
  · cases unconsumed
  · rename_i open'
    rw [if_neg open'] at owner purpose
    exact absurd ⟨owner,purpose,unconsumed⟩ open'

theorem startExclusive {t t' : ChallengeTables} {now : Time} {credential : ChallengeCredential}
    {requester id code : String} {r : ChallengeReservation} (h : Exclusive t.db.challenges)
    (ok : startChallenge S t now credential requester id code = .ok (t',r)) : Exclusive t'.db.challenges := by
  unfold startChallenge at ok
  split at ok
  · simp only [bindOk] at ok
    obtain ⟨_,_,ok⟩ := ok
    obtain ⟨c,requesterHash,row,_,_,_,_,_,_,_,_,same⟩ := redeemIntakeSource ok
    rw [same]
    exact h.put row (fun g usable => absurd (usableOk.mp usable).2.1 (by simp [reserveIntake])) fun g kept => kept
  · obtain ⟨b,access,requesterHash,_,purpose,same,_⟩ := reserveChallengeSource ok
    rw [same]
    exact ⟨h.usable.stayOut (by simp [usableFor,newChallenge]),
      h.intake.stayOut (by simp [intakeFor,newChallenge,purpose])⟩

theorem preparedExclusive {db db' : PrivacyDb} {now : Time} {v : Option Verification} (h : Exclusive db.challenges)
    (prepared : Prepared now db db' v) : Exclusive db'.challenges := by
  cases prepared with
  | refused => exact h
  | counted c row => exact h.put row (fun g => id) fun g => id
  | prepared v row => exact h.put row (fun g => id) fun g => id

theorem requestExclusive {db db' : PrivacyDb} {now : Time} {id : PrivacyRequestId} (h : Exclusive db.challenges)
    (step : RequestStep S.toPrivacyService db now db' id) : Exclusive db'.challenges := by
  have consumed : ∀ c : PrivacyChallenge, usableFor { c with consumedAt := some now } = none ∧
      intakeFor { c with consumedAt := some now } = none := fun c => by simp [usableFor,intakeFor]
  cases step with
  | submitted _ _ c | recovered _ _ c =>
    exact ⟨h.usable.stayOut (consumed c).1,h.intake.stayOut (consumed c).2⟩
  | erased actor decision p =>
    exact h.retire (revokedChallengeId p.customer.id now) (revokedRetires _ _)
  | _ => exact h

/-! ### Access credentials -/

theorem touchedSole {old new : AccessCredentials} (h : old.Sole accessFor) (touched : Touched old new) :
    new.Sole accessFor := by
  rcases touched with rfl | ⟨a,now,row,rfl⟩
  · exact h
  · exact h.put row fun g kept => kept

theorem enrolledSole {old new : AccessCredentials} (h : old.Sole accessFor) (enrolled : Enrolled old new) :
    new.Sole accessFor := by
  rcases enrolled with rfl | ⟨a,customer,now,owner,active,_,rfl⟩
  · exact h
  · have revoked : (old.update (revokeAccess customer now) (revokeAccessId customer now)).Sole accessFor := by
      refine h.update fun b g active => ?_
      unfold revokeAccess at active
      split at active
      · simp [accessFor] at active
      · exact active
    refine revoked.enter fun b mem g other entered => ?_
    obtain ⟨c,_,rfl⟩ := List.mem_map.mp mem
    obtain ⟨unrevoked,own⟩ := accessOk.mp other
    have same : g = customer := (accessOk.mp entered).2.symm.trans owner
    unfold revokeAccess at unrevoked own
    split at unrevoked
    · cases unrevoked
    · rename_i open'
      rw [if_neg open'] at own
      exact absurd ⟨own.trans same,unrevoked⟩ open'

theorem requestAccess {db db' : PrivacyDb} {now : Time} {id : PrivacyRequestId}
    (step : RequestStep S.toPrivacyService db now db' id) : db'.access.rows ⊆ db.access.rows := by
  cases step with
  | erased => exact List.filter_sublist.subset
  | _ => exact fun _ mem => mem

theorem startAccess {t t' : ChallengeTables} {now : Time} {credential : ChallengeCredential}
    {requester id code : String} {r : ChallengeReservation}
    (ok : startChallenge S t now credential requester id code = .ok (t',r)) : Touched t.db.access t'.db.access := by
  unfold startChallenge at ok
  split at ok
  · simp only [bindOk] at ok
    obtain ⟨_,_,ok⟩ := ok
    obtain ⟨c,requesterHash,_,_,_,_,_,_,_,_,_,same⟩ := redeemIntakeSource ok
    rw [same]
    exact .inl rfl
  · obtain ⟨b,access,requesterHash,_,_,same,_,touched,_⟩ := reserveChallengeSource ok
    rw [same]
    exact touched

namespace ChallengeSystem
variable {s t : ChallengeSystem}

/-- A customer has at most one code that can be verified, one open intake and one
credential. -/
structure Single (s : ChallengeSystem) : Prop where
  challenges : Exclusive s.db.challenges
  access : s.db.access.Sole accessFor

theorem Sound.reservation (h : Sound S s) {call : CallId} {r : ChallengeReservation} {reference : Option String}
    (waiting : s.calls call = some (.confirm r reference)) :
    ∀ c, s.db.challenges.find r.id = some c → Reserved S r c := by
  intro c row
  obtain ⟨_,d,row',reserved⟩ := h.calls call _ waiting
  cases row.symm.trans row'
  exact reserved

theorem confirmExclusive {db : PrivacyDb} {call : CallId} {r : ChallengeReservation} {reference : Option String}
    (sound : Sound S s) (h : Single s) (waiting : s.calls call = some (.confirm r reference))
    (ok : confirmReservation S s.db s.clock r reference = .ok db) :
    Exclusive db.challenges ∧ db.access = s.db.access := by
  unfold confirmReservation at ok
  split at ok
  · rename_i grant own
    refine ⟨redemptionExclusive h.challenges own (sound.reservation waiting) ok,?_⟩
    obtain ⟨c,_,_,rfl⟩ := confirmRedemptionSource ok
    rfl
  · refine ⟨deliveryExclusive h.challenges (sound.reservation waiting) ok,?_⟩
    obtain ⟨c,_,_,_,rfl⟩ := confirmDeliverySource ok
    rfl

theorem preparedAccess {db db' : PrivacyDb} {now : Time} {v : Option Verification}
    (prepared : Prepared now db db' v) : db'.access = db.access := by
  cases prepared <;> rfl

variable [DecidableEq δ]

theorem singleStep {a : ChallengeAction δ} (sound : Sound S s) (h : Single s) (taken : step S J s a = some t) :
    Single t := by
  cases a with
  | tick now =>
    simp only [step] at taken
    split at taken <;> cases taken
    exact ⟨h.challenges,h.access⟩
  | challenge call credential requester id code =>
    simp only [step] at taken
    split at taken
    · contradiction
    · split at taken
      · contradiction
      · rename_i ok
        cases taken
        exact ⟨startExclusive h.challenges ok,touchedSole h.access (startAccess ok)⟩
  | deliver call accepted reference =>
    simp only [step] at taken
    split at taken <;> cases taken
    exact ⟨h.challenges,h.access⟩
  | confirm call =>
    simp only [step] at taken
    split at taken
    · rename_i waiting
      split at taken <;> cases taken
      · rename_i ok
        obtain ⟨challenges,access⟩ := confirmExclusive sound h waiting ok
        exact ⟨challenges,access ▸ h.access⟩
      · exact ⟨h.challenges,h.access⟩
    · contradiction
  | issueIntake input actor id =>
    simp only [step] at taken
    split at taken <;> cases taken
    rename_i ok
    refine ⟨issueExclusive h.challenges ok,?_⟩
    obtain ⟨_,_,_,_,_,_,rfl⟩ := issueIntakeSource ok
    exact h.access
  | verify call input =>
    simp only [step] at taken
    split at taken
    · contradiction
    · split at taken
      · contradiction
      · rename_i ok
        cases taken
        have prepared := startVerificationSource ok
        exact ⟨preparedExclusive h.challenges prepared,preparedAccess prepared ▸ h.access⟩
  | judge call provider =>
    simp only [step] at taken
    split at taken <;> cases taken
    exact ⟨h.challenges,h.access⟩
  | accept call newAccess =>
    simp only [step] at taken
    split at taken
    · split at taken <;> cases taken
      · rename_i ok
        obtain ⟨c,access,accessId,row,_,_,_,enrolled,rfl⟩ := acceptSource ok
        exact ⟨h.challenges.put row (fun g kept => kept) fun g kept => kept,enrolledSole h.access enrolled⟩
      · exact ⟨h.challenges,h.access⟩
    · contradiction
  | fail call =>
    simp only [step] at taken
    split at taken <;> cases taken
    exact ⟨h.challenges,h.access⟩
  | transition entries operation =>
    simp only [step] at taken
    split at taken <;> cases taken
    rename_i ok
    have stepped := workSource ok
    exact ⟨requestExclusive h.challenges stepped,h.access.subset (requestAccess stepped)⟩
  | others writes =>
    cases taken
    exact ⟨h.challenges,h.access⟩

/-- In every run a customer has at most one ordinary challenge whose code can be verified,
at most one open intake, and at most one credential that gives access. -/
theorem newestOnly {tables : ChallengeTables} {now : Time} (unused : Unused tables)
    (h : Reachable S J tables now s) (customer : CustomerId) :
    (∀ c ∈ s.db.challenges.rows, ∀ d ∈ s.db.challenges.rows,
      usableFor c = some customer → usableFor d = some customer → c.id = d.id) ∧
    (∀ c ∈ s.db.challenges.rows, ∀ d ∈ s.db.challenges.rows,
      intakeFor c = some customer → intakeFor d = some customer → c.id = d.id) ∧
    ∀ a ∈ s.db.access.rows, ∀ b ∈ s.db.access.rows,
      accessFor a = some customer → accessFor b = some customer → a.id = b.id := by
  have initially : Single (initial tables now) :=
    ⟨⟨.ofEmpty unused.challenges,.ofEmpty unused.challenges⟩,.ofEmpty unused.access⟩
  have single : Single s := by
    refine Transition.ReachableUnder.invariantWith h initially fun s a t before single _ taken => ?_
    exact singleStep (soundReachable unused before) single taken
  exact ⟨fun c hc d hd => single.challenges.usable c hc d hd customer,
    fun c hc d hd => single.challenges.intake c hc d hd customer,
    fun a ha b hb => single.access a ha b hb customer⟩

/-- The second delivery retires the first challenge. -/
def resendingRun : List (ChallengeAction RecoveryEvidence) :=
  [.challenge 0 trackingCredential "ip" "first" "12345678",.deliver 0 true none,.confirm 0,.tick 5,
   .challenge 0 trackingCredential "ip" "second" "87654321",.deliver 0 true none,.confirm 0]

theorem resendingRunNewest : ∃ s,
    Transition.run (step sampleChallenges sampleJournal) (initial unusedTables 0) resendingRun = some s ∧
    s.db.challenges.rows.map (fun c => (c.id,usableFor c)) = [("first",none),("second",some "customer")] ∧
    ∀ c ∈ s.db.challenges.rows, ∀ d ∈ s.db.challenges.rows,
      usableFor c = some "customer" → usableFor d = some "customer" → c.id = d.id := by
  have ends : (Transition.run (step sampleChallenges sampleJournal) (initial unusedTables 0) resendingRun).map
      (fun s => s.db.challenges.rows.map fun c => (c.id,usableFor c)) =
      some [("first",none),("second",some "customer")] := by decide +kernel
  obtain ⟨s,ran,rows⟩ := Option.map_eq_some_iff.mp ends
  exact ⟨s,ran,rows,(newestOnly unusedTablesUnused (Transition.runReachable .start ran) "customer").1⟩

/-! ### The hourly bound -/

def inHour (phoneHash : String) (start : Time) (c : PrivacyChallenge) : Bool :=
  c.phoneHash = phoneHash ∧ start ≤ c.createdAt ∧ c.createdAt ≤ start + hourMs

structure Hourly (s : ChallengeSystem) : Prop where
  past : ∀ c ∈ s.db.challenges.rows, c.createdAt ≤ s.clock
  few : ∀ phoneHash start, s.db.challenges.rows.countP (inHour phoneHash start) ≤ 5

theorem clockStep {a : ChallengeAction δ} (taken : step S J s a = some t) : s.clock ≤ t.clock := by
  cases a with
  | tick now =>
    simp only [step] at taken
    split at taken <;> cases taken
    assumption
  | challenge | issueIntake | verify | fail | transition =>
    simp only [step] at taken
    repeat' split at taken
    all_goals cases taken
    all_goals exact le_rfl
  | deliver | confirm | judge | accept =>
    simp only [step] at taken
    repeat' split at taken
    all_goals cases taken
    all_goals exact le_rfl
  | others writes =>
    cases taken
    exact le_rfl

/-- An old row counts for the hour of a new one as `recentChallenges` counts it. -/
theorem countedRecently {phoneHash requesterHash : String} {start now : Time} {c : PrivacyChallenge}
    (within : now ≤ start + hourMs) (here : inHour phoneHash start c = true) :
    (some c.id ≠ (none : Option ChallengeId) ∧ now - hourMs ≤ c.createdAt ∧
      (c.phoneHash = phoneHash ∨ c.requesterHash = requesterHash)) := by
  simp only [inHour,decide_eq_true_eq] at here
  obtain ⟨phone,after,_⟩ := here
  exact ⟨by simp,Nat.sub_le_iff_le_add.mpr (within.trans (Nat.add_le_add_right after _)),.inl phone⟩

theorem hourlyStep {a : ChallengeAction δ} (h : Hourly s) (taken : step S J s a = some t) : Hourly t := by
  obtain ⟨created,progress,fresh⟩ := stepProgress taken
  have clock := clockStep taken
  refine ⟨?_,?_⟩
  · intro d mem
    rcases progress.backward d mem with ⟨here,_⟩ | ⟨c,row,change⟩
    · exact (fresh d here).createdAt.le.trans clock
    · exact change.created.2.le.trans ((h.past c (Table.find_some row).1).trans clock)
  · intro phoneHash start
    have survives : ∀ d ∈ t.db.challenges.rows, created ≠ some d → inHour phoneHash start d = true →
        ∃ c ∈ s.db.challenges.rows, c.id = d.id ∧ inHour phoneHash start c = true := by
      intro d mem old counted
      rcases progress.backward d mem with ⟨here,_⟩ | ⟨c,row,change⟩
      · exact absurd here old
      · obtain ⟨found,own⟩ := Table.find_some row
        obtain ⟨phone,created⟩ := change.created
        exact ⟨c,found,own,by simpa only [inHour,phone,created] using counted⟩
    by_cases counted : ∃ d ∈ t.db.challenges.rows, created = some d ∧ inHour phoneHash start d = true
    · obtain ⟨d,mem,rfl,counted⟩ := counted
      have new := fresh d rfl
      simp only [inHour,decide_eq_true_eq] at counted
      obtain ⟨phone,_,within⟩ := counted
      rw [new.createdAt] at within
      have others := Table.countP_le (u := s.db.challenges) (t := t.db.challenges)
        (p := fun row => row.id ≠ d.id && inHour phoneHash start row)
        (q := fun c => some c.id ≠ (none : Option ChallengeId) ∧ s.clock - hourMs ≤ c.createdAt ∧
          (c.phoneHash = d.phoneHash ∨ c.requesterHash = d.requesterHash)) (by
          intro e here holds
          simp only [Bool.and_eq_true,decide_eq_true_eq] at holds
          obtain ⟨c,found,own,hour⟩ := survives e here (by rintro ⟨⟩; exact holds.1 rfl) holds.2
          exact ⟨c,found,own,decide_eq_true (phone ▸ countedRecently within hour)⟩)
      have all := Table.countP_except t.db.challenges (inHour phoneHash start) d.id
      have few : s.db.challenges.rows.countP _ < 5 := new.few
      omega
    · refine (Table.countP_le (u := s.db.challenges) fun d mem hour => ?_).trans (h.few phoneHash start)
      exact survives d mem (fun here => counted ⟨d,mem,here,hour⟩) hour

/-- No destination gets more than five challenges within any hour, whoever asks for them. -/
theorem hourlyChallenges {tables : ChallengeTables} {now : Time} (unused : Unused tables)
    (h : Reachable S J tables now s) (phoneHash : String) (start : Time) :
    s.db.challenges.rows.countP (inHour phoneHash start) ≤ 5 := by
  have initially : Hourly (initial tables now) :=
    ⟨by simp [initial,unused.challenges],by simp [initial,unused.challenges]⟩
  exact (Transition.Reachable.invariant h initially fun _ _ _ hourly taken => hourlyStep hourly taken).few
    phoneHash start

theorem resendingRunHourly : ∃ s,
    Transition.run (step sampleChallenges sampleJournal) (initial unusedTables 0) resendingRun = some s ∧
    s.db.challenges.rows.countP (inHour "destination:EMAIL:jo@example.com" 0) = 2 ∧
    s.db.challenges.rows.countP (inHour "destination:EMAIL:jo@example.com" 0) ≤ 5 := by
  have ends : (Transition.run (step sampleChallenges sampleJournal) (initial unusedTables 0) resendingRun).map
      (·.db.challenges.rows.countP (inHour "destination:EMAIL:jo@example.com" 0)) = some 2 := by decide +kernel
  obtain ⟨s,ran,count⟩ := Option.map_eq_some_iff.mp ends
  exact ⟨s,ran,count,hourlyChallenges unusedTablesUnused (Transition.runReachable .start ran) _ 0⟩

end ChallengeSystem
end SpeedySweeties
