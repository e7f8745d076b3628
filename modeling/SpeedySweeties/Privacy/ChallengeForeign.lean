import SpeedySweeties.Library.TableRows
import SpeedySweeties.Privacy.ChallengeSafety
import SpeedySweeties.Privacy.Transitions

/-! The transactions of challenges, as the system of deletion requests sees them: each is
a run of the foreign writes that this system allows while nobody holds the lock. -/
namespace SpeedySweeties
variable {δ : Type} [DecidableEq δ] {S : PrivacyService δ} {J : PrivacyRecoveryJournal δ}

namespace PrivacySystem

/-- The writes take the system from one database to the other, and nothing else changes. -/
def WritesTo (S : PrivacyService δ) (J : PrivacyRecoveryJournal δ) (old new : PrivacyDb)
    (writes : List ForeignWrite) : Prop :=
  ∀ p : PrivacySystem δ, p.db = old → p.lock = none →
    Transition.run (step S J) p (writes.map .write) = some { p with db := new }

theorem WritesTo.nil {db : PrivacyDb} : WritesTo S J db db [] := by
  rintro p rfl _
  rfl

theorem WritesTo.append {a b c : PrivacyDb} {first later : List ForeignWrite} (h : WritesTo S J a b first)
    (next : WritesTo S J b c later) : WritesTo S J a c (first ++ later) := by
  intro p same free
  rw [List.map_append,Transition.runAppend,h p same free]
  exact next { p with db := b } rfl free

theorem writesChallenge (db : PrivacyDb) {c d : PrivacyChallenge} (row : db.challenges.find d.id = some c)
    (consumed : d.consumedAt = none → c.consumedAt = none) :
    WritesTo S J db (db.setChallenge d) [.updateChallenge d] := by
  rintro p rfl free
  have kept : c.consumedAt.isSome → d.consumedAt ≠ none := by
    intro before after
    simp [consumed after] at before
  simpa [Transition.run,step,writeForeign,row,free,PrivacyDb.setChallenge] using kept

theorem writesNew {db : PrivacyDb} {d : PrivacyChallenge} (fresh : db.challenges.find d.id = none)
    (free : d.consumedAt = none) : WritesTo S J db (db.setChallenge d) [.issueChallenge d] := by
  rintro p rfl unlocked
  simp [Transition.run,step,writeForeign,fresh,unlocked,free,PrivacyDb.setChallenge]

theorem writesAccess (db : PrivacyDb) {a : PrivacyAccessCredential} :
    WritesTo S J db (db.setAccess a) [.access a] := by
  rintro p rfl unlocked
  simp [Transition.run,step,writeForeign,unlocked,PrivacyDb.setAccess]

theorem writesUpdate {db : PrivacyDb} {f : PrivacyChallenge → PrivacyChallenge} (keeps : ∀ c, (f c).id = c.id)
    (consumed : ∀ c, (f c).consumedAt = none → c.consumedAt = none) :
    WritesTo S J db { db with challenges := db.challenges.update f keeps }
      (db.challenges.rows.map fun c => .updateChallenge (f c)) := by
  refine Table.rowByRow (W := fun u v => WritesTo S J { db with challenges := u } { db with challenges := v })
    (fun _ => .nil) (fun u v c rest row later => ?_) db.challenges
  exact (writesChallenge { db with challenges := u } row (consumed c)).append later

theorem writesCredentials {db : PrivacyDb} {f : PrivacyAccessCredential → PrivacyAccessCredential}
    (keeps : ∀ a, (f a).id = a.id) :
    WritesTo S J db { db with access := db.access.update f keeps }
      (db.access.rows.map fun a => .access (f a)) := by
  refine Table.rowByRow (W := fun u v => WritesTo S J { db with access := u } { db with access := v })
    (fun _ => .nil) (fun u v a rest _ later => ?_) db.access
  exact (writesAccess { db with access := u } (a := f a)).append later

end PrivacySystem

open PrivacySystem
variable {T : ChallengeService δ}

def Simulated (S : PrivacyService δ) (J : PrivacyRecoveryJournal δ) (old new : PrivacyDb) : Prop :=
  ∃ writes, WritesTo S J old new writes

theorem Simulated.same {db : PrivacyDb} : Simulated S J db db := ⟨[],.nil⟩

theorem Simulated.trans {a b c : PrivacyDb} (h : Simulated S J a b) (next : Simulated S J b c) : Simulated S J a c := by
  obtain ⟨first,writes⟩ := h
  obtain ⟨later,writes'⟩ := next
  exact ⟨first ++ later,writes.append writes'⟩

theorem touchedSimulated {db : PrivacyDb} {access : AccessCredentials} (touched : Touched db.access access) :
    Simulated S J db { db with access := access } := by
  rcases touched with same | ⟨a,now,_,rfl⟩
  · rw [same]
    exact .same
  · exact ⟨_,writesAccess _⟩

theorem enrolledSimulated {db : PrivacyDb} {access : AccessCredentials} (enrolled : Enrolled db.access access) :
    Simulated S J db { db with access := access } := by
  rcases enrolled with same | ⟨a,customer,now,_,_,_,rfl⟩
  · rw [same]
    exact .same
  · exact ⟨_,(writesCredentials (revokeAccessId customer now)).append (writesAccess _)⟩

omit [DecidableEq δ] in
theorem retiresConsumed {f : PrivacyChallenge → PrivacyChallenge} {now : Time}
    (change : ∀ c, RowChange T (fun _ => none) now c (f c)) (c : PrivacyChallenge)
    (free : (f c).consumedAt = none) : c.consumedAt = none :=
  ((change c).evolves.unconsumed free).1

theorem startSimulated {t t' : ChallengeTables} {now : Time} {credential : ChallengeCredential}
    {requester id code : String} {r : ChallengeReservation}
    (ok : startChallenge T t now credential requester id code = .ok (t',r)) : Simulated S J t.db t'.db := by
  unfold startChallenge at ok
  split at ok
  · simp only [bindOk] at ok
    obtain ⟨_,_,ok⟩ := ok
    obtain ⟨c,requesterHash,row,free,_,_,_,_,_,_,_,same⟩ := redeemIntakeSource ok
    rw [same]
    exact ⟨_,writesChallenge _ (d := reserveIntake T now requesterHash code c) row fun _ => free⟩
  · obtain ⟨b,access,requesterHash,_,_,same,fresh,touched,_⟩ := reserveChallengeSource ok
    rw [same]
    exact (touchedSimulated touched).trans
      ⟨_,writesNew (d := newChallenge T now id code requesterHash b) fresh rfl⟩

theorem issueSimulated {t : ChallengeTables} {now : Time} {input : IntakeIssue} {actor : IntakeActor}
    {id : ChallengeId} {db : PrivacyDb} {grant : String} (ok : issueIntake T t now input actor id = .ok (db,grant)) :
    Simulated S J t.db db := by
  obtain ⟨p,claims,requesterHash,own,fresh,_,rfl⟩ := issueIntakeSource ok
  have consumed := retiresConsumed (T := T) (f := supersedeIntake p.customer.id now)
    (supersedeIntakeChange _ _)
  have absent : (t.db.challenges.update (supersedeIntake p.customer.id now)
      (supersedeIntakeId p.customer.id now)).find claims.id = none := by
    rw [Table.find_update,own,fresh]
    rfl
  exact ⟨_,(writesUpdate (supersedeIntakeId p.customer.id now) consumed).append
    (writesNew (d := intakeChallenge T now requesterHash p claims) absent rfl)⟩

theorem confirmSimulated {db db' : PrivacyDb} {now : Time} {r : ChallengeReservation} {reference : Option String}
    (ok : confirmReservation T db now r reference = .ok db') : Simulated S J db db' := by
  unfold confirmReservation at ok
  split at ok
  · obtain ⟨c,row,_,rfl⟩ := confirmRedemptionSource ok
    exact ⟨_,writesChallenge _ (d := markSent reference c) row id⟩
  · obtain ⟨c,row,own,free,rfl⟩ := confirmDeliverySource ok
    have consumed := retiresConsumed (T := T) (f := supersede r.id r.subjectId now) (supersedeChange _ _ _)
    have present : (db.challenges.update (supersede r.id r.subjectId now)
        (supersedeId r.id r.subjectId now)).find (markSent reference c).id =
        some (supersede r.id r.subjectId now c) := by
      rw [Table.find_update,show (markSent reference c).id = c.id from rfl,row]
      rfl
    exact ⟨_,(writesUpdate (supersedeId r.id r.subjectId now) consumed).append
      (writesChallenge _ present fun _ => by simp [supersede,own,free])⟩

theorem preparedSimulated {db db' : PrivacyDb} {now : Time} {v : Option Verification}
    (prepared : Prepared now db db' v) : Simulated S J db db' := by
  cases prepared with
  | refused => exact .same
  | counted c row => exact ⟨_,writesChallenge _ (d := countAttempt c) row id⟩
  | prepared v row => exact ⟨_,writesChallenge _ (d := countAttempt v.challenge) row id⟩

theorem acceptSimulated {db db' : PrivacyDb} {now : Time} {newId : String} {v : Verification}
    (ok : v.accept T db now newId = .ok db') : Simulated S J db db' := by
  obtain ⟨c,access,accessId,row,_,free,_,enrolled,rfl⟩ := acceptSource ok
  exact (enrolledSimulated enrolled).trans
    ⟨_,writesChallenge { db with access := access } (d := markVerified now accessId c) row id⟩

/-- The steps of challenges, without those of other flows. -/
def ChallengeAction.own : ChallengeAction δ → Bool
  | .transition _ _ | .others _ => false
  | _ => true

theorem challengeSimulated {s t : ChallengeSystem} {a : ChallengeAction δ} (own : a.own)
    (taken : ChallengeSystem.step T J s a = some t) : Simulated S J s.db t.db := by
  cases a with
  | tick now =>
    simp only [ChallengeSystem.step] at taken
    split at taken <;> cases taken
    exact .same
  | challenge call credential requester id code =>
    simp only [ChallengeSystem.step] at taken
    split at taken
    · contradiction
    · split at taken
      · contradiction
      · rename_i ok
        cases taken
        exact startSimulated ok
  | confirm call =>
    simp only [ChallengeSystem.step] at taken
    split at taken
    · split at taken <;> cases taken
      · rename_i ok
        exact confirmSimulated ok
      · exact .same
    · contradiction
  | issueIntake input actor id =>
    simp only [ChallengeSystem.step] at taken
    split at taken <;> cases taken
    rename_i ok
    exact issueSimulated ok
  | verify call input =>
    simp only [ChallengeSystem.step] at taken
    split at taken
    · contradiction
    · split at taken
      · contradiction
      · rename_i ok
        cases taken
        exact preparedSimulated (startVerificationSource ok)
  | accept call newAccess =>
    simp only [ChallengeSystem.step] at taken
    split at taken
    · split at taken <;> cases taken
      · rename_i ok
        exact acceptSimulated ok
      · exact .same
    · contradiction
  | deliver | judge | fail =>
    simp only [ChallengeSystem.step] at taken
    split at taken <;> cases taken
    exact .same
  | transition | others => cases own

/-- While no transition holds the lock, any run of challenge transactions leads the system
of deletion requests to a state that its own steps reach: what holds of them all holds
beside the challenges. -/
theorem challengesRefine {db : PrivacyDb} {p : PrivacySystem δ} (h : PrivacySystem.Reachable T.toPrivacyService J db p)
    (free : p.lock = none) {s t : ChallengeSystem} (same : s.db = p.db) {actions : List (ChallengeAction δ)}
    (own : ∀ a ∈ actions, a.own) (ran : Transition.run (ChallengeSystem.step T J) s actions = some t) :
    PrivacySystem.Reachable T.toPrivacyService J db { p with db := t.db } := by
  induction actions generalizing s p with
  | nil =>
    cases Option.some.inj ran
    exact same ▸ h
  | cons a rest ih =>
    simp only [Transition.run,bind,Option.bind_eq_some_iff] at ran
    obtain ⟨u,taken,later⟩ := ran
    obtain ⟨writes,simulated⟩ := challengeSimulated (S := T.toPrivacyService) (own a List.mem_cons_self) taken
    have reached := Transition.runReachable h (simulated p same.symm free)
    exact ih (p := { p with db := u.db }) reached free rfl (fun b mem => own b (List.mem_cons_of_mem a mem)) later

/-- A verified challenge beside the deletion requests. -/
theorem verifyingRunRefines : ∃ s, Transition.run (ChallengeSystem.step sampleChallenges sampleJournal)
      (ChallengeSystem.initial unusedTables 0) (submittingRun.take 9) = some s ∧
    s.db.challenges.rows.map (·.verifiedAt) = [some 5] ∧
    PrivacySystem.Reachable sampleService sampleJournal unusedTables.db
      { PrivacySystem.initial sampleJournal unusedTables.db with db := s.db } := by
  have ends : (Transition.run (ChallengeSystem.step sampleChallenges sampleJournal)
      (ChallengeSystem.initial unusedTables 0) (submittingRun.take 9)).map
      (fun s => s.db.challenges.rows.map (·.verifiedAt)) = some [some 5] := by decide +kernel
  obtain ⟨s,ran,verified⟩ := Option.map_eq_some_iff.mp ends
  exact ⟨s,ran,verified,challengesRefine (T := sampleChallenges) .start rfl rfl (by decide) ran⟩

end SpeedySweeties
