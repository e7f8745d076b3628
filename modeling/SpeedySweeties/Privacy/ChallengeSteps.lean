import SpeedySweeties.Privacy.ChallengeSystem

/-! What each transaction of a challenge writes, and how a challenge evolves under all
of them. -/
namespace SpeedySweeties

theorem mapErrorOk {ε ε' α : Type} {f : ε → ε'} {x : Except ε α} {a : α} : x.mapError f = .ok a ↔ x = .ok a := by
  cases x <;> simp [Except.mapError]

/-! ### Rows -/

/-- What no write takes away from a challenge. -/
structure Evolves (c d : PrivacyChallenge) : Prop where
  purpose : d.purpose = c.purpose
  channel : d.channel = c.channel
  destinationHash : d.destinationHash = c.destinationHash
  sent : c.delivery = .sent → d.delivery = .sent
  ready : d.delivery = .intakeReady → c.delivery = .intakeReady
  attempts : c.attempts ≤ d.attempts
  verified : c.verifiedAt.isSome → d.verifiedAt.isSome
  unconsumed : d.consumedAt = none → c.consumedAt = none ∧ d.subjectId = c.subjectId ∧
    (c.delivery ≠ .intakeReady → d.codeHash = c.codeHash)

/-- The challenge is not usable any more. -/
structure Retired (c d : PrivacyChallenge) : Prop where
  id : d.id = c.id
  purpose : d.purpose = c.purpose
  channel : d.channel = c.channel
  destinationHash : d.destinationHash = c.destinationHash
  phoneHash : d.phoneHash = c.phoneHash
  createdAt : d.createdAt = c.createdAt
  delivery : d.delivery = c.delivery
  attempts : d.attempts = c.attempts
  verifiedAt : d.verifiedAt = c.verifiedAt
  expiresAt : d.expiresAt = c.expiresAt
  consumed : d.consumedAt ≠ none

variable {δ : Type} {S : ChallengeService δ} {calls : CallId → Option ChallengeCall}

/-- The writes of a single challenge, two of them by a call that waits for its second transaction. -/
inductive RowChange (S : ChallengeService δ) (calls : CallId → Option ChallengeCall) (now : Time)
    (c : PrivacyChallenge) : PrivacyChallenge → Prop where
  | same : RowChange S calls now c c
  | retired {d : PrivacyChallenge} (h : Retired c d) : RowChange S calls now c d
  | reserved (requesterHash code : String) (ready : c.delivery = .intakeReady) (free : c.consumedAt = none) :
      RowChange S calls now c (reserveIntake S now requesterHash code c)
  | delivered (call : CallId) (r : ChallengeReservation) (reference : Option String)
      (waiting : calls call = some (.confirm r reference)) (own : c.id = r.id) :
      RowChange S calls now c (markSent reference c)
  | counted (below : c.attempts < 5) : RowChange S calls now c (countAttempt c)
  | verified (call : CallId) (v : Verification) (accessId : Option String)
      (waiting : calls call = some (.accept v)) (own : c.id = v.challenge.id) (free : c.consumedAt = none)
      (unexpired : now < c.expiresAt) :
      RowChange S calls now c (markVerified now accessId c)

theorem Evolves.refl {c : PrivacyChallenge} : Evolves c c :=
  ⟨rfl,rfl,rfl,id,id,le_rfl,id,fun free => ⟨free,rfl,fun _ => rfl⟩⟩

theorem Retired.evolves {c d : PrivacyChallenge} (h : Retired c d) : Evolves c d where
  purpose := h.purpose
  channel := h.channel
  destinationHash := h.destinationHash
  sent := h.delivery.trans
  ready := h.delivery.symm.trans
  attempts := h.attempts.symm.le
  verified := fun before => h.verifiedAt ▸ before
  unconsumed := fun free => absurd free h.consumed

theorem RowChange.evolves {now : Time} {c d : PrivacyChallenge} (h : RowChange S calls now c d) : Evolves c d := by
  cases h with
  | same => exact .refl
  | retired h => exact h.evolves
  | reserved _ _ ready free =>
    exact ⟨rfl,rfl,rfl,fun sent => by simp [ready] at sent,fun later => by simp [reserveIntake] at later,le_rfl,id,
      fun _ => ⟨free,rfl,fun differ => absurd ready differ⟩⟩
  | delivered =>
    exact ⟨rfl,rfl,rfl,fun _ => rfl,fun later => by simp [markSent] at later,le_rfl,id,
      fun free => ⟨free,rfl,fun _ => rfl⟩⟩
  | counted => exact ⟨rfl,rfl,rfl,id,id,Nat.le_succ _,id,fun free => ⟨free,rfl,fun _ => rfl⟩⟩
  | verified => exact ⟨rfl,rfl,rfl,id,id,le_rfl,fun _ => rfl,fun free => ⟨free,rfl,fun _ => rfl⟩⟩

theorem RowChange.key {now : Time} {c d : PrivacyChallenge} (h : RowChange S calls now c d) : d.id = c.id := by
  cases h with
  | retired h => exact h.id
  | _ => rfl

theorem RowChange.created {now : Time} {c d : PrivacyChallenge} (h : RowChange S calls now c d) :
    d.phoneHash = c.phoneHash ∧ d.createdAt = c.createdAt := by
  cases h with
  | retired h => exact ⟨h.phoneHash,h.createdAt⟩
  | _ => exact ⟨rfl,rfl⟩

theorem RowChange.consumed {now : Time} {c d : PrivacyChallenge} (h : RowChange S calls now c d)
    (before : c.consumedAt ≠ none) : d.consumedAt ≠ none ∧ d.verifiedAt = c.verifiedAt := by
  cases h with
  | retired h => exact ⟨h.consumed,h.verifiedAt⟩
  | verified _ _ _ _ _ free => exact absurd free before
  | _ => exact ⟨before,rfl⟩

theorem Evolves.trans {c d e : PrivacyChallenge} (h : Evolves c d) (next : Evolves d e) : Evolves c e where
  purpose := next.purpose.trans h.purpose
  channel := next.channel.trans h.channel
  destinationHash := next.destinationHash.trans h.destinationHash
  sent := fun before => next.sent (h.sent before)
  ready := fun later => h.ready (next.ready later)
  attempts := h.attempts.trans next.attempts
  verified := fun before => next.verified (h.verified before)
  unconsumed := by
    intro free
    obtain ⟨between,subject,code⟩ := next.unconsumed free
    obtain ⟨before,subject',code'⟩ := h.unconsumed between
    exact ⟨before,subject.trans subject',fun issued =>
      (code fun ready => issued (h.ready ready)).trans (code' issued)⟩

theorem supersedeChange (keep : ChallengeId) (subject : CustomerId) (now : Time) (c : PrivacyChallenge) :
    RowChange S calls now c (supersede keep subject now c) := by
  unfold supersede
  split
  · exact .retired ⟨rfl,rfl,rfl,rfl,rfl,rfl,rfl,rfl,rfl,rfl,by simp⟩
  · exact .same

theorem supersedeIntakeChange (subject : CustomerId) (now : Time) (c : PrivacyChallenge) :
    RowChange S calls now c (supersedeIntake subject now c) := by
  unfold supersedeIntake
  split
  · exact .retired ⟨rfl,rfl,rfl,rfl,rfl,rfl,rfl,rfl,rfl,rfl,by simp⟩
  · exact .same

theorem revokedChange (customer : CustomerId) (now : Time) (c : PrivacyChallenge) :
    RowChange S calls now c (revokedChallenge customer now c) := by
  unfold revokedChallenge
  split
  · exact .retired ⟨rfl,rfl,rfl,rfl,rfl,rfl,rfl,rfl,rfl,rfl,by simp⟩
  · exact .same

/-! ### Tables -/

/-- Every row of the later table comes from the row of its key, unless it is the `created` one. -/
structure Progress (S : ChallengeService δ) (calls : CallId → Option ChallengeCall) (now : Time)
    (old new : Challenges) (created : Option PrivacyChallenge) : Prop where
  forward : ∀ k c, old.find k = some c → ∃ d, new.find k = some d ∧ Evolves c d
  backward : ∀ d ∈ new.rows, created = some d ∧ old.find d.id = none ∨
    ∃ c, old.find d.id = some c ∧ RowChange S calls now c d

namespace Progress
variable {now : Time} {old new : Challenges}

theorem same : Progress S calls now old old none where
  forward := fun _ c row => ⟨c,row,.refl⟩
  backward := fun d mem => .inr ⟨d,Table.find_of_mem mem,.same⟩

theorem update {f : PrivacyChallenge → PrivacyChallenge} (keeps : ∀ c, (f c).id = c.id)
    (change : ∀ c, RowChange S calls now c (f c)) : Progress S calls now old (old.update f keeps) none where
  forward := by
    intro k c row
    exact ⟨f c,by rw [Table.find_update,row]; rfl,(change c).evolves⟩
  backward := by
    intro d mem
    obtain ⟨c,here,rfl⟩ := List.mem_map.mp mem
    exact .inr ⟨c,by rw [keeps]; exact Table.find_of_mem here,change c⟩

theorem thenPut {mid : Challenges} {c d : PrivacyChallenge} (h : Progress S calls now old mid none)
    (row : old.find d.id = some c) (change : RowChange S calls now c d) : Progress S calls now old (mid.put d) none where
  forward := by
    intro k e found
    rw [Table.find_put]
    split
    · rename_i same
      subst same
      obtain rfl : c = e := Option.some.inj (row.symm.trans found)
      exact ⟨d,rfl,change.evolves⟩
    · exact h.forward k e found
  backward := by
    intro e mem
    rcases Table.mem_put mem with rfl | ⟨mem,_⟩
    · exact .inr ⟨c,row,change⟩
    · exact h.backward e mem

theorem thenInsert {mid : Challenges} {d : PrivacyChallenge} (h : Progress S calls now old mid none)
    (fresh : old.find d.id = none) : Progress S calls now old (mid.put d) (some d) where
  forward := by
    intro k c row
    have differ : k ≠ d.id := by
      rintro rfl
      simp [fresh] at row
    rw [Table.find_put_other differ]
    exact h.forward k c row
  backward := by
    intro e mem
    rcases Table.mem_put mem with rfl | ⟨mem,_⟩
    · exact .inl ⟨rfl,fresh⟩
    · rcases h.backward e mem with ⟨absent,_⟩ | found
      · contradiction
      · exact .inr found

end Progress

/-! ### Transactions -/

/-- The credentials after the ones in use have been dated. -/
def Touched (old new : AccessCredentials) : Prop :=
  new = old ∨ ∃ a now, old.find a.id = some a ∧ new = old.put { a with lastUsedAt := now }

theorem bootstrapSource {db db' : PrivacyDb} {now : Time} {credential : ChallengeCredential} {b : Bootstrap}
    (ok : bootstrap S db now credential = .ok (db',b)) :
    ∃ access, db' = { db with access } ∧ Touched db.access access ∧ b.purpose ≠ .adminIntake := by
  unfold bootstrap at ok
  split at ok
  · simp only [bootstrapAccess,bindOk,foundOk,requireOk,pureOk,Prod.mk.injEq] at ok
    obtain ⟨a,row,_,_,_,_,_,_,_,_,_,_,_,_,rfl,rfl⟩ := ok
    exact ⟨_,rfl,.inr ⟨a,now,Table.find_of_mem (List.mem_of_find?_eq_some row),rfl⟩,by simp⟩
  · simp only [bootstrapTracking,bindOk,foundOk,requireOk,pureOk,Prod.mk.injEq] at ok
    obtain ⟨_,_,_,_,_,_,_,_,_,_,rfl,rfl⟩ := ok
    exact ⟨_,rfl,.inl rfl,by simp⟩
  · simp only [bootstrapLoyalty,bindOk,foundOk,pureOk,Prod.mk.injEq] at ok
    obtain ⟨_,_,_,_,_,_,_,_,rfl,rfl⟩ := ok
    exact ⟨_,rfl,.inl rfl,by simp⟩
  · contradiction

theorem insertChallengeOk {db db' : PrivacyDb} {c : PrivacyChallenge} :
    db.insertChallenge c = .ok db' ↔ db.challenges.find c.id = none ∧ db.setChallenge c = db' := by
  simp only [PrivacyDb.insertChallenge,bindOk,requireOk,pureOk,decide_eq_true_eq]
  constructor
  · rintro ⟨_,fresh,last⟩
    exact ⟨fresh,last⟩
  · rintro ⟨fresh,last⟩
    exact ⟨(),fresh,last⟩

theorem reserveChallengeSource {t t' : ChallengeTables} {now : Time} {credential : ChallengeCredential}
    {requester id code : String} {r : ChallengeReservation}
    (ok : reserveChallenge S t now credential requester id code = .ok (t',r)) :
    ∃ b access requesterHash, let row := newChallenge S now id code requesterHash b
      r = ⟨id,code,b.contact,b.customer.id,none⟩ ∧ b.purpose ≠ .adminIntake ∧
      t'.db = ({ t.db with access }.setChallenge row) ∧ t.db.challenges.find id = none ∧
      Touched t.db.access access ∧ recentChallenges t.db now row.phoneHash row.requesterHash none < 5 := by
  simp only [reserveChallenge,bindOk,mapErrorOk,requireOk,insertChallengeOk,pureOk,decide_eq_true_eq,
    Prod.exists,Prod.mk.injEq] at ok
  obtain ⟨_,_,db,b,boot,_,few,setting,_,_,⟨fresh,rfl⟩,rfl,rfl⟩ := ok
  obtain ⟨access,rfl,touched,purpose⟩ := bootstrapSource boot
  exact ⟨b,access,_,rfl,purpose,rfl,fresh,touched,few⟩

theorem intakeBoundChallenge {db : PrivacyDb} {now : Time} {grant : String} {sent : Bool}
    {destination : Option String} {bound : IntakeBound}
    (ok : intakeBound S.toPrivacyService db now grant sent destination = .ok bound) :
    let c := bound.challenge
    c.purpose = .adminIntake ∧ c.channel = some .email ∧ now < c.expiresAt ∧ (sent → c.delivery = .sent) ∧
      c.subjectId = some bound.customer.id ∧
      ∀ text, destination = some text → c.destinationHash =
        some (destinationHash S.toPrivacyService .email (normalizedEmail S.toPrivacyService (some text))) := by
  simp only [intakeBound,bindOk,foundOk,requireOk] at ok
  obtain ⟨claims,_,_,_,c,stored,subject,hsubject,_,_,_,usable,p,scope,_,_,_,_,_,confirmed,last⟩ := ok
  simp only [pureOk] at last
  subst last
  simp only [decide_eq_true_eq] at usable
  have owner : p.customer.id = subject := by
    simp only [intakeScope,bindOk,requireOk,pureOk] at scope
    obtain ⟨q,hq,_,_,rfl⟩ := scope
    exact (candidateScopeSource hq).1
  refine ⟨usable.1,usable.2.1,usable.2.2.2.2.1,usable.2.2.2.2.2.2.2,?_,?_⟩
  · rw [owner]
    exact hsubject
  · rintro text rfl
    simp only [confirmIntakeDestination,bindOk,requireOk,decide_eq_true_eq] at confirmed
    obtain ⟨_,same,_⟩ := confirmed
    rw [same]
    exact usable.2.2.2.2.2.2.1

/-- A challenge for the contact; an intake normalizes its destination again. -/
def Addressed (S : ChallengeService δ) (c : PrivacyChallenge) (contact : Contact) : Prop :=
  c.channel = some contact.channel ∧ ∃ text ∈ [contact.destination,
    normalizedEmail S.toPrivacyService (some contact.destination)],
    c.destinationHash = some (destinationHash S.toPrivacyService contact.channel text)

theorem redeemIntakeSource {t t' : ChallengeTables} {now : Time} {grant rawDestination requester code : String}
    {r : ChallengeReservation} (ok : redeemIntake S t now grant rawDestination requester code = .ok (t',r)) :
    ∃ c requesterHash, t.db.challenges.find c.id = some c ∧ c.consumedAt = none ∧ c.delivery = .intakeReady ∧
      c.purpose = .adminIntake ∧ c.subjectId = some r.subjectId ∧ Addressed S c r.contact ∧
      r.id = c.id ∧ r.code = code ∧ r.grant = some grant ∧
      t'.db = t.db.setChallenge (reserveIntake S now requesterHash code c) := by
  simp only [redeemIntake,bindOk,mapErrorOk,requireOk,pureOk,decide_eq_true_eq,Prod.mk.injEq] at ok
  obtain ⟨bound,hbound,setting,_,_,ready,_,_,rfl,rfl⟩ := ok
  obtain ⟨stored,free⟩ := intakeBoundSource hbound
  obtain ⟨purpose,channel,_,_,subject,destination⟩ := intakeBoundChallenge hbound
  exact ⟨_,_,stored,free,ready,purpose,subject,⟨channel,_,by simp,destination _ rfl⟩,rfl,rfl,rfl,rfl⟩

/-- An ordinary delivery retires the other challenges of its customer. -/
theorem confirmDeliverySource {db db' : PrivacyDb} {now : Time} {r : ChallengeReservation} {reference : Option String}
    (ok : confirmDelivery db now r reference = .ok db') :
    ∃ c, db.challenges.find c.id = some c ∧ c.id = r.id ∧ c.consumedAt = none ∧
      db' = { db with challenges := (db.challenges.update (supersede r.id r.subjectId now)
        (supersedeId r.id r.subjectId now)).put (markSent reference c) } := by
  simp only [confirmDelivery,bindOk,foundOk,requireOk,pureOk,decide_eq_true_eq] at ok
  obtain ⟨c,row,_,free,last⟩ := ok
  exact ⟨c,Table.find_self row,Table.find_key row,free,last.symm⟩

theorem confirmRedemptionSource {db db' : PrivacyDb} {now : Time} {r : ChallengeReservation} {grant : String}
    {reference : Option String} (ok : confirmRedemption S db now r grant reference = .ok db') :
    ∃ c, db.challenges.find c.id = some c ∧ c.id = r.id ∧ db' = db.setChallenge (markSent reference c) := by
  simp only [confirmRedemption,bindOk,foundOk,requireOk,pureOk] at ok
  obtain ⟨_,_,_,_,c,row,last⟩ := ok
  exact ⟨c,Table.find_self row,Table.find_key row,last.symm⟩

theorem issueIntakeSource {t : ChallengeTables} {now : Time} {input : IntakeIssue} {actor : IntakeActor}
    {id : ChallengeId} {db : PrivacyDb} {grant : String} (ok : issueIntake S t now input actor id = .ok (db,grant)) :
    ∃ p claims requesterHash, let row := intakeChallenge S now requesterHash p claims
      claims.id = id ∧ t.db.challenges.find id = none ∧
      recentChallenges t.db now row.phoneHash row.requesterHash none < 5 ∧
      db = { t.db with challenges := (t.db.challenges.update (supersedeIntake p.customer.id now)
        (supersedeIntakeId p.customer.id now)).put row } := by
  simp only [issueIntake,bindOk,mapErrorOk,requireOk,insertChallengeOk,pureOk,decide_eq_true_eq,
    Prod.mk.injEq] at ok
  obtain ⟨_,_,_,_,_,_,p,_,_,_,_,_,_,_,_,few,_,⟨fresh,rfl⟩,rfl,_⟩ := ok
  refine ⟨p,intakeClaimsOf S now id actor p input _,_,rfl,?_,few,rfl⟩
  rw [Table.find_update] at fresh
  exact Option.map_eq_none_iff.mp fresh

/-- Whether the attempt is refused or not, at most one challenge is counted. -/
inductive Prepared (now : Time) (db : PrivacyDb) : PrivacyDb → Option Verification → Prop where
  | refused : Prepared now db db none
  | counted (c : PrivacyChallenge) (row : db.challenges.find c.id = some c) (below : c.attempts < 5) :
      Prepared now db (db.setChallenge (countAttempt c)) none
  | prepared (v : Verification) (row : db.challenges.find v.challenge.id = some v.challenge)
      (below : v.challenge.attempts < 5) (sent : v.challenge.delivery = .sent)
      (free : v.challenge.consumedAt = none) (unexpired : now < v.challenge.expiresAt) :
      Prepared now db (db.setChallenge (countAttempt v.challenge)) (some v)

theorem startVerificationSource {db db' : PrivacyDb} {now : Time} {input : VerifyInput} {v : Option Verification}
    (ok : startVerification S db now input = .ok (db',v)) : Prepared now db db' v := by
  unfold startVerification at ok
  split at ok
  · simp only [bindOk,prepareIntake] at ok
    obtain ⟨_,_,_,_,bound,hbound,ok⟩ := ok
    split at ok
    · cases Except.ok.inj ok
      exact .refused
    · rename_i within
      cases Except.ok.inj ok
      obtain ⟨stored,free⟩ := intakeBoundSource hbound
      obtain ⟨_,_,unexpired,sent,_⟩ := intakeBoundChallenge hbound
      exact .prepared ⟨bound.challenge,_,_⟩ stored (by simp only; omega) (sent rfl) free unexpired
  · unfold prepareVerification at ok
    split at ok
    · cases Except.ok.inj ok
      exact .refused
    · rename_i c row
      split at ok
      · rename_i usable
        simp only [verifiable,decide_eq_true_eq] at usable
        simp only [bindOk,pureOk,Prod.mk.injEq] at ok
        obtain ⟨contact,_,rfl,rfl⟩ := ok
        cases contact with
        | none => exact .counted c (Table.find_self row) usable.2.2.2.1
        | some contact =>
          exact .prepared ⟨c,_,_⟩ (Table.find_self row) usable.2.2.2.1 usable.2.2.2.2.1 usable.2.2.1 usable.2.1
      · cases Except.ok.inj ok
        exact .refused

/-- The credentials after a token has been enrolled for a customer. -/
def Enrolled (old new : AccessCredentials) : Prop :=
  new = old ∨ ∃ a customer now, a.customerId = customer ∧ a.revokedAt = none ∧
    (∀ other, old.find a.id = some other → other.customerId = customer) ∧
    new = (old.update (revokeAccess customer now) (revokeAccessId customer now)).put a

theorem verifiedAccessSource {db : PrivacyDb} {now : Time} {c : PrivacyChallenge} {newId : String}
    {accessToken : Option String} {customer : Customer} {sourceOrder : Order} {contact : Contact}
    {destinationHash accessId : String} {access : AccessCredentials}
    (ok : verifiedAccess S db now c newId accessToken customer sourceOrder contact destinationHash =
      .ok (access,accessId)) : Enrolled db.access access := by
  unfold verifiedAccess at ok
  split at ok
  · cases Except.ok.inj ok
    exact .inl rfl
  · simp only [bindOk,foundOk,enrolAccess] at ok
    obtain ⟨token,_,ok⟩ := ok
    split at ok
    · rename_i existing row
      simp only [bindOk,requireOk,pureOk,decide_eq_true_eq,Prod.mk.injEq] at ok
      obtain ⟨_,owner,rfl,_⟩ := ok
      refine .inr ⟨{ existing with
        sourceOrderId := sourceOrder.id, channel := contact.channel, destinationHash := destinationHash
        revokedAt := none, lastUsedAt := now },_,now,owner,rfl,?_,rfl⟩
      intro other found
      have same := Table.find_of_mem (List.mem_of_find?_eq_some row)
      cases same.symm.trans found
      exact owner
    · simp only [bindOk,requireOk,pureOk,decide_eq_true_eq,Prod.mk.injEq] at ok
      obtain ⟨_,fresh,rfl,_⟩ := ok
      refine .inr ⟨newAccess now newId (S.digest token) customer sourceOrder contact destinationHash,_,now,
        rfl,rfl,?_,rfl⟩
      intro other found
      simp [newAccess,fresh] at found

theorem acceptSource {db db' : PrivacyDb} {now : Time} {newId : String} {v : Verification}
    (ok : v.accept S db now newId = .ok db') :
    ∃ c access accessId, db.challenges.find c.id = some c ∧ c.id = v.challenge.id ∧ c.consumedAt = none ∧
      now < c.expiresAt ∧ Enrolled db.access access ∧
      db' = { db with access, challenges := db.challenges.put (markVerified now accessId c) } := by
  unfold Verification.accept at ok
  split at ok
  · simp only [acceptVerification,bindOk,foundOk,requireOk,pureOk,decide_eq_true_eq,Prod.exists] at ok
    obtain ⟨c,row,customer,_,source,_,destination,_,_,usable,contact,_,_,_,access,accessId,enrol,last⟩ := ok
    exact ⟨c,access,_,Table.find_self row,Table.find_key row,usable.1,usable.2.1,verifiedAccessSource enrol,
      last.symm⟩
  · simp only [acceptIntake,bindOk,requireOk,pureOk,decide_eq_true_eq] at ok
    obtain ⟨bound,hbound,_,checked,last⟩ := ok
    obtain ⟨stored,free⟩ := intakeBoundSource hbound
    obtain ⟨_,_,unexpired,_⟩ := intakeBoundChallenge hbound
    exact ⟨_,db.access,_,stored,checked.1,free,unexpired,.inl rfl,last.symm⟩

/-! ### Steps -/

/-- A challenge as it is created: unsent, and one of at most five in its hour. -/
structure NewRow (db : PrivacyDb) (now : Time) (c : PrivacyChallenge) : Prop where
  attempts : c.attempts = 0
  unsent : c.delivery ≠ .sent
  verifiedAt : c.verifiedAt = none
  createdAt : c.createdAt = now
  few : recentChallenges db now c.phoneHash c.requesterHash none < 5

theorem requestProgress {db db' : PrivacyDb} {now : Time} {id : PrivacyRequestId}
    (h : RequestStep S.toPrivacyService db now db' id) :
    Progress S calls now db.challenges db'.challenges none := by
  cases h with
  | same => exact .same
  | submitted input audit c customer sourceOrder timeframe accepted =>
    exact Progress.same.thenPut accepted.challenge (.retired ⟨rfl,rfl,rfl,rfl,rfl,rfl,rfl,rfl,rfl,rfl,by simp⟩)
  | recovered input audit c customer active accepted =>
    exact Progress.same.thenPut accepted.challenge (.retired ⟨rfl,rfl,rfl,rfl,rfl,rfl,rfl,rfl,rfl,rfl,by simp⟩)
  | cancelled => exact .same
  | held => exact .same
  | erased actor decision p => exact Progress.update (revokedChallengeId p.customer.id now) (revokedChange _ _)
  | resolved => exact .same
  | completed => exact .same

theorem preparedProgress {db db' : PrivacyDb} {now : Time} {v : Option Verification} (h : Prepared now db db' v) :
    Progress S calls now db.challenges db'.challenges none := by
  cases h with
  | refused => exact .same
  | counted c row below => exact Progress.same.thenPut row (.counted below)
  | prepared v row below => exact Progress.same.thenPut row (.counted below)

theorem confirmProgress {db db' : PrivacyDb} {now : Time} {call : CallId} {r : ChallengeReservation}
    {reference : Option String} (waiting : calls call = some (.confirm r reference))
    (ok : confirmReservation S db now r reference = .ok db') :
    Progress S calls now db.challenges db'.challenges none := by
  unfold confirmReservation at ok
  split at ok
  · obtain ⟨c,row,own,rfl⟩ := confirmRedemptionSource ok
    exact Progress.same.thenPut row (.delivered call r reference waiting own)
  · obtain ⟨c,row,own,_,rfl⟩ := confirmDeliverySource ok
    exact (Progress.update _ (supersedeChange _ _ _)).thenPut row (.delivered call r reference waiting own)

theorem startProgress {t t' : ChallengeTables} {now : Time} {credential : ChallengeCredential}
    {requester id code : String} {r : ChallengeReservation}
    (ok : startChallenge S t now credential requester id code = .ok (t',r)) :
    ∃ created, Progress S calls now t.db.challenges t'.db.challenges created ∧
      ∀ c, created = some c → NewRow t.db now c := by
  unfold startChallenge at ok
  split at ok
  · simp only [bindOk] at ok
    obtain ⟨_,_,ok⟩ := ok
    obtain ⟨c,requesterHash,row,free,ready,_,_,_,_,_,_,same⟩ := redeemIntakeSource ok
    rw [same]
    exact ⟨none,Progress.same.thenPut row (.reserved requesterHash code ready free),by simp⟩
  · obtain ⟨b,access,requesterHash,_,_,same,fresh,_,few⟩ := reserveChallengeSource ok
    rw [same]
    refine ⟨_,Progress.same.thenInsert fresh,?_⟩
    intro c here
    cases Option.some.inj here
    exact ⟨rfl,by simp [newChallenge],rfl,rfl,few⟩

theorem issueProgress {t : ChallengeTables} {now : Time} {input : IntakeIssue} {actor : IntakeActor}
    {id : ChallengeId} {db : PrivacyDb} {grant : String} (ok : issueIntake S t now input actor id = .ok (db,grant)) :
    ∃ created, Progress S calls now t.db.challenges db.challenges created ∧
      ∀ c, created = some c → NewRow t.db now c := by
  obtain ⟨p,claims,requesterHash,rfl,fresh,few,rfl⟩ := issueIntakeSource ok
  refine ⟨_,(Progress.update _ (supersedeIntakeChange _ _)).thenInsert fresh,?_⟩
  intro c here
  cases Option.some.inj here
  exact ⟨rfl,by simp [intakeChallenge],rfl,rfl,few⟩

theorem acceptProgress {db db' : PrivacyDb} {now : Time} {call : CallId} {newId : String} {v : Verification}
    (waiting : calls call = some (.accept v)) (ok : v.accept S db now newId = .ok db') :
    Progress S calls now db.challenges db'.challenges none := by
  obtain ⟨c,access,accessId,row,own,free,unexpired,_,rfl⟩ := acceptSource ok
  exact Progress.same.thenPut row (.verified call v accessId waiting own free unexpired)

theorem stepProgress [DecidableEq δ] {J : PrivacyRecoveryJournal δ} {s t : ChallengeSystem} {a : ChallengeAction δ}
    (taken : ChallengeSystem.step S J s a = some t) :
    ∃ created, Progress S s.calls s.clock s.db.challenges t.db.challenges created ∧
      ∀ c, created = some c → NewRow s.db s.clock c := by
  have unchanged : ∃ created, Progress S s.calls s.clock s.db.challenges s.db.challenges created ∧
      ∀ c, created = some c → NewRow s.db s.clock c := ⟨none,.same,by simp⟩
  cases a with
  | tick now =>
    simp only [ChallengeSystem.step] at taken
    split at taken <;> cases taken
    exact unchanged
  | challenge call credential requester id code =>
    simp only [ChallengeSystem.step] at taken
    split at taken
    · contradiction
    · split at taken
      · contradiction
      · rename_i ok
        cases taken
        exact startProgress ok
  | deliver call accepted reference =>
    simp only [ChallengeSystem.step] at taken
    split at taken <;> cases taken
    exact unchanged
  | confirm call =>
    simp only [ChallengeSystem.step] at taken
    split at taken
    · rename_i waiting
      split at taken <;> cases taken
      · rename_i ok
        exact ⟨none,confirmProgress waiting ok,by simp⟩
      · exact unchanged
    · contradiction
  | issueIntake input actor id =>
    simp only [ChallengeSystem.step] at taken
    split at taken <;> cases taken
    rename_i ok
    exact issueProgress ok
  | verify call input =>
    simp only [ChallengeSystem.step] at taken
    split at taken
    · contradiction
    · split at taken
      · contradiction
      · rename_i ok
        cases taken
        exact ⟨none,preparedProgress (startVerificationSource ok),by simp⟩
  | judge call provider =>
    simp only [ChallengeSystem.step] at taken
    split at taken <;> cases taken
    exact unchanged
  | accept call newAccess =>
    simp only [ChallengeSystem.step] at taken
    split at taken
    · rename_i waiting
      split at taken <;> cases taken
      · rename_i ok
        exact ⟨none,acceptProgress waiting ok,by simp⟩
      · exact unchanged
    · contradiction
  | fail call =>
    simp only [ChallengeSystem.step] at taken
    split at taken <;> cases taken
    exact unchanged
  | transition entries operation =>
    simp only [ChallengeSystem.step] at taken
    split at taken <;> cases taken
    rename_i ok
    exact ⟨none,requestProgress (workSource ok),by simp⟩
  | others writes =>
    cases taken
    exact unchanged

end SpeedySweeties
