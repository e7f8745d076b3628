import Mathlib.Logic.Function.Basic
import SpeedySweeties.Library.Transition
import SpeedySweeties.Privacy.Challenges
import SpeedySweeties.Privacy.RequestSteps

/-! Any number of concurrent calls of `challenge` and `verify`, with the issue of
intake grants and the transitions of deletion requests. Each transaction is one step,
as they all take the privacy lock; a call may fail between two of its steps, and every
table that these transactions do not write changes freely. -/
namespace SpeedySweeties

abbrev CallId := Nat

/-- Ghost: a code that the transport has been asked to deliver. -/
structure SentCode where
  challenge : ChallengeId
  contact : Contact
  code : String

/-- Ghost: an attempt whose code has been judged. -/
structure Judgement where
  verification : Verification
  approved : Bool

inductive ChallengeCall where
  | deliver (r : ChallengeReservation)
  | confirm (r : ChallengeReservation) (reference : Option String)
  | judge (v : Verification)
  | accept (v : Verification)

structure ChallengeSystem extends ChallengeTables where
  clock : Time
  calls : CallId → Option ChallengeCall
  sent : List SentCode
  judged : List Judgement

/-- Writes of other flows. -/
structure OtherWrites where
  customers : Table Customer fun c => c.id
  identities : Table PrivacyDeletedIdentity fun i => i.phoneHash
  other : OtherTables
  setting : Option SyntheticPolicy

inductive ChallengeAction (δ : Type) where
  | tick (now : Time)
  | challenge (call : CallId) (credential : ChallengeCredential) (requester id code : String)
  | deliver (call : CallId) (accepted : Bool) (reference : Option String)
  | confirm (call : CallId)
  | issueIntake (input : IntakeIssue) (actor : IntakeActor) (id : ChallengeId)
  | verify (call : CallId) (input : VerifyInput)
  | judge (call : CallId) (provider : Bool)
  | accept (call : CallId) (newAccess : String)
  | fail (call : CallId)
  | transition (entries : List (RecoveryEntry δ)) (operation : PrivacyOperation)
  | others (writes : OtherWrites)

def ChallengeReservation.sentCode (r : ChallengeReservation) : SentCode := ⟨r.id,r.contact,r.code⟩

namespace ChallengeSystem

def initial (t : ChallengeTables) (now : Time) : ChallengeSystem := ⟨t,now,fun _ => none,[],[]⟩

def setCall (s : ChallengeSystem) (call : CallId) (c : Option ChallengeCall) : ChallengeSystem :=
  { s with calls := Function.update s.calls call c }

def setDb (s : ChallengeSystem) (db : PrivacyDb) : ChallengeSystem := { s with db := db }

variable {δ : Type} [DecidableEq δ] (S : ChallengeService δ) (J : PrivacyRecoveryJournal δ)

def step (s : ChallengeSystem) : ChallengeAction δ → Option ChallengeSystem
  | .tick now => if s.clock ≤ now then some { s with clock := now } else none
  | .challenge call credential requester id code =>
    if (s.calls call).isSome then none
    else match startChallenge S s.toChallengeTables s.clock credential requester id code with
      | .error _ => none
      | .ok (tables,r) => some ({ s with toChallengeTables := tables }.setCall call (some (.deliver r)))
  | .deliver call accepted reference =>
    match s.calls call with
    | some (.deliver r) =>
      some ({ s with sent := r.sentCode::s.sent }.setCall call
        (if accepted then some (.confirm r reference) else none))
    | _ => none
  | .confirm call =>
    match s.calls call with
    | some (.confirm r reference) =>
      match confirmReservation S s.db s.clock r reference with
      | .ok db => some ((s.setDb db).setCall call none)
      | .error _ => some (s.setCall call none)
    | _ => none
  | .issueIntake input actor id =>
    match issueIntake S s.toChallengeTables s.clock input actor id with
    | .ok (db,_) => some (s.setDb db)
    | .error _ => none
  | .verify call input =>
    if (s.calls call).isSome then none
    else match startVerification S s.db s.clock input with
      | .error _ => none
      | .ok (db,v) => some ((s.setDb db).setCall call (v.map .judge))
  | .judge call provider =>
    match s.calls call with
    | some (.judge v) =>
      some ({ s with judged := ⟨v,v.approved S provider⟩::s.judged }.setCall call
        (if v.approved S provider then some (.accept v) else none))
    | _ => none
  | .accept call newAccess =>
    match s.calls call with
    | some (.accept v) =>
      match v.accept S s.db s.clock newAccess with
      | .ok db => some ((s.setDb db).setCall call none)
      | .error _ => some (s.setCall call none)
    | _ => none
  | .fail call => if (s.calls call).isSome then some (s.setCall call none) else none
  | .transition entries operation =>
    match operation.work S.toPrivacyService J entries s.db s.clock with
    | .ok (db,_) => some (s.setDb db)
    | .error _ => none
  | .others writes =>
    some { s with
      setting := writes.setting
      db := { s.db with customers := writes.customers, identities := writes.identities, other := writes.other } }

abbrev Reachable (t : ChallengeTables) (now : Time) : ChallengeSystem → Prop :=
  Transition.Reachable (step S J) (initial t now)

end ChallengeSystem
end SpeedySweeties
