import Mathlib.Logic.Function.Basic
import SpeedySweeties.Library.Transition
import SpeedySweeties.Privacy.Requests

/-! `transition` as any number of processes run it over one database and one journal
store. Its transaction starts with the advisory lock and ends in a commit or a
rollback; the intent is appended before the commit and the commit entry after it. A
process may fail between any two of its steps, and an append whose acknowledgement
is lost may still reach the store later, or never. -/
namespace SpeedySweeties

abbrev ProcessId := Nat

variable {δ : Type}

/-- What the transaction has established before `work` runs. -/
structure CheckedTransition (δ : Type) where
  head : RecoveryHead
  beforeEvidenceDigest : δ
  scope : Option RecoveryScope

inductive TransitionPhase (δ : Type) where
  | waiting
  | locked
  | checked (checked : CheckedTransition δ)
  | worked (checked : CheckedTransition δ) (reply : PrivacyReply) (db : PrivacyDb)
  | prepared (head : RecoveryHead) (intent : RecoveryEntry δ) (db : PrivacyDb)
  | acknowledged (intent : RecoveryEntry δ) (db : PrivacyDb)
  | committed (intent : RecoveryEntry δ)

/-- The phases in which the transaction holds the advisory lock. -/
def TransitionPhase.open : TransitionPhase δ → Bool
  | .waiting | .committed _ => false
  | _ => true

/-- Other writers, as the open transaction sees them. -/
def TransitionPhase.mapDb (f : PrivacyDb → PrivacyDb) : TransitionPhase δ → TransitionPhase δ
  | .worked start reply db => .worked start reply (f db)
  | .prepared head intent db => .prepared head intent (f db)
  | .acknowledged intent db => .acknowledged intent (f db)
  | phase => phase

structure TransitionProcess (δ : Type) where
  operation : PrivacyOperation
  attempt : Nat
  phase : TransitionPhase δ

structure PrivacySystem (δ : Type) where
  db : PrivacyDb
  entries : List (RecoveryEntry δ)
  lock : Option ProcessId
  processes : ProcessId → Option (TransitionProcess δ)
  /-- Appends that nobody waits for any more, with the head they expect. -/
  inFlight : List (RecoveryHead × RecoveryEntry δ)

/-- `challenge` to `access` are written under the advisory lock by other flows;
`customer` and `others` without it. The rows that `others` leaves are not constrained. -/
inductive ForeignWrite where
  | issueChallenge (challenge : PrivacyChallenge)
  | updateChallenge (challenge : PrivacyChallenge)
  | access (credential : PrivacyAccessCredential)
  | createCustomer (customer : Customer)
  | editCustomer (customer : Customer)
  | others (published working : OtherTables)

inductive PrivacyAction (δ : Type) where
  | start (process : ProcessId) (operation : PrivacyOperation) (now : Time)
  | acquire (process : ProcessId)
  | check (process : ProcessId)
  | work (process : ProcessId) (now : Time)
  | record (process : ProcessId) (operation : String)
  | append (process : ProcessId)
  | loseAcknowledgement (process : ProcessId)
  | commit (process : ProcessId)
  | conflict (process : ProcessId)
  | complete (process : ProcessId)
  | loseCompletion (process : ProcessId)
  | fail (process : ProcessId)
  | arrive (index : Nat)
  | resolve (reviewDigest : δ)
  | write (write : ForeignWrite)

variable (S : PrivacyService δ) (J : PrivacyRecoveryJournal δ)

/-! ### The parts of `transition` -/

section Transition
variable [DecidableEq δ]

def checkTransition (entries : List (RecoveryEntry δ)) (db : PrivacyDb) (id : PrivacyRequestId) :
    Except PrivacyFailure (CheckedTransition δ) := do
  let history ← J.ready entries
  let previous := history.cases.find id
  let before ← recoveryState S db id (previous.map (·.scope))
  match before with
  | none => pure ⟨history.prior,S.evidenceDigest (.requestAbsent id),previous.map (·.scope)⟩
  | some before => do
    let previous ← found previous (.recovery "RECOVERY_UNRECORDED_DECISION")
    require (before.request = previous.request ∧ before.tasks = previous.tasks)
      (.recovery "RECOVERY_UNRECORDED_DECISION")
    pure ⟨history.prior,scopedRecoveryEvidence S db id before.scope,some before.scope⟩

omit [DecidableEq δ] in
def recordIntent (checked : CheckedTransition δ) (db : PrivacyDb) (request : PrivacyRequestId)
    (event operation : String) : Except PrivacyFailure (RecoveryEntry δ) := do
  let state ← recoveryState S db request checked.scope
  let state ← found state (.recovery "RECOVERY_STATE_REQUIRED")
  pure (J.entry checked.head operation (.intent {
    event, state
    evidence := some ⟨some checked.beforeEvidenceDigest,scopedRecoveryEvidence S db request state.scope⟩ }))

/-- `outcomeEvidence` and `resolvePending`, under the operator's locks. -/
def resolvePending (entries : List (RecoveryEntry δ)) (db : PrivacyDb) (reviewDigest : δ) :
    Except PrivacyFailure (RecoveryHead × RecoveryEntry δ) := do
  let history ← J.inspect entries false true
  let (intent,payload) ← found history.pending (.recovery "RECOVERY_STALE_PLAN")
  let evidence ← found payload.evidence (.recovery "OPERATOR_LEGACY_OUTCOME_EVIDENCE_REQUIRED")
  let observed := observedEvidence S db payload.state.request.id payload.state.scope
  let before := evidence.beforeEvidenceDigest = some observed
  let after := evidence.afterEvidenceDigest = observed
  require (decide before ≠ decide after) (.recovery "OPERATOR_OUTCOME_AMBIGUOUS")
  pure (history.prior,J.entry history.prior intent.operation (.resolve {
    intentHash := intent.hash, outcome := if after then .committed else .notCommitted
    evidenceDigest := observed, reviewDigest }))

end Transition

/-! ### Steps -/

namespace PrivacySystem

def initial (db : PrivacyDb) : PrivacySystem δ := ⟨db,[J.genesis],none,fun _ => none,[]⟩

def setProcess (s : PrivacySystem δ) (process : ProcessId) (p : Option (TransitionProcess δ)) :
    PrivacySystem δ :=
  { s with processes := Function.update s.processes process p }

def advance (s : PrivacySystem δ) (process : ProcessId) (p : TransitionProcess δ)
    (phase : TransitionPhase δ) : PrivacySystem δ :=
  s.setProcess process (some { p with phase })

def unlock (s : PrivacySystem δ) (process : ProcessId) : PrivacySystem δ :=
  { s with lock := if s.lock = some process then none else s.lock }

/-- The process is gone, its transaction rolled back. -/
def abort (s : PrivacySystem δ) (process : ProcessId) : PrivacySystem δ :=
  (s.setProcess process none).unlock process

/-- The store accepts an entry only at the sequence number after the expected head. -/
def accepts (s : PrivacySystem δ) (expected : RecoveryHead) : Bool := expected.sequence = s.entries.length

def push (s : PrivacySystem δ) (e : RecoveryEntry δ) : PrivacySystem δ :=
  { s with entries := s.entries ++ [e] }

@[simp] theorem pushDb (s : PrivacySystem δ) (e : RecoveryEntry δ) : (s.push e).db = s.db := rfl

def mapDb (s : PrivacySystem δ) (published working : PrivacyDb → PrivacyDb) : PrivacySystem δ :=
  { s with
    db := published s.db
    processes := fun process =>
      (s.processes process).map fun p => { p with phase := p.phase.mapDb working } }

def writeForeign (s : PrivacySystem δ) : ForeignWrite → Option (PrivacySystem δ)
  | .issueChallenge c =>
    if s.lock.isSome ∨ (s.db.challenges.find c.id).isSome ∨ c.consumedAt.isSome then none
    else some { s with db := { s.db with challenges := s.db.challenges.put c } }
  | .updateChallenge c => do
    let old ← s.db.challenges.find c.id
    if s.lock.isSome ∨ (old.consumedAt.isSome ∧ c.consumedAt.isNone) then none
    else some { s with db := { s.db with challenges := s.db.challenges.put c } }
  | .access credential =>
    if s.lock.isSome then none
    else some { s with db := { s.db with access := s.db.access.put credential } }
  | .createCustomer c =>
    -- a new id never names an earlier customer
    if s.lock.isSome ∨ (s.db.customers.find c.id).isSome ∨
        c.id ∈ s.db.consumptions.map Consumption.customer then none
    else some { s with db := { s.db with customers := s.db.customers.put c } }
  | .editCustomer c =>
    let edit (db : PrivacyDb) : PrivacyDb :=
      if (db.customers.find c.id).isSome then { db with customers := db.customers.put c } else db
    some (s.mapDb edit edit)
  | .others published working =>
    some (s.mapDb (fun db => { db with other := published }) fun db => { db with other := working })

variable [DecidableEq δ]

def step (s : PrivacySystem δ) : PrivacyAction δ → Option (PrivacySystem δ)
  | .start process operation now =>
    if (s.processes process).isSome then none
    else match operation.admit S now with
      | .error _ => none
      | .ok operation => some (s.setProcess process (some ⟨operation,0,.waiting⟩))
  | .acquire process => do
    let p ← s.processes process
    match p.phase with
    | .waiting =>
      if s.lock.isSome then none
      else some { s.advance process p .locked with lock := some process }
    | _ => none
  | .check process => do
    let p ← s.processes process
    match p.phase with
    | .locked =>
      match checkTransition S J s.entries s.db p.operation.id with
      | .ok checked => some (s.advance process p (.checked checked))
      | .error _ => some (s.abort process)
    | _ => none
  | .work process now => do
    let p ← s.processes process
    match p.phase with
    | .checked checked =>
      match p.operation.work S J s.entries s.db now with
      | .ok (db,reply) => some (s.advance process p (.worked checked reply db))
      | .error _ => some (s.abort process)
    | _ => none
  | .record process operation => do
    let p ← s.processes process
    match p.phase with
    | .worked checked reply db =>
      match recordIntent S J checked db (reply.requestId p.operation.id) p.operation.event operation with
      | .ok intent => some (s.advance process p (.prepared checked.head intent db))
      | .error _ => some (s.abort process)
    | _ => none
  | .append process => do
    let p ← s.processes process
    match p.phase with
    | .prepared head intent db =>
      if s.accepts head then some ((s.advance process p (.acknowledged intent db)).push intent)
      else some (s.abort process)
    | _ => none
  | .loseAcknowledgement process => do
    let p ← s.processes process
    match p.phase with
    | .prepared head intent _ => some { s.abort process with inFlight := s.inFlight ++ [(head,intent)] }
    | _ => none
  | .commit process => do
    let p ← s.processes process
    match p.phase with
    | .acknowledged intent db => some { (s.advance process p (.committed intent)).unlock process with db := db }
    | _ => none
  | .conflict process => do
    let p ← s.processes process
    if p.phase.open ∧ p.attempt < 2 then
      some ((s.setProcess process (some ⟨p.operation,p.attempt + 1,.waiting⟩)).unlock process)
    else none
  | .complete process => do
    let p ← s.processes process
    match p.phase with
    | .committed intent =>
      let finished := s.setProcess process none
      if s.accepts intent.head then
        some (finished.push (J.entry intent.head intent.operation (.commit intent.hash)))
      else some finished
    | _ => none
  | .loseCompletion process => do
    let p ← s.processes process
    match p.phase with
    | .committed intent => some { s.setProcess process none with
        inFlight := s.inFlight ++ [(intent.head,J.entry intent.head intent.operation (.commit intent.hash))] }
    | _ => none
  | .fail process => do
    let _ ← s.processes process
    some (s.abort process)
  | .arrive index => do
    let (head,e) ← s.inFlight[index]?
    let rest := { s with inFlight := s.inFlight.eraseIdx index }
    if s.accepts head then some (rest.push e) else some rest
  | .resolve reviewDigest =>
    if s.lock.isSome then none
    else match resolvePending S J s.entries s.db reviewDigest with
      | .error _ => none
      | .ok resolution => some { s with inFlight := s.inFlight ++ [resolution] }
  | .write write => s.writeForeign write

abbrev Reachable (db : PrivacyDb) : PrivacySystem δ → Prop :=
  Transition.Reachable (step S J) (initial J db)

end PrivacySystem
end SpeedySweeties
