import SpeedySweeties.Privacy.RecoveryState

/-! The protected decision journal: a hash chain of entries, of which `inspect`
accepts only complete and well-formed histories. The kind and the payload format of
an entry are one type here; digests are well formed by their type. -/
namespace SpeedySweeties

structure RecoveryHead where
  sequence : Nat
  hash : String
  deriving DecidableEq, Repr

structure SuccessorCoverage (δ : Type) where
  sourceScope : String
  sourceHead : RecoveryHead
  targetScope : String
  sourceCount : Nat
  retainedCount : Nat
  removedCount : Nat
  sourceDigest : δ
  retainedDigest : δ
  removedDigest : δ
  reviewDigest : δ
  reviewedAt : Time
  deriving DecidableEq, Repr

inductive ResolutionOutcome where | committed | notCommitted deriving DecidableEq, Repr

structure IntentEvidence (δ : Type) where
  beforeEvidenceDigest : Option δ
  afterEvidenceDigest : δ
  deriving DecidableEq, Repr

/-- Without evidence this is the payload of format 1. -/
structure IntentPayload (δ : Type) where
  event : String
  state : RecoveryState
  evidence : Option (IntentEvidence δ)
  deriving DecidableEq, Repr

structure Resolution (δ : Type) where
  intentHash : String
  outcome : ResolutionOutcome
  evidenceDigest : δ
  reviewDigest : δ
  deriving DecidableEq, Repr

inductive RecoveryPayload (δ : Type) where
  | genesis
  | intent (payload : IntentPayload δ)
  | commit (intentHash : String)
  | resolve (payload : Resolution δ)
  | sealScope (coverage : SuccessorCoverage δ)
  | checkpoint (coverage : SuccessorCoverage δ) (sealedHead : RecoveryHead)
  | retained (state : RecoveryState)
  | covered (checkpointHash : String)
  deriving DecidableEq, Repr

structure UnsealedEntry (δ : Type) where
  sequence : Nat
  previous : String
  scope : String
  operation : String
  payload : RecoveryPayload δ
  deriving DecidableEq, Repr

structure RecoveryEntry (δ : Type) extends UnsealedEntry δ where
  hash : String
  deriving DecidableEq, Repr

variable {δ : Type}

def RecoveryEntry.head (e : RecoveryEntry δ) : RecoveryHead := ⟨e.sequence,e.hash⟩

def journalHead (entries : List (RecoveryEntry δ)) : RecoveryHead :=
  (entries.getLast?.map RecoveryEntry.head).getD ⟨0,""⟩

structure PrivacyRecoveryJournal (δ : Type) where
  scope : String
  sealValue : UnsealedEntry δ → String
  casesDigest : List RecoveryState → δ

/-- The cases in the order of their first entry, as a JavaScript map keeps them. -/
abbrev RecoveryCases := Table RecoveryState fun s => s.request.id

structure Inspection (δ : Type) where
  prior : RecoveryHead
  cases : RecoveryCases
  pending : Option (RecoveryEntry δ × IntentPayload δ)
  checkpoint : Option (SuccessorCoverage δ × RecoveryHead)
  coverageHead : Option RecoveryHead
  sealed : Option (SuccessorCoverage δ)

namespace PrivacyRecoveryJournal
variable (J : PrivacyRecoveryJournal δ)

/-- The entry that `append` offers to the store. -/
def entry (head : RecoveryHead) (operation : String) (payload : RecoveryPayload δ) : RecoveryEntry δ :=
  let value : UnsealedEntry δ := ⟨head.sequence + 1,head.hash,J.scope,operation,payload⟩
  { value with hash := J.sealValue value }

def genesis : RecoveryEntry δ := J.entry ⟨0,""⟩ "coverage" .genesis

/-- A state decided later keeps the review of the earlier one. -/
def settle (cases : RecoveryCases) (state : RecoveryState) : RecoveryCases :=
  cases.put { state with
    recoveryReview := state.recoveryReview <|> (cases.find state.request.id).bind (·.recoveryReview) }

def settleOutcome (cases : RecoveryCases) (state : RecoveryState) : ResolutionOutcome → RecoveryCases
  | .committed => settle cases state
  | .notCommitted => cases

def historyInvalid : PrivacyFailure := .recovery "RECOVERY_HISTORY_INVALID"
def checkpointInvalid : PrivacyFailure := .recovery "RECOVERY_CHECKPOINT_INVALID"
def resolutionInvalid : PrivacyFailure := .recovery "RECOVERY_RESOLUTION_INVALID"

def validCoverage (c : SuccessorCoverage δ) : Bool :=
  c.targetScope ≠ "" ∧ c.sourceScope ≠ "" ∧ c.targetScope ≠ c.sourceScope ∧ 1 ≤ c.sourceHead.sequence ∧
    c.retainedCount + c.removedCount = c.sourceCount

/-- `RESOLVE` must name the evidence digest that the intent recorded for its outcome. -/
def Resolution.supported [DecidableEq δ] (r : Resolution δ) (intent : IntentPayload δ) : Bool :=
  match intent.evidence with
  | none => false
  | some e =>
    match r.outcome with
    | .committed => e.afterEvidenceDigest = r.evidenceDigest
    | .notCommitted => e.beforeEvidenceDigest = some r.evidenceDigest

variable [DecidableEq δ]

def inspectFirst (st : Inspection δ) (e : RecoveryEntry δ) : Except PrivacyFailure (Inspection δ) :=
  match e.payload with
  | .genesis => .ok st
  | .checkpoint coverage sealedHead =>
    if validCoverage coverage ∧ coverage.targetScope = J.scope ∧
        sealedHead.sequence = coverage.sourceHead.sequence + 1 then
      .ok { st with checkpoint := some (coverage,sealedHead) }
    else .error checkpointInvalid
  | _ => .error (.recovery "RECOVERY_COVERAGE_REQUIRED")

def inspectCovering (enrollment : String) (coverage : SuccessorCoverage δ) (st : Inspection δ)
    (e : RecoveryEntry δ) : Except PrivacyFailure (Inspection δ) :=
  match e.payload with
  | .retained state =>
    if (st.cases.find state.request.id).isSome ∨ coverage.retainedCount ≤ st.cases.rows.length then
      .error checkpointInvalid
    else .ok { st with cases := st.cases.put state }
  | .covered checkpointHash =>
    if checkpointHash = enrollment ∧ st.cases.rows.length = coverage.retainedCount ∧
        J.casesDigest st.cases.rows = coverage.retainedDigest then
      .ok { st with coverageHead := some e.head }
    else .error checkpointInvalid
  | _ => .error checkpointInvalid

def inspectDecision (st : Inspection δ) (e : RecoveryEntry δ) : Except PrivacyFailure (Inspection δ) :=
  match e.payload, st.pending with
  | .sealScope c, none =>
    if validCoverage c ∧ c.sourceScope = J.scope ∧ c.sourceHead = st.prior ∧
        c.sourceCount = st.cases.rows.length ∧ c.sourceDigest = J.casesDigest st.cases.rows then
      .ok { st with sealed := some c }
    else .error (.recovery "RECOVERY_SEAL_INVALID")
  | .intent payload, none => .ok { st with pending := some (e,payload) }
  | .commit intentHash, some (intent,payload) =>
    if e.operation = intent.operation ∧ intentHash = intent.hash then
      .ok { st with cases := settle st.cases payload.state, pending := none }
    else .error historyInvalid
  | .resolve r, some (intent,payload) =>
    if e.operation = intent.operation then
      if r.intentHash = intent.hash ∧ Resolution.supported r payload then
        .ok { st with cases := settleOutcome st.cases payload.state r.outcome, pending := none }
      else .error resolutionInvalid
    else .error historyInvalid
  | _, _ => .error historyInvalid

def inspectEntry (enrollment : String) (st : Inspection δ) (e : RecoveryEntry δ) :
    Except PrivacyFailure (Inspection δ) := do
  if e.scope ≠ J.scope ∨ e.sequence ≠ st.prior.sequence + 1 ∨ e.previous ≠ st.prior.hash ∨
      e.hash ≠ J.sealValue e.toUnsealedEntry then throw historyInvalid
  let next ←
    if e.sequence = 1 then J.inspectFirst st e
    else if st.sealed.isSome then throw (.recovery "RECOVERY_SEALED_HISTORY_CHANGED")
    else match st.checkpoint, st.coverageHead with
      | some (coverage,_), none => J.inspectCovering enrollment coverage st e
      | _, _ => J.inspectDecision st e
  pure { next with prior := e.head }

def blank : Inspection δ := ⟨⟨0,""⟩,Table.empty,none,none,none,none⟩

def history (entries : List (RecoveryEntry δ)) : Except PrivacyFailure (Inspection δ) :=
  match entries with
  | [] => .error (.recovery "RECOVERY_COVERAGE_REQUIRED")
  | first::_ => entries.foldlM (J.inspectEntry first.hash) blank

def inspect (entries : List (RecoveryEntry δ)) (allowSealed allowPending : Bool) :
    Except PrivacyFailure (Inspection δ) := do
  let st ← J.history entries
  if st.prior ≠ journalHead entries then throw (.recovery "RECOVERY_HISTORY_INCOMPLETE")
  if st.checkpoint.isSome ∧ st.coverageHead.isNone then throw (.recovery "RECOVERY_UNFINISHED_COVERAGE")
  if st.pending.isSome ∧ ¬ allowPending then throw (.recovery "RECOVERY_UNFINISHED_OPERATION")
  if st.sealed.isSome ∧ ¬ allowSealed then throw (.recovery "RECOVERY_SCOPE_SEALED")
  pure st

def ready (entries : List (RecoveryEntry δ)) : Except PrivacyFailure (Inspection δ) :=
  J.inspect entries false false

theorem historyAppend {entries : List (RecoveryEntry δ)} (enrolled : entries ≠ [])
    (e : RecoveryEntry δ) : J.history (entries ++ [e]) =
      (J.history entries).bind fun st => J.inspectEntry (entries.head enrolled).hash st e := by
  cases entries with
  | nil => contradiction
  | cons first rest =>
    change (first::rest ++ [e]).foldlM (J.inspectEntry first.hash) blank = _
    rw [List.foldlM_append]
    change _ = Except.bind ((first::rest).foldlM (J.inspectEntry first.hash) blank) _
    congr 1
    funext st
    simp

end PrivacyRecoveryJournal
end SpeedySweeties
