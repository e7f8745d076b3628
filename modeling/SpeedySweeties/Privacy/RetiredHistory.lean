import SpeedySweeties.Library.JsonText
import SpeedySweeties.Library.Transition
import SpeedySweeties.Privacy.RecoveryS3

/-! The removal of a retired scope's objects, an offline procedure between an operator's transport
and the two journals. It authorises itself, lists all versions under the prefix of the retired
epoch, authorises itself once more and deletes what it has listed; whatever the transport answers,
and whatever the journals hold when they are read, is an input of the step. -/
namespace SpeedySweeties

structure RecoveryEnvironment where
  s3Bucket : Option String
  s3ExpectedOwner : Option String
  s3Region : Option String
  s3Prefix : Option String
  scope : Option String
  enrollmentHash : Option String

/-- The configuration of the active scope. -/
structure ActiveRecovery where
  bucket : String
  ownerAccountId : String
  s3Prefix : String
  scope : String
  genesisHash : String
  deriving DecidableEq, Repr

/-- What the stores of the source and of the successor answer to one authorisation. -/
structure JournalReads (δ : Type) where
  source : Except PrivacyFailure (List (RecoveryEntry δ))
  successor : Except PrivacyFailure (List (RecoveryEntry δ))

structure RemovalPermit where
  sourceScope : String
  sourceHead : RecoveryHead
  successorScope : String
  enrollmentHash : String
  coverageHead : RecoveryHead
  retainedCount : Nat
  removedCount : Nat
  deriving DecidableEq, Repr

/-- A version as a page has it. -/
structure VersionEntry where
  key : Option String
  versionId : Option String
  isLatest : Bool
  deriving DecidableEq, Repr

/-- `versions` is `none` where it is no array, `isTruncated` where it is no boolean. -/
structure VersionPage where
  versions : Option (List VersionEntry)
  deleteMarkers : Nat
  isTruncated : Option Bool
  nextKeyMarker : Option String
  nextVersionIdMarker : Option String
  deriving DecidableEq, Repr

structure ListedVersion where
  key : String
  versionId : String
  isLatest : Bool
  deriving DecidableEq, Repr

/-- Both go to the one bucket and name its expected owner. -/
inductive OperatorCommand where
  | listObjectVersions (pre : String) (keyMarker versionIdMarker : Option String)
  | deleteObject (key versionId : String)
  deriving DecidableEq, Repr

/-- `nothing` is an answer that has no fields; a delete does not look at what it is answered. -/
inductive OperatorAnswer where
  | failed
  | nothing
  | page (page : VersionPage)
  deriving DecidableEq, Repr

structure RemovalResult where
  retiredScope : String
  deletedVersions : Nat
  allVersionsRemoved : Bool
  operatorReviewRequired : Bool
  activeScopeUnchanged : Bool
  trafficMayReopen : Bool
  deriving DecidableEq, Repr

/-- The command that is under way, or how the procedure has ended; `none` is an error of the runtime. -/
inductive RemovalStage where
  | listing (permit : RemovalPermit) (versions : List ListedVersion) (markers : List String) (keyMarker versionMarker : Option String)
  | deleting (versions : List ListedVersion) (deletedVersions : Nat)
  | checking (deletedVersions : Nat)
  | stopped (failure : Option PrivacyFailure)
  | finished (result : RemovalResult)
  deriving DecidableEq, Repr

inductive RemovalEvent where
  | authorized (permit : RemovalPermit)
  | answered (command : OperatorCommand) (answer : OperatorAnswer)
  deriving DecidableEq, Repr

/-- `log` has the newest event first. -/
structure Removal where
  stage : RemovalStage
  log : List RemovalEvent
  deriving DecidableEq, Repr

structure RemovalInput (δ : Type) where
  answer : OperatorAnswer
  reads : JournalReads δ

namespace Retirement
open JsText

def privacyAwsOwner : String := "080413009273"
def privacyS3Bucket : String := "speedy-sweeties-privacy-decisions-080413009273"

/-- `/^before(\d{4})after$/.exec(text)?.[1]` -/
def fourDigits (before after text : String) : Option String :=
  let digits := (text.toList.drop before.toList.length).take 4
  if digits.length = 4 ∧ digits.all Char.isDigit ∧ text = before ++ String.ofList digits ++ after then some (String.ofList digits) else none

def epochPrefix (epoch : String) : String := "production/epoch-" ++ epoch ++ "/"
def epochScope (epoch : String) : String := "speedy-privacy-production-epoch-" ++ epoch

def productionRecoveryConfiguration (e : RecoveryEnvironment) : Except PrivacyFailure ActiveRecovery :=
  let required : PrivacyFailure := .recovery "RECOVERY_PRODUCTION_CONFIGURATION_REQUIRED"
  match fourDigits "production/epoch-" "/" (e.s3Prefix.getD "") with
  | none => .error required
  | some epoch =>
    if e.s3Bucket = some privacyS3Bucket ∧ e.s3ExpectedOwner = some privacyAwsOwner ∧ e.s3Region = some "ca-central-1" ∧
        epoch ≠ "0000" ∧ e.scope = some (epochScope epoch) ∧ isHash (e.enrollmentHash.getD "") then
      .ok ⟨privacyS3Bucket,privacyAwsOwner,epochPrefix epoch,epochScope epoch,e.enrollmentHash.getD ""⟩
    else .error required

section Authorisation
variable {δ : Type} [DecidableEq δ] (source successor : PrivacyRecoveryJournal δ)

def verifyRecoverySuccessor (reads : JournalReads δ) (scope enrollmentHash : String) : Except PrivacyFailure RemovalPermit := do
  let unverified : PrivacyFailure := .recovery "RECOVERY_SUCCESSOR_COVERAGE_UNVERIFIED"
  let sourceEntries ← reads.source
  let before ← source.inspect sourceEntries true false
  let successorEntries ← reads.successor
  let after ← successor.ready successorEntries
  match before.sealed,after.checkpoint,after.coverageHead with
  | some sealed_,some (coverage,sealedHead),some coverageHead =>
    if scope = successor.scope ∧ successorEntries.head?.map (·.hash) = some enrollmentHash ∧ sealed_ = coverage ∧
        before.prior = sealedHead then
      .ok ⟨source.scope,before.prior,successor.scope,enrollmentHash,coverageHead,coverage.retainedCount,coverage.removedCount⟩
    else .error unverified
  | _,_,_ => .error unverified

def authorizeRetiredHistoryRemoval (reads : JournalReads δ) (scope enrollmentHash : String) (offlineConfirmed : Bool) :
    Except PrivacyFailure RemovalPermit :=
  if offlineConfirmed then verifyRecoverySuccessor source successor reads scope enrollmentHash
  else .error (.recovery "RECOVERY_OFFLINE_MAINTENANCE_REQUIRED")

end Authorisation

/-! ### The inventory -/

def entryKey (pre : String) (n : Nat) : String := pre ++ padStart 16 (toString n) ++ ".json"

/-- The prefix, sixteen digits and `.json`. -/
def isEntryKey (pre key : String) : Bool :=
  let rest := key.toList.drop pre.toList.length
  pre.toList.isPrefixOf key.toList && rest.length = 21 && (rest.take 16).all Char.isDigit && rest.drop 16 = ".json".toList

def targetRejected : PrivacyFailure := .recovery "RECOVERY_RETIRED_TARGET_REJECTED"
def inventoryReview : PrivacyFailure := .recovery "RECOVERY_RETIRED_INVENTORY_REVIEW_REQUIRED"
def inventoryUnavailable : PrivacyFailure := .recovery "RECOVERY_OPERATOR_INVENTORY_UNAVAILABLE"

/-- The versions of a page, after those of the pages before it. -/
def pushVersions (pre : String) (versions : List ListedVersion) : List VersionEntry → Option (List ListedVersion)
  | [] => some versions
  | version::rest =>
    match version.versionId.filter (· ≠ "") with
    | some versionId =>
      if isEntryKey pre (version.key.getD "") && versions.length < 20000 then
        pushVersions pre (versions ++ [⟨version.key.getD "",versionId,version.isLatest⟩]) rest
      else none
    | none => none

def pairWriter : Json.Writer Empty := ⟨Empty.elim,fun _ => ""⟩

/-- `JSON.stringify([a, b])` -/
def pairText (a b : String) : String := Json.stringify pairWriter (.array [.text a,.text b])

/-- The keys of the latest versions, sorted. -/
def currentKeys (versions : List ListedVersion) : List String :=
  ((versions.filter (·.isLatest)).map (·.key)).insertionSort fun a b => a ≤ b

/-- What is wrong with a complete inventory. -/
def reviewInventory (pre : String) (permit : RemovalPermit) (versions : List ListedVersion) : Bool :=
  !decide (versions.map fun v => pairText v.key v.versionId).Nodup ||
    currentKeys versions ≠ (List.range permit.sourceHead.sequence).map fun i => entryKey pre (i + 1)

def deletion (version : ListedVersion) : OperatorCommand := .deleteObject version.key version.versionId

def command (pre : String) : RemovalStage → Option OperatorCommand
  | .listing _ _ _ keyMarker versionMarker => some (.listObjectVersions pre keyMarker versionMarker)
  | .deleting versions deletedVersions => versions[deletedVersions]?.map deletion
  | .checking _ => some (.listObjectVersions pre none none)
  | .stopped _ | .finished _ => none

/-- The next delete, or the listing after the last one. -/
def deleteNext (versions : List ListedVersion) (deletedVersions : Nat) : RemovalStage :=
  if deletedVersions < versions.length then .deleting versions deletedVersions else .checking deletedVersions

def report (retiredScope : String) (deletedVersions : Nat) (empty : Bool) : RemovalStage :=
  .finished ⟨retiredScope,deletedVersions,empty,!empty,true,false⟩

/-- `!(left.Versions?.length || left.DeleteMarkers?.length || left.IsTruncated)` -/
def leavesNothing (left : VersionPage) : Bool :=
  left.versions.all (·.isEmpty) && left.deleteMarkers = 0 && left.isTruncated ≠ some true

section Procedure
variable {δ : Type} [DecidableEq δ] (source successor : PrivacyRecoveryJournal δ) (active : ActiveRecovery) (pre : String)
  (offlineConfirmed : Bool)

def authorize (reads : JournalReads δ) : Except PrivacyFailure RemovalPermit :=
  authorizeRetiredHistoryRemoval source successor reads active.scope active.genesisHash offlineConfirmed

/-- After the last page: the checks, the second authorisation and the first delete. -/
def beginDeleting (s : Removal) (permit : RemovalPermit) (versions : List ListedVersion) (reads : JournalReads δ) : Removal :=
  if reviewInventory pre permit versions then { s with stage := .stopped (some inventoryReview) }
  else match authorize source successor active offlineConfirmed reads with
  | .error failure => { s with stage := .stopped (some failure) }
  | .ok again => ⟨deleteNext versions 0,.authorized again::s.log⟩

def readPage (s : Removal) (permit : RemovalPermit) (versions : List ListedVersion) (markers : List String) (page : VersionPage)
    (reads : JournalReads δ) : Removal :=
  match page.versions,page.isTruncated with
  | some entries,some truncated =>
    if page.deleteMarkers ≠ 0 then { s with stage := .stopped (some inventoryReview) }
    else match pushVersions pre versions entries with
    | none => { s with stage := .stopped (some targetRejected) }
    | some versions =>
      if !truncated then beginDeleting source successor active pre offlineConfirmed s permit versions reads
      else match page.nextKeyMarker.filter (· ≠ ""),page.nextVersionIdMarker.filter (· ≠ "") with
      | some keyMarker,some versionMarker =>
        let marker := pairText keyMarker versionMarker
        if marker ∈ markers then { s with stage := .stopped (some inventoryReview) }
        else { s with stage := .listing permit versions (marker::markers) (some keyMarker) (some versionMarker) }
      | _,_ => { s with stage := .stopped (some inventoryReview) }
  | _,_ => { s with stage := .stopped (some inventoryReview) }

/-- The answer to the command under way. -/
def step (s : Removal) (input : RemovalInput δ) : Option Removal :=
  (command pre s.stage).map fun sent =>
    let s' : Removal := { s with log := .answered sent input.answer::s.log }
    match s.stage,input.answer with
    | .listing .., .failed => { s' with stage := .stopped (some inventoryUnavailable) }
    | .listing .., .nothing => { s' with stage := .stopped none }
    | .listing permit versions markers _ _,.page page =>
      readPage source successor active pre offlineConfirmed s' permit versions markers page input.reads
    | .deleting _ deletedVersions,.failed => { s' with stage := report source.scope deletedVersions false }
    | .deleting versions deletedVersions,_ => { s' with stage := deleteNext versions (deletedVersions + 1) }
    | .checking deletedVersions,.page page => { s' with stage := report source.scope deletedVersions (leavesNothing page) }
    | .checking deletedVersions,_ => { s' with stage := report source.scope deletedVersions false }
    | .stopped _,_ | .finished _,_ => s'

end Procedure

section Start
variable {δ : Type} [DecidableEq δ] (source successor : PrivacyRecoveryJournal δ)

/-- The epoch to retire: one of production, and neither the active scope nor another successor's. -/
def retiredEpoch (active : ActiveRecovery) : Option String :=
  (fourDigits "speedy-privacy-production-epoch-" "" source.scope).filter fun oldEpoch =>
    oldEpoch ≠ "0000" && source.scope ≠ active.scope && successor.scope = active.scope

/-- Up to the first command. -/
def start (active : ActiveRecovery) (offlineConfirmed : Bool) (reads : JournalReads δ) : Removal :=
  match authorize source successor active offlineConfirmed reads with
  | .error failure => ⟨.stopped (some failure),[]⟩
  | .ok permit => ⟨.listing permit [] [] none none,[.authorized permit]⟩

end Start

section Runs
variable {δ : Type} [DecidableEq δ] (source successor : PrivacyRecoveryJournal δ) (environment : RecoveryEnvironment)
  (offlineConfirmed : Bool)

/-- The active scope and the epoch to retire. -/
def retiredTarget : Except PrivacyFailure (ActiveRecovery × String) := do
  let active ← productionRecoveryConfiguration environment
  match retiredEpoch source successor active with
  | some oldEpoch => .ok (active,oldEpoch)
  | none => .error targetRejected

/-- Up to its first command. -/
def removeVerifiedRetiredS3History (reads : JournalReads δ) : Removal :=
  match retiredTarget source successor environment with
  | .error failure => ⟨.stopped (some failure),[]⟩
  | .ok (active,_) => start source successor active offlineConfirmed reads

def respond (s : Removal) (input : RemovalInput δ) : Option Removal :=
  match retiredTarget source successor environment with
  | .error _ => none
  | .ok (active,oldEpoch) => step source successor active (epochPrefix oldEpoch) offlineConfirmed s input

abbrev Reachable (reads : JournalReads δ) : Removal → Prop :=
  Transition.Reachable (respond source successor environment offlineConfirmed)
    (removeVerifiedRetiredS3History source successor environment offlineConfirmed reads)

end Runs

/-! ### Epochs and keys -/

theorem fourDigitsSome {before after text digits : String} (is : fourDigits before after text = some digits) :
    text = before ++ digits ++ after ∧ digits.toList.length = 4 := by
  unfold fourDigits at is
  dsimp only at is
  split at is
  · rename_i shape
    cases Option.some.inj is
    exact ⟨shape.2.2,by rw [String.toList_ofList]; exact shape.1⟩
  · contradiction

theorem configurationActive {e : RecoveryEnvironment} {active : ActiveRecovery} (is : productionRecoveryConfiguration e = .ok active) :
    ∃ epoch, active.s3Prefix = epochPrefix epoch ∧ active.scope = epochScope epoch ∧ epoch.toList.length = 4 := by
  unfold productionRecoveryConfiguration at is
  dsimp only at is
  split at is
  · contradiction
  · rename_i epoch digits
    split at is
    · have same := Except.ok.inj is
      rw [← same]
      exact ⟨epoch,rfl,rfl,(fourDigitsSome digits).2⟩
    · contradiction

theorem sameMiddle {before after a b key : String} (length : a.toList.length = b.toList.length)
    (left : (before ++ a ++ after).toList <+: key.toList) (right : (before ++ b ++ after).toList <+: key.toList) : a = b := by
  simp only [String.toList_append] at left right
  have same : before.toList ++ a.toList ++ after.toList = before.toList ++ b.toList ++ after.toList := by
    have lengths : (before.toList ++ a.toList ++ after.toList).length = (before.toList ++ b.toList ++ after.toList).length := by
      simp only [List.length_append,length]
    exact (List.prefix_of_prefix_length_le left right (Nat.le_of_eq lengths)).eq_of_length lengths
  exact String.toList_inj.mp (List.append_cancel_left (List.append_cancel_right same))

section Targets
variable {δ : Type} {source successor : PrivacyRecoveryJournal δ} {environment : RecoveryEnvironment}
  {active : ActiveRecovery} {oldEpoch : String}

theorem targetIs (is : retiredTarget source successor environment = .ok (active,oldEpoch)) :
    productionRecoveryConfiguration environment = .ok active ∧ source.scope = epochScope oldEpoch ∧ oldEpoch.toList.length = 4 ∧
      source.scope ≠ active.scope ∧ successor.scope = active.scope := by
  unfold retiredTarget at is
  cases configuration : productionRecoveryConfiguration environment with
  | error failure =>
    rw [configuration] at is
    cases is
  | ok found =>
    rw [configuration] at is
    change (match retiredEpoch source successor found with
      | some epoch => Except.ok (found,epoch)
      | none => .error targetRejected) = .ok (active,oldEpoch) at is
    split at is
    · rename_i epoch retired
      obtain ⟨rfl,rfl⟩ := Prod.mk.inj (Except.ok.inj is)
      obtain ⟨digits,kept⟩ := Option.filter_eq_some_iff.mp retired
      obtain ⟨scope,length⟩ := fourDigitsSome digits
      simp only [Bool.and_eq_true,decide_eq_true_eq] at kept
      rw [String.append_empty] at scope
      exact ⟨rfl,scope,length,kept.1.2,kept.2⟩
    · contradiction

theorem entryKeyPrefix {pre key : String} (is : isEntryKey pre key = true) : pre.toList <+: key.toList := by
  simp only [isEntryKey,Bool.and_eq_true] at is
  exact List.isPrefixOf_iff_prefix.mp is.1.1.1

/-- No key of the retired epoch is under the prefix of the active one. -/
theorem retiredApart (is : retiredTarget source successor environment = .ok (active,oldEpoch)) {key : String}
    (entry : isEntryKey (epochPrefix oldEpoch) key = true) : ¬ active.s3Prefix.toList <+: key.toList := by
  intro both
  obtain ⟨configured,scope,length,apart,-⟩ := targetIs is
  obtain ⟨epoch,s3Prefix,activeScope,length'⟩ := configurationActive configured
  rw [s3Prefix] at both
  have epochs : epoch = oldEpoch := sameMiddle (length'.trans length.symm) both (entryKeyPrefix entry)
  rw [scope,activeScope,epochs] at apart
  exact apart rfl

end Targets

/-! ### What the log holds -/

def entryOf (version : ListedVersion) : VersionEntry := ⟨some version.key,some version.versionId,version.isLatest⟩

def pairOf (version : ListedVersion) : String × String := (version.key,version.versionId)

/-- The listings of the log, and the versions on their pages: entries under the prefix, and no delete markers. -/
inductive Listed (pre : String) : List RemovalEvent → List ListedVersion → Prop
  | none : Listed pre [] []
  | page {log versions} (before : Listed pre log versions) (keyMarker versionMarker : Option String) (page : VersionPage)
      (added : List ListedVersion) (entries : page.versions = some (added.map entryOf))
      (unmarked : page.deleteMarkers = 0) (keys : ∀ version ∈ added, isEntryKey pre version.key = true) :
      Listed pre (.answered (.listObjectVersions pre keyMarker versionMarker) (.page page)::log) (versions ++ added)

/-- The deletes of the log, each of them of the next version and answered. -/
inductive Deleted (versions : List ListedVersion) : Nat → List RemovalEvent → Prop
  | none : Deleted versions 0 []
  | next {n log version answer} (before : Deleted versions n log) (at_ : versions[n]? = some version)
      (answered : answer ≠ .failed) : Deleted versions (n + 1) (.answered (deletion version) answer::log)

def deletedPair : RemovalEvent → Option (String × String)
  | .answered (.deleteObject key versionId) _ => some (key,versionId)
  | _ => none

/-- The deletes that have been sent, the last one first. -/
def deletes (s : Removal) : List (String × String) :=
  (match s.stage with
    | .deleting versions deletedVersions => versions[deletedVersions]?.map pairOf
    | _ => none).toList ++ s.log.filterMap deletedPair

theorem pushedVersions {pre : String} {versions all : List ListedVersion} {entries : List VersionEntry}
    (is : pushVersions pre versions entries = some all) :
    ∃ added, all = versions ++ added ∧ entries = added.map entryOf ∧ ∀ version ∈ added, isEntryKey pre version.key = true := by
  induction entries generalizing versions with
  | nil =>
    cases Option.some.inj is
    exact ⟨[],(List.append_nil _).symm,rfl,nofun⟩
  | cons version rest ih =>
    rw [pushVersions] at is
    split at is
    · rename_i versionId found
      split at is
      · rename_i fits
        obtain ⟨added,rfl,rfl,keys⟩ := ih is
        have entry := (Bool.and_eq_true_iff.mp fits).1
        have key : version.key = some (version.key.getD "") := by
          cases is' : version.key with
          | none =>
            rw [is'] at entry
            simp [isEntryKey] at entry
          | some key => rfl
        have id := (Option.filter_eq_some_iff.mp found).1
        refine ⟨⟨version.key.getD "",versionId,version.isLatest⟩::added,by simp,?_,?_⟩
        · rw [List.map_cons,entryOf]
          congr
          rw [← key,← id]
        · intro v mem
          rcases List.mem_cons.mp mem with rfl | mem
          · exact entry
          · exact keys v mem
      · contradiction
    · contradiction

theorem listedKeys {pre : String} {log : List RemovalEvent} {versions : List ListedVersion} (h : Listed pre log versions) :
    ∀ version ∈ versions, isEntryKey pre version.key = true := by
  induction h with
  | none => exact fun _ mem => absurd mem List.not_mem_nil
  | page _ _ _ _ _ _ _ keys ih =>
    intro version mem
    rcases List.mem_append.mp mem with mem | mem
    · exact ih version mem
    · exact keys version mem

theorem listedNoDelete {pre : String} {log : List RemovalEvent} {versions : List ListedVersion} (h : Listed pre log versions) :
    log.filterMap deletedPair = [] := by
  induction h with
  | none => rfl
  | page _ _ _ _ _ _ _ _ ih => exact ih

theorem deletedPairs {versions : List ListedVersion} {n : Nat} {log : List RemovalEvent} (h : Deleted versions n log) :
    log.filterMap deletedPair = ((versions.take n).map pairOf).reverse := by
  induction h with
  | none => rfl
  | @next n log version answer _ at_ _ ih =>
    have own : deletedPair (.answered (deletion version) answer) = some (pairOf version) := rfl
    rw [List.filterMap_cons,own,ih,List.take_add_one,at_]
    simp

theorem deletedAnswered {versions : List ListedVersion} {n : Nat} {log : List RemovalEvent} (h : Deleted versions n log) :
    ∀ version ∈ versions.take n, ∃ answer, answer ≠ .failed ∧ .answered (deletion version) answer ∈ log := by
  induction h with
  | none => simp
  | @next n log version answer _ at_ ok ih =>
    intro v mem
    rw [List.take_add_one,at_,List.mem_append] at mem
    rcases mem with mem | mem
    · obtain ⟨other,answered,there⟩ := ih v mem
      exact ⟨other,answered,List.mem_cons_of_mem _ there⟩
    · cases List.mem_singleton.mp mem
      exact ⟨answer,ok,List.mem_cons_self⟩

/-- A delete that failed. -/
def Failure (event : RemovalEvent) : Prop := ∃ key versionId, event = .answered (.deleteObject key versionId) .failed

theorem deletedNoFailure {versions : List ListedVersion} {n : Nat} {log : List RemovalEvent} (h : Deleted versions n log) :
    ∀ event ∈ log, ¬ Failure event := by
  induction h with
  | none => exact fun _ mem => absurd mem List.not_mem_nil
  | next _ _ ok ih =>
    intro event mem
    rcases List.mem_cons.mp mem with rfl | mem
    · rintro ⟨key,versionId,is⟩
      cases is
      exact ok rfl
    · exact ih event mem

theorem listedNoFailure {pre : String} {log : List RemovalEvent} {versions : List ListedVersion} (h : Listed pre log versions) :
    ∀ event ∈ log, ¬ Failure event := by
  induction h with
  | none => exact fun _ mem => absurd mem List.not_mem_nil
  | page _ _ _ _ _ _ _ _ ih =>
    intro event mem
    rcases List.mem_cons.mp mem with rfl | mem
    · rintro ⟨key,versionId,is⟩
      cases is
    · exact ih event mem

/-! ### Every run -/

section Invariant
variable {δ : Type} [DecidableEq δ] {source successor : PrivacyRecoveryJournal δ} {environment : RecoveryEnvironment}
  {offlineConfirmed : Bool} {active : ActiveRecovery} {oldEpoch pre : String} {s t : Removal}

/-- The checked inventory of the source that both authorisations are about. -/
structure Reviewed (pre : String) (permit : RemovalPermit) (listings : List RemovalEvent) (versions : List ListedVersion) : Prop where
  listed : Listed pre listings versions
  latest : ((versions.filter (·.isLatest)).map (·.key)).Perm ((List.range permit.sourceHead.sequence).map fun i => entryKey pre (i + 1))
  once : (versions.map pairOf).Nodup

theorem reviewedInventory {permit : RemovalPermit} {listings : List RemovalEvent} {versions : List ListedVersion}
    (listed : Listed pre listings versions) (ok : reviewInventory pre permit versions = false) : Reviewed pre permit listings versions := by
  simp only [reviewInventory,Bool.or_eq_false_iff,Bool.not_eq_eq_eq_not,Bool.not_false,decide_eq_true_eq,ne_eq,
    decide_eq_false_iff_not,not_not] at ok
  refine ⟨listed,ok.2 ▸ (List.perm_insertionSort _ _).symm,?_⟩
  refine List.Nodup.of_map (fun pair => pairText pair.1 pair.2) ?_
  rw [List.map_map]
  exact ok.1

/-- How far a run has come after its second authorisation, and the events since. -/
inductive Deleting (pre : String) (retiredScope : String) (versions : List ListedVersion) : RemovalStage → List RemovalEvent → Prop
  | deleting {n log} (done : Deleted versions n log) (more : n < versions.length) :
      Deleting pre retiredScope versions (.deleting versions n) log
  | checking {log} (done : Deleted versions versions.length log) :
      Deleting pre retiredScope versions (.checking versions.length) log
  | failed {n log version} (done : Deleted versions n log) (at_ : versions[n]? = some version) :
      Deleting pre retiredScope versions (report retiredScope n false) (.answered (deletion version) .failed::log)
  | checked {log answer empty} (done : Deleted versions versions.length log)
      (left : empty = true → ∃ page, answer = .page page ∧ leavesNothing page = true) :
      Deleting pre retiredScope versions (report retiredScope versions.length empty)
        (.answered (.listObjectVersions pre none none) answer::log)

inductive Progress (authorized : RemovalPermit → Prop) (again : RemovalPermit → Prop) (pre retiredScope : String) : Removal → Prop
  | stopped {failure log} (undeleted : log.filterMap deletedPair = []) (unfailed : ∀ event ∈ log, ¬ Failure event) :
      Progress authorized again pre retiredScope ⟨.stopped failure,log⟩
  | listing {permit versions markers keyMarker versionMarker listings} (first : authorized permit)
      (listed : Listed pre listings versions) :
      Progress authorized again pre retiredScope ⟨.listing permit versions markers keyMarker versionMarker,listings ++ [.authorized permit]⟩
  | deleting {permit second versions listings stage} (since : List RemovalEvent) (first : authorized permit) (later : again second)
      (reviewed : Reviewed pre permit listings versions) (since_ : Deleting pre retiredScope versions stage since) :
      Progress authorized again pre retiredScope ⟨stage,since ++ .authorized second::(listings ++ [.authorized permit])⟩

theorem deletingNext {retiredScope : String} {versions : List ListedVersion} {n : Nat} {log : List RemovalEvent}
    (done : Deleted versions n log) (within : n ≤ versions.length) :
    Deleting pre retiredScope versions (deleteNext versions n) log := by
  unfold deleteNext
  split
  · rename_i more
    exact .deleting done more
  · have all : n = versions.length := by omega
    subst all
    exact .checking done

theorem listingNoDelete (permit : RemovalPermit) {listings : List RemovalEvent} {versions : List ListedVersion}
    (listed : Listed pre listings versions) (command : OperatorCommand) (answer : OperatorAnswer)
    (lists : ∃ keyMarker versionMarker, command = .listObjectVersions pre keyMarker versionMarker) :
    (.answered command answer::(listings ++ [.authorized permit])).filterMap deletedPair = [] ∧
      ∀ event ∈ (.answered command answer::(listings ++ [.authorized permit])), ¬ Failure event := by
  obtain ⟨keyMarker,versionMarker,rfl⟩ := lists
  constructor
  · have own : deletedPair (.answered (.listObjectVersions pre keyMarker versionMarker) answer) = none := rfl
    have first : deletedPair (.authorized permit) = none := rfl
    rw [List.filterMap_cons,own,List.filterMap_append,listedNoDelete listed,List.filterMap_cons,first]
    rfl
  · intro event mem
    rcases List.mem_cons.mp mem with rfl | mem
    · rintro ⟨_,_,is⟩
      cases is
    · rcases List.mem_append.mp mem with mem | mem
      · exact listedNoFailure listed event mem
      · cases List.mem_singleton.mp mem
        rintro ⟨_,_,is⟩
        cases is

/-- An authorisation that succeeded on what the journals held when it read them. -/
def Authorized (source successor : PrivacyRecoveryJournal δ) (active : ActiveRecovery) (offlineConfirmed : Bool) (permit : RemovalPermit) : Prop :=
  ∃ reads, authorize source successor active offlineConfirmed reads = .ok permit

theorem pageProgress {first : RemovalPermit → Prop} {permit : RemovalPermit} {versions : List ListedVersion} {markers : List String}
    {keyMarker versionMarker : Option String} {listings : List RemovalEvent} {page : VersionPage} (reads : JournalReads δ)
    (permitted : first permit) (listed : Listed pre listings versions) {stage : RemovalStage} :
    Progress first (Authorized source successor active offlineConfirmed) pre source.scope
      (readPage source successor active pre offlineConfirmed
        ⟨stage,.answered (.listObjectVersions pre keyMarker versionMarker) (.page page)::(listings ++ [.authorized permit])⟩
        permit versions markers page reads) := by
  obtain ⟨undeleted,unfailed⟩ := listingNoDelete permit listed (.listObjectVersions pre keyMarker versionMarker) (.page page) ⟨_,_,rfl⟩
  unfold readPage
  split
  · rename_i entries truncated entries_ truncated_
    split
    · exact .stopped undeleted unfailed
    rename_i unmarked
    split
    · exact .stopped undeleted unfailed
    rename_i all pushed
    obtain ⟨added,rfl,rfl,keys⟩ := pushedVersions pushed
    have next := Listed.page listed keyMarker versionMarker page added entries_ (by simpa using unmarked) keys
    split
    · unfold beginDeleting
      split
      · exact .stopped undeleted unfailed
      · rename_i reviewed
        split
        · exact .stopped undeleted unfailed
        · rename_i again authorized
          exact .deleting [] permitted ⟨reads,authorized⟩ (reviewedInventory next (by simpa using reviewed))
            (deletingNext .none (Nat.zero_le _))
    · split
      · dsimp only
        split
        · exact .stopped undeleted unfailed
        · exact .listing permitted next
      · exact .stopped undeleted unfailed
  · exact .stopped undeleted unfailed

theorem progressStep {first : RemovalPermit → Prop} {input : RemovalInput δ}
    (h : Progress first (Authorized source successor active offlineConfirmed) pre source.scope s)
    (taken : step source successor active pre offlineConfirmed s input = some t) :
    Progress first (Authorized source successor active offlineConfirmed) pre source.scope t := by
  obtain ⟨sent,under,rfl⟩ := Option.map_eq_some_iff.mp taken
  obtain ⟨answer,reads⟩ := input
  cases h with
  | stopped undeleted unfailed => cases under
  | @listing permit versions markers keyMarker versionMarker listings permitted listed =>
    cases Option.some.inj under
    obtain ⟨undeleted,unfailed⟩ :=
      listingNoDelete permit listed (.listObjectVersions pre keyMarker versionMarker) answer ⟨_,_,rfl⟩
    cases answer with
    | failed => exact .stopped undeleted unfailed
    | nothing => exact .stopped undeleted unfailed
    | page page => exact pageProgress reads permitted listed
  | @deleting permit again versions listings stage since permitted later reviewed since_ =>
    cases since_ with
    | @deleting n log done more =>
      obtain ⟨version,at_,is⟩ := Option.map_eq_some_iff.mp under
      subst is
      have next : answer ≠ .failed → Deleted versions (n + 1) (.answered (deletion version) answer::since) := .next done at_
      cases answer with
      | failed => exact .deleting (.answered (deletion version) .failed::since) permitted later reviewed (.failed done at_)
      | nothing => exact .deleting (.answered (deletion version) .nothing::since) permitted later reviewed (deletingNext (next nofun) more)
      | page page =>
        exact .deleting (.answered (deletion version) (.page page)::since) permitted later reviewed (deletingNext (next nofun) more)
    | checking done =>
      cases Option.some.inj under
      cases answer with
      | failed => exact .deleting (.answered _ .failed::since) permitted later reviewed (.checked done nofun)
      | nothing => exact .deleting (.answered _ .nothing::since) permitted later reviewed (.checked done nofun)
      | page page =>
        exact .deleting (.answered _ (.page page)::since) permitted later reviewed (.checked done fun empty => ⟨page,rfl,empty⟩)
    | failed => cases under
    | checked => cases under

theorem reachedProgress {reads : JournalReads δ} (target : retiredTarget source successor environment = .ok (active,oldEpoch))
    (h : Reachable source successor environment offlineConfirmed reads s) :
    Progress (fun permit => authorize source successor active offlineConfirmed reads = .ok permit)
      (Authorized source successor active offlineConfirmed) (epochPrefix oldEpoch) source.scope s := by
  refine Transition.Reachable.invariant h ?_ fun s input t before taken => ?_
  · unfold removeVerifiedRetiredS3History
    rw [target]
    dsimp only
    unfold start
    split
    · exact .stopped rfl fun _ mem => absurd mem List.not_mem_nil
    · rename_i permit authorized
      exact .listing authorized .none
  · unfold respond at taken
    rw [target] at taken
    exact progressStep before taken

theorem rejectedIdle {reads : JournalReads δ} {failure : PrivacyFailure}
    (target : retiredTarget source successor environment = .error failure)
    (h : Reachable source successor environment offlineConfirmed reads s) : s = ⟨.stopped (some failure),[]⟩ := by
  refine Transition.Reachable.invariant (I := fun s => s = ⟨.stopped (some failure),[]⟩) h ?_ fun s input t before taken => ?_
  · unfold removeVerifiedRetiredS3History
    rw [target]
  · unfold respond at taken
    rw [target] at taken
    cases taken

end Invariant

section Verified
variable {δ : Type} [DecidableEq δ] {source successor : PrivacyRecoveryJournal δ} {environment : RecoveryEnvironment}
  {offlineConfirmed : Bool} {active : ActiveRecovery} {oldEpoch : String} {reads : JournalReads δ} {s : Removal}

/-- A removal that may delete, with its inventory and both of its permits. -/
structure Removing (source successor : PrivacyRecoveryJournal δ) (environment : RecoveryEnvironment) (offlineConfirmed : Bool)
    (reads : JournalReads δ) (s : Removal) (active : ActiveRecovery) (oldEpoch : String) (versions : List ListedVersion) : Prop where
  target : retiredTarget source successor environment = .ok (active,oldEpoch)
  reviewed : ∃ permit again listings since, authorize source successor active offlineConfirmed reads = .ok permit ∧
    Authorized source successor active offlineConfirmed again ∧ Reviewed (epochPrefix oldEpoch) permit listings versions ∧
    s.log = since ++ .authorized again::(listings ++ [.authorized permit]) ∧ listings.filterMap deletedPair = []
  listed : ∀ pair ∈ deletes s, pair ∈ versions.map pairOf
  once : (deletes s).Nodup
  retired : ∀ pair ∈ deletes s, isEntryKey (epochPrefix oldEpoch) pair.1 = true ∧ ¬ active.s3Prefix.toList <+: pair.1.toList
  halted : ∀ event ∈ s.log, Failure event → s.log.head? = some event ∧ command (epochPrefix oldEpoch) s.stage = none
  removed : ∀ result, s.stage = .finished result → result.allVersionsRemoved = true →
    (∀ version ∈ versions, ∃ answer, answer ≠ .failed ∧ .answered (deletion version) answer ∈ s.log) ∧
      ∃ page, s.log.head? = some (.answered (.listObjectVersions (epochPrefix oldEpoch) none none) (.page page)) ∧ leavesNothing page = true

theorem deletesTaken {pre retiredScope : String} {versions : List ListedVersion} {stage : RemovalStage} {since log : List RemovalEvent}
    (h : Deleting pre retiredScope versions stage since) (before : log.filterMap deletedPair = []) :
    ∃ n, deletes ⟨stage,since ++ log⟩ = ((versions.take n).map pairOf).reverse := by
  simp only [deletes,List.filterMap_append,before,List.append_nil]
  cases h with
  | @deleting n _ done more =>
    refine ⟨n + 1,?_⟩
    dsimp only
    rw [deletedPairs done,List.take_add_one,List.map_append,List.reverse_append,List.getElem?_eq_getElem more]
    rfl
  | checking done => exact ⟨versions.length,deletedPairs done⟩
  | @failed n log version done at_ =>
    refine ⟨n + 1,?_⟩
    have own : deletedPair (.answered (deletion version) .failed) = some (pairOf version) := rfl
    rw [List.filterMap_cons,own,deletedPairs done,List.take_add_one,at_]
    simp [report]
  | @checked log answer empty done left =>
    have own : deletedPair (.answered (.listObjectVersions pre none none) answer) = none := rfl
    refine ⟨versions.length,?_⟩
    rw [List.filterMap_cons,own,deletedPairs done]
    rfl

theorem deletingFailure {pre retiredScope : String} {versions : List ListedVersion} {stage : RemovalStage} {since : List RemovalEvent}
    (h : Deleting pre retiredScope versions stage since) :
    ∀ event ∈ since, Failure event → since.head? = some event ∧ command pre stage = none := by
  cases h with
  | deleting done more => exact fun event mem failed => absurd failed (deletedNoFailure done event mem)
  | checking done => exact fun event mem failed => absurd failed (deletedNoFailure done event mem)
  | failed done at_ =>
    intro event mem failed
    rcases List.mem_cons.mp mem with rfl | mem
    · exact ⟨rfl,rfl⟩
    · exact absurd failed (deletedNoFailure done event mem)
  | checked done left =>
    intro event mem failed
    rcases List.mem_cons.mp mem with rfl | mem
    · obtain ⟨_,_,is⟩ := failed
      cases is
    · exact absurd failed (deletedNoFailure done event mem)

theorem deletingRemoved {pre retiredScope : String} {versions : List ListedVersion} {result : RemovalResult} {since : List RemovalEvent}
    (h : Deleting pre retiredScope versions (.finished result) since) (all : result.allVersionsRemoved = true) :
    (∀ version ∈ versions, ∃ answer, answer ≠ .failed ∧ .answered (deletion version) answer ∈ since) ∧
      ∃ page, since.head? = some (.answered (.listObjectVersions pre none none) (.page page)) ∧ leavesNothing page = true := by
  cases h with
  | failed => cases all
  | checked done left =>
    obtain ⟨page,rfl,empty⟩ := left all
    constructor
    · intro version mem
      rw [← List.take_length (l := versions)] at mem
      obtain ⟨answer,ok,there⟩ := deletedAnswered done version mem
      exact ⟨answer,ok,List.mem_cons_of_mem _ there⟩
    · exact ⟨page,rfl,empty⟩

/-- Whatever the transport answers: a run has sent no delete and reports no removal, or both authorisations succeeded, all it has deleted
is of the reviewed inventory and once, none of it is in the active scope, and it stops at the first delete that fails. -/
theorem retiredRemovalVerified (h : Reachable source successor environment offlineConfirmed reads s) :
    (deletes s = [] ∧ ∀ result, s.stage ≠ .finished result) ∨
      ∃ active oldEpoch versions, Removing source successor environment offlineConfirmed reads s active oldEpoch versions := by
  cases target : retiredTarget source successor environment with
  | error failure =>
    have idle := rejectedIdle target h
    subst idle
    exact .inl ⟨rfl,nofun⟩
  | ok found =>
    obtain ⟨active,oldEpoch⟩ := found
    have progress := reachedProgress target h
    cases progress with
    | stopped undeleted _ => exact .inl ⟨undeleted,nofun⟩
    | @listing permit _ _ _ _ listings first listed =>
      refine .inl ⟨?_,nofun⟩
      have none_ : deletedPair (.authorized permit) = none := rfl
      simp [deletes,listedNoDelete listed,none_]
    | @deleting permit again versions listings stage since first later reviewed since_ =>
      refine .inr ⟨active,oldEpoch,versions,?_⟩
      have quiet := listedNoDelete reviewed.listed
      have authorizedPair : ∀ permit, deletedPair (.authorized permit) = none := fun _ => rfl
      have before : (.authorized again::(listings ++ [.authorized permit])).filterMap deletedPair = [] := by
        simp [quiet,authorizedPair]
      obtain ⟨n,taken⟩ := deletesTaken since_ before
      have listed : ∀ pair ∈ deletes ⟨stage,since ++ .authorized again::(listings ++ [.authorized permit])⟩, pair ∈ versions.map pairOf := by
        intro pair mem
        rw [taken,List.mem_reverse] at mem
        exact List.map_subset _ (List.take_subset n versions) mem
      refine ⟨target,⟨permit,again,listings,since,first,later,reviewed,rfl,quiet⟩,listed,?_,?_,?_,?_⟩
      · rw [taken,List.nodup_reverse,List.map_take]
        exact reviewed.once.sublist (List.take_sublist _ _)
      · intro pair mem
        obtain ⟨version,among,rfl⟩ := List.mem_map.mp (listed pair mem)
        have entry := listedKeys reviewed.listed version among
        exact ⟨entry,retiredApart target entry⟩
      · intro event mem failed
        rcases List.mem_append.mp mem with mem | mem
        · obtain ⟨newest,idle⟩ := deletingFailure since_ event mem failed
          exact ⟨by rw [List.head?_append,newest]; rfl,idle⟩
        · obtain ⟨key,versionId,rfl⟩ := failed
          have deleted : (key,versionId) ∈ (.authorized again::(listings ++ [.authorized permit])).filterMap deletedPair :=
            List.mem_filterMap.mpr ⟨_,mem,rfl⟩
          rw [before] at deleted
          cases deleted
      · rintro result rfl all
        obtain ⟨answered,page,newest,empty⟩ := deletingRemoved since_ all
        refine ⟨fun version mem => ?_,page,by rw [List.head?_append,newest]; rfl,empty⟩
        obtain ⟨answer,ok,there⟩ := answered version mem
        exact ⟨answer,ok,List.mem_append_left _ there⟩

end Verified

/-! ### One epoch removed -/

def sampleSeal (first : Nat) (value : UnsealedEntry Nat) : String := String.ofList (List.replicate 64 (Nat.digitChar (first + value.sequence)))

def sampleSource : PrivacyRecoveryJournal Nat := ⟨epochScope "0001",sampleSeal 0,List.length⟩
def sampleSuccessor : PrivacyRecoveryJournal Nat := ⟨epochScope "0002",sampleSeal 8,List.length⟩

def sampleCoverage : SuccessorCoverage Nat := ⟨epochScope "0001",sampleSource.genesis.head,epochScope "0002",0,0,0,0,0,0,0,1⟩

def sampleSealed : RecoveryEntry Nat := sampleSource.entry sampleSource.genesis.head "seal" (.sealScope sampleCoverage)

def sampleCheckpoint : RecoveryEntry Nat := sampleSuccessor.entry ⟨0,""⟩ "coverage" (.checkpoint sampleCoverage sampleSealed.head)

def sampleReads : JournalReads Nat where
  source := .ok [sampleSource.genesis,sampleSealed]
  successor := .ok [sampleCheckpoint,sampleSuccessor.entry sampleCheckpoint.head "coverage" (.covered sampleCheckpoint.hash)]

def sampleEnvironment : RecoveryEnvironment where
  s3Bucket := some privacyS3Bucket
  s3ExpectedOwner := some privacyAwsOwner
  s3Region := some "ca-central-1"
  s3Prefix := some (epochPrefix "0002")
  scope := some (epochScope "0002")
  enrollmentHash := some sampleCheckpoint.hash

def sampleVersion (n : Nat) : VersionEntry := ⟨some (entryKey (epochPrefix "0001") n),some "v",true⟩

/-- Two pages, an answer to each delete, and a listing that is empty. -/
def sampleAnswers : List (RemovalInput Nat) :=
  [.page ⟨some [sampleVersion 1],0,some true,some "key",some "v"⟩,.page ⟨some [sampleVersion 2],0,some false,none,none⟩,
    .nothing,.nothing,.page ⟨none,0,some false,none,none⟩].map fun answer => ⟨answer,sampleReads⟩

/-- Both entries are deleted, and the removal is reported. -/
theorem retiredRemovalVerifiedEpoch : ∃ s, s.stage = report (epochScope "0001") 2 true ∧
    deletes s = [(entryKey (epochPrefix "0001") 2,"v"),(entryKey (epochPrefix "0001") 1,"v")] ∧
    ((deletes s = [] ∧ ∀ result, s.stage ≠ .finished result) ∨ ∃ active oldEpoch versions,
      Removing sampleSource sampleSuccessor sampleEnvironment true sampleReads s active oldEpoch versions) := by
  have ran : (Transition.run (respond sampleSource sampleSuccessor sampleEnvironment true)
      (removeVerifiedRetiredS3History sampleSource sampleSuccessor sampleEnvironment true sampleReads) sampleAnswers).map
        (fun s => (s.stage,deletes s)) = some (report (epochScope "0001") 2 true,
          [(entryKey (epochPrefix "0001") 2,"v"),(entryKey (epochPrefix "0001") 1,"v")]) := by decide +kernel
  obtain ⟨s,ran,is⟩ := Option.map_eq_some_iff.mp ran
  obtain ⟨stage,deleted⟩ := Prod.mk.inj is
  exact ⟨s,stage,deleted,retiredRemovalVerified (Transition.runReachable .start ran)⟩

end Retirement
end SpeedySweeties
