import Mathlib.Logic.Function.Basic
import SpeedySweeties.Library.JsText
import SpeedySweeties.Library.Transition
import SpeedySweeties.Order.Handlers

/-! The reservations of public order submissions. The guard's clock reading, its purge and
its insert are one step at one clock. A reservation is stored by its key alone, so a failing
request that has outlived its own deletes whatever is stored there. -/
namespace SpeedySweeties
open JsText

/-! ### Fingerprints -/

structure Decimal where
  digits : Int
  scale : Nat
  deriving DecidableEq, Repr

inductive JsonValue where
  | null
  | bool (value : Bool)
  | number (value : Decimal)
  | text (value : String)
  | array (items : List JsonValue)
  | object (fields : List (String × JsonValue))

def JsonValue.field (name : String) : JsonValue → Option JsonValue
  | .object fields => (fields.find? (·.1 = name)).map (·.2)
  | _ => none

structure ItemFingerprint where
  name : String
  quantity : Decimal
  unitPrice : Option Decimal
  totalPrice : Option Decimal
  deriving DecidableEq, Repr

structure DuplicateRelevantPayload where
  customerName : String
  customerPhone : String
  customerEmail : String
  addressLine1 : String
  unitNumber : String
  buzzCode : String
  city : String
  province : String
  paymentMethod : String
  additionalNotes : String
  deliveryInstructions : String
  notes : String
  items : List ItemFingerprint
  deriving DecidableEq, Repr

/-- Library functions: `toNumber` is `Number` where it is finite. -/
structure FingerprintService where
  toLowerCase : String → String
  toNumber : Option JsonValue → Option Decimal
  stringify : DuplicateRelevantPayload → String
  sha256 : String → String

variable (T : FingerprintService)

def normalizeString (value : Option JsonValue) : String :=
  match value with
  | some (.text text) => T.toLowerCase (trim text)
  | _ => ""

def legacyEtransferPaymentMethod : String := "E_TRANSFER"

def normalizePaymentMethodForFingerprint (value : Option JsonValue) : String :=
  let normalizedValue := normalizeString T value
  if normalizedValue = T.toLowerCase legacyEtransferPaymentMethod then "etransfer" else normalizedValue

def normalizeItems (value : Option JsonValue) : List ItemFingerprint :=
  match value with
  | some (.array items) => items.map fun item =>
      { name := normalizeString T (item.field "name")
        quantity := (T.toNumber (item.field "quantity")).getD ⟨1,0⟩
        unitPrice := T.toNumber (item.field "unitPrice")
        totalPrice := T.toNumber (item.field "totalPrice") }
  | _ => []

def duplicateRelevantPayload (body : JsonValue) : DuplicateRelevantPayload :=
  let normalized (name : String) := normalizeString T (body.field name)
  { customerName := normalized "customerName"
    customerPhone := String.ofList ((normalized "customerPhone").toList.filter Char.isDigit)
    customerEmail := normalized "customerEmail"
    addressLine1 := normalized "addressLine1"
    unitNumber := normalized "unitNumber"
    buzzCode := normalized "buzzCode"
    city := normalized "city"
    province := normalized "province"
    paymentMethod := normalizePaymentMethodForFingerprint T (body.field "paymentMethod")
    additionalNotes := normalized "additionalNotes"
    deliveryInstructions := normalized "deliveryInstructions"
    notes := normalized "notes"
    items := normalizeItems T (body.field "items") }

def createOrderSubmissionFingerprint (body : JsonValue) : String :=
  T.sha256 (T.stringify (duplicateRelevantPayload T body))

def orderSubmissionKey (body : JsonValue) : String :=
  "orderSubmission:" ++ createOrderSubmissionFingerprint T body

/-! ### Reservations -/

def duplicateWindowMs : Time := 60*1000

def duplicateSubmission : Reply where
  status := 409
  code := some "DUPLICATE_ORDER_SUBMISSION"
  message := "This order was already submitted. Please check your current order before trying again."

/-- The row's value is `expiresAt`; whose it is, is not stored. -/
structure Reservation where
  expiresAt : Time
  holder : Nat
  deriving DecidableEq, Repr

inductive SubmissionStage where
  | creating (key : String)
  | failed (key : String)
  | closed
  deriving DecidableEq, Repr

/-- Which requests the guard let through, and what a release has deleted. -/
inductive GuardEvent where
  | admitted (request : Nat) (key : String) (time : Time)
  | released (request : Nat) (key : String) (holder : Option Nat)
  deriving DecidableEq, Repr

structure GuardSystem where
  now : Time
  reservations : String → Option Reservation
  requests : Nat → Option SubmissionStage
  /-- Newest first. -/
  log : List GuardEvent

inductive GuardAction where
  | tick (elapsed : Time)
  | submit (request : Nat) (body : JsonValue)
  | finish (request : Nat) (status : Nat)
  | release (request : Nat)
  | drop (request : Nat)

namespace GuardSystem

def initial (now : Time) : GuardSystem := ⟨now,fun _ => none,fun _ => none,[]⟩

def purge (s : GuardSystem) : GuardSystem :=
  { s with reservations := fun key => (s.reservations key).filter (s.now < ·.expiresAt) }

def enter (s : GuardSystem) (request : Nat) (stage : SubmissionStage) : GuardSystem :=
  { s with requests := Function.update s.requests request (some stage) }

/-- `INSERT ... ON CONFLICT DO NOTHING`, then the next handler or the refusal. -/
def reserve (s : GuardSystem) (request : Nat) (key : String) : GuardSystem :=
  if (s.reservations key).isSome then s.enter request .closed
  else { s.enter request (.creating key) with
    reservations := Function.update s.reservations key (some ⟨s.now + duplicateWindowMs,request⟩)
    log := .admitted request key s.now::s.log }

def releaseReservation (s : GuardSystem) (request : Nat) (key : String) : GuardSystem :=
  { s.enter request .closed with
    reservations := Function.update s.reservations key none
    log := .released request key ((s.reservations key).map (·.holder))::s.log }

def step (s : GuardSystem) : GuardAction → Option GuardSystem
  | .tick elapsed => some { s with now := s.now + elapsed }
  | .submit request body =>
    if (s.requests request).isSome then none
    else some (s.purge.reserve request (orderSubmissionKey T body))
  | .finish request status =>
    match s.requests request with
    | some (.creating key) => some (s.enter request (if 400 ≤ status then .failed key else .closed))
    | _ => none
  | .release request =>
    match s.requests request with
    | some (.failed key) => some (s.releaseReservation request key)
    | _ => none
  | .drop request => some (s.enter request .closed)

abbrev Reachable (start : Time) : GuardSystem → Prop := Transition.Reachable (step T) (initial start)

/-- Of two submissions admitted under one key within the window, the earlier had released
its own reservation before the later came; and nobody has released another's. -/
structure Suppressed (s : GuardSystem) : Prop where
  apart : ∀ newer between older later earlier key laterAt earlierAt,
    s.log = newer ++ .admitted later key laterAt::(between ++ .admitted earlier key earlierAt::older) →
    laterAt < earlierAt + duplicateWindowMs → .released earlier key (some earlier) ∈ between
  own : ∀ request key holder, .released request key (some holder) ∈ s.log → holder = request

/-- A failed request releases while the reservation under its key still is the one it took,
or when there is none. -/
def OwnReservation (s : GuardSystem) : GuardAction → Prop
  | .release request => ∀ key reservation, s.requests request = some (.failed key) →
      s.reservations key = some reservation → reservation.holder = request
  | _ => True

variable {T} {s t : GuardSystem} {a : GuardAction}

/-- An admission not yet followed by its own release has run out or is still stored. -/
def Outstanding (s : GuardSystem) : Prop :=
  ∀ newer older request key time, s.log = newer ++ .admitted request key time::older →
    .released request key (some request) ∈ newer ∨ time + duplicateWindowMs ≤ s.now ∨
      s.reservations key = some ⟨time + duplicateWindowMs,request⟩

structure GuardSound (s : GuardSystem) : Prop where
  outstanding : s.Outstanding
  suppressed : s.Suppressed

theorem logSplit {e x : GuardEvent} {log newer older : List GuardEvent} (split : e::log = newer ++ x::older) :
    newer = [] ∧ e = x ∧ log = older ∨ ∃ rest, newer = e::rest ∧ log = rest ++ x::older := by
  cases newer with
  | nil => exact .inl ⟨rfl,List.cons.inj split⟩
  | cons first rest =>
    obtain ⟨rfl,tail⟩ := List.cons.inj split
    exact .inr ⟨rest,rfl,tail⟩

theorem GuardSound.same (h : s.GuardSound) (log : t.log = s.log) (later : s.now ≤ t.now)
    (kept : ∀ key time request, s.reservations key = some ⟨time + duplicateWindowMs,request⟩ →
      time + duplicateWindowMs ≤ t.now ∨ t.reservations key = some ⟨time + duplicateWindowMs,request⟩) :
    t.GuardSound := by
  refine ⟨fun newer older request key time split => ?_,⟨by rw [log]; exact h.suppressed.apart,
    by rw [log]; exact h.suppressed.own⟩⟩
  rcases h.outstanding newer older request key time (log ▸ split) with released | passed | stored
  · exact .inl released
  · exact .inr (.inl (Nat.le_trans passed later))
  · exact .inr (kept key time request stored)

theorem purgeSound (h : s.GuardSound) : s.purge.GuardSound := by
  refine h.same rfl (Nat.le_refl _) fun key time request stored => ?_
  simp only [purge,stored,Option.filter_some,decide_eq_true_eq]
  split
  · exact .inr rfl
  · rename_i passed
    exact .inl (Nat.le_of_not_lt passed)

theorem reserveSound {request : Nat} {key : String} (h : s.GuardSound) : (s.reserve request key).GuardSound := by
  unfold reserve
  split
  · exact h.same rfl (Nat.le_refl _) fun _ _ _ stored => .inr stored
  rename_i free
  have unstored : s.reservations key = none := by simpa using free
  refine ⟨fun newer older earlier other time split => ?_,⟨?_,fun r k holder mem => ?_⟩⟩
  · rcases logSplit split with ⟨rfl,same,_⟩ | ⟨rest,rfl,before⟩
    · cases same
      exact .inr (.inr (by simp))
    · rcases h.outstanding rest older earlier other time before with released | passed | stored
      · exact .inl (List.mem_cons_of_mem _ released)
      · exact .inr (.inl passed)
      · refine .inr (.inr ?_)
        have differ : other ≠ key := by
          rintro rfl
          rw [unstored] at stored
          contradiction
        simpa only [Function.update_of_ne differ] using stored
  · intro newer between older later earlier k laterAt earlierAt split close
    rcases logSplit split with ⟨rfl,same,before⟩ | ⟨rest,rfl,before⟩
    · cases same
      rcases h.outstanding between older earlier key earlierAt before with released | passed | stored
      · exact released
      · exact absurd close (Nat.not_lt.mpr passed)
      · rw [unstored] at stored
        contradiction
    · exact h.suppressed.apart rest between older later earlier k laterAt earlierAt before close
  · rcases List.mem_cons.mp mem with same | old
    · contradiction
    · exact h.suppressed.own r k holder old

theorem releaseSound {request : Nat} {key : String} (h : s.GuardSound)
    (own : ∀ reservation, s.reservations key = some reservation → reservation.holder = request) :
    (s.releaseReservation request key).GuardSound := by
  refine ⟨fun newer older earlier other time split => ?_,⟨?_,fun r k holder mem => ?_⟩⟩
  · rcases logSplit split with ⟨_,same,_⟩ | ⟨rest,rfl,before⟩
    · contradiction
    · rcases h.outstanding rest older earlier other time before with released | passed | stored
      · exact .inl (List.mem_cons_of_mem _ released)
      · exact .inr (.inl passed)
      · by_cases here : other = key
        · subst here
          have mine : earlier = request := own _ stored
          refine .inl ?_
          rw [stored,mine]
          exact List.mem_cons_self
        · exact .inr (.inr (by simpa only [releaseReservation,Function.update_of_ne here] using stored))
  · intro newer between older later earlier k laterAt earlierAt split close
    rcases logSplit split with ⟨_,same,_⟩ | ⟨rest,rfl,before⟩
    · contradiction
    · exact h.suppressed.apart rest between older later earlier k laterAt earlierAt before close
  · rcases List.mem_cons.mp mem with same | old
    · obtain ⟨rfl,rfl,deleted⟩ := GuardEvent.released.inj same
      obtain ⟨reservation,stored,rfl⟩ := Option.map_eq_some_iff.mp deleted.symm
      exact own reservation stored
    · exact h.suppressed.own r k holder old

theorem guardSoundStep (taken : s.step T a = some t) (allowed : s.OwnReservation a) (h : s.GuardSound) :
    t.GuardSound := by
  cases a with
  | tick elapsed =>
    cases taken
    exact h.same rfl (Nat.le_add_right ..) fun _ _ _ stored => .inr stored
  | submit request body =>
    simp only [step] at taken
    split at taken
    · contradiction
    · cases taken
      exact reserveSound (purgeSound h)
  | finish request status =>
    simp only [step] at taken
    split at taken
    · cases taken
      exact h.same rfl (Nat.le_refl _) fun _ _ _ stored => .inr stored
    · contradiction
  | release request =>
    simp only [step] at taken
    split at taken
    · rename_i key failed
      cases taken
      exact releaseSound h fun reservation => allowed key reservation failed
    · contradiction
  | drop request =>
    cases taken
    exact h.same rfl (Nat.le_refl _) fun _ _ _ stored => .inr stored

/-- A release that breaks the condition deletes another request's reservation. -/
theorem foreignRelease (taken : s.step T a = some t) (foreign : ¬ s.OwnReservation a) : ¬ t.Suppressed := by
  intro suppressed
  cases a with
  | release request =>
    simp only [OwnReservation,not_forall] at foreign
    obtain ⟨key,reservation,failed,stored,other⟩ := foreign
    simp only [step,failed,Option.some.injEq] at taken
    subst taken
    exact other (suppressed.own request key reservation.holder (by
      simp only [releaseReservation,stored,Option.map_some,List.mem_cons_self]))
  | _ => exact foreign trivial

theorem duplicatesSuppressed (T : FingerprintService) (start : Time) :
    (∀ s, Transition.ReachableUnder (step T) OwnReservation (initial start) s → s.Suppressed) ∧
    ∀ (s : GuardSystem) a t, s.step T a = some t → ¬ s.OwnReservation a → ¬ t.Suppressed := by
  refine ⟨fun s reached => ?_,fun _ _ _ => foreignRelease⟩
  have sound : s.GuardSound := by
    refine reached.invariant ⟨?_,⟨?_,nofun⟩⟩ fun _ _ _ h allowed taken => guardSoundStep taken allowed h
    · intro newer older request key time split
      simp [initial] at split
    · intro newer between older later earlier key laterAt earlierAt split
      simp [initial] at split
  exact sound.suppressed

/-! ### Runs -/

def sampleFingerprint : FingerprintService where
  toLowerCase text := String.ofList (text.toList.map Char.toLower)
  toNumber value := match value with
    | some (.number n) => some n
    | _ => none
  stringify payload := payload.customerName ++ "|" ++ payload.customerPhone
  sha256 := id

def sampleSubmission : JsonValue := .object [("customerName",.text "Jo"),("customerPhone",.text "416 555 0100")]

/-- The first request fails and the customer tries again. -/
theorem retriedAfterFailure : ∃ s, Transition.ReachableUnder (step sampleFingerprint) OwnReservation (initial 0) s ∧
    s.Suppressed ∧ s.log.length = 3 := by
  have stored : (Transition.run (step sampleFingerprint) (initial 0)
      [.submit 0 sampleSubmission,.tick 1000,.finish 0 503]).map (fun s =>
        (s.requests 0,(s.reservations (orderSubmissionKey sampleFingerprint sampleSubmission)).map (·.holder))) =
      some (some (.failed (orderSubmissionKey sampleFingerprint sampleSubmission)),some 0) := by decide +kernel
  have allowed : Transition.AllowedRun (step sampleFingerprint) OwnReservation (initial 0)
      ([GuardAction.submit 0 sampleSubmission,.tick 1000,.finish 0 503] ++ [GuardAction.release 0,.submit 1 sampleSubmission]) := by
    refine .append ⟨trivial,fun _ _ => ⟨trivial,fun _ _ => ⟨trivial,fun _ _ => trivial⟩⟩⟩ fun s ran =>
      ⟨fun key reservation failed here => ?_,fun _ _ => ⟨trivial,fun _ _ => trivial⟩⟩
    simp only [ran,Option.map_some,Option.some.injEq,Prod.mk.injEq,failed,SubmissionStage.failed.injEq] at stored
    rw [← stored.1,here] at stored
    exact Option.some.inj stored.2
  have ends : (Transition.run (step sampleFingerprint) (initial 0)
      ([GuardAction.submit 0 sampleSubmission,.tick 1000,.finish 0 503] ++ [GuardAction.release 0,.submit 1 sampleSubmission])).map
        (fun s => s.log.length) = some 3 := by decide +kernel
  obtain ⟨s,ran,length⟩ := Option.map_eq_some_iff.mp ends
  have reached := Transition.runReachableUnder .start allowed ran
  exact ⟨s,reached,(duplicatesSuppressed sampleFingerprint 0).1 s reached,length⟩

/-- The first request outlives the window and fails after the second has been admitted. -/
theorem slowFailureReleasesNext : ¬ ∀ (T : FingerprintService) (start : Time) (s : GuardSystem),
    Reachable T start s → s.Suppressed := by
  intro always
  let key := orderSubmissionKey sampleFingerprint sampleSubmission
  have ends : (Transition.run (step sampleFingerprint) (initial 0)
      [.submit 0 sampleSubmission,.tick 60000,.submit 1 sampleSubmission,.tick 1000,.finish 0 503,.release 0,
        .submit 2 sampleSubmission]).map (fun s => s.log) =
      some [.admitted 2 key 61000,.released 0 key (some 1),.admitted 1 key 60000,.admitted 0 key 0] := by
    decide +kernel
  obtain ⟨s,ran,log⟩ := Option.map_eq_some_iff.mp ends
  have suppressed := always sampleFingerprint 0 s (Transition.runReachable .start ran)
  have released := suppressed.apart [] [.released 0 key (some 1)] [.admitted 0 key 0] 2 1 key 61000 60000 log
    (by decide)
  simp at released

end GuardSystem
end SpeedySweeties
