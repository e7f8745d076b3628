import Mathlib.Data.List.Basic
import Mathlib.Logic.Function.Basic
import SpeedySweeties.Bnd.WaitingHistory
import SpeedySweeties.Library.Table
import SpeedySweeties.Library.Transition

/-! The email about a waiting B&D order: a durable receipt that a processor claims by a
conditional update, at a clock all processors share, and a provider that remembers keys.
Between any two operations of a processor others may run, and it may crash. -/
namespace SpeedySweeties

structure BndEmailAlert where
  orderId : String
  orderNumber : String
  createdAt : Nat
  claimedAt : Option Nat := none
  sentAt : Option Nat := none
  deriving DecidableEq, Repr

abbrev BndEmailAlerts := Table BndEmailAlert BndEmailAlert.orderId

structure EmailClaim where
  order : BndPendingOrder
  claimedAt : Nat
  deriving DecidableEq, Repr

namespace BndEmail

def claimMs : Nat := 2*60000
def retryWindowMs : Nat := 23*60*60*1000
def hourMs : Nat := 60*60*1000

/-- Resend retains idempotency keys for 24 hours. -/
def keyRetentionMs : Nat := 24*hourMs

def idempotencyKey (order : BndPendingOrder) : String := "bnd-waiting-order/" ++ order.id

/-! ### prismaBndEmailStore -/

def BndEmailAlert.order (alert : BndEmailAlert) : BndPendingOrder := ⟨alert.orderId,alert.orderNumber⟩

/-- The upsert of `claim`, with the receipt it returns. -/
def upsertReceipt (alerts : BndEmailAlerts) (order : BndPendingOrder) (now : Nat) : BndEmailAlerts × BndEmailAlert :=
  match alerts.find order.id with
  | some receipt => (alerts,receipt)
  | none =>
    let receipt : BndEmailAlert := { orderId := order.id, orderNumber := order.number, createdAt := now }
    (alerts.put receipt,receipt)

def claimable (alert : BndEmailAlert) (now : Nat) : Bool :=
  alert.sentAt.isNone && now ≤ alert.createdAt + retryWindowMs && alert.claimedAt.all fun at_ => at_ + claimMs ≤ now

/-- The conditional update of `claim`: `none` where it finds no row. -/
def claimReceipt (alerts : BndEmailAlerts) (orderId : String) (now : Nat) : Option BndEmailAlerts := do
  let alert ← alerts.find orderId
  if claimable alert now then some (alerts.put { alert with claimedAt := some now }) else none

def markSent (alerts : BndEmailAlerts) (claim : EmailClaim) (now : Nat) : Option BndEmailAlerts := do
  let alert ← alerts.find claim.order.id
  if alert.claimedAt = some claim.claimedAt ∧ alert.sentAt = none then
    some (alerts.put { alert with sentAt := some now, claimedAt := none })
  else none

/-! ### createBndEmailProcessor -/

structure MonitorStatus where
  connected : Bool
  lastSuccessAt : Option Nat
  pendingOrders : List BndPendingOrder
  deriving DecidableEq, Repr

def freshOrders (status : MonitorStatus) (now : Nat) : List BndPendingOrder :=
  if status.connected ∧ status.lastSuccessAt.any fun at_ => now ≤ at_ + 2*bndPollMs then status.pendingOrders else []

def waits (status : MonitorStatus) (now : Nat) (order : BndPendingOrder) : Bool :=
  (freshOrders status now).any fun current => current.id = order.id

/-- Where a check stands, with the orders still to come and the number attempted. -/
inductive Stage where
  | enabling
  | next (orders : List BndPendingOrder) (attempted : Nat)
  | upserting (order : BndPendingOrder) (now : Nat) (rest : List BndPendingOrder) (attempted : Nat)
  | claiming (receipt : BndPendingOrder) (now : Nat) (rest : List BndPendingOrder) (attempted : Nat)
  | rechecking (claim : EmailClaim) (rest : List BndPendingOrder) (attempted : Nat)
  | sending (claim : EmailClaim) (rest : List BndPendingOrder) (attempted : Nat)
  | marking (claim : EmailClaim) (sentAt : Nat) (rest : List BndPendingOrder) (attempted : Nat)
  deriving DecidableEq, Repr

inductive Event where
  | claimed (claim : EmailClaim)
  | marked (orderId : String)
  deriving DecidableEq, Repr

/-- The log lists the committed claims and marks, the newest one first. -/
structure EmailSystem where
  now : Nat
  alerts : BndEmailAlerts
  checks : Nat → Option Stage
  stopped : Nat → Bool
  inFlight : List EmailClaim
  received : String → Option Nat
  emails : List String
  log : List Event

inductive Action where
  | tick (elapsed : Nat)
  | stop (processor : Nat)
  | crash (processor : Nat)
  | check (processor : Nat) (status : MonitorStatus)
  | readEnabled (processor : Nat) (enabled : Bool) (status : MonitorStatus)
  | next (processor : Nat) (enabled : Bool) (status : MonitorStatus)
  | upsert (processor : Nat)
  | claim (processor : Nat) (acknowledged : Bool)
  | recheck (processor : Nat) (enabled : Bool) (status : MonitorStatus)
  | answered (processor : Nat) (accepted : Bool)
  | mark (processor : Nat) (arrives : Bool)
  | deliver (claim : EmailClaim)
  deriving DecidableEq, Repr

namespace EmailSystem

def initial (now : Nat) : EmailSystem := ⟨now,.empty,fun _ => none,fun _ => false,[],fun _ => none,[],[]⟩

def goto (s : EmailSystem) (p : Nat) (stage : Option Stage) : EmailSystem := { s with checks := Function.update s.checks p stage }

/-- The end of an attempt: at most ten in one check. -/
def attempted (rest : List BndPendingOrder) (n : Nat) : Option Stage := if 10 ≤ n + 1 then none else some (.next rest (n + 1))

/-- A request reaches the provider, which mails an order unless it remembers the key. -/
def accept (s : EmailSystem) (claim : EmailClaim) : EmailSystem :=
  let key := idempotencyKey claim.order
  if (s.received key).any fun at_ => s.now ≤ at_ + keyRetentionMs then s
  else { s with received := Function.update s.received key (some s.now), emails := claim.order.id::s.emails }

def step (s : EmailSystem) : Action → Option EmailSystem
  | .tick elapsed => some { s with now := s.now + elapsed }
  | .stop p => some { s with stopped := Function.update s.stopped p true }
  | .crash p => some (s.goto p none)
  | .check p status =>
    match s.checks p with
    | some _ => none
    | none => if s.stopped p ∨ freshOrders status s.now = [] then some s else some (s.goto p (some .enabling))
  | .readEnabled p enabled status =>
    match s.checks p with
    | some .enabling => some (s.goto p (if enabled then some (.next (freshOrders status s.now) 0) else none))
    | _ => none
  | .next p enabled status =>
    match s.checks p with
    | some (.next [] _) => some (s.goto p none)
    | some (.next (order::rest) n) =>
      if s.stopped p ∨ !enabled then some (s.goto p none)
      else if !waits status s.now order then some (s.goto p (some (.next rest n)))
      else some (s.goto p (some (.upserting order s.now rest n)))
    | _ => none
  | .upsert p =>
    match s.checks p with
    | some (.upserting order now rest n) =>
      let (alerts,receipt) := upsertReceipt s.alerts order now
      some ({ s with alerts }.goto p (some (.claiming (BndEmailAlert.order receipt) now rest n)))
    | _ => none
  | .claim p acknowledged =>
    match s.checks p with
    | some (.claiming receipt now rest n) =>
      match claimReceipt s.alerts receipt.id now with
      | none => some (s.goto p (some (.next rest n)))
      | some alerts =>
        some ({ s with alerts, log := .claimed ⟨receipt,now⟩::s.log }.goto p
          (if acknowledged then some (.rechecking ⟨receipt,now⟩ rest n) else none))
    | _ => none
  | .recheck p enabled status =>
    match s.checks p with
    | some (.rechecking claim rest n) =>
      if s.stopped p ∨ !enabled then some (s.goto p none)
      else if !waits status s.now claim.order then some (s.goto p (some (.next rest n)))
      else some ({ s with inFlight := claim::s.inFlight }.goto p (some (.sending claim rest n)))
    | _ => none
  | .answered p accepted =>
    match s.checks p with
    | some (.sending claim rest n) =>
      some (s.goto p (if accepted then some (.marking claim s.now rest n) else attempted rest n))
    | _ => none
  | .mark p arrives =>
    match s.checks p with
    | some (.marking claim sentAt rest n) =>
      match if arrives then markSent s.alerts claim sentAt else none with
      | none => some (s.goto p (attempted rest n))
      | some alerts => some ({ s with alerts, log := .marked claim.order.id::s.log }.goto p (attempted rest n))
    | _ => none
  | .deliver claim => if claim ∈ s.inFlight then some ({ s with inFlight := s.inFlight.erase claim }.accept claim) else none

/-- A send that was started reaches the provider within an hour of its claim. -/
def Timely (s : EmailSystem) : Action → Prop
  | .deliver claim => s.now ≤ claim.claimedAt + hourMs
  | _ => True

instance (s : EmailSystem) (a : Action) : Decidable (s.Timely a) := by
  unfold Timely
  split <;> infer_instance

end EmailSystem
end BndEmail
end SpeedySweeties
