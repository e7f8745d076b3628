import SpeedySweeties.Order.EditPause

/-! The alert about an order that waits too long for dispatch. A run fixes its clock reading,
lists candidates and handles them one after the other: claim, read again, send, and mark or
release. The lease on an order is known by the time of its claim alone. Every database
request may be lost, before or after its effect, and a run may crash at any point. -/
namespace SpeedySweeties

structure AlertOrder where
  id : OrderId
  orderNumber : Nat
  createdAt : Nat
  orderStatus : OrderStatus
  dispatchedAt : Option Nat
  dispatchEditPauses : List EditPauseSession
  undispatchedAlertClaimedAt : Option Nat := none
  undispatchedAlertSentAt : Option Nat := none
  deriving DecidableEq, Repr

abbrev AlertOrders := Table AlertOrder AlertOrder.id

structure AlertOptions where
  now : Nat
  alertAfterMinutes : Nat
  maxAgeHours : Nat
  deriving DecidableEq, Repr

namespace Alerts

def minuteMs : Nat := 60000
def hourMs : Nat := 60*minuteMs
def leaseMs : Nat := 10*minuteMs
def candidateLimit : Nat := 25

def normalizePositiveNumber (value fallback : Nat) : Nat := if 0 < value then value else fallback

def AlertOptions.alertAfterMs (o : AlertOptions) : Nat := normalizePositiveNumber o.alertAfterMinutes 5*minuteMs
def AlertOptions.maxAgeMs (o : AlertOptions) : Nat := normalizePositiveNumber o.maxAgeHours 24*hourMs

def waitingMs (order : AlertOrder) (now : Nat) : Nat :=
  dispatchWaitingMilliseconds order.createdAt now order.dispatchEditPauses

def undispatched (order : AlertOrder) : Bool := order.orderStatus = .placed && order.dispatchedAt.isNone

def leaseFree (o : AlertOptions) (order : AlertOrder) : Bool :=
  order.undispatchedAlertClaimedAt.all fun at_ => at_ + leaseMs ≤ o.now

def isCandidate (o : AlertOptions) (order : AlertOrder) : Bool :=
  undispatched order && o.now ≤ order.createdAt + AlertOptions.maxAgeMs o && order.createdAt + AlertOptions.alertAfterMs o ≤ o.now &&
    order.undispatchedAlertSentAt.isNone && leaseFree o order && AlertOptions.alertAfterMs o ≤ waitingMs order o.now

def findCandidates (orders : AlertOrders) (o : AlertOptions) : List OrderId :=
  (((orders.rows.filter (isCandidate o)).insertionSort fun a b =>
    a.createdAt < b.createdAt ∨ a.createdAt = b.createdAt ∧ a.id ≤ b.id).take candidateLimit).map (·.id)

/-- The update of `claim`: `none` where it finds no row. -/
def claimRow (orders : AlertOrders) (o : AlertOptions) (id : OrderId) (claimTime : Nat) : Option AlertOrders := do
  let order ← orders.find id
  if undispatched order ∧ order.undispatchedAlertSentAt = none ∧ leaseFree o order then
    some (orders.put { order with undispatchedAlertClaimedAt := some claimTime })
  else none

/-- `markSent` with a time, `release` without one. -/
def closeRow (orders : AlertOrders) (id : OrderId) (claimTime : Nat) (sentAt : Option Nat) : Option AlertOrders := do
  let order ← orders.find id
  if order.undispatchedAlertClaimedAt = some claimTime ∧ order.undispatchedAlertSentAt = none then
    some (orders.put { order with undispatchedAlertClaimedAt := none, undispatchedAlertSentAt := sentAt })
  else none

/-- What the read after the claim must show. -/
def due (o : AlertOptions) (order : AlertOrder) : Bool :=
  undispatched order && AlertOptions.alertAfterMs o ≤ waitingMs order o.now

/-- A claim on an order, with its number among all committed claims. -/
structure Lease where
  id : OrderId
  number : Nat
  claimTime : Nat
  deriving DecidableEq, Repr

inductive Stage where
  | listing
  | next (candidates : List OrderId)
  | claiming (id : OrderId) (claimTime : Nat) (rest : List OrderId)
  | reading (lease : Lease) (rest : List OrderId)
  | releasing (lease : Lease) (rest : List OrderId)
  | alerting (lease : Lease) (order : AlertOrder) (rest : List OrderId)
  | sending (lease : Lease) (rest : List OrderId)
  | marking (lease : Lease) (sentAt : Nat) (rest : List OrderId)
  | recovering (lease : Lease) (rest : List OrderId)
  deriving DecidableEq, Repr

structure AlertRun where
  options : AlertOptions
  stage : Stage
  deriving DecidableEq, Repr

/-- `held` is the number of the claim that the row was under. -/
inductive Event where
  | claimed (lease : Lease) (at_ : Nat)
  | read (lease : Lease) (order : AlertOrder)
  | alerted (lease : Lease) (o : AlertOptions) (waitingMinutes : Nat)
  | released (lease : Lease) (held : Option Nat)
  | marked (lease : Lease) (held : Option Nat)
  deriving DecidableEq, Repr

/-- The log lists what was committed and sent, the newest first. -/
structure AlertSystem where
  clock : Nat
  orders : AlertOrders
  runs : Nat → Option AlertRun
  claims : Nat
  holder : OrderId → Option Nat
  log : List Event

/-- Whether a database request arrives, and whether its reply does. -/
structure Transport where
  arrives : Bool
  replies : Bool
  deriving DecidableEq, Repr

inductive Action where
  | tick (elapsed : Nat)
  | createOrder (order : AlertOrder)
  | changeOrder (id : OrderId) (status : OrderStatus) (dispatchedAt : Option Nat) (pauses : List EditPauseSession)
  | begin_ (run : Nat) (alertAfterMinutes maxAgeHours : Nat)
  | crash (run : Nat)
  | list (run : Nat)
  | stamp (run : Nat)
  | claim (run : Nat) (transport : Transport)
  | read (run : Nat) (replies : Bool)
  | send (run : Nat)
  | answered (run : Nat) (accepted : Bool)
  | close (run : Nat) (transport : Transport)
  deriving DecidableEq, Repr

namespace AlertSystem

def initial (clock : Nat) : AlertSystem := ⟨clock,.empty,fun _ => none,0,fun _ => none,[]⟩

def goto (s : AlertSystem) (r : Nat) (run : Option AlertRun) : AlertSystem := { s with runs := Function.update s.runs r run }

def going (o : AlertOptions) (stage : Stage) : Option AlertRun := some ⟨o,stage⟩

/-- The release or mark of a lease, where it arrives. -/
def closed (s : AlertSystem) (lease : Lease) (sentAt : Option Nat) (arrives : Bool) : AlertSystem :=
  match if arrives then closeRow s.orders lease.id lease.claimTime sentAt else none with
  | none => s
  | some orders =>
    { s with
      orders
      holder := Function.update s.holder lease.id none
      log := (if sentAt.isSome then .marked lease (s.holder lease.id) else .released lease (s.holder lease.id))::s.log }

def claimed (s : AlertSystem) (lease : Lease) (orders : AlertOrders) : AlertSystem :=
  { s with
    orders
    claims := s.claims + 1
    holder := Function.update s.holder lease.id (some lease.number)
    log := .claimed lease s.clock::s.log }

def step (s : AlertSystem) : Action → Option AlertSystem
  | .tick elapsed => some { s with clock := s.clock + elapsed }
  | .createOrder order =>
    match s.orders.find order.id with
    | some _ => none
    | none => some { s with orders := s.orders.put { order with undispatchedAlertClaimedAt := none, undispatchedAlertSentAt := none } }
  | .changeOrder id status dispatchedAt pauses =>
    (s.orders.find id).map fun order =>
      { s with orders := s.orders.put { order with orderStatus := status, dispatchedAt, dispatchEditPauses := pauses } }
  | .begin_ r alertAfterMinutes maxAgeHours =>
    match s.runs r with
    | some _ => none
    | none => some (s.goto r (going ⟨s.clock,alertAfterMinutes,maxAgeHours⟩ .listing))
  | .crash r => some (s.goto r none)
  | .list r =>
    match s.runs r with
    | some ⟨o,.listing⟩ => some (s.goto r (going o (.next (findCandidates s.orders o))))
    | _ => none
  | .stamp r =>
    match s.runs r with
    | some ⟨_,.next []⟩ => some (s.goto r none)
    | some ⟨o,.next (id::rest)⟩ => some (s.goto r (going o (.claiming id s.clock rest)))
    | _ => none
  | .claim r transport =>
    match s.runs r with
    | some ⟨o,.claiming id claimTime rest⟩ =>
      match if transport.arrives then claimRow s.orders o id claimTime else none with
      | none => some (s.goto r (if transport.arrives && transport.replies then going o (.next rest) else none))
      | some orders =>
        let lease : Lease := ⟨id,s.claims,claimTime⟩
        some ((s.claimed lease orders).goto r (if transport.replies then going o (.reading lease rest) else none))
    | _ => none
  | .read r replies =>
    match s.runs r with
    | some ⟨o,.reading lease rest⟩ =>
      if !replies then some (s.goto r (going o (.recovering lease rest)))
      else
        match s.orders.find lease.id with
        | none => some (s.goto r (going o (.releasing lease rest)))
        | some order =>
          some ({ s with log := .read lease order::s.log }.goto r
            (going o (if due o order then .alerting lease order rest else .releasing lease rest)))
    | _ => none
  | .send r =>
    match s.runs r with
    | some ⟨o,.alerting lease order rest⟩ =>
      some ({ s with log := .alerted lease o (waitingMs order o.now / minuteMs)::s.log }.goto r (going o (.sending lease rest)))
    | _ => none
  | .answered r accepted =>
    match s.runs r with
    | some ⟨o,.sending lease rest⟩ =>
      some (s.goto r (going o (if accepted then .marking lease s.clock rest else .recovering lease rest)))
    | _ => none
  | .close r transport =>
    match s.runs r with
    | some ⟨o,.releasing lease rest⟩ =>
      some ((s.closed lease none transport.arrives).goto r
        (going o (if transport.arrives && transport.replies then .next rest else .recovering lease rest)))
    | some ⟨o,.marking lease sentAt rest⟩ =>
      some ((s.closed lease (some sentAt) transport.arrives).goto r
        (going o (if transport.arrives && transport.replies then .next rest else .recovering lease rest)))
    | some ⟨o,.recovering lease rest⟩ => some ((s.closed lease none transport.arrives).goto r (going o (.next rest)))
    | _ => none

end AlertSystem
end Alerts
end SpeedySweeties
