import Mathlib.Algebra.Group.Int.Defs
import SpeedySweeties.Bnd.Schedule
import SpeedySweeties.Bnd.WaitingHistory
import SpeedySweeties.Library.JsText
import SpeedySweeties.Library.Transition

/-! The monitor of the B&D dispatcher. A check runs from one await to the next; between two
of them anything may happen: other callers, a stop, new hours, time. Each step reads the
clock once, and a request that times out or is aborted is a fetch that fails. -/
namespace SpeedySweeties

def bndActivePollMs : Int := 10000
def bndMaxRetryMs : Int := 15*60000

inductive BndMonitorState where
  | disabled | unconfigured | checking | connected | error | paused
  deriving DecidableEq, Repr

structure BndStatus where
  state : BndMonitorState
  pendingOrders : List BndPendingOrder
  lastCheckedAt : Option Int
  lastSuccessAt : Option Int
  nextCheckAt : Option Int
  errorCode : Option BndErrorCode
  deriving DecidableEq, Repr

structure BndOptions where
  enabled : Bool
  email : String
  password : String
  deriving DecidableEq, Repr

namespace BndMonitor
open Bnd

def BndOptions.configured (o : BndOptions) : Bool := JsText.trim o.email ≠ "" && o.password ≠ ""

/-- A number of seconds, in milliseconds, or a date. -/
inductive RetryAfter where
  | absent
  | seconds (milliseconds : Int)
  | date (at_ : Int)
  | unreadable
  deriving DecidableEq, Repr

def retryMs (retry : RetryAfter) (now : Int) : Option Int :=
  match retry with
  | .seconds milliseconds => some milliseconds
  | .date at_ => some (at_ - now)
  | .absent | .unreadable => none

def retryDelay (retry : Option Int) : Int := (retry.map fun ms => max 0 (min ms (24*60*60000))).getD 0

inductive CheckError where
  | monitor (code : BndErrorCode) (retryMs : Int)
  | paused
  | other
  deriving DecidableEq, Repr

def refusal (status : Nat) (retry : Option Int) : CheckError :=
  if status = 401 ∨ status = 403 then .monitor .authentication 0
  else if status = 429 then .monitor .rateLimited (retryDelay retry)
  else .monitor .connection 0

def CheckError.code : CheckError → BndErrorCode
  | .monitor code _ => code
  | .paused | .other => .connection

def CheckError.refused : CheckError → Bool
  | .monitor code _ => code = .authentication
  | .paused | .other => false

def CheckError.retryMs : CheckError → Int
  | .monitor _ ms => ms
  | .paused | .other => 0

/-- The token of a login response. -/
def loginToken : Body → Option String
  | .object fields =>
    match property fields "token" with
    | some (.text token) => if token ≠ "" ∧ JsText.length token ≤ 16384 ∧ token.toList.all (!JsText.isSpace ·) then some token else none
    | _ => none
  | _ => none

/-- The requests of a check: a login first where there is no session, and again where the
session has expired. -/
inductive Phase where
  | login
  | read (hadToken : Bool)
  | relogin
  | reread
  deriving DecidableEq, Repr

inductive RequestKind where | login | orders deriving DecidableEq, Repr

def Phase.kind : Phase → RequestKind
  | .login | .relogin => .login
  | .read _ | .reread => .orders

/-- `retry` where the catch of the first read is still to come. -/
inductive Stage where
  | before
  | starting (phase : Phase)
  | fetching (phase : Phase)
  | cancelling (phase : Phase) (status : Nat) (retry : Option Int)
  | reading (phase : Phase)
  | failing (retry : Bool) (error : CheckError)
  | received (snapshot : BndSnapshot)
  | saving

/-- The timer chain that `start` begins: in a check, or asleep until an instant. -/
inductive Tick where
  | idle
  | awaiting (check : Option Nat)
  | due (at_ : Int)
  deriving DecidableEq, Repr

inductive Event where
  | began (check : Nat) (at_ : Int)
  | requested (check : Nat) (kind : RequestKind) (at_ : Int)
  | limited (check : Nat) (until_ : Int)
  | listed (check : Nat) (body : Body)
  | failed (check : Nat) (code : BndErrorCode) (at_ : Int)

/-- The log lists what happened, the newest first. -/
structure Monitor where
  clock : Int
  hours : BndHours
  status : BndStatus
  token : Option String
  inFlight : Bool
  failures : Nat
  notBefore : Int
  stopped : Bool
  started : Bool
  tick : Tick
  checks : Nat → Option Stage
  calls : Nat
  log : List Event

inductive Action where
  | elapse (ms : Nat)
  | setHours (hours : BndHours)
  | start
  | fire
  | tickDone (refreshAt : Option Int)
  | stop
  | check
  | proceed (c : Nat)
  | beforeFails (c : Nat)
  | request (c : Nat)
  | fetchFails (c : Nat)
  | headers (c : Nat) (status : Nat) (retry : RetryAfter)
  | cancelled (c : Nat) (succeeds : Bool)
  | malformed (c : Nat)
  | body (c : Nat) (body : Body)
  | catch_ (c : Nat)
  | publish (c : Nat)
  | saved (c : Nat) (handled : Bool)

namespace Monitor
variable (wall : Int → Int) (o : BndOptions)

def initialStatus : BndStatus :=
  ⟨if !o.enabled then .disabled else if !BndOptions.configured o then .unconfigured else .checking,[],none,none,none,none⟩

def initial (clock : Int) (hours : BndHours) : Monitor :=
  ⟨clock,hours,initialStatus o,none,false,0,0,false,false,.idle,fun _ => none,0,[]⟩

def goto (m : Monitor) (c : Nat) (stage : Stage) : Monitor := { m with checks := Function.update m.checks c (some stage) }

/-- The `finally` of `check`. -/
def finish (m : Monitor) (c : Nat) : Monitor := { m with checks := Function.update m.checks c none, inFlight := false }

def open_ (m : Monitor) : Bool := (getBndSchedule wall m.hours m.clock).open_

def pause (m : Monitor) : Monitor :=
  { m with status := { m.status with state := .paused, nextCheckAt := some (nextBndCheckAt wall m.hours (max m.clock m.notBefore)) } }

def note (m : Monitor) (e : Event) : Monitor := { m with log := e::m.log }

/-- `check` up to its first await, with the check where one has begun. -/
def call (m : Monitor) : Monitor × Option Nat :=
  if m.stopped ∨ m.inFlight ∨ !o.enabled ∨ !BndOptions.configured o then (m,none)
  else ({ m with inFlight := true, calls := m.calls + 1 }.goto m.calls .before,some m.calls)

def sleepUntil (m : Monitor) (refreshAt : Option Int) : Int :=
  let schedule := getBndSchedule wall m.hours m.clock
  let delay := if schedule.open_ then min (schedule.nextChangeAt - m.clock) (max 1 (m.notBefore - m.clock))
    else schedule.nextChangeAt - m.clock
  m.clock + max 1 (refreshAt.elim delay fun at_ => min delay (at_ - m.clock))

def runTick (m : Monitor) : Monitor := { (m.call o).1 with tick := .awaiting (m.call o).2 }

def unpause (m : Monitor) : Monitor :=
  { m with status := { m.status with
    state := if m.status.state = .paused then (if m.status.errorCode.isSome then .error else .checking) else m.status.state } }

def beginCheck (m : Monitor) (c : Nat) : Monitor :=
  ({ m with status := { m.status with lastCheckedAt := some m.clock } }.note (.began c m.clock)).goto c
    (.starting (if m.token.isSome then .read true else .login))

/-- After `beforeCheck`. -/
def proceed (m : Monitor) (c : Nat) : Monitor :=
  if m.stopped then m.finish c
  else if !m.open_ wall then (m.pause wall).finish c
  else if m.clock < m.notBefore then m.unpause.finish c
  else m.unpause.beginCheck c

def backoff (failures : Nat) : Int := min bndMaxRetryMs (bndPollMs*2^(failures - 1))

/-- The outer catch, for a failure while the schedule is open. -/
def fail (m : Monitor) (error : CheckError) : Monitor :=
  let failures := min (m.failures + 1) 5
  let delay := max (backoff failures) (max error.retryMs (if error.code = .authentication then bndMaxRetryMs else 0))
  { m with
    token := if error.code = .authentication then none else m.token
    failures
    notBefore := m.clock + delay
    status := { m.status with
      state := .error, errorCode := some error.code, nextCheckAt := some (nextBndCheckAt wall m.hours (m.clock + delay)) } }

def catch_ (m : Monitor) (c : Nat) (retry : Bool) (error : CheckError) : Monitor :=
  if retry ∧ error.refused ∧ !m.stopped then { m with token := none }.goto c (.starting .relogin)
  else if error = .paused then (if m.stopped then m else m.pause wall).finish c
  else
    let noted := m.note (.failed c error.code m.clock)
    (if m.stopped then noted else if !m.open_ wall then noted.pause wall else noted.fail wall error).finish c

def publish (m : Monitor) (c : Nat) (snapshot : BndSnapshot) : Monitor :=
  if m.stopped then m.finish c
  else if !m.open_ wall then (m.pause wall).finish c
  else
    let notBefore := m.clock + if snapshot.pendingOrders = [] then (bndPollMs : Int) else bndActivePollMs
    { m with
      failures := 0
      notBefore
      status := ⟨.connected,snapshot.pendingOrders,m.status.lastCheckedAt,some m.clock,some (nextBndCheckAt wall m.hours notBefore),none⟩ }.goto
        c .saving

def step (m : Monitor) : Action → Option Monitor
  | .elapse ms => some { m with clock := m.clock + ms }
  | .setHours hours => if validHours wall hours then some { m with hours } else none
  | .start =>
    if m.started ∨ m.stopped then some m
    else if !o.enabled ∨ !BndOptions.configured o then some { m with started := true }
    else some ({ m with started := true }.runTick o)
  | .fire =>
    match m.tick with
    | .due at_ => if at_ ≤ m.clock then some (m.runTick o) else none
    | _ => none
  | .tickDone refreshAt =>
    match m.tick with
    | .awaiting check =>
      if check.any fun c => (m.checks c).isSome then none
      else some { m with tick := if m.stopped then .idle else .due (m.sleepUntil wall refreshAt) }
    | _ => none
  | .stop => some { m with stopped := true, token := none, tick := match m.tick with | .due _ => .idle | tick => tick }
  | .check => some (m.call o).1
  | .proceed c =>
    match m.checks c with
    | some .before => some (m.proceed wall c)
    | _ => none
  | .beforeFails c =>
    match m.checks c with
    | some .before => some { m.finish c with tick := if m.tick = .awaiting (some c) then .idle else m.tick }
    | _ => none
  | .request c =>
    match m.checks c with
    | some (.starting phase) =>
      some (if m.stopped then m.goto c (.failing (phase = .read true) (.monitor .connection 0))
        else if !m.open_ wall then m.goto c (.failing (phase = .read true) .paused)
        else (m.note (.requested c phase.kind m.clock)).goto c (.fetching phase))
    | _ => none
  | .fetchFails c =>
    match m.checks c with
    | some (.fetching phase) | some (.reading phase) => some (m.goto c (.failing (phase = .read true) .other))
    | _ => none
  | .headers c status retry =>
    match m.checks c with
    | some (.fetching phase) =>
      if 200 ≤ status ∧ status < 300 then some (m.goto c (.reading phase))
      else
        let retry := retryMs retry m.clock
        some ((if status = 429 then m.note (.limited c (m.clock + retryDelay retry)) else m).goto c (.cancelling phase status retry))
    | _ => none
  | .cancelled c succeeds =>
    match m.checks c with
    | some (.cancelling phase status retry) =>
      some (m.goto c (.failing (phase = .read true) (if succeeds then refusal status retry else .other)))
    | _ => none
  | .malformed c =>
    match m.checks c with
    | some (.reading phase) => some (m.goto c (.failing (phase = .read true) (.monitor .response 0)))
    | _ => none
  | .body c body =>
    match m.checks c with
    | some (.reading phase) =>
      match phase.kind with
      | .login =>
        match loginToken body with
        | none => some (m.goto c (.failing false (.monitor .authentication 0)))
        | some token =>
          some ({ m with token := if m.stopped then m.token else some token }.goto c
            (.starting (if phase = Phase.login then .read false else .reread)))
      | .orders =>
        match parseBndObservation body with
        | .error code => some (m.goto c (.failing (phase = .read true) (.monitor code 0)))
        | .ok snapshot => some ((m.note (.listed c body)).goto c (.received snapshot))
    | _ => none
  | .catch_ c =>
    match m.checks c with
    | some (.failing retry error) => some (m.catch_ wall c retry error)
    | _ => none
  | .publish c =>
    match m.checks c with
    | some (.received snapshot) => some (m.publish wall c snapshot)
    | _ => none
  | .saved c handled =>
    match m.checks c with
    | some .saving => some (if handled then m.finish c else m.goto c (.failing false .other))
    | _ => none

/-- What callers see. -/
def getStatus (m : Monitor) : BndStatus :=
  if o.enabled ∧ BndOptions.configured o ∧ !m.open_ wall then
    { m.status with state := .paused, nextCheckAt := some (nextBndCheckAt wall m.hours (max m.clock m.notBefore)) }
  else if m.status.state = .connected ∧ m.status.lastSuccessAt.any fun at_ => 2*(bndPollMs : Int) < m.clock - at_ then
    { m.status with state := .error, errorCode := some .connection }
  else m.status

end Monitor
end BndMonitor
end SpeedySweeties
