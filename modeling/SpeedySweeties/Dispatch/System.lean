import SpeedySweeties.Dispatch.Allocation
import SpeedySweeties.Library.Transition
import SpeedySweeties.Order.System

/-! Orders and staff accounts under concurrent assignments and staff changes. A transaction
runs statement by statement on what is committed and holds the row locks it has taken until
it ends; its own update is seen by nobody before its commit. A statement that must wait for
a lock is not enabled. Every other write is one statement, which needs its row unlocked. -/
namespace SpeedySweeties

abbrev TransactionId := Nat

structure OrderRequest where
  id : OrderId
  handler : Handler
  order : Option Order
  update : Option GuardedUpdate

inductive AssignStage where
  | begun
  | orderLocked
  | driverLocked
  | updated (row : Order)

inductive AllocateStage where
  | begun
  | orderLocked (lockedOrder : Order)
  | loaded (lockedOrder : Order) (allocationTime : Time) (candidates : List AllocationCandidate)
  | robLocked (lockedOrder : Order) (allocationTime : Time) (robCandidate : AllocationCandidate)
      (fallbackCandidates : List AllocationCandidate)
  | selected (lockedOrder : Order) (allocationTime : Time) (candidate : AllocationCandidate)
  | driverLocked (lockedOrder : Order) (allocationTime : Time) (candidate : AllocationCandidate)
  | updated (row : Order) (candidate : AllocationCandidate)

inductive StaffStage where
  | begun
  | locked
  | read (user : User)
  | checked (user : User)
  | updated (row : User)

inductive Transaction where
  | assign (id : OrderId) (u : GuardedUpdate) (driver : UserId) (stage : AssignStage)
  | allocate (id : OrderId) (stage : AllocateStage)
  | staff (actorId id : UserId) (staffRevision : Nat) (change : StaffChange) (stage : StaffStage)

structure DispatchSystem where
  users : Table User User.id
  orders : Table Order Order.id
  requests : RequestId → Option OrderRequest
  transactions : TransactionId → Option Transaction
  orderLock : OrderId → Option TransactionId
  accountLock : UserId → Option TransactionId

inductive DispatchAction where
  | createOrder (id : OrderId) (input : NewOrder) (now : Time)
  | read (request : RequestId) (id : OrderId) (handler : Handler)
  | decide (request : RequestId) (receipt : Bool) (now : Time)
  | update (request : RequestId)
  | saveReceipt (id : OrderId) (user : UserId) (now : Time)
  | editDetails (id : OrderId) (existingOrder : Order) (details : OrderDetails)
  | setPriority (id : OrderId) (priority : OrderPriority)
  | erase (id : OrderId) (now retainUntil : Time)
  | register (id : UserId) (email passwordHash : String) (role : UserRole) (firstName lastName : Option String)
  | account (id : UserId) (w : AccountWrite)
  | beginAssign (x : TransactionId) (request : RequestId)
  | beginAllocate (x : TransactionId) (id : OrderId)
  | beginStaff (x : TransactionId) (actorId id : UserId) (staffRevision : Nat) (change : StaffChange)
  | lockOrder (x : TransactionId)
  | loadCandidates (x : TransactionId) (routes : List PlannedRoute) (now : Time)
  | lockRob (x : TransactionId) (now : Time)
  | countRob (x : TransactionId)
  | lockDriver (x : TransactionId) (now : Time)
  | lockAccount (x : TransactionId)
  | readAccount (x : TransactionId)
  | countUnfinished (x : TransactionId)
  | write (x : TransactionId)
  | commit (x : TransactionId)
  | rollback (x : TransactionId)
  | abandon (request : RequestId)

namespace DispatchSystem

def initial (users : Table User User.id) : DispatchSystem :=
  ⟨users,.empty,fun _ => none,fun _ => none,fun _ => none,fun _ => none⟩

def await (s : DispatchSystem) (request : RequestId) (r : OrderRequest) : DispatchSystem :=
  { s with requests := Function.update s.requests request (some r) }

def close (s : DispatchSystem) (request : RequestId) : DispatchSystem :=
  { s with requests := Function.update s.requests request none }

def move (s : DispatchSystem) (x : TransactionId) (tx : Transaction) : DispatchSystem :=
  { s with transactions := Function.update s.transactions x (some tx) }

def takeOrder (s : DispatchSystem) (x : TransactionId) (id : OrderId) : DispatchSystem :=
  { s with orderLock := Function.update s.orderLock id (some x) }

def takeAccount (s : DispatchSystem) (x : TransactionId) (id : UserId) : DispatchSystem :=
  { s with accountLock := Function.update s.accountLock id (some x) }

/-- The end of a transaction, which releases its locks. -/
def finish (s : DispatchSystem) (x : TransactionId) : DispatchSystem :=
  { s with
    transactions := Function.update s.transactions x none
    orderLock := fun id => if s.orderLock id = some x then none else s.orderLock id
    accountLock := fun id => if s.accountLock id = some x then none else s.accountLock id }

def assignedCount (s : DispatchSystem) (statuses : OrderStatus → Bool) (driver : UserId) : Nat :=
  s.orders.rows.countP fun o => o.assignedDriverId = some driver && statuses o.orderStatus

/-- The active, visible driver as the assignment handler reads it. -/
def driverView (s : DispatchSystem) : Handler → Option DriverView
  | .assign body _ => do
    let user ← s.users.find (← body.driverId)
    if user.role = .driver ∧ user.isActive ∧ user.isVisibleInDispatch then
      some ⟨user.id,user.isOnline,user.lastSeenAt⟩
    else none
  | _ => none

/-- `lockAssignableDriver`: `none` where the statement waits for the row. -/
def lockAssignable (s : DispatchSystem) (x : TransactionId) (driver : UserId) (now : Time) : Option Bool :=
  match s.users.find driver with
  | none => some false
  | some user =>
    if ¬ Assignable now user then some false
    else if s.accountLock driver = none ∨ s.accountLock driver = some x then some true else none

/-- One update statement on an order row. -/
def updateOrder (s : DispatchSystem) (id : OrderId) (f : Order → Option Order) : Option DispatchSystem :=
  if (s.orderLock id).isSome then none
  else match (s.orders.find id).bind f with
  | none => some s
  | some row => some { s with orders := s.orders.put row }

variable (T : AllocationService) (robPriority : Option String)

def choose (s : DispatchSystem) (x : TransactionId) (id : OrderId) (lockedOrder : Order) (allocationTime : Time)
    (candidates : List AllocationCandidate) : DispatchSystem :=
  match selectAutoDispatchAllocationCandidate T candidates with
  | none => s.finish x
  | some candidate => s.move x (.allocate id (.selected lockedOrder allocationTime candidate))

def lockOrder (s : DispatchSystem) (x : TransactionId) : Transaction → Option DispatchSystem
  | .assign id u driver .begun =>
    if (s.orderLock id).isSome then none
    else some ((s.takeOrder x id).move x (.assign id u driver .orderLocked))
  | .allocate id .begun =>
    if (s.orderLock id).isSome then none
    else match s.orders.find id with
    | none => some (s.finish x)
    | some lockedOrder =>
      if lockedOrder.orderStatus ≠ .placed ∨ lockedOrder.assignedDriverId ≠ none then some (s.finish x)
      else match evaluateOrderStatusTransition .autoDispatch lockedOrder.orderStatus .dispatched false with
      | .refused .. => some (s.finish x)
      | .allowed => some ((s.takeOrder x id).move x (.allocate id (.orderLocked lockedOrder)))
  | _ => none

/-- Rob's row is locked before his workload is read. -/
def lockRob (s : DispatchSystem) (x : TransactionId) (now : Time) : Transaction → Option DispatchSystem
  | .allocate id (.loaded lockedOrder allocationTime candidates) =>
    match if isRobPriorityEnabled T robPriority then candidates.find? (·.driver.id = robDriverId) else none with
    | none => some (s.choose T x id lockedOrder allocationTime candidates)
    | some robCandidate =>
      let fallbackCandidates := candidates.filter (·.driver.id ≠ robDriverId)
      match s.lockAssignable x robDriverId now with
      | none => none
      | some false => some (s.choose T x id lockedOrder allocationTime fallbackCandidates)
      | some true => some ((s.takeAccount x robDriverId).move x
          (.allocate id (.robLocked lockedOrder allocationTime robCandidate fallbackCandidates)))
  | _ => none

def countRob (s : DispatchSystem) (x : TransactionId) : Transaction → Option DispatchSystem
  | .allocate id (.robLocked lockedOrder allocationTime robCandidate fallbackCandidates) =>
    if s.assignedCount (!·.final) robDriverId < robActiveOrderLimit then
      some (s.move x (.allocate id (.driverLocked lockedOrder allocationTime robCandidate)))
    else some (s.choose T x id lockedOrder allocationTime fallbackCandidates)
  | _ => none

def lockDriver (s : DispatchSystem) (x : TransactionId) (now : Time) : Transaction → Option DispatchSystem
  | .assign id u driver .orderLocked =>
    (s.lockAssignable x driver now).map fun locked =>
      if locked then (s.takeAccount x driver).move x (.assign id u driver .driverLocked) else s.finish x
  | .allocate id (.selected lockedOrder allocationTime candidate) =>
    (s.lockAssignable x candidate.driver.id now).map fun locked =>
      if locked then
        (s.takeAccount x candidate.driver.id).move x
          (.allocate id (.driverLocked lockedOrder allocationTime candidate))
      else s.finish x
  | _ => none

/-- Ids are generated when an account is registered: without a row the request's read finds
none either. -/
def lockAccount (s : DispatchSystem) (x : TransactionId) : Transaction → Option DispatchSystem
  | .staff actorId id staffRevision change .begun =>
    if (s.accountLock id).isSome then none
    else if (s.users.find id).isNone then some (s.finish x)
    else some ((s.takeAccount x id).move x (.staff actorId id staffRevision change .locked))
  | _ => none

def readAccount (s : DispatchSystem) (x : TransactionId) : Transaction → Option DispatchSystem
  | .staff actorId id staffRevision change .locked =>
    match s.users.find id with
    | none => some (s.finish x)
    | some user => some (s.move x (.staff actorId id staffRevision change (.read user)))
  | _ => none

/-- The unfinished orders are counted under the account's lock; the checks follow. -/
def countUnfinished (s : DispatchSystem) (x : TransactionId) : Transaction → Option DispatchSystem
  | .staff actorId id staffRevision change (.read user) =>
    match changeStaff actorId (some user) staffRevision change (s.assignedCount (· ∈ operationalStatuses) id) with
    | .error _ => some (s.finish x)
    | .ok _ => some (s.move x (.staff actorId id staffRevision change (.checked user)))
  | _ => none

def emailFree (s : DispatchSystem) (id : UserId) : StaffChange → Bool
  | .profile _ _ email _ => s.users.rows.all fun user => user.id = id ∨ user.email ≠ email
  | _ => true

/-- The update statement: the row it leaves for the commit, or the end without one. -/
def writeRow (s : DispatchSystem) (x : TransactionId) : Transaction → Option DispatchSystem
  | .assign id u driver .driverLocked =>
    match (s.orders.find id).filter (Updatable u.guard ·) with
    | none => some (s.finish x)
    | some o => some (s.move x (.assign id u driver (.updated (u.data.apply o))))
  | .allocate id (.driverLocked lockedOrder allocationTime candidate) =>
    match (s.orders.find id).filter
      (Updatable { orderStatus := some .placed, assignedDriverId := some none } ·) with
    | none => some (s.finish x)
    | some o => some (s.move x (.allocate id (.updated
        ((autoDispatchUpdate lockedOrder candidate.driver.id allocationTime).apply o) candidate)))
  | .staff actorId id staffRevision change (.checked user) =>
    match (s.users.find id).filter fun row => row.staffRevision = user.staffRevision ∧ row.role = user.role with
    | none => some (s.finish x)
    | some row =>
      if s.emailFree id change then
        some (s.move x (.staff actorId id staffRevision change (.updated (change.write user row))))
      else some (s.finish x)
  | _ => none

def commit (s : DispatchSystem) (x : TransactionId) : Transaction → Option DispatchSystem
  | .assign _ _ _ (.updated row) | .allocate _ (.updated row _) =>
    some ({ s with orders := s.orders.put row }.finish x)
  | .staff _ _ _ _ (.updated row) => some ({ s with users := s.users.put row }.finish x)
  | _ => none

def begins (s : DispatchSystem) (x : TransactionId) (tx : Transaction) : Option DispatchSystem :=
  if (s.transactions x).isSome then none else some (s.move x tx)

def step (s : DispatchSystem) : DispatchAction → Option DispatchSystem
  | .createOrder id input now =>
    if (s.orders.find id).isSome then none
    else some { s with orders := s.orders.put (createdOrder id input now) }
  | .read request id handler =>
    if (s.requests request).isSome then none
    else some (s.await request ⟨id,handler,s.orders.find id,none⟩)
  | .decide request receipt now => do
    let r ← s.requests request
    if r.update.isSome then none
    else match r.handler.decide r.order (s.driverView r.handler) receipt now with
      | none => none
      | some (.reply _) => some (s.close request)
      | some (.update u) => some (s.await request { r with update := some u })
  | .update request => do
    let r ← s.requests request
    let u ← r.update
    if u.locksDriver.isSome then none
    else do
      let t ← s.updateOrder r.id fun o => if Updatable u.guard o then some (u.data.apply o) else none
      some (t.close request)
  | .saveReceipt id user now => s.updateOrder id fun o => do
      if o.assignedDriverId = some user ∧ o.privacyErasedAt = none then
        some ((← receiptUpdate o now).apply o)
      else none
  | .editDetails id existingOrder details => s.updateOrder id fun o =>
      if o.privacyErasedAt = none then some (details.apply existingOrder o) else none
  | .setPriority id priority => s.updateOrder id fun o =>
      if o.privacyErasedAt = none then some { o with priority := priority } else none
  | .erase id now retainUntil => s.updateOrder id fun o =>
      if o.orderStatus.final ∧ o.privacyErasedAt = none then some (eraseOrder now retainUntil o) else none
  | .register id email passwordHash role firstName lastName =>
    if (s.users.find id).isSome then none
    else some { s with users := s.users.put (registeredUser id email passwordHash role firstName lastName) }
  | .account id w =>
    match w with
    | .staff _ => none
    | w => if (s.accountLock id).isSome then none
      else (s.users.find id).map fun user => { s with users := s.users.put (w.apply user) }
  | .beginAssign x request => do
    let r ← s.requests request
    let u ← r.update
    let driver ← u.locksDriver
    let t ← s.begins x (.assign r.id u driver .begun)
    some (t.close request)
  | .beginAllocate x id => s.begins x (.allocate id .begun)
  | .beginStaff x actorId id staffRevision change => s.begins x (.staff actorId id staffRevision change .begun)
  | .lockOrder x => (s.transactions x).bind (s.lockOrder x)
  | .loadCandidates x routes now =>
    match s.transactions x with
    | some (.allocate id (.orderLocked lockedOrder)) =>
      some (s.move x (.allocate id (.loaded lockedOrder now (allocationCandidates s.users.rows routes now))))
    | _ => none
  | .lockRob x now => (s.transactions x).bind (s.lockRob T robPriority x now)
  | .countRob x => (s.transactions x).bind (s.countRob T x)
  | .lockDriver x now => (s.transactions x).bind (s.lockDriver x now)
  | .lockAccount x => (s.transactions x).bind (s.lockAccount x)
  | .readAccount x => (s.transactions x).bind (s.readAccount x)
  | .countUnfinished x => (s.transactions x).bind (s.countUnfinished x)
  | .write x => (s.transactions x).bind (s.writeRow x)
  | .commit x => (s.transactions x).bind (s.commit x)
  | .rollback x => some (s.finish x)
  | .abandon request => some (s.close request)

abbrev Reachable (users : Table User User.id) : DispatchSystem → Prop :=
  Transition.Reachable (step T robPriority) (initial users)

end DispatchSystem
end SpeedySweeties
