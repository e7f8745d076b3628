import SpeedySweeties.Order.Editing
import SpeedySweeties.Privacy.Schema

/-! What single statements write into the rows of one order: the statements of the
erasure in their order, and the writes of everybody else. -/
namespace SpeedySweeties

/-! ### The statements of the erasure -/

inductive ErasureStatement where
  | items | receipts | dispatchEvents | editPauses | pickupStops | orders | helpRequests | checkIns
  deriving DecidableEq, Repr

def erasureStatements : List ErasureStatement :=
  [.items,.receipts,.dispatchEvents,.editPauses,.pickupStops,.orders,.helpRequests,.checkIns]

/-- `read` is the receipt that `candidateScope` has read for the order. -/
def ErasureStatement.apply (now retainUntil : Time) (read : Option DigitalReceipt) (r : OrderRows) :
    ErasureStatement → OrderRows
  | .items => { r with items := r.items.map eraseItem }
  | .receipts => match read with
    | none => r
    | some read => { r with digitalReceipt := r.digitalReceipt.map (eraseReceipt read.notes) }
  | .dispatchEvents => { r with dispatchEvents := [] }
  | .editPauses => { r with editPauses := [] }
  | .pickupStops => { r with pickupStops := [] }
  | .orders => { r with order := eraseOrder now retainUntil r.order }
  | .helpRequests => { r with helpRequest := none }
  | .checkIns => { r with checkIns := [] }

@[simp] theorem ErasureStatement.applyId (statement : ErasureStatement) (now retainUntil : Time)
    (read : Option DigitalReceipt) (r : OrderRows) : (statement.apply now retainUntil read r).id = r.id := by
  cases statement with
  | receipts => cases read <;> rfl
  | _ => rfl

/-- On rows whose receipt has not changed since it was read the statements erase the record. -/
theorem erasureStatementsErase (now retainUntil : Time) (r : OrderRows) :
    erasureStatements.foldl (fun rows statement => statement.apply now retainUntil r.digitalReceipt rows) r =
      eraseRows now retainUntil r := by
  cases receipt : r.digitalReceipt <;> simp [erasureStatements,ErasureStatement.apply,eraseRows,receipt]

inductive LockMode where | forUpdate | forNoKeyUpdate deriving DecidableEq, Repr

/-- The lock on the order row that a statement takes itself or through a trigger of the
child table; a statement without rows to change fires no trigger. -/
def ErasureStatement.lock (read : Option DigitalReceipt) (r : OrderRows) : ErasureStatement → Option LockMode
  | .items => if r.items = [] then none else some .forUpdate
  | .receipts => if read.isSome then some .forUpdate else none
  | .orders => some .forNoKeyUpdate
  | _ => none

/-! ### The other writers -/

inductive RowWrite where
  | order (data : OrderData)
  | receipt (receipt : DigitalReceipt) (data : OrderData)
  | details (existingOrder : Order) (details : OrderDetails) (items : List OrderItem)
  | help (request : DeliveryHelpRequest)
  | handled (handledAt : Time) (user : UserId) (resolutionNote : String)
  | dispatchEvent (event : DispatchEvent)
  | checkIn (event : DeliveryCheckInEvent)
  | createPause (session : OrderEditPause)
  | updatePause (session : OrderEditPause)
  | clearPickupStops
  deriving DecidableEq, Repr

def RowWrite.apply (r : OrderRows) : RowWrite → OrderRows
  | .order data => { r with order := data.apply r.order }
  | .receipt saved data => { r with digitalReceipt := some saved, order := data.apply r.order }
  | .details existingOrder edited items =>
    { r with order := edited.apply existingOrder r.order, items }
  | .help request => { r with helpRequest := r.helpRequest <|> some request }
  | .handled now user note => { r with helpRequest := r.helpRequest.map fun request =>
      if request.status = .open then
        { request with status := .handled, handledAt := some now, handledByUserId := some user
                       resolutionNote := some note }
      else request }
  | .dispatchEvent event => { r with dispatchEvents := r.dispatchEvents ++ [event] }
  | .checkIn event =>
    if r.checkIns.any (·.type = event.type) then r else { r with checkIns := r.checkIns ++ [event] }
  | .createPause session => { r with editPauses := r.editPauses ++ [session] }
  | .updatePause session =>
    { r with editPauses := r.editPauses.map fun old => if old.id = session.id then session else old }
  | .clearPickupStops => { r with pickupStops := [] }

/-- The writes that the triggers of a retained record refuse. -/
def RowWrite.guarded : RowWrite → Bool
  | .order _ | .receipt .. | .details .. | .help _ | .handled .. => true
  | _ => false

@[simp] theorem RowWrite.applyId (write : RowWrite) (r : OrderRows) : (write.apply r).id = r.id := by
  cases write with
  | checkIn event =>
    simp only [RowWrite.apply]
    split <;> rfl
  | _ => rfl

end SpeedySweeties
