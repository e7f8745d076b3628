import Mathlib.Data.Rat.Defs
import SpeedySweeties.Library.Json

/-! The order list of the B&D dispatcher as it is validated: the whole response or
nothing. An accepted list names no order twice, which the snapshot carries with it. -/
namespace SpeedySweeties

inductive BndErrorCode where | authentication | connection | response | rateLimited deriving DecidableEq, Repr

structure BndPendingOrder where
  id : String
  number : String
  deriving DecidableEq, Repr

structure BndObservedOrder extends BndPendingOrder where
  claimed : Bool
  deriving DecidableEq, Repr

structure BndSnapshot where
  orders : List BndObservedOrder
  distinct : (orders.map (·.id)).Nodup

def BndSnapshot.empty : BndSnapshot := ⟨[],List.nodup_nil⟩

def BndSnapshot.add (seen : BndSnapshot) (order : BndObservedOrder) (fresh : order.id ∉ seen.orders.map (·.id)) : BndSnapshot where
  orders := seen.orders ++ [order]
  distinct := by
    rw [List.map_append,List.nodup_append]
    refine ⟨seen.distinct,List.nodup_singleton _,fun a mem b last same => fresh ?_⟩
    rw [List.map_singleton,List.mem_singleton] at last
    exact last ▸ same ▸ mem

def BndSnapshot.pendingOrders (s : BndSnapshot) : List BndPendingOrder :=
  (s.orders.filter fun order => !order.claimed).map (·.toBndPendingOrder)

namespace Bnd

/-- Parsed JSON, its numbers as rationals. -/
abbrev Body := Json Rat

def property (fields : List (String × Body)) (name : String) : Option Body :=
  (fields.reverse.find? fun field => field.1 = name).map (·.2)

def identifierChar (c : Char) : Bool := c.isAlphanum || c = '_' || c = '-'

/-- `/^[A-Za-z0-9_-]\x7b1,64\x7d$/` -/
def identifierText (text : String) : Bool := text.toList.all identifierChar && 1 ≤ text.length && text.length ≤ 64

def safeInteger (value : Rat) : Bool := value.den = 1 && value.num.natAbs < 2^53

def identifier : Option Body → Except BndErrorCode String
  | some (.number value) =>
    if !safeInteger value ∨ value < 0 then .error .response
    else if identifierText (toString value.num) then .ok (toString value.num) else .error .response
  | some (.text value) => if identifierText value then .ok value else .error .response
  | _ => .error .response

/-- `is_en_route`, which must be one of true, false, 0 and 1. -/
def claimFlag : Option Body → Except BndErrorCode Bool
  | some (.bool value) => .ok value
  | some (.number value) => if value = 1 then .ok true else if value = 0 then .ok false else .error .response
  | _ => .error .response

def observedOrder : Body → Except BndErrorCode BndObservedOrder
  | .object fields => do
    let id ← identifier (property fields "id")
    let number ← identifier (property fields "number_id")
    let claimed ← claimFlag (property fields "is_en_route")
    pure ⟨⟨id,number⟩,claimed⟩
  | _ => .error .response

def addOrder (seen : BndSnapshot) (item : Body) : Except BndErrorCode BndSnapshot := do
  let order ← observedOrder item
  if fresh : order.id ∉ seen.orders.map (·.id) then .ok (seen.add order fresh) else .error .response

def parseBndObservation : Body → Except BndErrorCode BndSnapshot
  | .array items =>
    if 10000 < items.length then .error .response
    else items.foldlM addOrder BndSnapshot.empty
  | _ => .error .response

end Bnd
end SpeedySweeties
