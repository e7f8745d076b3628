import SpeedySweeties.Dispatch.Assignees

/-! Rob's workload is counted under his row lock, and every other way to give him an order
takes the same lock: until the allocation ends his orders can only become fewer. -/
namespace SpeedySweeties
open Table

namespace DispatchSystem
variable {T : AllocationService} {robPriority : Option String} {s t : DispatchSystem} {x : TransactionId}
  {id : OrderId} {row : Order}

/-- What the commit of an automatic assignment to Rob leaves. -/
def CapKept (T : AllocationService) (robPriority : Option String) : Prop :=
  ∀ users s t x id row c, Reachable T robPriority users s →
    s.transactions x = some (.allocate id (.updated row c)) → row.assignedDriverId = some robDriverId →
    s.step T robPriority (.commit x) = some t →
    t.orders.find id = some row ∧ t.othersOfRob id < robActiveOrderLimit ∧
      t.assignedCount (!·.final) robDriverId ≤ robActiveOrderLimit

theorem othersPut (orders : t.orders = s.orders.put row) : t.othersOfRob row.id ≤ s.othersOfRob row.id := by
  refine countP_le fun o mem counted => ⟨o,?_,rfl,counted⟩
  rw [orders] at mem
  rcases mem_put mem with rfl | ⟨here,_⟩
  · simp at counted
  · exact here

theorem countOthers (s : DispatchSystem) (id : OrderId) :
    s.assignedCount (!·.final) robDriverId ≤ s.othersOfRob id + 1 :=
  countP_except s.orders (fun o => o.assignedDriverId = some robDriverId && !o.orderStatus.final) id

theorem robCapKept (T : AllocationService) (robPriority : Option String)
    (enabled : isRobPriorityEnabled T robPriority = true) : CapKept T robPriority := by
  intro users s t x id row c reached running rob committed
  obtain ⟨⟨_,below⟩,rfl,assigns⟩ := (reachableSound reached).transactions x _ running
  have mine : c.driver.id = robDriverId := Option.some.inj (assigns.symm.trans rob)
  have orders : t.orders = s.orders.put row := by
    simp only [step,running,Option.bind_some,commit,Option.some.injEq] at committed
    rw [← committed]
    rfl
  have room : t.othersOfRob row.id < robActiveOrderLimit :=
    Nat.lt_of_le_of_lt (othersPut orders) (below enabled mine)
  exact ⟨by rw [orders,find_put_self],room,Nat.le_trans (countOthers t row.id) room⟩

/-! ### Runs -/

/-- What an allocation is about to commit. -/
def allocatedTo : Transaction → Option (OrderId × Option UserId)
  | .allocate id (.updated row _) => some (id,row.assignedDriverId)
  | _ => none

theorem allocatedToShape {tx : Transaction} {driver : Option UserId} (h : allocatedTo tx = some (id,driver)) :
    ∃ row c, tx = .allocate id (.updated row c) ∧ row.assignedDriverId = driver := by
  unfold allocatedTo at h
  split at h
  · cases h
    exact ⟨_,_,rfl,rfl⟩
  · contradiction

def robRoute : PlannedRoute := ⟨robDriverId,43650000,-79380000,some 0,600,some 4000⟩

def robAssigned (x : TransactionId) (id : OrderId) : List DispatchAction := assignRun x 0 id robDriverId

def allocateRun (id : OrderId) : List DispatchAction :=
  [.createOrder id sampleOrder 3,.beginAllocate 9 id,.lockOrder 9,.loadCandidates 9 [robRoute] 4,.lockRob 9 5]

/-- Three orders are Rob's by hand; the fourth is allocated to him. -/
theorem fourthOrderAllocated : ∃ t, Reachable sampleAllocation none (Table.empty.put (onlineDriver robDriverId)) t ∧
    t.othersOfRob "fourth" < robActiveOrderLimit ∧ (t.orders.find "fourth").isSome = true := by
  have ends : (Transition.run (step sampleAllocation none) (initial (Table.empty.put (onlineDriver robDriverId)))
      (robAssigned 1 "first" ++ robAssigned 2 "second" ++ robAssigned 3 "third" ++ allocateRun "fourth" ++
        [.countRob 9,.write 9])).bind (fun s => (s.transactions 9).bind fun tx => (allocatedTo tx).bind fun last =>
          (s.step sampleAllocation none (.commit 9)).map fun _ => last) = some ("fourth",some robDriverId) := by
    decide +kernel
  obtain ⟨s,ran,found⟩ := Option.bind_eq_some_iff.mp ends
  obtain ⟨tx,running,found⟩ := Option.bind_eq_some_iff.mp found
  obtain ⟨last,shape,found⟩ := Option.bind_eq_some_iff.mp found
  obtain ⟨t,taken,rfl⟩ := Option.map_eq_some_iff.mp found
  obtain ⟨row,c,rfl,rob⟩ := allocatedToShape shape
  have reached := Transition.runReachable .start ran
  obtain ⟨stored,room,_⟩ := robCapKept sampleAllocation none (by decide) _ s t 9 _ row c reached running rob taken
  exact ⟨t,reached.step taken,room,by rw [stored]; rfl⟩

/-- With the priority switched off Rob is a candidate like any other driver. -/
theorem fifthOrderAllocated : ¬ ∀ (T : AllocationService) (robPriority : Option String), CapKept T robPriority := by
  intro always
  have ends : (Transition.run (step sampleAllocation (some "false"))
      (initial (Table.empty.put (onlineDriver robDriverId)))
      (robAssigned 1 "first" ++ robAssigned 2 "second" ++ robAssigned 3 "third" ++ robAssigned 4 "fourth" ++
        allocateRun "fifth" ++ [.lockDriver 9 6,.write 9])).bind (fun s => (s.transactions 9).bind fun tx =>
          (allocatedTo tx).bind fun last => (s.step sampleAllocation (some "false") (.commit 9)).map fun t =>
            (last,t.othersOfRob "fifth")) = some (("fifth",some robDriverId),4) := by
    decide +kernel
  obtain ⟨s,ran,found⟩ := Option.bind_eq_some_iff.mp ends
  obtain ⟨tx,running,found⟩ := Option.bind_eq_some_iff.mp found
  obtain ⟨last,shape,found⟩ := Option.bind_eq_some_iff.mp found
  obtain ⟨t,taken,same⟩ := Option.map_eq_some_iff.mp found
  obtain ⟨rfl,others⟩ := Prod.mk.inj same
  obtain ⟨row,c,rfl,rob⟩ := allocatedToShape shape
  obtain ⟨_,room,_⟩ := always sampleAllocation (some "false") _ s t 9 "fifth" row c
    (Transition.runReachable .start ran) running rob taken
  rw [others] at room
  exact absurd room (Nat.lt_irrefl 4)

end DispatchSystem
end SpeedySweeties
