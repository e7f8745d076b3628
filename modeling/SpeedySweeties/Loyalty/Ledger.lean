import Mathlib.Data.List.Count
import SpeedySweeties.Library.RowLock
import SpeedySweeties.Loyalty.Service

/-! Concurrent loyalty transactions of one customer, statement by statement, as a
program under the customer's row lock. Orders of other sources neither lock nor
write the row (`redeemOtherSource`), so they are no transactions here. -/
namespace SpeedySweeties

inductive LoyaltyOperation where
  | createOrder (currentMonth : String)
  | delivered (currentMonth : String)
  | snapshot (currentMonth : String)
  deriving DecidableEq, Repr

def LoyaltyOperation.currentMonth : LoyaltyOperation → String
  | .createOrder month | .delivered month | .snapshot month => month

inductive LoyaltyPhase where
  | locked
  | current (monthReset : Bool)
  | finished (result : LoyaltyMutationResult)
  deriving DecidableEq, Repr

structure LoyaltyWork where
  operation : LoyaltyOperation
  customer : LoyaltyCustomer
  phase : LoyaltyPhase
  deriving DecidableEq, Repr

/-- What the operation does after the month reset; a snapshot only reads. -/
def LoyaltyOperation.mutate (operation : LoyaltyOperation) (customer : LoyaltyCustomer)
    (monthReset : Bool) : LoyaltyCustomer × LoyaltyMutationResult :=
  match operation with
  | .createOrder _ => redeemReward customer monthReset
  | .delivered month => recordDelivery customer monthReset month
  | .snapshot _ => (customer,noMutationResultForCustomer customer)

def LoyaltyWork.next (w : LoyaltyWork) : Option LoyaltyWork :=
  match w.phase with
  | .locked =>
    let current := resetLoyaltyMonthIfNeeded w.customer w.operation.currentMonth
    some { w with customer := current.1, phase := .current current.2 }
  | .current monthReset =>
    let updated := w.operation.mutate w.customer monthReset
    some { w with customer := updated.1, phase := .finished updated.2 }
  | .finished _ => none

def loyaltyProgram : RowLock.Program LoyaltyCustomer LoyaltyOperation LoyaltyWork where
  start operation customer := ⟨operation,customer,.locked⟩
  next := LoyaltyWork.next
  row := LoyaltyWork.customer

def LoyaltyWork.rewardRedeemed (w : LoyaltyWork) : Bool :=
  match w.phase with
  | .finished result => result.rewardRedeemed
  | _ => false

/-- A committed order-creation transaction whose result had `rewardRedeemed`. -/
def redeemingOrder (entry : LoyaltyOperation × LoyaltyWork) : Bool :=
  match entry.1 with
  | .createOrder _ => entry.2.rewardRedeemed
  | _ => false

theorem redeemOtherSource {customer orderSource month} (other : isLoyaltyEligibleOrderSource orderSource = false) :
    (redeemFreeDeliveryRewardForOrder customer orderSource month).1 = customer ∧
      (redeemFreeDeliveryRewardForOrder customer orderSource month).2.rewardRedeemed = false := by
  cases customer <;> simp [redeemFreeDeliveryRewardForOrder,other,noCustomerResult,noMutationResultForCustomer]

/-- What a transaction has done to the row it locked, phase by phase. -/
structure WorkSound (start : LoyaltyCustomer) (w : LoyaltyWork) : Prop where
  ledger : LedgerSound w.customer
  used : w.customer.loyaltyRewardsUsed = start.loyaltyRewardsUsed +
    if redeemingOrder (w.operation,w) = true then 1 else 0

theorem mutateSound {operation : LoyaltyOperation} {customer reset} (h : LedgerSound customer) :
    LedgerSound (operation.mutate customer reset).1 := by
  cases operation with
  | createOrder => exact redeemSound h
  | delivered => exact recordSound h
  | snapshot => exact h

theorem mutateUsed {operation : LoyaltyOperation} {customer reset} :
    (operation.mutate customer reset).1.loyaltyRewardsUsed = customer.loyaltyRewardsUsed +
      if redeemingOrder (operation,⟨operation,(operation.mutate customer reset).1,
        .finished (operation.mutate customer reset).2⟩) = true then 1 else 0 := by
  cases operation with
  | createOrder => exact redeemUsed
  | delivered => simpa [redeemingOrder,LoyaltyOperation.mutate] using recordUsed.1
  | snapshot => simp [redeemingOrder,LoyaltyOperation.mutate]

theorem unfinishedUsed {operation : LoyaltyOperation} {customer phase}
    (running : ∀ result, phase ≠ .finished result) :
    redeemingOrder (operation,⟨operation,customer,phase⟩) = false := by
  cases operation <;> cases phase <;> simp_all [redeemingOrder,LoyaltyWork.rewardRedeemed]

theorem workNext {start w later} (h : WorkSound start w) (next : w.next = some later) :
    WorkSound start later ∧ later.operation = w.operation := by
  obtain ⟨operation,customer,phase⟩ := w
  cases phase with
  | locked =>
    simp only [LoyaltyWork.next,Option.some.injEq] at next
    subst next
    have used := h.used
    rw [unfinishedUsed (by simp)] at used
    refine ⟨⟨resetSound h.ledger,?_⟩,rfl⟩
    rw [unfinishedUsed (by simp)]
    exact resetUsed.trans used
  | current reset =>
    simp only [LoyaltyWork.next,Option.some.injEq] at next
    subst next
    have used := h.used
    rw [unfinishedUsed (by simp)] at used
    refine ⟨⟨mutateSound h.ledger,mutateUsed.trans ?_⟩,rfl⟩
    rw [show customer.loyaltyRewardsUsed = start.loyaltyRewardsUsed by simpa using used]
  | finished result => contradiction

theorem workRuns {customer operation w} (sound : LedgerSound customer)
    (ran : loyaltyProgram.Runs (loyaltyProgram.start operation customer) w) :
    WorkSound customer w ∧ w.operation = operation := by
  induction ran with
  | refl => exact ⟨⟨sound,by cases operation <;> simp [loyaltyProgram,redeemingOrder,LoyaltyWork.rewardRedeemed]⟩,rfl⟩
  | tail _ next ih =>
    obtain ⟨later,same⟩ := workNext ih.1 next
    exact ⟨later,same.trans ih.2⟩

theorem workOutcome {operation : LoyaltyOperation} {customer w}
    (ran : loyaltyProgram.Runs (loyaltyProgram.start operation customer) w) :
    let current := resetLoyaltyMonthIfNeeded customer operation.currentMonth
    match w.phase with
    | .locked => w.customer = customer
    | .current monthReset => w.customer = current.1 ∧ monthReset = current.2
    | .finished result => w.customer = (operation.mutate current.1 current.2).1 ∧
        result = (operation.mutate current.1 current.2).2 := by
  intro current
  suffices h : w.operation = operation ∧ match w.phase with
      | .locked => w.customer = customer
      | .current monthReset => w.customer = current.1 ∧ monthReset = current.2
      | .finished result => w.customer = (operation.mutate current.1 current.2).1 ∧
          result = (operation.mutate current.1 current.2).2 from h.2
  induction ran with
  | refl => exact ⟨rfl,rfl⟩
  | @tail w later _ next ih =>
    obtain ⟨same,ih⟩ := ih
    obtain ⟨operation',customer',phase⟩ := w
    cases phase with
    | locked =>
      simp only [loyaltyProgram,LoyaltyWork.next,Option.some.injEq] at next
      subst next same
      have ih : customer' = customer := ih
      subst ih
      exact ⟨rfl,rfl,rfl⟩
    | current monthReset =>
      simp only [loyaltyProgram,LoyaltyWork.next,Option.some.injEq] at next
      subst next same
      have ih : customer' = current.1 ∧ monthReset = current.2 := ih
      simp only [ih,and_self]
    | finished result => contradiction

theorem createOrderOutcome {month customer w source} (eligible : isLoyaltyEligibleOrderSource source = true)
    (ran : loyaltyProgram.Runs (loyaltyProgram.start (.createOrder month) customer) w)
    {result} (ended : w.phase = .finished result) :
    redeemFreeDeliveryRewardForOrder (some customer) source month = (some w.customer,result) := by
  have outcome := workOutcome ran
  rw [ended] at outcome
  obtain ⟨same,sameResult⟩ := outcome
  rw [same,sameResult]
  simp [redeemFreeDeliveryRewardForOrder,eligible,LoyaltyOperation.mutate,LoyaltyOperation.currentMonth]

theorem deliveredOutcome {month customer w source} (eligible : isLoyaltyEligibleOrderSource source = true)
    (ran : loyaltyProgram.Runs (loyaltyProgram.start (.delivered month) customer) w)
    {result} (ended : w.phase = .finished result) :
    recordDeliveredOrderLoyalty (some customer) source month = (some w.customer,result) := by
  have outcome := workOutcome ran
  rw [ended] at outcome
  obtain ⟨same,sameResult⟩ := outcome
  rw [same,sameResult]
  simp [recordDeliveredOrderLoyalty,eligible,LoyaltyOperation.mutate,LoyaltyOperation.currentMonth]

/-- Under every interleaving, with order creations that may roll back at any
statement, the committed ledger satisfies its equations and each used reward
belongs to one committed order. -/
theorem loyaltyLedger {month s}
    (reached : RowLock.Reachable loyaltyProgram (newLoyaltyCustomer month) s) :
    (0 ≤ s.row.loyaltyRewardsUsed ∧ s.row.loyaltyRewardsUsed ≤ s.row.loyaltyRewardsEarned) ∧
    s.row.loyaltyRewardBalance = s.row.loyaltyRewardsEarned - s.row.loyaltyRewardsUsed ∧
    (s.row.loyaltyFreeDelivery = true ↔ 0 < s.row.loyaltyRewardBalance) ∧
    (0 ≤ s.row.loyaltyCompletedOrders ∧ s.row.loyaltyCompletedOrders ≤ 9) ∧
    (s.committed.countP redeemingOrder : Int) = s.row.loyaltyRewardsUsed := by
  have inv := RowLock.committedInvariant (I := fun committed customer => LedgerSound customer ∧
    (committed.countP redeemingOrder : Int) = customer.loyaltyRewardsUsed) reached
    ⟨newLedgerSound month,rfl⟩ ?_
  · exact ⟨inv.1.used,inv.1.balance,inv.1.free,inv.1.completed,inv.2⟩
  · rintro done customer operation w ⟨sound,count⟩ ran -
    obtain ⟨⟨ledger,used⟩,rfl⟩ := workRuns sound ran
    refine ⟨ledger,?_⟩
    have used : (loyaltyProgram.row w).loyaltyRewardsUsed = _ := used
    rw [used,← count,List.countP_append,List.countP_singleton]
    split <;> simp

/-- Ten deliveries earn a reward; the first order to use it rolls back, the second commits. -/
def rewardRun : List (RowLock.Action LoyaltyOperation) :=
  (List.replicate 10 [RowLock.Action.begin 0 (.delivered "2026-09"),.acquire 0,.advance,.advance,.commit]).flatten ++
  [RowLock.Action.begin 1 (.createOrder "2026-09"),.begin 2 (.createOrder "2026-10"),.acquire 1,.advance,.advance,
   .abort,.acquire 2,.advance,.advance,.commit]

theorem rewardRunLedger : ∃ s, Transition.run (RowLock.State.step loyaltyProgram)
      (RowLock.State.initial (newLoyaltyCustomer (some "2026-09"))) rewardRun = some s ∧
    s.row = ⟨0,some "2026-10",1,1,0,false⟩ ∧
    (s.committed.countP redeemingOrder : Int) = s.row.loyaltyRewardsUsed := by
  have ends : (Transition.run (RowLock.State.step loyaltyProgram)
      (RowLock.State.initial (newLoyaltyCustomer (some "2026-09"))) rewardRun).map (·.row) =
        some ⟨0,some "2026-10",1,1,0,false⟩ := by decide +kernel
  obtain ⟨s,ran,row⟩ := Option.map_eq_some_iff.mp ends
  exact ⟨s,ran,row,(loyaltyLedger (Transition.runReachable .start ran)).2.2.2.2⟩

end SpeedySweeties
