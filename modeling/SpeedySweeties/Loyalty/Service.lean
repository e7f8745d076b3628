import SpeedySweeties.Schema

/-! `loyalty.service.ts` on the customer row its transactions have locked. The
calendar month is a parameter: each call takes it from its own clock. -/
namespace SpeedySweeties

def loyaltyDeliveriesPerReward : Int := 10

def loyaltyEligibleOrderSources : List OrderSource := [.androidApp,.iosApp]

def isLoyaltyEligibleOrderSource (orderSource : OrderSource) : Bool :=
  orderSource ∈ loyaltyEligibleOrderSources

structure LoyaltyCustomer where
  loyaltyCompletedOrders : Int
  loyaltyProgressMonth : Option String
  loyaltyRewardsEarned : Int
  loyaltyRewardsUsed : Int
  loyaltyRewardBalance : Int
  loyaltyFreeDelivery : Bool
  deriving DecidableEq, Repr

/-- The column defaults of a new customer, with the month its creator sets, if any. -/
def newLoyaltyCustomer (month : Option String) : LoyaltyCustomer := ⟨0,month,0,0,0,false⟩

inductive LoyaltyNotification where | rewardEarned | rewardApplied | progressUpdate
  deriving DecidableEq, Repr

structure LoyaltyMutationResult where
  customerFound : Bool
  progressIncreased : Bool
  rewardEarned : Bool
  rewardRedeemed : Bool
  monthReset : Bool
  completedOrders : Int
  notification : Option LoyaltyNotification
  notificationShouldBeAttempted : Bool
  deriving DecidableEq, Repr

def noCustomerResult : LoyaltyMutationResult := ⟨false,false,false,false,false,0,none,false⟩

def noMutationResultForCustomer (customer : LoyaltyCustomer) : LoyaltyMutationResult :=
  { noCustomerResult with customerFound := true, completedOrders := customer.loyaltyCompletedOrders }

def resetLoyaltyMonthIfNeeded (customer : LoyaltyCustomer) (currentMonth : String) :
    LoyaltyCustomer × Bool :=
  if customer.loyaltyProgressMonth = some currentMonth then (customer,false)
  else ({ customer with loyaltyCompletedOrders := 0, loyaltyProgressMonth := some currentMonth },true)

/-- `redeemFreeDeliveryRewardForOrder` after the month reset. -/
def redeemReward (customer : LoyaltyCustomer) (monthReset : Bool) : LoyaltyCustomer × LoyaltyMutationResult :=
  if customer.loyaltyRewardBalance ≤ 0 then
    (customer,⟨true,false,false,false,monthReset,customer.loyaltyCompletedOrders,none,false⟩)
  else
    let nextRewardBalance := customer.loyaltyRewardBalance - 1
    ({ customer with
        loyaltyRewardBalance := nextRewardBalance
        loyaltyRewardsUsed := customer.loyaltyRewardsUsed + 1
        loyaltyFreeDelivery := 0 < nextRewardBalance },
      ⟨true,false,false,true,monthReset,customer.loyaltyCompletedOrders,some .rewardApplied,true⟩)

/-- `recordDeliveredOrderLoyalty` after the month reset. -/
def recordDelivery (customer : LoyaltyCustomer) (monthReset : Bool) (currentMonth : String) :
    LoyaltyCustomer × LoyaltyMutationResult :=
  let nextCompletedOrders := customer.loyaltyCompletedOrders + 1
  if loyaltyDeliveriesPerReward ≤ nextCompletedOrders then
    ({ customer with
        loyaltyCompletedOrders := 0
        loyaltyProgressMonth := some currentMonth
        loyaltyRewardsEarned := customer.loyaltyRewardsEarned + 1
        loyaltyRewardBalance := customer.loyaltyRewardBalance + 1
        loyaltyFreeDelivery := true },
      ⟨true,true,true,false,monthReset,0,some .rewardEarned,true⟩)
  else
    ({ customer with
        loyaltyCompletedOrders := nextCompletedOrders
        loyaltyProgressMonth := some currentMonth },
      ⟨true,true,false,false,monthReset,nextCompletedOrders,some .progressUpdate,true⟩)

def redeemFreeDeliveryRewardForOrder (customer : Option LoyaltyCustomer) (orderSource : OrderSource)
    (currentMonth : String) : Option LoyaltyCustomer × LoyaltyMutationResult :=
  match customer with
  | none => (none,noCustomerResult)
  | some customer =>
    if ¬ isLoyaltyEligibleOrderSource orderSource then
      (some customer,noMutationResultForCustomer customer)
    else
      let (current,monthReset) := resetLoyaltyMonthIfNeeded customer currentMonth
      let (updated,result) := redeemReward current monthReset
      (some updated,result)

/-- The customer row of `customerId`, when the order names one. -/
def recordDeliveredOrderLoyalty (customer : Option LoyaltyCustomer) (orderSource : OrderSource)
    (currentMonth : String) : Option LoyaltyCustomer × LoyaltyMutationResult :=
  match customer with
  | none => (none,noCustomerResult)
  | some customer =>
    if ¬ isLoyaltyEligibleOrderSource orderSource then (some customer,noCustomerResult)
    else
      let (current,monthReset) := resetLoyaltyMonthIfNeeded customer currentMonth
      let (updated,result) := recordDelivery current monthReset currentMonth
      (some updated,result)

def getCustomerLoyaltySnapshot (customer : Option LoyaltyCustomer) (currentMonth : String) :
    Option LoyaltyCustomer :=
  customer.map fun customer => (resetLoyaltyMonthIfNeeded customer currentMonth).1

/-! ### The ledger equations -/

structure LedgerSound (customer : LoyaltyCustomer) : Prop where
  used : 0 ≤ customer.loyaltyRewardsUsed ∧ customer.loyaltyRewardsUsed ≤ customer.loyaltyRewardsEarned
  balance : customer.loyaltyRewardBalance = customer.loyaltyRewardsEarned - customer.loyaltyRewardsUsed
  free : customer.loyaltyFreeDelivery = true ↔ 0 < customer.loyaltyRewardBalance
  completed : 0 ≤ customer.loyaltyCompletedOrders ∧ customer.loyaltyCompletedOrders ≤ 9

theorem newLedgerSound (month) : LedgerSound (newLoyaltyCustomer month) := by
  constructor <;> simp [newLoyaltyCustomer]

theorem resetSound {customer month} (h : LedgerSound customer) :
    LedgerSound (resetLoyaltyMonthIfNeeded customer month).1 := by
  unfold resetLoyaltyMonthIfNeeded
  split
  · exact h
  · exact ⟨h.used,h.balance,h.free,by simp⟩

theorem resetUsed {customer month} :
    (resetLoyaltyMonthIfNeeded customer month).1.loyaltyRewardsUsed = customer.loyaltyRewardsUsed := by
  unfold resetLoyaltyMonthIfNeeded
  split <;> rfl

theorem redeemSound {customer reset} (h : LedgerSound customer) :
    LedgerSound (redeemReward customer reset).1 := by
  unfold redeemReward
  split
  · exact h
  · rename_i some_
    obtain ⟨used,balance,_,completed⟩ := h
    exact ⟨⟨by dsimp only; omega,by dsimp only; omega⟩,by dsimp only; omega,by simp,completed⟩

theorem redeemUsed {customer reset} :
    (redeemReward customer reset).1.loyaltyRewardsUsed = customer.loyaltyRewardsUsed +
      if (redeemReward customer reset).2.rewardRedeemed = true then 1 else 0 := by
  unfold redeemReward
  split <;> simp

theorem recordSound {customer reset month} (h : LedgerSound customer) :
    LedgerSound (recordDelivery customer reset month).1 := by
  unfold recordDelivery loyaltyDeliveriesPerReward
  obtain ⟨used,balance,free,completed⟩ := h
  dsimp only
  split
  · exact ⟨⟨used.1,by dsimp only; omega⟩,by dsimp only; omega,⟨fun _ => by dsimp only; omega,fun _ => rfl⟩,by simp⟩
  · exact ⟨used,balance,free,by dsimp only; omega⟩

theorem recordUsed {customer reset month} :
    (recordDelivery customer reset month).1.loyaltyRewardsUsed = customer.loyaltyRewardsUsed ∧
      (recordDelivery customer reset month).2.rewardRedeemed = false := by
  unfold recordDelivery
  dsimp only
  split <;> exact ⟨rfl,rfl⟩

/-- One delivery advances the counter by one, ten of them being a reward. -/
theorem recordCounts {customer reset month} (h : LedgerSound customer) :
    let recorded := (recordDelivery customer reset month).1
    10*recorded.loyaltyRewardsEarned + recorded.loyaltyCompletedOrders =
      10*customer.loyaltyRewardsEarned + customer.loyaltyCompletedOrders + 1 := by
  have cycle := h.completed
  unfold recordDelivery loyaltyDeliveriesPerReward
  dsimp only
  split <;> dsimp only <;> omega

theorem deliveredSound {customer orderSource month updated}
    (h : ∀ row, customer = some row → LedgerSound row)
    (recorded : (recordDeliveredOrderLoyalty customer orderSource month).1 = some updated) :
    LedgerSound updated := by
  cases customer with
  | none => contradiction
  | some row =>
    simp only [recordDeliveredOrderLoyalty] at recorded
    split at recorded
    · exact h updated recorded
    · cases Option.some.inj recorded
      exact recordSound (resetSound (h row rfl))

end SpeedySweeties
