import SpeedySweeties.Dispatch.System
import SpeedySweeties.Order.Lifecycle

/-! An assignment checks the account and a staff change checks the orders, each holding the
account's row lock from its check to its commit. Whatever a running transaction has found
under a lock stays as it is: nobody else writes that account or gives it another order. -/
namespace SpeedySweeties
open Table

/-- What every update a handler decides on does to the order's driver. -/
structure GuardedUpdate.Shaped (u : GuardedUpdate) : Prop where
  open_ : ∃ status, u.guard.orderStatus = some status ∧ status.final = false
  plain : u.locksDriver = none → u.data.assignedDriverId = none ∨ u.data.assignedDriverId = some none
  assigns : ∀ driver, u.locksDriver = some driver → u.data.assignedDriverId = some (some driver)

theorem decisionShaped {o : Order} {receipt : Bool} {now : Time} {u : GuardedUpdate}
    (source : DecisionSource o receipt now u) : u.Shaped := by
  cases source with
  | assigned driver priority user role operational =>
    refine ⟨⟨_,rfl,operational⟩,by rintro ⟨⟩,?_⟩
    rintro _ ⟨⟩
    obtain ⟨dispatched,accepted,out,delivered,stamps⟩ := timestampColumns o.toOrderLifecycleSnapshot .dispatched now
    obtain ⟨who,source,attribution⟩ := attributionColumns o.dispatchedAt ⟨some user,some role⟩
    simp only [assignmentUpdate,OrderData.spread,stamps,attribution]
    split <;> rfl
  | unassigned priority user operational =>
    refine ⟨⟨_,rfl,operational⟩,fun _ => .inr ?_,fun _ locks => by cases locks⟩
    simp only [unassignmentUpdate,OrderData.spread]
    split <;> rfl
  | @acted user target mine allowed =>
    obtain ⟨dispatched,accepted,out,delivered,stamps⟩ := timestampColumns o.toOrderLifecycleSnapshot target now
    obtain ⟨who,source,attribution⟩ := attributionColumns o.dispatchedAt ⟨some user,some .driver⟩
    refine ⟨⟨_,rfl,?_⟩,fun _ => .inl ?_,fun _ locks => by cases locks⟩
    · cases final : o.orderStatus.final with
      | false => rfl
      | true => exact absurd (allowedFollows allowed).1 (finalNeverLeft final)
    · simp only [driverActionUpdate,OrderData.spread,stamps,attribution]
      rfl
  | cancelled reason allowed => exact ⟨⟨_,rfl,(cancellationTarget allowed).2⟩,fun _ => .inl rfl,fun _ locks => by cases locks⟩

/-- A write that gives the order to nobody and does not reopen it. -/
def Calm (before after : Order) : Prop :=
  (after.assignedDriverId = before.assignedDriverId ∨ after.assignedDriverId = none) ∧
    (before.orderStatus.final = true → after.orderStatus.final = true)

theorem plainCalm {u : GuardedUpdate} {o : Order} (shaped : u.Shaped) (free : u.locksDriver = none)
    (matched : u.guard.Matches o) : Calm o (u.data.apply o) := by
  obtain ⟨status,guard,operational⟩ := shaped.open_
  refine ⟨?_,fun final => ?_⟩
  · rcases shaped.plain free with keeps | clears
    · exact .inl (by simp [OrderData.apply,OrderData.applyDispatch,keeps])
    · exact .inr (by simp [OrderData.apply,OrderData.applyDispatch,clears])
  · rw [matched.1 status guard,operational] at final
    contradiction

theorem receiptCalm {o : Order} {now : Time} {data : OrderData} (h : receiptUpdate o now = some data) :
    Calm o (data.apply o) := by
  unfold receiptUpdate at h
  split at h
  · cases h
    exact ⟨.inl rfl,id⟩
  · rename_i accepted
    split at h
    · contradiction
    · cases h
      obtain ⟨_,_,_,_,stamps⟩ := timestampColumns o.toOrderLifecycleSnapshot .outForDelivery now
      refine ⟨.inl ?_,fun final => ?_⟩
      · simp [OrderData.apply,OrderData.applyDispatch,OrderData.spread,stamps]
      · rw [not_not.mp accepted] at final
        contradiction

namespace DispatchSystem

def Unfinished (s : DispatchSystem) (driver : UserId) (id : OrderId) : Prop :=
  ∃ o, s.orders.find id = some o ∧ o.assignedDriverId = some driver ∧ o.orderStatus.final = false

def Idle (s : DispatchSystem) (driver : UserId) : Prop := ∀ id, ¬ s.Unfinished driver id

/-- Rob's unfinished orders other than one. -/
def othersOfRob (s : DispatchSystem) (id : OrderId) : Nat :=
  s.orders.rows.countP fun o => o.id ≠ id && (o.assignedDriverId = some robDriverId && !o.orderStatus.final)

/-- The account as a transaction that holds its lock has found it. -/
def HoldsAccount (s : DispatchSystem) (x : TransactionId) (driver : UserId) (P : User → Prop) : Prop :=
  s.accountLock driver = some x ∧ ∃ user, s.users.find driver = some user ∧ P user

/-- What the other transactions leave to `x`. -/
structure Frame (s t : DispatchSystem) (x : TransactionId) : Prop where
  lock : ∀ driver, s.accountLock driver = some x → t.accountLock driver = some x
  row : ∀ driver user, s.accountLock driver = some x → s.users.find driver = some user →
    t.users.find driver = some user
  fewer : ∀ driver id, s.accountLock driver = some x → t.Unfinished driver id → s.Unfinished driver id

variable {T : AllocationService} {robPriority : Option String} {s t : DispatchSystem} {x y : TransactionId}
  {driver : UserId} {id : OrderId} {P : User → Prop} {tx : Transaction}

theorem HoldsAccount.frame (h : s.HoldsAccount x driver P) (frame : Frame s t x) : t.HoldsAccount x driver P := by
  obtain ⟨lock,user,found,holds⟩ := h
  exact ⟨frame.lock driver lock,user,frame.row driver user lock found,holds⟩

theorem othersFewer (h : ∀ id, t.Unfinished robDriverId id → s.Unfinished robDriverId id) (id : OrderId) :
    t.othersOfRob id ≤ s.othersOfRob id := by
  refine countP_le fun row mem counted => ?_
  simp only [Bool.and_eq_true,decide_eq_true_eq,Bool.not_eq_true'] at counted ⊢
  obtain ⟨other,assigned,unfinished⟩ := counted
  obtain ⟨o,found,assigned,unfinished⟩ := h row.id ⟨row,find_of_mem mem,assigned,unfinished⟩
  have same := find_key found
  exact ⟨o,(find_some found).1,same,same ▸ other,assigned,unfinished⟩

/-! ### What a running transaction knows -/

def AssignStage.Fits (s : DispatchSystem) (x : TransactionId) (id : OrderId) (driver : UserId) : AssignStage → Prop
  | .begun | .orderLocked => True
  | .driverLocked => s.HoldsAccount x driver User.CanDeliver
  | .updated row => s.HoldsAccount x driver User.CanDeliver ∧ row.id = id ∧ row.assignedDriverId = some driver

/-- Rob has room for the order, where his priority is enabled. -/
def RobBelow (s : DispatchSystem) (enabled : Bool) (driver : UserId) (id : OrderId) : Prop :=
  enabled = true → driver = robDriverId → s.othersOfRob id < robActiveOrderLimit

def AllocateStage.Fits (s : DispatchSystem) (x : TransactionId) (enabled : Bool) (id : OrderId) : AllocateStage → Prop
  | .begun | .orderLocked _ | .loaded .. => True
  | .robLocked _ _ robCandidate fallbackCandidates =>
    s.HoldsAccount x robDriverId User.CanDeliver ∧ robCandidate.driver.id = robDriverId ∧
      ∀ c ∈ fallbackCandidates, c.driver.id ≠ robDriverId
  | .selected _ _ c => enabled = true → c.driver.id ≠ robDriverId
  | .driverLocked _ _ c => s.HoldsAccount x c.driver.id User.CanDeliver ∧ s.RobBelow enabled c.driver.id id
  | .updated row c =>
    (s.HoldsAccount x c.driver.id User.CanDeliver ∧ s.RobBelow enabled c.driver.id id) ∧
      row.id = id ∧ row.assignedDriverId = some c.driver.id

def StaffStage.Fits (s : DispatchSystem) (x : TransactionId) (id : UserId) (change : StaffChange) :
    StaffStage → Prop
  | .begun => True
  | .locked => s.accountLock id = some x
  | .read user => s.HoldsAccount x id (· = user)
  | .checked user => s.HoldsAccount x id (· = user) ∧ ((change.write user user).CanDeliver ∨ s.Idle id)
  | .updated row => s.accountLock id = some x ∧ row.id = id ∧ (row.CanDeliver ∨ s.Idle id)

def Transaction.Fits (s : DispatchSystem) (enabled : Bool) (x : TransactionId) : Transaction → Prop
  | .assign id u driver stage => (u.Shaped ∧ u.locksDriver = some driver) ∧ AssignStage.Fits s x id driver stage
  | .allocate id stage => AllocateStage.Fits s x enabled id stage
  | .staff _ id _ change stage => StaffStage.Fits s x id change stage

theorem idleFrame (lock : s.accountLock driver = some x) (idle : s.Idle driver) (frame : Frame s t x) :
    t.Idle driver := fun id h => idle id (frame.fewer driver id lock h)

theorem robBelowFrame {enabled : Bool} (lock : s.accountLock driver = some x)
    (below : s.RobBelow enabled driver id) (frame : Frame s t x) : t.RobBelow enabled driver id := by
  rintro on rfl
  exact Nat.lt_of_le_of_lt (othersFewer (fun id h => frame.fewer _ id lock h) id) (below on rfl)

theorem fitsFrame {enabled : Bool} (h : Transaction.Fits s enabled x tx) (frame : Frame s t x) :
    Transaction.Fits t enabled x tx := by
  cases tx with
  | assign id u driver stage =>
    refine ⟨h.1,?_⟩
    cases stage with
    | driverLocked => exact h.2.frame frame
    | updated row => exact ⟨h.2.1.frame frame,h.2.2⟩
    | _ => trivial
  | allocate id stage =>
    cases stage with
    | robLocked _ _ c fallback => exact ⟨h.1.frame frame,h.2⟩
    | selected _ _ c => exact h
    | driverLocked _ _ c => exact ⟨h.1.frame frame,robBelowFrame h.1.1 h.2 frame⟩
    | updated row c => exact ⟨⟨h.1.1.frame frame,robBelowFrame h.1.1.1 h.1.2 frame⟩,h.2⟩
    | _ => trivial
  | staff actorId id staffRevision change stage =>
    cases stage with
    | «begun» => trivial
    | locked => exact frame.lock id h
    | read user => exact HoldsAccount.frame h frame
    | checked user => exact ⟨h.1.frame frame,h.2.imp_right fun idle => idleFrame h.1.1 idle frame⟩
    | updated row =>
      exact ⟨frame.lock id h.1,h.2.1,h.2.2.imp_right fun idle => idleFrame h.1 idle frame⟩

/-- The invariant over both tables, with what it takes to keep it. -/
structure Sound (enabled : Bool) (s : DispatchSystem) : Prop where
  requests : ∀ request r u, s.requests request = some r → r.update = some u → u.Shaped
  transactions : ∀ x tx, s.transactions x = some tx → Transaction.Fits s enabled x tx
  orders : ∀ driver id, s.Unfinished driver id → ∃ user, s.users.find driver = some user ∧ user.CanDeliver

/-! ### What one step does -/

inductive DataStep (s t : DispatchSystem) : Prop where
  | same (users : t.users = s.users) (orders : t.orders = s.orders)
  | account (before after : User) (found : s.users.find after.id = some before)
      (free : s.accountLock after.id = none) (users : t.users = s.users.put after) (orders : t.orders = s.orders)
      (keeps : before.CanDeliver → after.CanDeliver)
  | registered (user : User) (fresh : s.users.find user.id = none) (users : t.users = s.users.put user)
      (orders : t.orders = s.orders)
  | order (before after : Order) (found : s.orders.find after.id = some before) (users : t.users = s.users)
      (orders : t.orders = s.orders.put after) (calm : Calm before after)
  | created (row : Order) (users : t.users = s.users) (orders : t.orders = s.orders.put row)
      (unassigned : row.assignedDriverId = none)
  | assigned (x : TransactionId) (driver : UserId) (row : Order) (done : t.transactions x = none)
      (held : s.HoldsAccount x driver User.CanDeliver) (users : t.users = s.users)
      (orders : t.orders = s.orders.put row) (assigns : row.assignedDriverId = some driver)
  | changed (x : TransactionId) (row : User) (done : t.transactions x = none) (lock : s.accountLock row.id = some x)
      (users : t.users = s.users.put row) (orders : t.orders = s.orders) (keeps : row.CanDeliver ∨ s.Idle row.id)

structure DispatchStep (enabled : Bool) (s t : DispatchSystem) : Prop where
  data : DataStep s t
  requests : ∀ request r u, t.requests request = some r → r.update = some u →
    u.Shaped ∨ ∃ request r', s.requests request = some r' ∧ r'.update = some u
  transactions : ∀ x tx, t.transactions x = some tx →
    s.transactions x = some tx ∧ (∀ driver, s.accountLock driver = some x → t.accountLock driver = some x) ∨
    Transaction.Fits t enabled x tx

theorem unfinishedBefore (data : DataStep s t) (h : t.Unfinished driver id) :
    s.Unfinished driver id ∨ ∃ x, t.transactions x = none ∧ s.HoldsAccount x driver User.CanDeliver := by
  obtain ⟨o,found,assigned,unfinished⟩ := h
  have old {row : Order} (orders : t.orders = s.orders.put row) (other : row.id ≠ id) : s.Unfinished driver id := by
    rw [orders,find_put,if_neg other] at found
    exact ⟨o,found,assigned,unfinished⟩
  have new {row : Order} (orders : t.orders = s.orders.put row) (same : row.id = id) : row = o := by
    rw [orders,find_put,if_pos same] at found
    exact Option.some.inj found
  cases data with
  | same _ orders => exact .inl ⟨o,orders ▸ found,assigned,unfinished⟩
  | account _ _ _ _ _ orders => exact .inl ⟨o,orders ▸ found,assigned,unfinished⟩
  | registered _ _ _ orders => exact .inl ⟨o,orders ▸ found,assigned,unfinished⟩
  | changed _ _ _ _ _ orders => exact .inl ⟨o,orders ▸ found,assigned,unfinished⟩
  | order before after row _ orders calm =>
    by_cases here : after.id = id
    · cases new orders here
      refine .inl ⟨before,here ▸ row,?_,?_⟩
      · rcases calm.1 with keeps | cleared
        · exact keeps ▸ assigned
        · rw [cleared] at assigned
          contradiction
      · cases final : before.orderStatus.final with
        | false => rfl
        | true => rw [calm.2 final] at unfinished; contradiction
    · exact .inl (old orders here)
  | created row _ orders unassigned =>
    by_cases here : row.id = id
    · cases new orders here
      rw [unassigned] at assigned
      contradiction
    · exact .inl (old orders here)
  | assigned x other row done held _ orders assigns =>
    by_cases here : row.id = id
    · cases new orders here
      cases Option.some.inj (assigns.symm.trans assigned)
      exact .inr ⟨x,done,held⟩
    · exact .inl (old orders here)

theorem dataFrame (data : DataStep s t) (running : t.transactions x ≠ none)
    (lock : ∀ driver, s.accountLock driver = some x → t.accountLock driver = some x) : Frame s t x := by
  refine ⟨lock,fun driver user mine found => ?_,fun driver id mine h => ?_⟩
  · cases data with
    | same users => rwa [users]
    | order _ _ _ users => rwa [users]
    | created _ users => rwa [users]
    | assigned _ _ _ _ _ users => rwa [users]
    | account before after _ free users =>
      rw [users,find_put_other fun same => ?_]
      · exact found
      · rw [same,free] at mine
        contradiction
    | registered row fresh users =>
      rw [users,find_put_other fun same => ?_]
      · exact found
      · rw [same,fresh] at found
        contradiction
    | changed y row done held users =>
      rw [users,find_put_other fun same => ?_]
      · exact found
      · rw [same,held] at mine
        cases mine
        exact running done
  · rcases unfinishedBefore data h with before | ⟨y,done,held,_⟩
    · exact before
    · cases held.symm.trans mine
      exact absurd done running

theorem usableAfter (data : DataStep s t)
    (orders : ∀ id, s.Unfinished driver id → ∃ user, s.users.find driver = some user ∧ user.CanDeliver)
    (h : t.Unfinished driver id) : ∃ user, t.users.find driver = some user ∧ user.CanDeliver := by
  have before : ∃ user, s.users.find driver = some user ∧ user.CanDeliver := by
    rcases unfinishedBefore data h with before | ⟨_,_,held⟩
    · exact orders id before
    · exact held.2
  obtain ⟨user,found,delivers⟩ := before
  cases data with
  | same users => exact ⟨user,users ▸ found,delivers⟩
  | order _ _ _ users => exact ⟨user,users ▸ found,delivers⟩
  | created _ users => exact ⟨user,users ▸ found,delivers⟩
  | assigned _ _ _ _ _ users => exact ⟨user,users ▸ found,delivers⟩
  | registered row fresh users =>
    refine ⟨user,?_,delivers⟩
    rw [users,find_put_other fun same => ?_]
    · exact found
    · rw [same,fresh] at found
      contradiction
  | account x y row _ users _ keeps =>
    rw [users,find_put]
    split
    · rename_i same
      subst same
      cases Option.some.inj (row.symm.trans found)
      exact ⟨y,rfl,keeps delivers⟩
    · exact ⟨user,found,delivers⟩
  | changed x row _ _ users same keeps =>
    rw [users,find_put]
    split
    · rename_i mine
      subst mine
      refine ⟨row,rfl,keeps.resolve_right fun idle => idle id ?_⟩
      obtain ⟨o,there,rest⟩ := h
      exact ⟨o,same ▸ there,rest⟩
    · exact ⟨user,found,delivers⟩

theorem soundStep {enabled : Bool} (step : DispatchStep enabled s t) (sound : Sound enabled s) : Sound enabled t where
  requests request r u held decided := by
    rcases step.requests request r u held decided with shaped | ⟨request,r',held,decided⟩
    · exact shaped
    · exact sound.requests request r' u held decided
  transactions x tx running := by
    rcases step.transactions x tx running with ⟨before,lock⟩ | fits
    · exact fitsFrame (sound.transactions x tx before) (dataFrame step.data (by rw [running]; nofun) lock)
    · exact fits
  orders driver id h := usableAfter step.data (sound.orders driver) h

/-! ### The steps of a transaction -/

variable {enabled : Bool} {now : Time} {c : AllocationCandidate} {u : DispatchSystem}

theorem DispatchStep.plain (data : DataStep s t)
    (requests : ∀ request r u, t.requests request = some r → r.update = some u →
      u.Shaped ∨ ∃ request r', s.requests request = some r' ∧ r'.update = some u)
    (transactions : t.transactions = s.transactions) (accounts : t.accountLock = s.accountLock) :
    DispatchStep enabled s t :=
  ⟨data,requests,fun _ _ running => .inl ⟨transactions ▸ running,fun _ lock => accounts ▸ lock⟩⟩

theorem DispatchStep.ends (transactions : u.transactions = s.transactions) (requests : u.requests = s.requests)
    (accounts : u.accountLock = s.accountLock) (data : DataStep s (u.finish x)) :
    DispatchStep enabled s (u.finish x) := by
  refine ⟨data,fun request r u held decided => .inr ⟨request,r,?_,decided⟩,fun y tx running => .inl ⟨?_,?_⟩⟩
  · simpa only [finish,requests] using held
  · simp only [finish,Function.update_apply,transactions] at running
    split at running
    · contradiction
    · exact running
  · intro driver lock
    simp only [finish,Function.update_apply] at running
    split at running
    · contradiction
    · rename_i other
      simp only [finish,accounts,lock,Option.some.injEq,other,if_false]

theorem DispatchStep.finishes : DispatchStep enabled s (s.finish x) := .ends rfl rfl rfl (.same rfl rfl)

theorem DispatchStep.moves (users : t.users = s.users) (orders : t.orders = s.orders)
    (requests : t.requests = s.requests) (transactions : t.transactions = Function.update s.transactions x (some tx))
    (accounts : ∀ driver y, s.accountLock driver = some y → t.accountLock driver = some y)
    (fits : Transaction.Fits t enabled x tx) : DispatchStep enabled s t := by
  refine ⟨.same users orders,fun request r u held decided => .inr ⟨request,r,requests ▸ held,decided⟩,
    fun y other running => ?_⟩
  simp only [transactions,Function.update_apply] at running
  split at running
  · rename_i same
    cases running
    exact .inr (same ▸ fits)
  · exact .inl ⟨running,fun driver => accounts driver y⟩

theorem takenLock (free : s.accountLock driver = none ∨ s.accountLock driver = some x) (other : UserId)
    (y : TransactionId) (lock : s.accountLock other = some y) :
    ((s.takeAccount x driver).move x tx).accountLock other = some y := by
  simp only [takeAccount,move,Function.update_apply]
  split
  · rename_i same
    subst same
    rcases free with none | mine
    · rw [lock] at none
      contradiction
    · rw [← mine,lock]
  · exact lock

theorem lockedAssignable (h : s.lockAssignable x driver now = some true) :
    (s.accountLock driver = none ∨ s.accountLock driver = some x) ∧
      ∃ user, s.users.find driver = some user ∧ user.CanDeliver := by
  unfold lockAssignable at h
  split at h
  · contradiction
  rename_i user found
  split at h
  · contradiction
  rename_i assignable
  split at h
  · rename_i free
    exact ⟨free,user,found,assignableDelivers (not_not.mp assignable)⟩
  · contradiction

theorem takenHolds (found : ∃ user, s.users.find driver = some user ∧ P user) :
    ((s.takeAccount x driver).move x tx).HoldsAccount x driver P :=
  ⟨by simp [takeAccount,move],found⟩

theorem chooseStep {lockedOrder : Order} {candidates : List AllocationCandidate}
    (others : enabled = true → ∀ c ∈ candidates, c.driver.id ≠ robDriverId) :
    DispatchStep enabled s (s.choose T x id lockedOrder now candidates) := by
  unfold choose
  split
  · exact .finishes
  · rename_i c selected
    exact .moves rfl rfl rfl rfl (fun _ _ lock => lock) fun on => others on c (selectedCandidate selected)

theorem lockOrderStep (sound : Transaction.Fits s enabled x tx) (h : s.lockOrder x tx = some t) :
    DispatchStep enabled s t := by
  unfold lockOrder at h
  split at h
  · split at h
    · contradiction
    · cases h
      exact .moves rfl rfl rfl rfl (fun _ _ lock => lock) ⟨sound.1,trivial⟩
  · split at h
    · contradiction
    split at h
    · cases h
      exact .finishes
    split at h
    · cases h
      exact .finishes
    split at h <;> cases h
    · exact .finishes
    · exact .moves rfl rfl rfl rfl (fun _ _ lock => lock) trivial
  · contradiction

theorem lockRobStep (h : s.lockRob T robPriority x now tx = some t) :
    DispatchStep (isRobPriorityEnabled T robPriority) s t := by
  unfold lockRob at h
  split at h
  case h_2 => contradiction
  rename_i id lockedOrder allocationTime candidates
  have others (c) (mem : c ∈ candidates.filter (·.driver.id ≠ robDriverId)) : c.driver.id ≠ robDriverId := by
    simpa using (List.mem_filter.mp mem).2
  split at h
  · rename_i absent
    cases h
    refine chooseStep fun on c mem => ?_
    rw [if_pos on] at absent
    simpa using List.find?_eq_none.mp absent c mem
  · rename_i robCandidate found
    have rob : robCandidate.driver.id = robDriverId := by
      split at found
      · simpa using List.find?_some found
      · contradiction
    split at h
    · contradiction
    · cases h
      exact chooseStep fun _ => others
    · rename_i locked
      cases h
      obtain ⟨free,delivers⟩ := lockedAssignable locked
      exact .moves rfl rfl rfl rfl (takenLock free) ⟨takenHolds delivers,rob,others⟩

theorem othersCount (id : OrderId) : s.othersOfRob id ≤ s.assignedCount (!·.final) robDriverId := by
  refine List.countP_mono_left fun o _ counted => ?_
  simp only [Bool.and_eq_true] at counted ⊢
  exact counted.2

theorem countRobStep (sound : Transaction.Fits s enabled x tx) (h : s.countRob T x tx = some t) :
    DispatchStep enabled s t := by
  unfold countRob at h
  split at h
  case h_2 => contradiction
  rename_i id lockedOrder allocationTime robCandidate fallbackCandidates
  obtain ⟨held,rob,others⟩ := sound
  split at h <;> cases h
  · rename_i room
    refine .moves rfl rfl rfl rfl (fun _ _ lock => lock) ⟨rob ▸ held,fun _ _ => ?_⟩
    exact Nat.lt_of_le_of_lt (othersCount id) room
  · exact chooseStep fun _ => others

theorem lockDriverStep (sound : Transaction.Fits s enabled x tx) (h : s.lockDriver x now tx = some t) :
    DispatchStep enabled s t := by
  unfold lockDriver at h
  split at h
  case h_3 => contradiction
  all_goals
    obtain ⟨locked,decided,rfl⟩ := Option.map_eq_some_iff.mp h
    cases locked with
    | false => exact .finishes
    | true => ?_
  · obtain ⟨free,delivers⟩ := lockedAssignable decided
    exact .moves rfl rfl rfl rfl (takenLock free) ⟨sound.1,takenHolds delivers⟩
  · obtain ⟨free,delivers⟩ := lockedAssignable decided
    exact .moves rfl rfl rfl rfl (takenLock free) ⟨takenHolds delivers,fun on rob => absurd rob (sound on)⟩

theorem lockAccountStep (h : s.lockAccount x tx = some t) : DispatchStep enabled s t := by
  unfold lockAccount at h
  split at h
  case h_2 => contradiction
  split at h
  · contradiction
  rename_i free
  split at h <;> cases h
  · exact .finishes
  · exact .moves rfl rfl rfl rfl (takenLock (.inl (by simpa using free))) (by simp [takeAccount,move,
      Transaction.Fits,StaffStage.Fits])

theorem readAccountStep (sound : Transaction.Fits s enabled x tx) (h : s.readAccount x tx = some t) :
    DispatchStep enabled s t := by
  unfold readAccount at h
  split at h
  case h_2 => contradiction
  split at h <;> cases h
  · exact .finishes
  · rename_i user found
    exact .moves rfl rfl rfl rfl (fun _ _ lock => lock) ⟨sound,user,found,rfl⟩

theorem assignedNone {statuses : OrderStatus → Bool} (all : ∀ status, status.final = false → statuses status = true)
    (count : s.assignedCount statuses driver = 0) : s.Idle driver := by
  rintro id ⟨o,found,assigned,unfinished⟩
  have counted := List.countP_eq_zero.mp count o (find_some found).1
  simp [assigned,all _ unfinished] at counted

theorem changeStaffAccepts {actorId : UserId} {user read : User} {staffRevision unfinished : Nat}
    {change : StaffChange} (h : changeStaff actorId (some read) staffRevision change unfinished = .ok user) :
    ¬ (change.accessChanges read = true ∧ read.role = .driver ∧ 0 < unfinished) := by
  simp only [changeStaff] at h
  split at h
  · contradiction
  split at h
  · contradiction
  split at h
  · contradiction
  · assumption

/-- An account that is refused nothing keeps its deliveries or has none to lose. -/
theorem countUnfinishedStep (sound : Sound enabled s) (fits : Transaction.Fits s enabled x tx)
    (h : s.countUnfinished x tx = some t) : DispatchStep enabled s t := by
  unfold countUnfinished at h
  split at h
  case h_2 => contradiction
  rename_i actorId id staffRevision change user
  split at h <;> cases h
  · exact .finishes
  rename_i accepted
  refine .moves rfl rfl rfl rfl (fun _ _ lock => lock) ⟨fits,?_⟩
  obtain ⟨_,row,found,rfl⟩ := fits
  by_cases delivers : row.CanDeliver
  · cases access : change.accessChanges row with
    | false => exact .inl (changeDelivers access delivers)
    | true =>
      have count : s.assignedCount (· ∈ operationalStatuses) id = 0 :=
        Nat.eq_zero_of_not_pos fun some => changeStaffAccepts accepted ⟨access,delivers.2.2,some⟩
      have idle : s.Idle id := assignedNone (fun status => by cases status <;> decide) count
      exact .inr idle
  · refine .inr fun order unfinished => ?_
    obtain ⟨user,here,can⟩ := sound.orders id order unfinished
    cases Option.some.inj (found.symm.trans here)
    exact delivers can

theorem filterFound {α : Type} {p : α → Bool} {o : Option α} {a : α} (h : o.filter p = some a) : o = some a ∧ p a = true :=
  Option.filter_eq_some_iff.mp h

theorem assignedRow {u : GuardedUpdate} {o : Order} (shaped : u.Shaped) (locks : u.locksDriver = some driver) :
    (u.data.apply o).assignedDriverId = some driver := by
  simp [OrderData.apply,OrderData.applyDispatch,shaped.assigns driver locks]

theorem allocatedRow (lockedOrder o : Order) (driver : UserId) (allocationTime : Time) :
    ((autoDispatchUpdate lockedOrder driver allocationTime).apply o).assignedDriverId = some driver := by
  simp [OrderData.apply,OrderData.applyDispatch,autoDispatchUpdate,OrderData.spread,buildOrderTransitionTimestampData]

theorem writeRowStep (fits : Transaction.Fits s enabled x tx) (h : s.writeRow x tx = some t) :
    DispatchStep enabled s t := by
  unfold writeRow at h
  split at h
  case h_4 => contradiction
  · split at h <;> cases h
    · exact .finishes
    · rename_i o found
      obtain ⟨⟨shaped,locks⟩,held⟩ := fits
      have same : o.id = _ := find_key (filterFound found).1
      exact .moves rfl rfl rfl rfl (fun _ _ lock => lock)
        ⟨⟨shaped,locks⟩,held,same,assignedRow shaped locks⟩
  · split at h <;> cases h
    · exact .finishes
    · rename_i o found
      have same : o.id = _ := find_key (filterFound found).1
      exact .moves rfl rfl rfl rfl (fun _ _ lock => lock) ⟨fits,same,allocatedRow _ o _ _⟩
  · rename_i actorId id staffRevision change user
    split at h
    · cases h
      exact .finishes
    rename_i row found
    split at h <;> cases h
    · obtain ⟨⟨lock,read,here,rfl⟩,keeps⟩ := fits
      cases Option.some.inj (here.symm.trans (filterFound found).1)
      exact .moves rfl rfl rfl rfl (fun _ _ lock => lock)
        ⟨lock,(StaffChange.writeId ..).trans (find_key here),keeps⟩
    · exact .finishes

theorem commitStep (fits : Transaction.Fits s enabled x tx) (h : s.commit x tx = some t) :
    DispatchStep enabled s t := by
  have done (u : DispatchSystem) : (u.finish x).transactions x = none := by simp [finish]
  unfold commit at h
  split at h <;> cases h
  · obtain ⟨_,held,_,assigns⟩ := fits
    exact .ends rfl rfl rfl (.assigned x _ _ (done _) held rfl rfl assigns)
  · obtain ⟨⟨held,_⟩,_,assigns⟩ := fits
    exact .ends rfl rfl rfl (.assigned x _ _ (done _) held rfl rfl assigns)
  · obtain ⟨lock,rfl,keeps⟩ := fits
    exact .ends rfl rfl rfl (.changed x _ (done _) lock rfl rfl keeps)

/-! ### All steps -/

theorem updateOrderStep {f : Order → Option Order} (calm : ∀ o after, s.orders.find id = some o → f o = some after →
      after.id = o.id ∧ Calm o after) (h : s.updateOrder id f = some t) :
    DataStep s t ∧ t.requests = s.requests ∧ t.transactions = s.transactions ∧ t.accountLock = s.accountLock := by
  unfold updateOrder at h
  split at h
  · contradiction
  split at h <;> cases h
  · exact ⟨.same rfl rfl,rfl,rfl,rfl⟩
  · rename_i after made
    obtain ⟨o,found,made⟩ := Option.bind_eq_some_iff.mp made
    obtain ⟨same,calm⟩ := calm o after found made
    exact ⟨.order o after (by rw [same,find_self found]) rfl rfl calm,rfl,rfl,rfl⟩

theorem DispatchStep.updates {f : Order → Option Order} (calm : ∀ o after, s.orders.find id = some o →
      f o = some after → after.id = o.id ∧ Calm o after) (h : s.updateOrder id f = some t) :
    DispatchStep enabled s t := by
  obtain ⟨data,requests,transactions,accounts⟩ := updateOrderStep calm h
  exact .plain data (fun request r u held decided => .inr ⟨request,r,requests ▸ held,decided⟩) transactions accounts

theorem closedRequest {request other : RequestId} {r : OrderRequest} (held : (s.close request).requests other = some r) :
    s.requests other = some r := by
  simp only [close,Function.update_apply] at held
  split at held
  · contradiction
  · exact held

theorem beginsStep {u : DispatchSystem} (begun : s.begins x tx = some u) (fits : ∀ t, Transaction.Fits t enabled x tx) :
    DispatchStep enabled s u := by
  unfold begins at begun
  split at begun
  · contradiction
  · cases begun
    exact .moves rfl rfl rfl rfl (fun _ _ lock => lock) (fits _)

theorem DispatchStep.closes {request : RequestId} (step : DispatchStep enabled s u)
    : DispatchStep enabled s (u.close request) := by
  refine ⟨?_,fun other r d held decided => step.requests other r d (closedRequest held) decided,?_⟩
  · cases step.data with
    | same users orders => exact .same users orders
    | account before after found free users orders keeps => exact .account before after found free users orders keeps
    | registered user fresh users orders => exact .registered user fresh users orders
    | order before after found users orders calm => exact .order before after found users orders calm
    | created row users orders unassigned => exact .created row users orders unassigned
    | assigned x driver row done held users orders assigns => exact .assigned x driver row done held users orders assigns
    | changed x row done lock users orders keeps => exact .changed x row done lock users orders keeps
  · intro y tx running
    refine (step.transactions y tx running).imp_right fun fits => ?_
    exact fitsFrame fits ⟨fun _ lock => lock,fun _ _ _ found => found,fun _ _ _ h => h⟩

theorem eraseCalm (o : Order) (now retainUntil : Time) (final : o.orderStatus.final = true) :
    Calm o (eraseOrder now retainUntil o) := ⟨.inr rfl,fun _ => final⟩

theorem decideStep {request : RequestId} {receipt : Bool}
    (h : s.step T robPriority (.decide request receipt now) = some t) : DispatchStep enabled s t := by
  obtain ⟨r,held,h⟩ := Option.bind_eq_some_iff.mp h
  split at h
  · contradiction
  split at h
  · contradiction
  · cases h
    exact DispatchStep.closes (.plain (.same rfl rfl) (fun other r d held decided => .inr ⟨other,r,held,decided⟩) rfl rfl)
  · rename_i u decided
    cases h
    refine .plain (.same rfl rfl) (fun other r' d held' decided' => ?_) rfl rfl
    simp only [await,Function.update_apply] at held'
    split at held'
    · cases held'
      cases decided'
      obtain ⟨o,_,source⟩ := decisionSource decided
      exact .inl (decisionShaped source)
    · exact .inr ⟨other,r',held',decided'⟩

theorem readStep {request : RequestId} {handler : Handler}
    (h : s.step T robPriority (.read request id handler) = some t) : DispatchStep enabled s t := by
  simp only [step] at h
  split at h
  · contradiction
  cases h
  refine .plain (.same rfl rfl) (fun other r d held decided => ?_) rfl rfl
  simp only [await,Function.update_apply] at held
  split at held
  · cases held
    contradiction
  · exact .inr ⟨other,r,held,decided⟩

theorem updateStep {request : RequestId} (sound : Sound enabled s)
    (h : s.step T robPriority (.update request) = some t) : DispatchStep enabled s t := by
  obtain ⟨r,held,h⟩ := Option.bind_eq_some_iff.mp h
  obtain ⟨u,decided,h⟩ := Option.bind_eq_some_iff.mp h
  split at h
  · contradiction
  rename_i free
  obtain ⟨next,updated,h⟩ := Option.bind_eq_some_iff.mp h
  cases h
  refine .closes (.updates (fun o after _ made => ?_) updated)
  split at made
  · rename_i matched
    cases made
    exact ⟨rfl,plainCalm (sound.requests request r u held decided) (by simpa using free) matched.1⟩
  · contradiction

theorem beginAssignStep {request : RequestId} (sound : Sound enabled s)
    (h : s.step T robPriority (.beginAssign x request) = some t) : DispatchStep enabled s t := by
  obtain ⟨r,held,h⟩ := Option.bind_eq_some_iff.mp h
  obtain ⟨u,decided,h⟩ := Option.bind_eq_some_iff.mp h
  obtain ⟨driver,locks,h⟩ := Option.bind_eq_some_iff.mp h
  obtain ⟨next,begun,h⟩ := Option.bind_eq_some_iff.mp h
  cases h
  exact .closes (beginsStep begun fun _ => ⟨⟨sound.requests request r u held decided,locks⟩,trivial⟩)

theorem accountStep {w : AccountWrite} {user : UserId} (h : s.step T robPriority (.account user w) = some t) :
    DispatchStep enabled s t := by
  simp only [step] at h
  split at h
  · contradiction
  rename_i other
  split at h
  · contradiction
  rename_i free
  obtain ⟨row,found,rfl⟩ := Option.map_eq_some_iff.mp h
  have mine : (w.apply row).id = user := (w.applyId row).trans (find_key found)
  exact .plain (.account row (w.apply row) (mine ▸ found) (mine ▸ by simpa using free) rfl rfl (writeDelivers other))
    (fun other r d held decided => .inr ⟨other,r,held,decided⟩) rfl rfl

theorem dispatchStep {a : DispatchAction} (sound : Sound (isRobPriorityEnabled T robPriority) s)
    (taken : s.step T robPriority a = some t) : DispatchStep (isRobPriorityEnabled T robPriority) s t := by
  have running {x : TransactionId} {f : Transaction → Option DispatchSystem} (h : (s.transactions x).bind f = some t)
      (each : ∀ tx, Transaction.Fits s (isRobPriorityEnabled T robPriority) x tx → f tx = some t →
        DispatchStep (isRobPriorityEnabled T robPriority) s t) :
      DispatchStep (isRobPriorityEnabled T robPriority) s t := by
    obtain ⟨tx,found,h⟩ := Option.bind_eq_some_iff.mp h
    exact each tx (sound.transactions x tx found) h
  cases a with
  | createOrder id input now =>
    simp only [step] at taken
    split at taken
    · contradiction
    cases taken
    exact .plain (.created (createdOrder id input now) rfl rfl rfl)
      (fun request r u held decided => .inr ⟨request,r,held,decided⟩) rfl rfl
  | read request id handler => exact readStep taken
  | decide request receipt now => exact decideStep taken
  | update request => exact updateStep sound taken
  | saveReceipt id user now =>
    refine .updates (fun o after _ made => ?_) taken
    split at made
    · obtain ⟨data,update,made⟩ := Option.bind_eq_some_iff.mp made
      cases made
      exact ⟨rfl,receiptCalm update⟩
    · contradiction
  | editDetails id existingOrder details =>
    refine .updates (fun o after _ made => ?_) taken
    split at made
    · cases made
      exact ⟨rfl,.inl rfl,fun final => final⟩
    · contradiction
  | setPriority id priority =>
    refine .updates (fun o after _ made => ?_) taken
    split at made
    · cases made
      exact ⟨rfl,.inl rfl,fun final => final⟩
    · contradiction
  | erase id now retainUntil =>
    refine .updates (fun o after _ made => ?_) taken
    split at made
    · rename_i final
      cases made
      exact ⟨rfl,eraseCalm o now retainUntil final.1⟩
    · contradiction
  | register id email passwordHash role firstName lastName =>
    simp only [step] at taken
    split at taken
    · contradiction
    rename_i fresh
    cases taken
    exact .plain (.registered (registeredUser id email passwordHash role firstName lastName)
      (Option.not_isSome_iff_eq_none.mp fresh) rfl rfl)
      (fun request r u held decided => .inr ⟨request,r,held,decided⟩) rfl rfl
  | account id w => exact accountStep taken
  | beginAssign x request => exact beginAssignStep sound taken
  | beginAllocate x id => exact beginsStep taken fun _ => trivial
  | beginStaff x actorId id staffRevision change => exact beginsStep taken fun _ => trivial
  | lockOrder x => exact running taken fun _ fits h => lockOrderStep fits h
  | loadCandidates x routes now =>
    simp only [step] at taken
    split at taken
    · cases taken
      exact .moves rfl rfl rfl rfl (fun _ _ lock => lock) trivial
    · contradiction
  | lockRob x now => exact running taken fun _ _ h => lockRobStep h
  | countRob x => exact running taken fun _ fits h => countRobStep fits h
  | lockDriver x now => exact running taken fun _ fits h => lockDriverStep fits h
  | lockAccount x => exact running taken fun _ _ h => lockAccountStep h
  | readAccount x => exact running taken fun _ fits h => readAccountStep fits h
  | countUnfinished x => exact running taken fun _ fits h => countUnfinishedStep sound fits h
  | write x => exact running taken fun _ fits h => writeRowStep fits h
  | commit x => exact running taken fun _ fits h => commitStep fits h
  | rollback x =>
    cases taken
    exact .finishes
  | abandon request =>
    cases taken
    exact .closes (.plain (.same rfl rfl) (fun request r u held decided => .inr ⟨request,r,held,decided⟩) rfl rfl)

theorem reachableSound {users : Table User User.id} (reached : Reachable T robPriority users s) :
    Sound (isRobPriorityEnabled T robPriority) s := by
  refine reached.invariant ⟨?_,?_,?_⟩ fun _ _ _ sound taken => soundStep (dispatchStep sound taken) sound
  · rintro _ _ _ ⟨⟩
  · rintro _ _ ⟨⟩
  · rintro driver id ⟨o,found,_⟩
    simp [initial] at found

/-! ### No unfinished order of an unusable account -/

theorem strandingRefused {actorId user : UserId} {staffRevision : Nat} {change : StaffChange} {read : User}
    (sound : Sound enabled s) (running : s.transactions x = some (.staff actorId user staffRevision change (.read read)))
    (unfinished : s.Unfinished user id) (strands : ¬ (change.write read read).CanDeliver) :
    s.step T robPriority (.countUnfinished x) = some (s.finish x) := by
  obtain ⟨_,row,found,rfl⟩ := sound.transactions x _ running
  obtain ⟨other,here,delivers⟩ := sound.orders user id unfinished
  cases Option.some.inj (found.symm.trans here)
  have access : change.accessChanges row = true := by
    cases harmless : change.accessChanges row with
    | true => rfl
    | false => exact absurd (changeDelivers harmless delivers) strands
  have counted : 0 < s.assignedCount (· ∈ operationalStatuses) user := by
    obtain ⟨o,there,assigned,live⟩ := unfinished
    refine List.countP_pos_iff.mpr ⟨o,(find_some there).1,?_⟩
    simp only [assigned,decide_true,Bool.true_and]
    revert live
    cases o.orderStatus <;> decide
  simp only [step,running,Option.bind_some,countUnfinished]
  split
  · rfl
  · rename_i accepted
    exact absurd ⟨access,delivers.2.2,counted⟩ (changeStaffAccepts accepted)

theorem unusableNotLocked {user : User} (found : s.users.find driver = some user) (unusable : ¬ user.CanDeliver) :
    s.lockAssignable x driver now = some false := by
  simp only [lockAssignable,found]
  rw [if_pos fun assignable => unusable (assignableDelivers assignable)]

/-- In every reachable state an unfinished order belongs to an active driver who has chosen
a password; a staff change that would strand one is refused, and so is an assignment to an
account that is no longer such a driver. -/
theorem unfinishedOrdersDeliverable (T : AllocationService) (robPriority : Option String)
    (users : Table User User.id) (s : DispatchSystem) (reached : Reachable T robPriority users s) :
    (∀ id o driver, s.orders.find id = some o → o.orderStatus.final = false → o.assignedDriverId = some driver →
      ∃ user, s.users.find driver = some user ∧ user.isActive = true ∧ user.passwordChangeRequired = false ∧
        user.role = .driver) ∧
    (∀ x actorId user staffRevision change read id,
      s.transactions x = some (.staff actorId user staffRevision change (.read read)) → s.Unfinished user id →
      ¬ (change.write read read).CanDeliver → s.step T robPriority (.countUnfinished x) = some (s.finish x)) ∧
    (∀ x actorId user staffRevision change row id,
      s.transactions x = some (.staff actorId user staffRevision change (.updated row)) → s.Unfinished user id →
      row.CanDeliver) ∧
    (∀ x id u driver user now, s.transactions x = some (.assign id u driver .orderLocked) →
      s.users.find driver = some user → ¬ user.CanDeliver →
      s.step T robPriority (.lockDriver x now) = some (s.finish x)) ∧
    ∀ x id lockedOrder allocationTime c user now,
      s.transactions x = some (.allocate id (.selected lockedOrder allocationTime c)) →
      s.users.find c.driver.id = some user → ¬ user.CanDeliver →
      s.step T robPriority (.lockDriver x now) = some (s.finish x) := by
  have sound := reachableSound reached
  refine ⟨?_,?_,?_,?_,?_⟩
  · intro id o driver found unfinished assigned
    exact sound.orders driver id ⟨o,found,assigned,unfinished⟩
  · intro x actorId user staffRevision change read id running unfinished strands
    exact strandingRefused sound running unfinished strands
  · intro x actorId user staffRevision change row id running unfinished
    exact (sound.transactions x _ running).2.2.resolve_right fun idle => idle id unfinished
  · intro x id u driver user now running found unusable
    simp only [step,running,Option.bind_some,lockDriver,unusableNotLocked found unusable,Option.map_some]
    rfl
  · intro x id lockedOrder allocationTime c user now running found unusable
    simp only [step,running,Option.bind_some,lockDriver,unusableNotLocked found unusable,Option.map_some]
    rfl

/-- The account a staff change has locked and read. -/
def accountRead : Transaction → Option (UserId × StaffChange × User)
  | .staff _ id _ change (.read user) => some (id,change,user)
  | _ => none

theorem accountReadShape {user : UserId} {change : StaffChange} {read : User}
    (h : accountRead tx = some (user,change,read)) :
    ∃ actorId staffRevision, tx = .staff actorId user staffRevision change (.read read) := by
  unfold accountRead at h
  split at h
  · cases h
    exact ⟨_,_,rfl⟩
  · contradiction

def onlineDriver (id : UserId) : User :=
  { registeredUser id (id ++ "@speedy.test") "hash:secret" .driver none none with
    isOnline := true, lastSeenAt := some 0, latitude := some 43650000, longitude := some (-79380000)
    locationUpdatedAt := some 0 }

def assignRun (x : TransactionId) (request : RequestId) (id : OrderId) (driver : UserId) : List DispatchAction :=
  [.createOrder id sampleOrder 0,.read request id (.assign ⟨some driver,none⟩ (some ("staff",.dispatcher))),
    .decide request false 1,.beginAssign x request,.lockOrder x,.lockDriver x 2,.write x,.commit x]

theorem deactivationRefused : ∃ (s : DispatchSystem) (user : User),
    Reachable sampleAllocation none (Table.empty.put (onlineDriver "driver")) s ∧
    s.users.find "driver" = some user ∧ user.isActive = true ∧
    s.step sampleAllocation none (.countUnfinished 2) = some (s.finish 2) := by
  have ends : (Transition.run (step sampleAllocation none) (initial (Table.empty.put (onlineDriver "driver")))
      (assignRun 1 0 "order" "driver" ++
        [.beginStaff 2 "admin" "driver" 0 (.status false),.lockAccount 2,.readAccount 2])).bind (fun s =>
        (s.orders.find "order").bind fun o => ((s.transactions 2).bind accountRead).map fun read =>
          (o.orderStatus,o.assignedDriverId,read)) =
      some (.dispatched,some "driver","driver",.status false,onlineDriver "driver") := by decide +kernel
  obtain ⟨s,ran,found⟩ := Option.bind_eq_some_iff.mp ends
  obtain ⟨o,row,found⟩ := Option.bind_eq_some_iff.mp found
  obtain ⟨read,running,same⟩ := Option.map_eq_some_iff.mp found
  simp only [Prod.mk.injEq] at same
  obtain ⟨status,assigned,rfl⟩ := same
  obtain ⟨tx,running,shape⟩ := Option.bind_eq_some_iff.mp running
  obtain ⟨actorId,staffRevision,rfl⟩ := accountReadShape shape
  have reached := Transition.runReachable .start ran
  have unfinished : o.orderStatus.final = false := by rw [status]; rfl
  obtain ⟨usable,refused,_⟩ := unfinishedOrdersDeliverable sampleAllocation none _ s reached
  obtain ⟨user,found,active,_⟩ := usable "order" o "driver" row unfinished assigned
  exact ⟨s,user,reached,found,active,refused 2 _ _ _ _ _ "order" running
    ⟨o,row,assigned,unfinished⟩ (by decide)⟩

end DispatchSystem
end SpeedySweeties
