import Mathlib.Data.Finset.Basic
import SpeedySweeties.Library.Grouping

/-! The alarm for orders that come in from customers. What it rings for depends on the
whole session: a snapshot of the board is compared with all snapshots since the last
reset, and what it rings for it forgets with every acknowledgement and every switch. -/
namespace SpeedySweeties

structure AlarmOrder where
  id : String
  orderStatus : String
  orderSource : Option String := none
  createdByUserId : Option String := none
  acceptedAt : Option String := none
  deriving DecidableEq, Repr

structure OrderAlarmState where
  enabled : Bool
  initialized : Bool
  seen : Finset String
  pending : List AlarmOrder
  waitingForAcceptance : List AlarmOrder
  testing : Bool
  deriving DecidableEq

inductive OrderAlarmAction where
  | snapshot (orders : List AlarmOrder)
  | enabled (enabled : Bool)
  | acknowledge
  | test
  | reset
  deriving DecidableEq, Repr

namespace IncomingAlarm

def createOrderAlarmState (enabled : Bool) : OrderAlarmState := ⟨enabled,false,∅,[],[],false⟩

/-- An absent text and the empty one are both false. -/
def truthy (text : Option String) : Bool := text.any (· ≠ "")

def isWaitingForAcceptance (order : AlarmOrder) : Bool :=
  !truthy order.acceptedAt && ["PLACED","DISPATCHED"].contains order.orderStatus

def isIncomingCustomerOrder (order : AlarmOrder) : Bool :=
  order.orderSource ≠ some "DISPATCHER_MANUAL" && !truthy order.createdByUserId &&
    ["PLACED","DISPATCHED","ACCEPTED","OUT_FOR_DELIVERY"].contains order.orderStatus

/-- What the loop over a snapshot changes. -/
structure Scan where
  seen : Finset String
  pendingIds : Finset String
  pending : List AlarmOrder

def scanOrder (ringing : Bool) (scan : Scan) (order : AlarmOrder) : Scan :=
  if ringing && isIncomingCustomerOrder order && (order.id ∈ scan.pendingIds || order.id ∉ scan.seen) then
    ⟨insert order.id scan.seen,scan.pendingIds.erase order.id,scan.pending ++ [order]⟩
  else { scan with seen := insert order.id scan.seen }

def orderAlarmReducer (state : OrderAlarmState) : OrderAlarmAction → OrderAlarmState
  | .enabled enabled => { state with enabled := enabled, pending := [], testing := false }
  | .acknowledge => { state with pending := [], testing := false }
  | .test => if state.enabled then { state with testing := true } else state
  | .reset => createOrderAlarmState state.enabled
  | .snapshot orders =>
    let scan := orders.foldl (scanOrder (state.enabled && state.initialized)) ⟨state.seen,(state.pending.map (·.id)).toFinset,[]⟩
    let waitingForAcceptance := (Table.ofRows AlarmOrder.id (orders.filter isWaitingForAcceptance)).rows
    { state with initialized := true, seen := scan.seen, pending := scan.pending, waitingForAcceptance := waitingForAcceptance }

theorem testOnly (state : OrderAlarmState) :
    orderAlarmReducer state .test = { state with testing := state.enabled || state.testing } := by
  obtain ⟨enabled,_,_,_,_,_⟩ := state
  cases enabled <;> rfl

/-- The state after `actions`, from the initial one. -/
def after (enabled : Bool) (actions : List OrderAlarmAction) : OrderAlarmState :=
  actions.foldl orderAlarmReducer (createOrderAlarmState enabled)

theorem afterNext (enabled : Bool) (actions : List OrderAlarmAction) (action : OrderAlarmAction) :
    after enabled (actions ++ [action]) = orderAlarmReducer (after enabled actions) action := by
  rw [after,List.foldl_append]
  rfl

section Snapshot
variable {ringing : Bool} {orders : List AlarmOrder}

theorem scanSeen (scan : Scan) (id : String) :
    id ∈ (orders.foldl (scanOrder ringing) scan).seen ↔ id ∈ scan.seen ∨ id ∈ orders.map (·.id) := by
  induction orders generalizing scan with
  | nil => simp
  | cons order rest ih =>
    have one : (scanOrder ringing scan order).seen = insert order.id scan.seen := by
      unfold scanOrder
      split <;> rfl
    rw [List.foldl_cons,ih,one,Finset.mem_insert,List.map_cons,List.mem_cons]
    tauto

/-- An order that the loop has not come to yet is judged as the snapshot found it. -/
theorem scanPending (once : (orders.map (·.id)).Nodup) (scan : Scan) :
    (orders.foldl (scanOrder ringing) scan).pending = scan.pending ++ orders.filter fun order =>
      ringing && isIncomingCustomerOrder order && (order.id ∈ scan.pendingIds || order.id ∉ scan.seen) := by
  induction orders generalizing scan with
  | nil => simp
  | cons order rest ih =>
    obtain ⟨fresh,later⟩ := List.nodup_cons.mp once
    have other : ∀ x ∈ rest, x.id ≠ order.id := fun x mem same => fresh (List.mem_map.mpr ⟨x,mem,same⟩)
    rw [List.foldl_cons,ih later,List.filter_cons]
    unfold scanOrder
    split
    · rw [List.append_assoc,List.singleton_append]
      congr 2
      exact List.filter_congr fun x mem => by simp [other x mem]
    · congr 1
      exact List.filter_congr fun x mem => by simp [other x mem]

end Snapshot

/-- The actions after the last reset. -/
def session (actions : List OrderAlarmAction) : List OrderAlarmAction := (actions.reverse.takeWhile (· ≠ .reset)).reverse

theorem sessionNext (actions : List OrderAlarmAction) (action : OrderAlarmAction) :
    session (actions ++ [action]) = if action = .reset then [] else session actions ++ [action] := by
  rw [session,List.reverse_append,List.reverse_singleton,List.singleton_append,List.takeWhile_cons]
  by_cases reset : action = .reset <;> simp [reset,session]

def snapshotOf : OrderAlarmAction → Option (List AlarmOrder)
  | .snapshot orders => some orders
  | _ => none

def snapshots (actions : List OrderAlarmAction) : List (List AlarmOrder) := actions.filterMap snapshotOf

theorem snapshotsNext (actions : List OrderAlarmAction) (action : OrderAlarmAction) :
    snapshots (actions ++ [action]) = snapshots actions ++ (snapshotOf action).toList := by
  rw [snapshots,List.filterMap_append,snapshots]
  cases is : snapshotOf action <;> simp [is]

def switchOf : OrderAlarmAction → Option Bool
  | .enabled enabled => some enabled
  | _ => none

/-- As the last switch left the alarm. -/
def enabledAfter (enabled : Bool) (actions : List OrderAlarmAction) : Bool := (actions.filterMap switchOf).getLast?.getD enabled

theorem enabledNext (enabled : Bool) (actions : List OrderAlarmAction) (action : OrderAlarmAction) :
    enabledAfter enabled (actions ++ [action]) = (switchOf action).getD (enabledAfter enabled actions) := by
  rw [enabledAfter,List.filterMap_append,enabledAfter]
  cases is : switchOf action <;> simp [is]

/-- The snapshot has the order, as an incoming customer order. -/
def Incoming (id : String) (orders : List AlarmOrder) : Prop := ∃ order ∈ orders, order.id = id ∧ isIncomingCustomerOrder order = true

def Contains (id : String) (orders : List AlarmOrder) : Prop := id ∈ orders.map (·.id)

/-- The snapshot after `before` is not the baseline, brings the order for the first time and finds the alarm switched on. -/
structure Rings (enabled : Bool) (before : List OrderAlarmAction) (id : String) (orders : List AlarmOrder) : Prop where
  later : snapshots (session before) ≠ []
  first : ∀ earlier ∈ snapshots (session before), ¬Contains id earlier
  switched : enabledAfter enabled before = true
  incoming : Incoming id orders

/-- No acknowledgement, switch or reset, and in a snapshot the order is still there. -/
def Keeps (id : String) : OrderAlarmAction → Prop
  | .snapshot orders => Incoming id orders
  | .test => True
  | _ => False

def Unheard (enabled : Bool) (actions : List OrderAlarmAction) (id : String) : Prop :=
  ∃ before orders since, actions = before ++ .snapshot orders::since ∧ Rings enabled before id orders ∧ ∀ action ∈ since, Keeps id action

theorem unheardNext (enabled : Bool) (actions : List OrderAlarmAction) (action : OrderAlarmAction) (id : String) :
    Unheard enabled (actions ++ [action]) id ↔
      (Unheard enabled actions id ∧ Keeps id action) ∨ ∃ orders, action = .snapshot orders ∧ Rings enabled actions id orders := by
  constructor
  · rintro ⟨before,orders,since,is,rings,keeps⟩
    rcases List.eq_nil_or_concat since with rfl | ⟨since,last,rfl⟩
    · obtain ⟨rfl,same⟩ := List.append_inj' is rfl
      exact .inr ⟨orders,List.singleton_inj.mp same,rings⟩
    · rw [List.concat_eq_append,← List.cons_append,← List.append_assoc] at is
      obtain ⟨rfl,same⟩ := List.append_inj' is rfl
      cases List.singleton_inj.mp same
      exact .inl ⟨⟨before,orders,since,rfl,rings,fun a mem => keeps a (by simp [mem])⟩,keeps _ (by simp)⟩
  · rintro (⟨⟨before,orders,since,rfl,rings,keeps⟩,last⟩ | ⟨orders,rfl,rings⟩)
    · refine ⟨before,orders,since ++ [action],by simp,rings,fun a mem => ?_⟩
      rcases List.mem_append.mp mem with mem | mem
      · exact keeps a mem
      · exact List.mem_singleton.mp mem ▸ last
    · exact ⟨actions,orders,[],rfl,rings,by simp⟩

section Histories
variable (enabled : Bool) (actions : List OrderAlarmAction)

theorem enabledOf : (after enabled actions).enabled = enabledAfter enabled actions := by
  induction actions using List.reverseRecOn with
  | nil => rfl
  | append_singleton actions action ih =>
    rw [afterNext,enabledNext,← ih]
    cases action with
    | test => rw [testOnly]; rfl
    | _ => rfl

theorem initializedOf : (after enabled actions).initialized = true ↔ snapshots (session actions) ≠ [] := by
  induction actions using List.reverseRecOn with
  | nil => simp [after,createOrderAlarmState,session,snapshots]
  | append_singleton actions action ih =>
    rw [afterNext,sessionNext]
    cases action with
    | snapshot orders => simp [orderAlarmReducer,snapshotsNext,snapshotOf]
    | test => simpa [testOnly,snapshotsNext,snapshotOf] using ih
    | reset => simp [orderAlarmReducer,createOrderAlarmState,snapshots]
    | _ => simpa [orderAlarmReducer,snapshotsNext,snapshotOf] using ih

theorem seenOf (id : String) : id ∈ (after enabled actions).seen ↔ ∃ earlier ∈ snapshots (session actions), Contains id earlier := by
  induction actions using List.reverseRecOn with
  | nil => simp [after,createOrderAlarmState,session,snapshots]
  | append_singleton actions action ih =>
    rw [afterNext,sessionNext]
    cases action with
    | snapshot orders =>
      rw [orderAlarmReducer,scanSeen,ih]
      simp [snapshotsNext,snapshotOf,or_and_right,exists_or,Contains]
    | test => simpa [testOnly,snapshotsNext,snapshotOf] using ih
    | reset => simp [orderAlarmReducer,createOrderAlarmState,snapshots]
    | _ => simpa [orderAlarmReducer,snapshotsNext,snapshotOf] using ih

theorem ringsIff (id : String) (orders : List AlarmOrder) : Rings enabled actions id orders ↔
    (after enabled actions).enabled = true ∧ (after enabled actions).initialized = true ∧ id ∉ (after enabled actions).seen ∧
      Incoming id orders := by
  rw [enabledOf,initializedOf,seenOf]
  constructor
  · rintro ⟨later,first,on,incoming⟩
    exact ⟨on,later,fun ⟨earlier,mem,contains⟩ => first earlier mem contains,incoming⟩
  · rintro ⟨on,later,first,incoming⟩
    exact ⟨later,fun earlier mem contains => first ⟨earlier,mem,contains⟩,on,incoming⟩

/-- Orders have unique ids in each snapshot. -/
def Unique (actions : List OrderAlarmAction) : Prop := ∀ orders, .snapshot orders ∈ actions → (orders.map (·.id)).Nodup

variable {actions}

theorem Unique.before {action : OrderAlarmAction} (unique : Unique (actions ++ [action])) : Unique actions :=
  fun orders mem => unique orders (List.mem_append_left _ mem)

theorem Unique.last {orders : List AlarmOrder} (unique : Unique (actions ++ [.snapshot orders])) : (orders.map (·.id)).Nodup :=
  unique orders (List.mem_append_right _ (List.mem_singleton_self _))

theorem snapshotPending {orders : List AlarmOrder} (once : (orders.map (·.id)).Nodup) :
    (after enabled (actions ++ [.snapshot orders])).pending = orders.filter fun order =>
      (after enabled actions).enabled && (after enabled actions).initialized && isIncomingCustomerOrder order &&
        (order.id ∈ ((after enabled actions).pending.map (·.id)).toFinset || order.id ∉ (after enabled actions).seen) := by
  rw [afterNext,orderAlarmReducer]
  exact (scanPending once _).trans (List.nil_append _)

theorem pendingEnabled (unique : Unique actions) (some_ : (after enabled actions).pending ≠ []) :
    (after enabled actions).enabled = true ∧ (after enabled actions).initialized = true := by
  induction actions using List.reverseRecOn with
  | nil => exact absurd rfl some_
  | append_singleton actions action ih =>
    cases action with
    | snapshot orders =>
      rw [snapshotPending enabled unique.last] at some_
      obtain ⟨order,mem⟩ := List.exists_mem_of_ne_nil _ some_
      have judged := (List.mem_filter.mp mem).2
      simp only [Bool.and_eq_true] at judged
      rw [afterNext]
      exact ⟨judged.1.1.1,rfl⟩
    | test =>
      rw [afterNext,testOnly] at some_ ⊢
      exact ih unique.before some_
    | _ =>
      rw [afterNext] at some_
      exact absurd rfl some_

theorem pendingOf (unique : Unique actions) (id : String) :
    id ∈ (after enabled actions).pending.map (·.id) ↔ Unheard enabled actions id := by
  induction actions using List.reverseRecOn with
  | nil => simp [after,createOrderAlarmState,Unheard]
  | append_singleton actions action ih =>
    have ih := ih unique.before
    rw [unheardNext,← ih]
    cases action with
    | snapshot orders =>
      have heard : id ∈ (after enabled actions).pending.map (·.id) →
          (after enabled actions).enabled = true ∧ (after enabled actions).initialized = true := fun mem =>
        pendingEnabled enabled unique.before fun none_ => by simp [none_] at mem
      have rings : (∃ same, OrderAlarmAction.snapshot orders = .snapshot same ∧ Rings enabled actions id same) ↔
          Rings enabled actions id orders := by simp
      rw [rings,ringsIff,snapshotPending enabled unique.last,List.mem_map]
      simp only [List.mem_filter,Bool.and_eq_true,Bool.or_eq_true,decide_eq_true_eq,List.mem_toFinset,Keeps,Incoming]
      constructor
      · rintro ⟨order,⟨mem,⟨⟨on,later⟩,incoming⟩,pending | fresh⟩,rfl⟩
        · exact .inl ⟨pending,order,mem,rfl,incoming⟩
        · exact .inr ⟨on,later,fresh,order,mem,rfl,incoming⟩
      · rintro (⟨pending,order,mem,rfl,incoming⟩ | ⟨on,later,fresh,order,mem,rfl,incoming⟩)
        · exact ⟨order,⟨mem,⟨heard pending,incoming⟩,.inl pending⟩,rfl⟩
        · exact ⟨order,⟨mem,⟨⟨on,later⟩,incoming⟩,.inr fresh⟩,rfl⟩
    | test => simp [afterNext,testOnly,Keeps]
    | _ => simp [afterNext,orderAlarmReducer,createOrderAlarmState,Keeps]

theorem pendingOnce (unique : Unique actions) : ((after enabled actions).pending.map (·.id)).Nodup := by
  induction actions using List.reverseRecOn with
  | nil => exact List.nodup_nil
  | append_singleton actions action ih =>
    cases action with
    | snapshot orders =>
      rw [snapshotPending enabled unique.last]
      exact unique.last.sublist (List.filter_sublist.map _)
    | test =>
      rw [afterNext,testOnly]
      exact ih unique.before
    | _ =>
      rw [afterNext]
      exact List.nodup_nil

theorem waitingOnce : ((after enabled actions).waitingForAcceptance.map (·.id)).Nodup := by
  induction actions using List.reverseRecOn with
  | nil => exact List.nodup_nil
  | append_singleton actions action ih =>
    rw [afterNext]
    cases action with
    | snapshot orders => exact (Table.ofRows AlarmOrder.id (orders.filter isWaitingForAcceptance)).unique
    | test => rw [testOnly]; exact ih
    | reset => exact List.nodup_nil
    | _ => exact ih

theorem waitingOf (unique : Unique actions) : (after enabled actions).waitingForAcceptance =
    ((snapshots (session actions)).getLast?.getD []).filter isWaitingForAcceptance := by
  induction actions using List.reverseRecOn with
  | nil => rfl
  | append_singleton actions action ih =>
    rw [afterNext,sessionNext]
    cases action with
    | snapshot orders =>
      have once : ((orders.filter isWaitingForAcceptance).map AlarmOrder.id).Nodup := unique.last.sublist (List.filter_sublist.map _)
      simp [orderAlarmReducer,snapshotsNext,snapshotOf,Table.rows_ofRows once]
    | test => simpa [testOnly,snapshotsNext,snapshotOf] using ih unique.before
    | reset => rfl
    | _ => simpa [orderAlarmReducer,snapshotsNext,snapshotOf] using ih unique.before

end Histories

/-- What the alarm rings for, and whose acceptance it waits for, after any actions. -/
theorem alarmExact (enabled : Bool) (actions : List OrderAlarmAction) (unique : Unique actions) :
    (∀ id, id ∈ (after enabled actions).pending.map (·.id) ↔ Unheard enabled actions id) ∧
      ((after enabled actions).pending.map (·.id)).Nodup ∧
      (after enabled actions).waitingForAcceptance = ((snapshots (session actions)).getLast?.getD []).filter isWaitingForAcceptance ∧
      ((after enabled actions).waitingForAcceptance.map (·.id)).Nodup :=
  ⟨pendingOf enabled unique,pendingOnce enabled unique,waitingOf enabled unique,waitingOnce enabled⟩

def webOrder : AlarmOrder where
  id := "1"
  orderStatus := "PLACED"
  orderSource := some "WEBFLOW"

/-- A second snapshot brings the order. -/
theorem alarmExactWeb : Unheard true [.snapshot [],.snapshot [webOrder]] "1" :=
  (alarmExact true [.snapshot [],.snapshot [webOrder]] (by simp [Unique])).1 "1" |>.mp (by decide)

/-- A reset forgets the snapshot before it. -/
theorem resetForgets : ¬∀ (enabled : Bool) (actions : List OrderAlarmAction), Unique actions →
    (after enabled actions).waitingForAcceptance = ((snapshots actions).getLast?.getD []).filter isWaitingForAcceptance := by
  intro all
  exact absurd (all true [.snapshot [webOrder],.reset] (by simp [Unique])) (by decide)

end IncomingAlarm
end SpeedySweeties
