import SpeedySweeties.Bnd.EmailRequests
import SpeedySweeties.Dispatch.AlertLeases

/-! The requests about undispatched orders. Their key is the order's, but their text counts the
minutes that the order has waited at the clock reading of the run: two attempts are one request
exactly if they fall into the same minute, while the requests about B&D orders never change. -/
namespace SpeedySweeties
open Idempotency (Identical Recognised received)
namespace Alerts

def undispatchedLines (orderNumber waitingMinutes : Nat) : List String :=
  ["Order #" ++ toString orderNumber ++ " has been waiting at least " ++ toString waitingMinutes ++ " minutes and has not been dispatched.",
    "","Open Dispatcher: " ++ dispatcherUrl]

def undispatchedBody (m : MailSettings) (orderNumber waitingMinutes : Nat) : String :=
  mailBody m.sender m.alertTo ("Order #" ++ toString orderNumber ++ " is waiting for dispatch") (undispatchedLines orderNumber waitingMinutes)

def undispatchedKey (id : OrderId) : String := "undispatched-order/" ++ id

def undispatchedRequest (m : MailSettings) (order : AlertOrder) (waitingMinutes : Nat) : MailRequest where
  key := undispatchedKey order.id
  body := undispatchedBody m order.orderNumber waitingMinutes

/-- The arguments of one call of `sendAlert`. -/
structure Attempt where
  order : AlertOrder
  waitingMinutes : Nat
  deriving DecidableEq, Repr

/-- The minutes in the attempts so far to mail an order. -/
def attemptedMinutes (log : List Event) (id : OrderId) : List Nat :=
  log.filterMap fun
    | .alerted lease _ waitingMinutes => if lease.id = id then some waitingMinutes else none
    | _ => none

namespace AlertSystem

def sends (s : AlertSystem) : Action → List Attempt
  | .send r =>
    match s.runs r with
    | some ⟨o,.alerting _ order _⟩ => [⟨order,waitingMs order o.now / minuteMs⟩]
    | _ => []
  | _ => []

def requests (m : MailSettings) (clock : Nat) (actions : List Action) : List MailRequest :=
  (Transition.outputs step sends (initial clock) actions).map fun a => undispatchedRequest m a.order a.waitingMinutes

/-- An order that is attempted again has waited as many whole minutes as before. -/
def Steady (s : AlertSystem) (a : Action) : Prop :=
  ∀ next ∈ s.sends a, ∀ minutes ∈ attemptedMinutes s.log next.order.id, minutes = next.waitingMinutes

instance (s : AlertSystem) (a : Action) : Decidable (s.Steady a) :=
  inferInstanceAs (Decidable (∀ next ∈ s.sends a, ∀ minutes ∈ attemptedMinutes s.log next.order.id, minutes = next.waitingMinutes))

/-- The number of an order is the one in its row. -/
def Numbered (orders : AlertOrders) (order : AlertOrder) : Prop := (orders.find order.id).map (·.orderNumber) = some order.orderNumber

variable {s t : AlertSystem} {sent : List Attempt}

theorem Numbered.put {orders : AlertOrders} {id : OrderId} {old row : AlertOrder} (found : orders.find id = some old) (key : row.id = old.id)
    (number : row.orderNumber = old.orderNumber) {order : AlertOrder} (numbered : Numbered orders order) : Numbered (orders.put row) order := by
  obtain ⟨here,others⟩ := findPut found key
  unfold Numbered at numbered ⊢
  by_cases mine : order.id = id
  · rw [mine,found,Option.map_some] at numbered
    rw [mine,here,Option.map_some,number,numbered]
  · rw [others _ mine,numbered]

theorem Numbered.insert {orders : AlertOrders} {row : AlertOrder} (absent : orders.find row.id = none) {order : AlertOrder}
    (numbered : Numbered orders order) : Numbered (orders.put row) order := by
  unfold Numbered at numbered ⊢
  have differ : order.id ≠ row.id := fun same => by
    rw [same,absent] at numbered
    cases numbered
  rw [Table.find_put_other differ,numbered]

theorem numberedFound {orders : AlertOrders} {id : OrderId} {order : AlertOrder} (found : orders.find id = some order) :
    order.id = id ∧ Numbered orders order := by
  have key : order.id = id := Table.find_key found
  exact ⟨key,by rw [Numbered,key,found,Option.map_some]⟩

/-- A step that mails nothing. -/
structure Unsent (s t : AlertSystem) : Prop where
  numbers : ∀ order, Numbered s.orders order → Numbered t.orders order
  log : ∀ id, attemptedMinutes t.log id = attemptedMinutes s.log id
  runs : ∀ r o lease order rest, t.runs r = some ⟨o,.alerting lease order rest⟩ →
    s.runs r = some ⟨o,.alerting lease order rest⟩ ∨ (order.id = lease.id ∧ Numbered t.orders order)

theorem Unsent.refl (s : AlertSystem) : Unsent s s := ⟨fun _ is => is,fun _ => rfl,fun _ _ _ _ _ is => .inl is⟩

theorem Unsent.goto (h : Unsent s t) (r : Nat) {run : Option AlertRun} (found : ∀ o lease order rest,
    run = some ⟨o,.alerting lease order rest⟩ → order.id = lease.id ∧ Numbered t.orders order) : Unsent s (t.goto r run) := by
  refine ⟨h.numbers,h.log,fun q o lease order rest at_ => ?_⟩
  by_cases mine : q = r
  · subst mine
    exact .inr (found o lease order rest (by simpa [AlertSystem.goto] using at_))
  · exact h.runs q o lease order rest (by simpa [AlertSystem.goto,Function.update_of_ne mine] using at_)

def Idle : Option AlertRun → Prop
  | some ⟨_,.alerting ..⟩ => False
  | _ => True

theorem Unsent.leave (h : Unsent s t) (r : Nat) {run : Option AlertRun} (idle : Idle run) : Unsent s (t.goto r run) :=
  h.goto r fun o lease order rest is => by
    subst is
    exact idle.elim

theorem Unsent.closed (s : AlertSystem) (lease : Lease) (sentAt : Option Nat) (arrives : Bool) : Unsent s (s.closed lease sentAt arrives) := by
  unfold AlertSystem.closed
  split
  · exact .refl s
  · rename_i orders ok
    have ok : closeRow s.orders lease.id lease.claimTime sentAt = some orders := by
      cases arrives with
      | false => simp at ok
      | true => simpa using ok
    obtain ⟨order,found,-,-,rfl⟩ := closeSource ok
    refine ⟨fun _ is => is.put found (by rfl) (by rfl),fun id => ?_,fun _ _ _ _ _ at_ => .inl at_⟩
    split <;> rfl

theorem stepCases {a : Action} (taken : s.step a = some t) : (s.sends a = [] ∧ Unsent s t) ∨
    ∃ r o lease order rest, a = .send r ∧ s.runs r = some ⟨o,.alerting lease order rest⟩ ∧
      t = { s with log := .alerted lease o (waitingMs order o.now / minuteMs)::s.log }.goto r (going o (.sending lease rest)) := by
  cases a with
  | tick elapsed =>
    cases taken
    exact .inl ⟨rfl,fun _ is => is,fun _ => rfl,fun _ _ _ _ _ at_ => .inl at_⟩
  | createOrder order =>
    dsimp only [AlertSystem.step] at taken
    split at taken <;> cases taken
    rename_i absent
    exact .inl ⟨rfl,fun _ is => is.insert (by exact absent),fun _ => rfl,fun _ _ _ _ _ at_ => .inl at_⟩
  | changeOrder id status dispatchedAt pauses =>
    obtain ⟨order,found,rfl⟩ := Option.map_eq_some_iff.mp taken
    exact .inl ⟨rfl,fun _ is => is.put found (by rfl) (by rfl),fun _ => rfl,fun _ _ _ _ _ at_ => .inl at_⟩
  | begin_ r alertAfterMinutes maxAgeHours =>
    dsimp only [AlertSystem.step] at taken
    split at taken <;> cases taken
    exact .inl ⟨rfl,(Unsent.refl s).leave r trivial⟩
  | crash r =>
    cases taken
    exact .inl ⟨rfl,(Unsent.refl s).leave r trivial⟩
  | list r =>
    dsimp only [AlertSystem.step] at taken
    split at taken <;> cases taken
    exact .inl ⟨rfl,(Unsent.refl s).leave r trivial⟩
  | stamp r =>
    dsimp only [AlertSystem.step] at taken
    split at taken <;> cases taken <;> exact .inl ⟨rfl,(Unsent.refl s).leave r trivial⟩
  | claim r transport =>
    dsimp only [AlertSystem.step] at taken
    split at taken
    case h_2 => cases taken
    rename_i o id claimTime rest running
    split at taken <;> cases taken
    · exact .inl ⟨rfl,(Unsent.refl s).leave r (by split <;> trivial)⟩
    · rename_i orders claim
      have claim : claimRow s.orders o id claimTime = some orders := by
        split at claim
        · exact claim
        · cases claim
      obtain ⟨order,found,-,-,rfl⟩ := claimSource claim
      have unsent : Unsent s (s.claimed ⟨id,s.claims,claimTime⟩ (s.orders.put { order with undispatchedAlertClaimedAt := some claimTime })) :=
        ⟨fun _ is => is.put found (by rfl) (by rfl),fun _ => rfl,fun _ _ _ _ _ at_ => .inl at_⟩
      exact .inl ⟨rfl,unsent.leave r (by split <;> trivial)⟩
  | read r replies =>
    dsimp only [AlertSystem.step] at taken
    split at taken
    case h_2 => cases taken
    rename_i o lease rest running
    split at taken
    · cases taken
      exact .inl ⟨rfl,(Unsent.refl s).leave r trivial⟩
    split at taken <;> cases taken
    · exact .inl ⟨rfl,(Unsent.refl s).leave r trivial⟩
    · rename_i order found
      have unsent : Unsent s { s with log := .read lease order::s.log } := ⟨fun _ is => is,fun _ => rfl,fun _ _ _ _ _ at_ => .inl at_⟩
      refine .inl ⟨rfl,unsent.goto r fun _ _ _ _ is => ?_⟩
      split at is <;> cases is
      exact numberedFound found
  | send r =>
    dsimp only [AlertSystem.step] at taken
    split at taken <;> cases taken
    rename_i o lease order rest running
    exact .inr ⟨r,o,lease,order,rest,rfl,running,rfl⟩
  | answered r accepted =>
    dsimp only [AlertSystem.step] at taken
    split at taken <;> cases taken
    exact .inl ⟨rfl,(Unsent.refl s).leave r (by split <;> trivial)⟩
  | close r transport =>
    dsimp only [AlertSystem.step] at taken
    split at taken <;> cases taken
    · exact .inl ⟨rfl,(Unsent.closed s _ _ _).leave r (by split <;> trivial)⟩
    · exact .inl ⟨rfl,(Unsent.closed s _ _ _).leave r (by split <;> trivial)⟩
    · exact .inl ⟨rfl,(Unsent.closed s _ _ _).leave r trivial⟩

/-! ### All attempts of a run -/

structure Recorded (s : AlertSystem) (sent : List Attempt) : Prop where
  numbered : ∀ a ∈ sent, Numbered s.orders a.order
  runs : ∀ r o lease order rest, s.runs r = some ⟨o,.alerting lease order rest⟩ → order.id = lease.id ∧ Numbered s.orders order
  minutes : ∀ id minutes, minutes ∈ attemptedMinutes s.log id ↔ ∃ a ∈ sent, a.order.id = id ∧ a.waitingMinutes = minutes

theorem Recorded.unsent (h : Recorded s sent) (u : Unsent s t) : Recorded t sent where
  numbered a mem := u.numbers _ (h.numbered a mem)
  runs r o lease order rest at_ := by
    rcases u.runs r o lease order rest at_ with old | new
    · exact (h.runs r o lease order rest old).imp_right (u.numbers order)
    · exact new
  minutes id minutes := by rw [u.log,h.minutes]

theorem sendsAlerting {r : Nat} {o : AlertOptions} {lease : Lease} {order : AlertOrder} {rest : List OrderId}
    (running : s.runs r = some ⟨o,.alerting lease order rest⟩) : s.sends (.send r) = [⟨order,waitingMs order o.now / minuteMs⟩] := by
  simp only [sends,running]

theorem Recorded.send (h : Recorded s sent) {r : Nat} {o : AlertOptions} {lease : Lease} {order : AlertOrder} {rest : List OrderId}
    (running : s.runs r = some ⟨o,.alerting lease order rest⟩) :
    Recorded ({ s with log := .alerted lease o (waitingMs order o.now / minuteMs)::s.log }.goto r (going o (.sending lease rest)))
      (sent ++ [⟨order,waitingMs order o.now / minuteMs⟩]) := by
  obtain ⟨key,numbered⟩ := h.runs r o lease order rest running
  refine ⟨fun a mem => ?_,fun q p other found later at_ => ?_,fun id minutes => ?_⟩
  · rcases List.mem_append.mp mem with old | new
    · exact h.numbered a old
    · obtain rfl := List.mem_singleton.mp new
      exact numbered
  · by_cases mine : q = r
    · subst mine
      simp [AlertSystem.goto,going] at at_
    · exact h.runs q p other found later (by simpa [AlertSystem.goto,Function.update_of_ne mine] using at_)
  · have before := h.minutes id minutes
    have now : minutes ∈ attemptedMinutes (.alerted lease o (waitingMs order o.now / minuteMs)::s.log) id ↔
        (lease.id = id ∧ waitingMs order o.now / minuteMs = minutes) ∨ minutes ∈ attemptedMinutes s.log id := by
      by_cases mine : lease.id = id
      · simp [attemptedMinutes,mine,eq_comm]
      · simp [attemptedMinutes,mine]
    refine now.trans ?_
    rw [before]
    simp only [List.mem_append,List.mem_singleton,or_and_right,exists_or,exists_eq_left,key]
    exact or_comm

theorem Recorded.step (h : Recorded s sent) {a : Action} (taken : s.step a = some t) : Recorded t (sent ++ s.sends a) := by
  rcases stepCases taken with ⟨silent,unsent⟩ | ⟨r,o,lease,order,rest,rfl,running,rfl⟩
  · rw [silent,List.append_nil]
    exact h.unsent unsent
  · rw [sendsAlerting running]
    exact h.send running

/-- All attempts to mail an order count the same minutes. -/
def Constant (sent : List Attempt) : Prop := ∀ a ∈ sent, ∀ b ∈ sent, a.order.id = b.order.id → a.waitingMinutes = b.waitingMinutes

theorem Constant.append {last : Attempt} : Constant (sent ++ [last]) ↔
    Constant sent ∧ ∀ a ∈ sent, a.order.id = last.order.id → a.waitingMinutes = last.waitingMinutes := by
  constructor
  · intro same
    exact ⟨fun a left b right => same a (List.mem_append_left _ left) b (List.mem_append_left _ right),
      fun a mem => same a (List.mem_append_left _ mem) last (List.mem_append_right _ List.mem_cons_self)⟩
  · rintro ⟨same,also⟩ a left b right key
    rcases List.mem_append.mp left with early | late <;> rcases List.mem_append.mp right with before | after_
    · exact same a early b before key
    · obtain rfl := List.mem_singleton.mp after_
      exact also a early key
    · obtain rfl := List.mem_singleton.mp late
      exact (also b before key.symm).symm
    · rw [List.mem_singleton.mp late,List.mem_singleton.mp after_]

theorem constantStep (h : Recorded s sent) {a : Action} (taken : s.step a = some t) :
    Constant (sent ++ s.sends a) ↔ Constant sent ∧ s.Steady a := by
  rcases stepCases taken with ⟨silent,-⟩ | ⟨r,o,lease,order,rest,rfl,running,-⟩
  · have steady : s.Steady a := fun next mem => absurd (silent ▸ mem) List.not_mem_nil
    rw [silent,List.append_nil,and_iff_left steady]
  · have sends := sendsAlerting running
    have steady : s.Steady (.send r) ↔ ∀ minutes ∈ attemptedMinutes s.log order.id, minutes = waitingMs order o.now / minuteMs := by
      simp only [Steady,sends,List.forall_mem_singleton]
    rw [sends,Constant.append,steady]
    refine and_congr_right' ⟨fun same minutes mem => ?_,fun same a mem id => ?_⟩
    · obtain ⟨a,before,id,rfl⟩ := (h.minutes order.id minutes).mp mem
      exact same a before id
    · exact same _ ((h.minutes order.id _).mpr ⟨a,mem,id,rfl⟩)

theorem initialRecorded (clock : Nat) : Recorded (initial clock) [] :=
  ⟨fun _ mem => absurd mem List.not_mem_nil,nofun,fun _ _ => by simp [AlertSystem.initial,attemptedMinutes]⟩

/-! ### The requests -/

theorem firstLine {separator before after_ second third : String} {minutes more : Nat}
    (same : separator.intercalate [before ++ toString minutes ++ after_,second,third] =
      separator.intercalate [before ++ toString more ++ after_,second,third]) : minutes = more := by
  simp only [String.intercalate_cons_cons,String.intercalate_singleton,String.append_assoc,String.append_right_inj] at same
  exact JsText.natText ((String.append_left_inj _).mp same)

theorem minutesText {m : MailSettings} {number minutes more : Nat} (same : undispatchedBody m number minutes = undispatchedBody m number more) :
    minutes = more :=
  firstLine (mailBodyText same)

theorem requestsConstant (m : MailSettings) {clock : Nat} {actions : List Action} (ran : Transition.run step (initial clock) actions = some s) :
    Identical (requests m clock actions) ↔ Transition.AllowedRun step Steady (initial clock) actions := by
  have recorded : Recorded s (Transition.outputs step sends (initial clock) actions) :=
    Transition.outputsInvariant (J := Recorded) (h := []) (fun _ _ _ _ h taken => h.step taken) (initialRecorded clock) ran
  have constant : Constant (Transition.outputs step sends (initial clock) actions) ↔
      Constant [] ∧ Transition.AllowedRun step Steady (initial clock) actions :=
    Transition.outputsAllowed (J := Recorded) (h := []) (fun _ _ _ _ h taken => h.step taken) (fun _ _ _ _ h taken => constantStep h taken)
      (initialRecorded clock) ran
  have none_ : Constant [] := fun _ mem => absurd mem List.not_mem_nil
  rw [and_iff_right none_] at constant
  rw [← constant]
  have number : ∀ a ∈ Transition.outputs step sends (initial clock) actions, ∀ b ∈ Transition.outputs step sends (initial clock) actions,
      a.order.id = b.order.id → a.order.orderNumber = b.order.orderNumber := fun a left b right key => by
    have here := recorded.numbered a left
    have there := recorded.numbered b right
    rw [Numbered,key,there] at here
    exact (Option.some.inj here).symm
  constructor
  · intro same a left b right key
    have bodies : undispatchedBody m a.order.orderNumber a.waitingMinutes = undispatchedBody m b.order.orderNumber b.waitingMinutes :=
      same _ (List.mem_map.mpr ⟨a,left,rfl⟩) _ (List.mem_map.mpr ⟨b,right,rfl⟩) (congrArg ("undispatched-order/" ++ ·) key)
    rw [number a left b right key] at bodies
    exact minutesText bodies
  · intro same p here q there key
    obtain ⟨a,left,rfl⟩ := List.mem_map.mp here
    obtain ⟨b,right,rfl⟩ := List.mem_map.mp there
    have id : a.order.id = b.order.id := (String.append_right_inj _).mp key
    exact congrArg₂ (undispatchedBody m) (number a left b right id) (same a left b right id)

/-! ### Both channels -/

theorem prefixesApart {a b x y : String} {c d : Char} (first : a.toList.head? = some c) (second : b.toList.head? = some d) (differ : c ≠ d) :
    a ++ x ≠ b ++ y := by
  intro same
  have heads : (a.toList ++ x.toList).head? = (b.toList ++ y.toList).head? := by rw [← String.toList_append,same,String.toList_append]
  rw [List.head?_append,List.head?_append,first,second] at heads
  exact differ (Option.some.inj heads)

theorem keysApart {id : OrderId} {other : String} : undispatchedKey id ≠ BndEmail.EmailSystem.keyOf other :=
  prefixesApart (c := 'u') (d := 'b') (by decide +kernel) (by decide +kernel) (by decide)

/-- A send whose answer is an acceptance, while its claim holds, is marked. -/
def Marks (s : AlertSystem) : Prop :=
  ∀ r o lease rest order, s.runs r = some ⟨o,.sending lease rest⟩ → s.orders.find lease.id = some order →
    order.undispatchedAlertClaimedAt = some lease.claimTime → order.undispatchedAlertSentAt = none →
    ∃ t u, s.step (.answered r true) = some t ∧ t.step (.close r arrived) = some u ∧
      (u.orders.find lease.id).bind (·.undispatchedAlertSentAt) = some s.clock

theorem marks (s : AlertSystem) : Marks s := by
  intro r o lease rest order running found held unsent
  have closes : closeRow s.orders lease.id lease.claimTime (some s.clock) = some (s.orders.put { order with
      undispatchedAlertClaimedAt := none, undispatchedAlertSentAt := some s.clock }) := by
    simp [closeRow,found,held,unsent]
  obtain ⟨here,-⟩ := findPut found
    (show ({ order with undispatchedAlertClaimedAt := none, undispatchedAlertSentAt := some s.clock } : AlertOrder).id = order.id from rfl)
  let t := s.goto r (going o (.marking lease s.clock rest))
  have answered : s.step (.answered r true) = some t := by simp [AlertSystem.step,running,t]
  have marking : t.runs r = some ⟨o,.marking lease s.clock rest⟩ := Function.update_self ..
  have closed : t.step (.close r arrived) = some ((t.closed lease (some s.clock) true).goto r (going o (.next rest))) := by
    simp only [AlertSystem.step,marking]
    rfl
  refine ⟨t,_,answered,closed,?_⟩
  have orders : t.orders = s.orders := rfl
  simp [AlertSystem.goto,AlertSystem.closed,orders,closes,here]

end AlertSystem
end Alerts

namespace BndEmail.EmailSystem

def Marks (s : EmailSystem) : Prop :=
  ∀ p claim rest n a, s.checks p = some (.sending claim rest n) → s.alerts.find claim.order.id = some a →
    a.claimedAt = some claim.claimedAt → a.sentAt = none →
    ∃ t u, s.step (.answered p true) = some t ∧ t.step (.mark p true) = some u ∧ (u.alerts.find claim.order.id).bind (·.sentAt) = some s.now

theorem marks (s : EmailSystem) : Marks s := by
  intro p claim rest n a running found held unsent
  have closes : markSent s.alerts claim s.now = some (s.alerts.put { a with sentAt := some s.now, claimedAt := none }) := by
    simp [markSent,found,held,unsent]
  let t := s.goto p (some (.marking claim s.now rest n))
  have answered : s.step (.answered p true) = some t := by simp [EmailSystem.step,running,t]
  have marking : t.checks p = some (.marking claim s.now rest n) := Function.update_self ..
  have alerts : t.alerts = s.alerts := rfl
  have marked : t.step (.mark p true) = some ({ t with
      alerts := s.alerts.put { a with sentAt := some s.now, claimedAt := none }
      log := .marked claim.order.id::t.log }.goto p (attempted rest n)) := by
    simp [EmailSystem.step,marking,alerts,closes]
  refine ⟨t,_,answered,marked,?_⟩
  have key : claim.order.id = a.orderId := (Table.find_key found).symm
  rw [key]
  exact (congrArg (·.bind (·.sentAt)) (Table.find_put_self s.alerts { a with sentAt := some s.now, claimedAt := none }))

end BndEmail.EmailSystem
open Alerts (AlertSystem)
open BndEmail (EmailSystem)

/-- Requests under one key are one request, so each is recognised whatever has arrived before, and
an accepted one can be marked. -/
structure TrueRetries (requests : List MailRequest) (s : AlertSystem) (t : EmailSystem) : Prop where
  identical : Identical requests
  recognised : ∀ arrivals, arrivals ⊆ requests → ∀ r ∈ requests, Recognised (received arrivals) r
  alertsMarked : s.Marks
  bndMarked : t.Marks

theorem channelsIdentical (m : MailSettings) {clock now : Nat} {actions : List Alerts.Action} {steps : List BndEmail.Action}
    {s : AlertSystem} {t : EmailSystem} (ran : Transition.run AlertSystem.step (AlertSystem.initial clock) actions = some s)
    (bndRan : Transition.run EmailSystem.step (EmailSystem.initial now) steps = some t) :
    Identical (AlertSystem.requests m clock actions ++ EmailSystem.requests m now steps) ↔
      Transition.AllowedRun AlertSystem.step AlertSystem.Steady (AlertSystem.initial clock) actions := by
  have apart : ∀ p ∈ AlertSystem.requests m clock actions, ∀ q ∈ EmailSystem.requests m now steps, p.key ≠ q.key := by
    intro p left q right
    obtain ⟨a,-,rfl⟩ := List.mem_map.mp left
    obtain ⟨claim,-,rfl⟩ := List.mem_map.mp right
    exact AlertSystem.keysApart
  rw [Identical.append apart,and_iff_left (EmailSystem.requestsIdentical m bndRan),AlertSystem.requestsConstant m ran]

/-- In any run of the two processors. -/
theorem trueRetries (m : MailSettings) {clock now : Nat} {actions : List Alerts.Action} {steps : List BndEmail.Action} {s : AlertSystem}
    {t : EmailSystem} (ran : Transition.run AlertSystem.step (AlertSystem.initial clock) actions = some s)
    (bndRan : Transition.run EmailSystem.step (EmailSystem.initial now) steps = some t) :
    TrueRetries (AlertSystem.requests m clock actions ++ EmailSystem.requests m now steps) s t ↔
      Transition.AllowedRun AlertSystem.step AlertSystem.Steady (AlertSystem.initial clock) actions := by
  have same := channelsIdentical m ran bndRan
  exact ⟨fun retries => same.mp retries.identical,fun steady =>
    ⟨same.mpr steady,(Idempotency.identicalRecognised _).mp (same.mpr steady),s.marks,t.marks⟩⟩

namespace Alerts.AlertSystem

def attemptRun (r : Nat) : List Action := claimRun r ++ [Action.read r true,.send r]

/-- The provider refuses the first attempt; the next one starts half a minute later. -/
def refusedRun : List Action :=
  [Action.createOrder sampleOrder,.tick 300000] ++ attemptRun 0 ++ [Action.answered 0 false,.close 0 arrived,.tick 30000] ++ attemptRun 1

/-- The first run crashes after its send, so the next one waits for its lease to expire. -/
def crashedRun : List Action := [Action.createOrder sampleOrder,.tick 300000] ++ attemptRun 0 ++ [Action.crash 0,.tick leaseMs] ++ attemptRun 1

def minutesSent (actions : List Action) : List (OrderId × Nat) :=
  (Transition.outputs step sends (initial 0) actions).map fun a => (a.order.id,a.waitingMinutes)

theorem refusedRetried : minutesSent refusedRun = [("o",5),("o",5)] ∧ ∃ s t, Transition.run step (initial 0) refusedRun = some s ∧
    Transition.run EmailSystem.step (.initial 7) EmailSystem.sampleRun = some t ∧
    TrueRetries (requests ⟨"from@x","alerts@x","bnd@x"⟩ 0 refusedRun ++
      EmailSystem.requests ⟨"from@x","alerts@x","bnd@x"⟩ 7 EmailSystem.sampleRun) s t := by
  have runs : (Transition.run step (initial 0) refusedRun).isSome = true := by decide +kernel
  have bndRuns : (Transition.run EmailSystem.step (.initial 7) EmailSystem.sampleRun).isSome = true := by decide +kernel
  obtain ⟨s,ran⟩ := Option.isSome_iff_exists.mp runs
  obtain ⟨t,bndRan⟩ := Option.isSome_iff_exists.mp bndRuns
  have steady : Transition.AllowedRun step Steady (initial 0) refusedRun := by decide +kernel
  exact ⟨by decide +kernel,s,t,ran,bndRan,(trueRetries _ ran bndRan).mpr steady⟩

theorem crashedRetryDiffers : minutesSent crashedRun = [("o",5),("o",15)] ∧
    ¬ ∀ (m : MailSettings) (clock now : Nat) (actions : List Action) (steps : List BndEmail.Action) (s : AlertSystem) (t : EmailSystem),
      Transition.run step (initial clock) actions = some s → Transition.run EmailSystem.step (.initial now) steps = some t →
        TrueRetries (requests m clock actions ++ EmailSystem.requests m now steps) s t := by
  refine ⟨by decide +kernel,fun retries => ?_⟩
  have runs : (Transition.run step (initial 0) crashedRun).isSome = true := by decide +kernel
  obtain ⟨s,ran⟩ := Option.isSome_iff_exists.mp runs
  have idle : Transition.run EmailSystem.step (.initial 0) [] = some (.initial 0) := rfl
  have steady := (channelsIdentical _ ran idle).mp (retries ⟨"from@x","alerts@x","bnd@x"⟩ 0 0 crashedRun [] s _ ran idle).identical
  have unsteady : ¬ Transition.AllowedRun step Steady (initial 0) crashedRun := by decide +kernel
  exact unsteady steady

end Alerts.AlertSystem
end SpeedySweeties
