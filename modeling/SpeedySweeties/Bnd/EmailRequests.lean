import SpeedySweeties.Bnd.EmailOnce
import SpeedySweeties.Library.Idempotency
import SpeedySweeties.Library.JsonText

/-! The requests about waiting B&D orders. A claim carries the order as its receipt names it, and
a receipt keeps its number, so every attempt to mail an order sends the same request. -/
namespace SpeedySweeties
open Idempotency (Request Identical)

abbrev MailRequest := Request String String

/-- Of the environment; `alertTo` and `bndRecipient` are the addressees of the two channels. -/
structure MailSettings where
  sender : String
  alertTo : String
  bndRecipient : String
  deriving DecidableEq, Repr

def dispatcherUrl : String := "https://speedy-dispatcher.onrender.com"

/-- `JSON.stringify({ from, to: [to], subject, text: lines.join("\n") })` -/
def mailBody (sender addressee subject : String) (lines : List String) : String :=
  Json.stringify Json.textWriter (.object [("from",.text sender),("to",.array [.text addressee]),("subject",.text subject),
    ("text",.text ("\n".intercalate lines))])

theorem mailBodyText {sender addressee subject other : String} {lines more : List String}
    (same : mailBody sender addressee subject lines = mailBody sender addressee other more) : "\n".intercalate lines = "\n".intercalate more := by
  have values := Json.stringifyInjective Json.readableTexts (by simp [Json.Distinct,Json.DistinctFields,Json.DistinctItems])
    (by simp [Json.Distinct,Json.DistinctFields,Json.DistinctItems]) same
  have texts : subject = other ∧ "\n".intercalate lines = "\n".intercalate more := by
    simpa [Json.stored,Json.storedFields,Json.storedItems] using Json.object.inj values
  exact texts.2

namespace BndEmail

def bndRequest (m : MailSettings) (order : BndPendingOrder) : MailRequest where
  key := idempotencyKey order
  body := mailBody m.sender m.bndRecipient ("New B&D order to collect — #" ++ order.number)
    ["B&D order #" ++ order.number ++ " is waiting to be collected.","Please check B&D using your usual process.","",
      "Open Dispatcher: " ++ dispatcherUrl,"","Manage these emails with the admin-only B&D Emails switch in Dispatcher."]

namespace EmailSystem

/-- The claims whose send a step starts. -/
def sends (s : EmailSystem) : Action → List EmailClaim
  | .recheck p enabled status =>
    match s.checks p with
    | some (.rechecking claim _ _) => if s.stopped p ∨ !enabled ∨ !waits status s.now claim.order then [] else [claim]
    | _ => []
  | _ => []

def requests (m : MailSettings) (now : Nat) (actions : List Action) : List MailRequest :=
  (Transition.outputs step sends (initial now) actions).map fun claim => bndRequest m claim.order

/-- The receipt of an order names it so. -/
def Named (alerts : BndEmailAlerts) (order : BndPendingOrder) : Prop := (alerts.find order.id).map BndEmailAlert.order = some order

theorem Named.unique {alerts : BndEmailAlerts} {order other : BndPendingOrder} (left : Named alerts order) (right : Named alerts other)
    (same : order.id = other.id) : order = other := by
  unfold Named at left right
  rw [same,right] at left
  exact (Option.some.inj left).symm

theorem Named.put {alerts : BndEmailAlerts} {id : String} {a row : BndEmailAlert} (found : alerts.find id = some a)
    (same : BndEmailAlert.order row = BndEmailAlert.order a) {order : BndPendingOrder} (named : Named alerts order) :
    Named (alerts.put row) order := by
  obtain ⟨sameId,sameNumber⟩ : row.orderId = a.orderId ∧ row.orderNumber = a.orderNumber := BndPendingOrder.mk.inj same
  obtain rfl : row.orderId = id := sameId.trans (Table.find_key found)
  unfold Named at named ⊢
  by_cases mine : order.id = row.orderId
  · rw [mine,found,Option.map_some] at named
    rw [mine,Table.find_put_self,Option.map_some,same,named]
  · rw [Table.find_put_other mine,named]

theorem Named.insert {alerts : BndEmailAlerts} {row : BndEmailAlert} (absent : alerts.find row.orderId = none) {order : BndPendingOrder}
    (named : Named alerts order) : Named (alerts.put row) order := by
  unfold Named at named ⊢
  have differ : order.id ≠ row.orderId := fun same => by
    rw [same,absent] at named
    cases named
  rw [Table.find_put_other differ,named]

theorem Named.upsert {alerts : BndEmailAlerts} (first : BndPendingOrder) (now : Nat) {order : BndPendingOrder} (named : Named alerts order) :
    Named (upsertReceipt alerts first now).1 order := by
  unfold upsertReceipt
  split
  · exact named
  · rename_i absent
    exact named.insert absent

/-- The orders that a check has from receipts. -/
def named : Stage → List BndPendingOrder
  | .claiming receipt _ _ _ => [receipt]
  | .rechecking claim _ _ | .sending claim _ _ | .marking claim _ _ _ => [claim.order]
  | .enabling | .next _ _ | .upserting _ _ _ _ => []

structure Recorded (s : EmailSystem) (sent : List EmailClaim) : Prop where
  checks : ∀ p stage, s.checks p = some stage → ∀ order ∈ named stage, Named s.alerts order
  sent : ∀ claim ∈ sent, Named s.alerts claim.order

variable {s t : EmailSystem} {sent : List EmailClaim}

theorem Recorded.alerts (h : Recorded s sent) (kept : ∀ order, Named s.alerts order → Named t.alerts order) (checks : t.checks = s.checks) :
    Recorded t sent :=
  ⟨fun p stage at_ order mem => kept order (h.checks p stage (checks ▸ at_) order mem),fun claim mem => kept _ (h.sent claim mem)⟩

theorem Recorded.goto (h : Recorded s sent) (p : Nat) {next : Option Stage}
    (known : ∀ stage, next = some stage → ∀ order ∈ named stage, Named s.alerts order) : Recorded (s.goto p next) sent := by
  refine ⟨fun q stage at_ => ?_,h.sent⟩
  by_cases mine : q = p
  · subst mine
    exact known stage (by simpa [EmailSystem.goto] using at_)
  · exact h.checks q stage (by simpa [EmailSystem.goto,Function.update_of_ne mine] using at_)

theorem attemptedNamed {rest : List BndPendingOrder} {n : Nat} : ∀ stage, attempted rest n = some stage → ∀ order ∈ named stage,
    Named s.alerts order := by
  intro stage is
  unfold attempted at is
  split at is <;> cases is
  exact fun _ mem => absurd mem List.not_mem_nil

theorem Recorded.step (h : Recorded s sent) {a : Action} (taken : s.step a = some t) : Recorded t (sent ++ sends s a) := by
  have silent : ∀ a, sends s a = [] → Recorded t sent → Recorded t (sent ++ sends s a) := fun a none_ later => by
    rw [none_,List.append_nil]
    exact later
  have empty : ∀ stage : Stage, named stage = [] → ∀ order ∈ named stage, Named s.alerts order := fun stage none_ order mem => by
    rw [none_] at mem
    cases mem
  cases a with
  | tick elapsed =>
    cases taken
    exact silent _ rfl (h.alerts (fun _ is => is) rfl)
  | stop p =>
    cases taken
    exact silent _ rfl (h.alerts (fun _ is => is) rfl)
  | crash p =>
    cases taken
    exact silent _ rfl (h.goto p nofun)
  | check p status =>
    simp only [EmailSystem.step] at taken
    split at taken
    · cases taken
    split at taken <;> cases taken
    · exact silent _ rfl h
    · exact silent _ rfl (h.goto p fun _ is => by cases is; exact empty _ rfl)
  | readEnabled p enabled status =>
    simp only [EmailSystem.step] at taken
    split at taken <;> cases taken
    refine silent _ rfl (h.goto p fun stage is => ?_)
    split at is <;> cases is
    exact empty _ rfl
  | next p enabled status =>
    simp only [EmailSystem.step] at taken
    split at taken
    · cases taken
      exact silent _ rfl (h.goto p nofun)
    · split at taken
      · cases taken
        exact silent _ rfl (h.goto p nofun)
      split at taken <;> cases taken
      · exact silent _ rfl (h.goto p fun _ is => by cases is; exact empty _ rfl)
      · exact silent _ rfl (h.goto p fun _ is => by cases is; exact empty _ rfl)
    · cases taken
  | upsert p =>
    simp only [EmailSystem.step] at taken
    split at taken <;> cases taken
    rename_i order now rest n here
    have recorded : Recorded { s with alerts := (upsertReceipt s.alerts order now).1 } sent :=
      h.alerts (fun _ is => is.upsert order now) rfl
    refine silent _ rfl (recorded.goto p fun stage is => ?_)
    cases is
    intro receipt mem
    obtain rfl := List.mem_singleton.mp mem
    exact congrArg (Option.map BndEmailAlert.order) (upsertSource s.alerts order now).2.1
  | claim p acknowledged =>
    simp only [EmailSystem.step] at taken
    split at taken
    · rename_i receipt now rest n here
      split at taken <;> cases taken
      · exact silent _ rfl (h.goto p fun _ is => by cases is; exact empty _ rfl)
      · rename_i alerts ok
        obtain ⟨a,found,-,-,-,rfl⟩ := claimSource ok
        have kept : ∀ order, Named s.alerts order → Named (s.alerts.put { a with claimedAt := some now }) order :=
          fun _ is => is.put found (by rfl)
        have recorded : Recorded { s with
            alerts := s.alerts.put { a with claimedAt := some now }, log := .claimed ⟨receipt,now⟩::s.log } sent := h.alerts kept rfl
        refine silent _ rfl (recorded.goto p fun stage is order mem => ?_)
        split at is <;> cases is
        obtain rfl := List.mem_singleton.mp mem
        exact kept _ (h.checks p _ here order List.mem_cons_self)
    · cases taken
  | recheck p enabled status =>
    simp only [EmailSystem.step] at taken
    split at taken
    · rename_i claim rest n here
      have known : Named s.alerts claim.order := h.checks p _ here _ List.mem_cons_self
      split at taken
      · rename_i refused
        cases taken
        exact silent _ (by simp only [sends,here]; exact if_pos (or_assoc.mp (.inl refused))) (h.goto p nofun)
      rename_i allowed
      split at taken <;> cases taken
      · rename_i gone
        refine silent _ (by simp only [sends,here]; exact if_pos (or_assoc.mp (.inr gone))) (h.goto p fun _ is => ?_)
        cases is
        exact empty _ rfl
      · rename_i waiting
        have starts : sends s (.recheck p enabled status) = [claim] := by
          simp only [sends,here]
          exact if_neg fun is => (or_assoc.mpr is).elim allowed waiting
        rw [starts]
        have recorded : Recorded { s with inFlight := claim::s.inFlight } (sent ++ [claim]) := by
          refine ⟨h.checks,fun c mem => ?_⟩
          rcases List.mem_append.mp mem with old | new
          · exact h.sent c old
          · obtain rfl := List.mem_singleton.mp new
            exact known
        refine recorded.goto p fun _ is => ?_
        cases is
        intro order mem
        obtain rfl := List.mem_singleton.mp mem
        exact known
    · cases taken
  | answered p accepted =>
    simp only [EmailSystem.step] at taken
    split at taken <;> cases taken
    rename_i claim rest n here
    refine silent _ rfl (h.goto p fun stage is => ?_)
    split at is
    · cases is
      have known : ∀ order ∈ [claim.order], Named s.alerts order := h.checks p _ here
      exact known
    · exact attemptedNamed stage is
  | mark p arrives =>
    simp only [EmailSystem.step] at taken
    split at taken
    · rename_i claim sentAt rest n here
      split at taken <;> cases taken
      · exact silent _ rfl (h.goto p attemptedNamed)
      · rename_i ok
        split at ok
        · obtain ⟨a,found,rfl⟩ := markSource ok
          have recorded : Recorded { s with
              alerts := s.alerts.put { a with sentAt := some sentAt, claimedAt := none }, log := .marked claim.order.id::s.log } sent :=
            h.alerts (fun _ is => is.put found (by rfl)) rfl
          exact silent _ rfl (recorded.goto p attemptedNamed)
        · cases ok
    · cases taken
  | deliver claim =>
    simp only [EmailSystem.step] at taken
    split at taken <;> cases taken
    have recorded : Recorded ({ s with inFlight := s.inFlight.erase claim }.accept claim) sent := by
      rcases acceptCases { s with inFlight := s.inFlight.erase claim } claim with ⟨_,_,same⟩ | ⟨_,mails⟩
      · rw [same]
        exact h.alerts (fun _ is => is) rfl
      · rw [mails]
        exact h.alerts (fun _ is => is) rfl
    exact silent _ rfl recorded

theorem sentRecorded {now : Nat} {actions : List Action} (ran : Transition.run step (initial now) actions = some t) :
    Recorded t (Transition.outputs step sends (initial now) actions) :=
  Transition.outputsInvariant (J := Recorded) (h := []) (fun _ _ _ _ recorded taken => recorded.step taken)
    ⟨nofun,fun _ mem => absurd mem List.not_mem_nil⟩ ran

theorem requestsIdentical (m : MailSettings) {now : Nat} {actions : List Action} (ran : Transition.run step (initial now) actions = some t) :
    Identical (requests m now actions) := by
  have recorded := sentRecorded ran
  intro p left q right key
  obtain ⟨claim,sent,rfl⟩ := List.mem_map.mp left
  obtain ⟨other,also,rfl⟩ := List.mem_map.mp right
  have same : claim.order = other.order := (recorded.sent claim sent).unique (recorded.sent other also) (keyOfInjective key)
  rw [same]

end EmailSystem
end BndEmail
end SpeedySweeties
