import SpeedySweeties.Retention.Messages

/-! The workers on the retention tables. A transaction on a phone takes the row lock of its
setting, reads the setting and writes at its commit; every other database call is one step. -/
namespace SpeedySweeties
namespace Retention

inductive CampaignStage where
  | listing
  | next (messages : List RetentionMessage)
  | locking (t : Target) (rest : List RetentionMessage)
  | deciding (t : Target) (state : RecipientState) (rest : List RetentionMessage)
  | checking (t : Target) (rest : List RetentionMessage)
  | suppressing (t : Target) (rest : List RetentionMessage)
  | sending (t : Target) (rest : List RetentionMessage)
  | awaiting (t : Target) (rest : List RetentionMessage)
  | stopping (t : Target) (outcome : Outcome) (held : Option RecipientState) (rest : List RetentionMessage)
  | recording (t : Target) (outcome : Outcome) (rest : List RetentionMessage)
  deriving DecidableEq, Repr

inductive Worker where
  | campaign (config : SmsConfig) (now : Nat) (stage : CampaignStage)
  | stop (phone : String) (now : Nat) (held : Option RecipientState)
  | reading (id : String) (params : CallbackParams) (now : Nat)
  | writing (record : RetentionMessage) (params : CallbackParams) (now : Nat)
  deriving DecidableEq, Repr

/-- `reported` is a callback that was answered with success, `concluded` the sender's last
update of a message that the provider accepted. -/
inductive Event where
  | claimed (id phone : String) (now : Nat)
  | checked (id phone : String)
  | sent (id phone : String) (now : Nat)
  | optedOut (phone : String)
  | reported (id : String) (params : CallbackParams)
  | concluded (id status : String)
  deriving DecidableEq, Repr

/-- The log lists what happened, the newest first. -/
structure System where
  customers : List RetentionCustomer
  privacyPending : List CustomerId
  settings : String → Option RecipientState
  locks : String → Option Nat
  messages : RetentionMessages
  workers : Nat → Option Worker
  log : List Event

inductive Action where
  | environment (customers : List RetentionCustomer) (privacyPending : List CustomerId)
  | draft (m : RetentionMessage)
  | sendRetentionMessages (w : Nat) (config : SmsConfig) (now : Nat)
  | inbound (w : Nat) (from_ : String) (now : Nat)
  | callback (w : Nat) (id : String) (params : CallbackParams) (now : Nat)
  | crash (w : Nat)
  | list (w : Nat)
  | take (w : Nat)
  | lock (w : Nat)
  | commit (w : Nat)
  | stopFails (w : Nat)
  | check (w : Nat)
  | suppress (w : Nat)
  | send (w : Nat)
  | answer (w : Nat) (response : Option TwilioResponse)
  | record (w : Nat)
  | read (w : Nat)
  | write (w : Nat)
  deriving DecidableEq, Repr

namespace System
variable (D : Deployment)

def initial : System := ⟨[],[],fun _ => none,fun _ => none,.empty,fun _ => none,[]⟩

def goto (s : System) (w : Nat) (worker : Option Worker) : System := { s with workers := Function.update s.workers w worker }

def going (config : SmsConfig) (now : Nat) (stage : CampaignStage) : Option Worker := some (.campaign config now stage)

def note (s : System) (e : Event) : System := { s with log := e::s.log }

def putMessage (s : System) (m : RetentionMessage) : System := { s with messages := s.messages.put m }

def holdLock (s : System) (key : String) (w : Nat) : System := { s with locks := Function.update s.locks key (some w) }

/-- The locks of a transaction end with it. -/
def unlock (s : System) (w : Nat) : System := { s with locks := fun key => if s.locks key = some w then none else s.locks key }

def putSetting (s : System) (key : String) (state : RecipientState) : System :=
  { s with settings := Function.update s.settings key (some state) }

/-- `lockedRecipient`: the state under the lock, where the lock is free. -/
def lockedRecipient (s : System) (key : String) : Option RecipientState :=
  match s.locks key with
  | some _ => none
  | none => some ((s.settings key).getD {})

def draftRow (s : System) (id : String) : Option RetentionMessage := (s.messages.find id).filter unattempted

/-- The commit of a claim, and whether it has claimed. -/
def commitClaim (s : System) (config : SmsConfig) (t : Target) (state : RecipientState) (now : Nat) : System × Bool :=
  let key := recipientKey D t.phone
  match skipReason s.customers s.privacyPending t state now, s.draftRow t.message.id with
  | some reason, some m => ((s.putSetting key state).putMessage (skipped m reason),false)
  | _, none => (s.putSetting key state,false)
  | none, some m =>
    (((s.putSetting key { state with lastAttemptAt := some now }).putMessage (claimed m config.body now)).note
      (.claimed t.message.id t.phone now),true)

/-- The commit of `suppressRetentionPhone`. -/
def commitStop (s : System) (phone : String) (state : RecipientState) (now : Nat) : System :=
  { s.putSetting (recipientKey D phone) { state with optedOut := true } with
    customers := s.customers.map fun c =>
      if c.normalizedPhone ∈ profilePhones phone then { c with smsMarketingOptOut := true, smsMarketingOptOutAt := some now } else c
    log := .optedOut phone::s.log }

def setting (s : System) (phone : String) : Option RecipientState := s.settings (recipientKey D phone)

def step (s : System) : Action → Option System
  | .environment customers privacyPending => some { s with customers, privacyPending }
  | .draft m =>
    match s.messages.find m.id with
    | some _ => none
    | none => some (s.putMessage ⟨m.id,m.customerId,m.inactivityAnchorAt,m.eligibleAt,m.phone,m.messageBody,.dryRun,none,none,none,none,none,none⟩)
  | .sendRetentionMessages w config now =>
    match s.workers w with
    | some _ => none
    | none => some (if config.mode = .dryRun ∨ !inRetentionWindow D now then s else s.goto w (going config now .listing))
  | .inbound w from_ now =>
    match s.workers w, normalizeRetentionPhone from_ with
    | none, some phone => some (s.goto w (some (.stop phone now none)))
    | _, _ => none
  | .callback w id params now =>
    match s.workers w with
    | some _ => none
    | none =>
      if (deliveryRank params.messageStatus).isNone ∨ !validSid params.messageSid then some (s.note (.reported id params))
      else some (s.goto w (some (.reading id params now)))
  | .crash w => some ((s.unlock w).goto w none)
  | .list w =>
    match s.workers w with
    | some (.campaign config now .listing) => some (s.goto w (going config now (.next (findMessages s.messages config now))))
    | _ => none
  | .take w =>
    match s.workers w with
    | some (.campaign _ _ (.next [])) => some (s.goto w none)
    | some (.campaign config now (.next (m::rest))) =>
      match normalizeRetentionPhone m.phone with
      | none => some (s.goto w (going config now (.next rest)))
      | some phone => some (s.goto w (going config now (.locking ⟨m,phone⟩ rest)))
    | _ => none
  | .lock w =>
    match s.workers w with
    | some (.campaign config now (.locking t rest)) =>
      (s.lockedRecipient (recipientKey D t.phone)).map fun state =>
        (s.holdLock (recipientKey D t.phone) w).goto w (going config now (.deciding t state rest))
    | some (.campaign config now (.stopping t outcome none rest)) =>
      (s.lockedRecipient (recipientKey D t.phone)).map fun state =>
        (s.holdLock (recipientKey D t.phone) w).goto w (going config now (.stopping t outcome (some state) rest))
    | some (.stop phone now none) =>
      (s.lockedRecipient (recipientKey D phone)).map fun state =>
        (s.holdLock (recipientKey D phone) w).goto w (some (.stop phone now (some state)))
    | _ => none
  | .commit w =>
    match s.workers w with
    | some (.campaign config now (.deciding t state rest)) =>
      let (next,won) := s.commitClaim D config t state now
      some ((next.unlock w).goto w (going config now (if won then .checking t rest else .next rest)))
    | some (.campaign config now (.stopping t outcome (some state) rest)) =>
      some (((s.commitStop D t.phone state now).unlock w).goto w (going config now (.recording t outcome rest)))
    | some (.stop phone now (some state)) => some (((s.commitStop D phone state now).unlock w).goto w none)
    | _ => none
  | .stopFails w =>
    match s.workers w with
    | some (.campaign config now (.stopping t outcome _ rest)) =>
      some ((s.unlock w).goto w (going config now (.recording t outcome rest)))
    | _ => none
  | .check w =>
    match s.workers w with
    | some (.campaign config now (.checking t rest)) =>
      match s.setting D t.phone with
      | none => some (s.goto w none)
      | some state =>
        if state.optedOut then some (s.goto w (going config now (.suppressing t rest)))
        else some ((s.note (.checked t.message.id t.phone)).goto w (going config now (.sending t rest)))
    | _ => none
  | .suppress w =>
    match s.workers w with
    | some (.campaign config now (.suppressing t rest)) =>
      match s.messages.find t.message.id with
      | none => some (s.goto w none)
      | some m => some ((s.putMessage (suppressedBeforeSend m)).goto w (going config now (.next rest)))
    | _ => none
  | .send w =>
    match s.workers w with
    | some (.campaign config now (.sending t rest)) =>
      some ((s.note (.sent t.message.id t.phone now)).goto w (going config now (.awaiting t rest)))
    | _ => none
  | .answer w response =>
    match s.workers w with
    | some (.campaign config now (.awaiting t rest)) =>
      some (s.goto w (going config now
        (if unsubscribed response then .stopping t (outcomeOf response) none rest else .recording t (outcomeOf response) rest)))
    | _ => none
  | .record w =>
    match s.workers w with
    | some (.campaign config now (.recording t outcome rest)) =>
      let noted := if outcome.sid.isSome then s.note (.concluded t.message.id outcome.status) else s
      match s.messages.find t.message.id with
      | some m =>
        if m.providerStatus = some "sending" ∧ m.providerMessageId = none then
          some ((noted.putMessage (concluded m outcome now)).goto w (going config now (.next rest)))
        else some (noted.goto w (going config now (.next rest)))
      | none => some (noted.goto w (going config now (.next rest)))
    | _ => none
  | .read w =>
    match s.workers w with
    | some (.reading id params now) =>
      match s.messages.find id with
      | some record =>
        if takesCallback record params then some (s.goto w (some (.writing record params now)))
        else some ((s.note (.reported id params)).goto w none)
      | none => some ((s.note (.reported id params)).goto w none)
    | _ => none
  | .write w =>
    match s.workers w with
    | some (.writing record params now) =>
      let noted := s.note (.reported record.id params)
      match s.messages.find record.id with
      | some row =>
        if row.providerStatus = record.providerStatus ∧ row.providerMessageId = record.providerMessageId then
          some ((noted.putMessage (delivered row record params now)).goto w none)
        else some (noted.goto w none)
      | none => some (noted.goto w none)
    | _ => none

end System
end Retention
end SpeedySweeties
