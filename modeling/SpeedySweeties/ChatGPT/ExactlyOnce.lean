import SpeedySweeties.ChatGPT.Reservations
import SpeedySweeties.Order.Lifecycle

/-! One order for each key of the ChatGPT gateway: what every reachable state says about its
commits, its records and its answers, and what a replay meets there. -/
namespace SpeedySweeties
namespace GatewaySystem

structure ExactlyOnce (T : GatewayService) (s : GatewaySystem) : Prop where
  once : (s.commits.map (·.key)).Nodup
  completes : ∀ c ∈ s.commits, ∃ saved, s.records c.key = some saved ∧ saved.state = .complete ∧
    saved.orderId = some c.orderId ∧ saved.owner = c.owner ∧ saved.hash = submissionHash T c.data
  completed : ∀ key saved, s.records key = some saved → saved.state = .complete →
    ∃ c ∈ s.commits, c.key = key ∧ saved.orderId = some c.orderId
  mapped : ∀ c ∈ s.commits, ∃ o, s.orders.find c.orderId = some o ∧
    (o.privacyErasedAt = none → o.utmContent = some c.key.text)
  shown : ∀ a ∈ s.answers, ∀ status result order, a.reply = .result status result → result.order = some order →
    ∃ c ∈ s.commits, c.key = a.key ∧ c.orderId = order.orderId ∧ c.owner = a.owner
  /-- The replay of a committed submission reads the completed record. -/
  replayed : ∀ c ∈ s.commits, ∀ x data, s.requests x = none → data.requestKey = c.key →
    submissionHash T data = submissionHash T c.data → ∃ saved, saved.state = .complete ∧
      step T s (.submit x c.owner data) = some (s.await x ⟨c.owner,c.key,.answering saved 200⟩)
  /-- A request that has read a completed record is answered with the order of its key. -/
  original : ∀ x r saved status, s.requests x = some r → r.stage = .answering saved status →
    saved.state = .complete → ∃ c ∈ s.commits, c.key = r.key ∧ c.owner = r.owner ∧
      ∃ o, s.orders.find c.orderId = some o ∧ (o.privacyErasedAt = none →
        step T s (.advance x .answer) =
          some (s.reply x r.owner r.key (.result status ⟨r.key,.complete,some (orderSummary o)⟩)))
  /-- Other details under a key of the same owner, at the first read and after a failed insert. -/
  changed : ∀ saved data, s.records data.requestKey = some saved → submissionHash T data ≠ saved.hash →
    (∀ x, s.requests x = none → step T s (.submit x saved.owner data) = some (s.reply x saved.owner data.requestKey
      (.refused (detailsChanged "This reference belongs to different confirmed details.")))) ∧
    (∀ x, s.requests x = some ⟨saved.owner,data.requestKey,.conflicted data⟩ →
      step T s (.advance x .readConcurrent) = some (s.reply x saved.owner data.requestKey
        (.refused (detailsChanged "Order details changed."))))

variable {T : GatewayService} {s : GatewaySystem} {x : RequestId} {saved : RecordValue} {data : Submission}

theorem readOwn {key : RequestKey} (record : s.records key = some saved) : s.read key saved.owner = some saved := by
  simp [read,record]

theorem submitReads (free : s.requests x = none) (record : s.records data.requestKey = some saved) :
    step T s (.submit x saved.owner data) = some (s.meet T x saved.owner data
      "This reference belongs to different confirmed details." saved) := by
  simp [step,free,submit,readOwn record]

theorem conflictReads (held : s.requests x = some ⟨saved.owner,data.requestKey,.conflicted data⟩)
    (record : s.records data.requestKey = some saved) :
    step T s (.advance x .readConcurrent) = some (s.meet T x saved.owner data "Order details changed." saved) := by
  simp [step,held,advance,readOwn record]

theorem meetChanged {message : String} (differ : submissionHash T data ≠ saved.hash) :
    s.meet T x saved.owner data message saved =
      s.reply x saved.owner data.requestKey (.refused (detailsChanged message)) := if_pos differ.symm

theorem resultMapped {orders : Table Order Order.id} {key : RequestKey} {id : OrderId} {o : Order}
    (complete : saved.state = .complete) (named : saved.orderId = some id) (found : orders.find id = some o)
    (mapped : OrderMapped key o) : gatewayResult orders key saved = some ⟨key,.complete,some (orderSummary o)⟩ := by
  simp [gatewayResult,named,complete,found,mapped]

theorem soundExactlyOnce (sound : Sound T s) : ExactlyOnce T s where
  once := sound.once
  completes c committed := (sound.records c committed).2
  completed key saved record complete := by
    obtain ⟨c,committed,here⟩ := sound.completed key saved record complete
    obtain ⟨_,other,stored,_,named,_⟩ := sound.records c committed
    cases Option.some.inj (record.symm.trans (here ▸ stored))
    exact ⟨c,committed,here,named⟩
  mapped c committed := by
    obtain ⟨o,found,mapped⟩ := sound.orders c committed
    exact ⟨o,found,fun live => (mapped live).2.2⟩
  shown := sound.answers
  replayed c committed x data free key hash := by
    obtain ⟨_,saved,record,complete,_,owner,stored⟩ := sound.records c committed
    rw [← key] at record
    refine ⟨saved,complete,?_⟩
    rw [← owner,submitReads free record,meet,if_neg (not_not.mpr (stored.trans hash.symm)),key]
  original x r saved status held stage complete := by
    have reported : s.Reported r.owner r.key saved := by
      have here := sound.requests x r held
      rw [stage] at here
      exact here
    obtain ⟨c,committed,key,named,owner⟩ := reported complete
    obtain ⟨o,found,mapped⟩ := sound.orders c committed
    refine ⟨c,committed,key,owner,o,found,fun live => ?_⟩
    simp [step,held,advance,stage,resultMapped complete named found (key ▸ mapped live)]
  changed saved data record differ :=
    ⟨fun x free => (submitReads free record).trans (congrArg some (meetChanged differ)),
      fun x held => (conflictReads held record).trans (congrArg some (meetChanged differ))⟩

theorem orderedExactlyOnce (reached : Reachable T s) : ExactlyOnce T s := soundExactlyOnce (reachableSound reached)

/-! ### Runs -/

def sampleKey : RequestKey := ⟨"5f0c2f1e-7a44-4b0e-9a51-0c5f6c2d7e11",by decide +kernel⟩

def sampleGateway : GatewayService where
  localeCompare := compare
  digest data := data.customer.name ++ " " ++ " ".intercalate (data.items.map (·.productId))

def fudgeOrder : Submission where
  requestKey := sampleKey
  items := [⟨"toffee",1⟩,⟨"fudge",2⟩]
  customer := ⟨"Jo","4165550100","jo@example.com","1 King St","","","Guelph","ON","",.cash⟩
  confirmation := ⟨"token","policy",0⟩

def openForOrders : GatewayConditions := ⟨true,true,true,true,true⟩

/-- Two copies of one submission race; the one that reserves the key commits and then throws. -/
def racedRun : List GatewayAction :=
  [.submit 0 "jo" fudgeOrder,.submit 1 "jo" fudgeOrder,.advance 1 (.check openForOrders 5),
   .advance 0 (.check openForOrders 9),.advance 1 .reserve,.advance 0 .reserve,.advance 0 .readConcurrent,
   .advance 0 .answer,.advance 1 (.createOrder "order" sampleOrder 10),.advance 1 .commit,
   .advance 1 .controllerThrows,.advance 1 .crash]

def replayedRun : List GatewayAction :=
  racedRun ++ [GatewayAction.submit 2 "jo" { fudgeOrder with items := [⟨"fudge",2⟩,⟨"toffee",1⟩] },.advance 2 .answer,
    .submit 3 "jo" { fudgeOrder with items := [] },.status 4 "al" sampleKey]

theorem racedOnce : ∃ s, Transition.run (step sampleGateway) initial replayedRun = some s ∧
    ExactlyOnce sampleGateway s ∧ s.commits.map (·.orderId) = ["order"] ∧
    s.answers.map (·.reply) =
      [.refused gatewayNotFound,
       .refused (detailsChanged "This reference belongs to different confirmed details."),
       .result 200 ⟨sampleKey,.complete,some ⟨"order",7,.placed,false,10⟩⟩,.result 200 ⟨sampleKey,.pending,none⟩] := by
  have ends : (Transition.run (step sampleGateway) initial replayedRun).map
      (fun s => (s.commits.map (·.orderId),s.answers.map (·.reply))) = some (["order"],
        [.refused gatewayNotFound,
         .refused (detailsChanged "This reference belongs to different confirmed details."),
         .result 200 ⟨sampleKey,.complete,some ⟨"order",7,.placed,false,10⟩⟩,.result 200 ⟨sampleKey,.pending,none⟩]) := by
    decide +kernel
  obtain ⟨s,ran,last⟩ := Option.map_eq_some_iff.mp ends
  obtain ⟨commits,answers⟩ := Prod.mk.inj last
  exact ⟨s,ran,orderedExactlyOnce (Transition.runReachable .start ran),commits,answers⟩

def erasedRun : List GatewayAction :=
  racedRun ++ [.operate "order" { orderStatus := some .delivered },.erase "order" 20 30]

/-- After the privacy erasure the order no longer maps back to its key. -/
theorem erasedReplayRefused : ¬ ∀ (T : GatewayService) (s t u : GatewaySystem), Reachable T s → ∀ c ∈ s.commits,
    ∀ x, step T s (.submit x c.owner c.data) = some t → step T t (.advance x .answer) = some u →
      ∃ status order, u.answers.head? = some ⟨c.owner,c.key,.result status ⟨c.key,.complete,some order⟩⟩ ∧
        order.orderId = c.orderId := by
  intro always
  have ends : (Transition.run (step sampleGateway) initial erasedRun).bind (fun s =>
      (step sampleGateway s (.submit 2 "jo" fudgeOrder)).bind fun t => (step sampleGateway t (.advance 2 .answer)).map
        fun u => (s.commits,u.answers.head?)) =
      some ([⟨sampleKey,"order","jo",fudgeOrder⟩],some ⟨"jo",sampleKey,.refused gatewayUnavailable⟩) := by
    decide +kernel
  obtain ⟨s,ran,rest⟩ := Option.bind_eq_some_iff.mp ends
  obtain ⟨t,submitted,rest⟩ := Option.bind_eq_some_iff.mp rest
  obtain ⟨u,answered,last⟩ := Option.map_eq_some_iff.mp rest
  obtain ⟨commits,refused⟩ := Prod.mk.inj last
  have original := always sampleGateway s t u (Transition.runReachable .start ran) ⟨sampleKey,"order","jo",fudgeOrder⟩
    (by rw [commits]; exact List.mem_singleton_self _) 2 submitted answered
  obtain ⟨status,order,shown,_⟩ := original
  rw [refused] at shown
  exact GatewayReply.noConfusion (GatewayAnswer.mk.inj (Option.some.inj shown)).2.2

end GatewaySystem
end SpeedySweeties
