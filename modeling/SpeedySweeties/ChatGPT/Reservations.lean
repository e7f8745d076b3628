import SpeedySweeties.ChatGPT.Gateway

/-! A key's record is inserted once, so one request alone goes on to create an order for it;
its transaction completes the record with the order. Everybody else reads. -/
namespace SpeedySweeties
open JsText Table

theorem hexDigitSpaceless {c : Char} (h : isHexDigit c = true) : isSpace c = false := by
  have listed : ("0123456789abcdefABCDEF".toList.all fun c => !isSpace c) = true := by decide +kernel
  have spaceless := List.all_eq_true.mp listed c (by simpa [isHexDigit] using h)
  simpa using spaceless

theorem RequestKey.spaceless (key : RequestKey) : ∀ c ∈ key.text.toList, isSpace c = false := by
  intro c mem
  have shape := key.uuid
  simp only [isUuid,Bool.and_eq_true,List.all_eq_true] at shape
  obtain ⟨i,bound,rfl⟩ := List.getElem_of_mem mem
  have here := shape.1.2 (key.text.toList[i],i) (List.mem_zipIdx_iff_getElem?.mpr (List.getElem?_eq_getElem bound))
  dsimp only at here
  split at here
  · rw [of_decide_eq_true here]
    decide
  · exact hexDigitSpaceless here

theorem keyAttribution (key : RequestKey) : normalizeAttributionValue (some key.text) = some key.text := by
  have nonempty : key.text ≠ "" := by
    intro empty
    have shape := key.uuid
    rw [empty] at shape
    revert shape
    decide
  simp [normalizeAttributionValue,trimSpaceless key.spaceless,nonempty]

theorem gatewayOrderMapped (id : OrderId) (data : Submission) (input : NewOrder) (now : Time) :
    OrderMapped data.requestKey (createdOrder id (gatewayOrder data input) now) ∧
      (createdOrder id (gatewayOrder data input) now).privacyErasedAt = none := by
  have source : normalizeAttributionValue (some "chatgpt") = some "chatgpt" := by decide +kernel
  have medium : normalizeAttributionValue (some "customer-plugin") = some "customer-plugin" := by decide +kernel
  have content := keyAttribution data.requestKey
  simp only [OrderMapped,createdOrder,gatewayOrder,source,medium,content,and_self]

/-- The stages in which a request has the key's record to itself. -/
def GatewayStage.creates : GatewayStage → Bool
  | .creating .. | .ordered .. | .committed _ | .returned .. | .rejecting _ => true
  | _ => false

namespace GatewaySystem
variable (T : GatewayService)

/-- The record is as its request inserted it, and there is no order. -/
structure Open (s : GatewaySystem) (key : RequestKey) (saved : RecordValue) : Prop where
  record : s.records key = some saved
  pending : saved.state = .pending
  uncommitted : ∀ c ∈ s.commits, c.key ≠ key

structure Reserves (owner : String) (key : RequestKey) (data : Submission) (saved : RecordValue) : Prop where
  mine : data.requestKey = key
  owner : saved.owner = owner
  hash : saved.hash = submissionHash T data
  pending : saved.state = .pending

def Reported (s : GatewaySystem) (owner : String) (key : RequestKey) (saved : RecordValue) : Prop :=
  saved.state = .complete →
    ∃ c ∈ s.commits, c.key = key ∧ saved.orderId = some c.orderId ∧ c.owner = owner

def StageSound (s : GatewaySystem) (owner : String) (key : RequestKey) : GatewayStage → Prop
  | .answering saved _ => s.Reported owner key saved
  | .checking data | .conflicted data => data.requestKey = key
  | .reserving data saved => Reserves T owner key data saved
  | .creating data saved => Reserves T owner key data saved ∧ s.Open key saved
  | .ordered data saved order =>
    Reserves T owner key data saved ∧ s.Open key saved ∧ OrderMapped key order ∧ order.privacyErasedAt = none
  | .committed _ | .threw _ => True
  | .returned saved controllerStatus => 400 ≤ controllerStatus → s.Open key saved
  | .rejecting saved => s.Open key saved

structure Sound (s : GatewaySystem) : Prop where
  once : (s.commits.map (·.key)).Nodup
  records : ∀ c ∈ s.commits, c.data.requestKey = c.key ∧ ∃ saved, s.records c.key = some saved ∧
    saved.state = .complete ∧ saved.orderId = some c.orderId ∧ saved.owner = c.owner ∧
    saved.hash = submissionHash T c.data
  completed : ∀ key saved, s.records key = some saved → saved.state = .complete →
    ∃ c ∈ s.commits, c.key = key
  orders : ∀ c ∈ s.commits, ∃ o, s.orders.find c.orderId = some o ∧
    (o.privacyErasedAt = none → OrderMapped c.key o)
  requests : ∀ x r, s.requests x = some r → StageSound T s r.owner r.key r.stage
  reserved : ∀ x r, s.requests x = some r → r.stage.creates = true → ∃ saved, s.records r.key = some saved
  alone : ∀ x y r q, s.requests x = some r → s.requests y = some q → r.key = q.key →
    r.stage.creates = true → q.stage.creates = true → x = y
  answers : ∀ a ∈ s.answers, ∀ status result order, a.reply = .result status result → result.order = some order →
    ∃ c ∈ s.commits, c.key = a.key ∧ c.orderId = order.orderId ∧ c.owner = a.owner

variable {T} {s t : GatewaySystem} {x : RequestId} {r : GatewayRequest} {key : RequestKey} {owner : String}
  {saved : RecordValue} {data : Submission}

theorem commitUnique (sound : Sound T s) {c d : GatewayCommit} (first : c ∈ s.commits) (second : d ∈ s.commits)
    (same : c.key = d.key) : c = d :=
  List.inj_on_of_nodup_map sound.once first second same

theorem readRecord (found : s.read key owner = some saved) : s.records key = some saved ∧ saved.owner = owner := by
  obtain ⟨record,mine⟩ := Option.filter_eq_some_iff.mp found
  exact ⟨record,by simpa using mine⟩

theorem readReported (sound : Sound T s) (found : s.read key owner = some saved) : s.Reported owner key saved := by
  intro complete
  obtain ⟨record,mine⟩ := readRecord found
  obtain ⟨c,committed,here⟩ := sound.completed key saved record complete
  obtain ⟨_,other,stored,_,orderId,who,_⟩ := sound.records c committed
  cases Option.some.inj (record.symm.trans (here ▸ stored))
  exact ⟨c,committed,here,orderId,who.symm.trans mine⟩

/-! ### Steps that leave the records -/

theorem Open.frame (h : s.Open key saved) (record : t.records key = s.records key)
    (commits : ∀ c ∈ t.commits, c.key = key → c ∈ s.commits) : t.Open key saved :=
  ⟨record.trans h.record,h.pending,fun c mem same => h.uncommitted c (commits c mem same) same⟩

theorem stageFrame {stage : GatewayStage} (h : StageSound T s owner key stage) (grows : ∀ c ∈ s.commits, c ∈ t.commits)
    (apart : stage.creates = true → t.records key = s.records key ∧ ∀ c ∈ t.commits, c.key = key → c ∈ s.commits) :
    StageSound T t owner key stage := by
  cases stage with
  | answering saved status =>
    intro complete
    obtain ⟨c,committed,rest⟩ := h complete
    exact ⟨c,grows c committed,rest⟩
  | creating data saved => exact ⟨h.1,h.2.frame (apart rfl).1 (apart rfl).2⟩
  | ordered data saved order => exact ⟨h.1,h.2.1.frame (apart rfl).1 (apart rfl).2,h.2.2⟩
  | returned saved status => exact fun refused => (h refused).frame (apart rfl).1 (apart rfl).2
  | rejecting saved => exact Open.frame h (apart rfl).1 (apart rfl).2
  | _ => exact h

/-- A request comes further, or is answered, without writing a record or an order. -/
structure QuietStep (T : GatewayService) (s t : GatewaySystem) (x : RequestId) : Prop where
  records : t.records = s.records
  orders : t.orders = s.orders
  commits : t.commits = s.commits
  requests : ∀ y q, t.requests y = some q → s.requests y = some q ∨ y = x ∧ StageSound T s q.owner q.key q.stage ∧
    (q.stage.creates = true → ∃ r, s.requests x = some r ∧ r.key = q.key ∧ r.stage.creates = true)
  answers : ∀ a ∈ t.answers, a ∈ s.answers ∨ ∀ status result order, a.reply = .result status result →
    result.order = some order → ∃ c ∈ s.commits, c.key = a.key ∧ c.orderId = order.orderId ∧ c.owner = a.owner

theorem QuietStep.creator (h : QuietStep T s t x) {y : RequestId} {q : GatewayRequest} (held : t.requests y = some q)
    (creates : q.stage.creates = true) : ∃ r, s.requests y = some r ∧ r.key = q.key ∧ r.stage.creates = true := by
  rcases h.requests y q held with old | ⟨rfl,_,before⟩
  · exact ⟨q,old,rfl,creates⟩
  · exact before creates

theorem quietSound (h : QuietStep T s t x) (sound : Sound T s) : Sound T t where
  once := h.commits ▸ sound.once
  records := by rw [h.commits,h.records]; exact sound.records
  completed := by rw [h.commits,h.records]; exact sound.completed
  orders := by rw [h.commits,h.orders]; exact sound.orders
  requests y q held := by
    have now : StageSound T s q.owner q.key q.stage :=
      (h.requests y q held).elim (sound.requests y q) fun new => new.2.1
    exact stageFrame now (by rw [h.commits]; exact fun _ mem => mem)
      fun _ => ⟨by rw [h.records],by rw [h.commits]; exact fun _ mem _ => mem⟩
  reserved y q held creates := by
    obtain ⟨r,before,key,creates⟩ := h.creator held creates
    obtain ⟨saved,record⟩ := sound.reserved y r before creates
    exact ⟨saved,by rw [h.records,← key,record]⟩
  alone y z q p first second same creates others := by
    obtain ⟨r,before,key,creates⟩ := h.creator first creates
    obtain ⟨r',before',key',creates'⟩ := h.creator second others
    exact sound.alone y z r r' before before' (key.trans (same.trans key'.symm)) creates creates'
  answers a mem := by
    rw [h.commits]
    exact (h.answers a mem).elim (sound.answers a) id

theorem awaitQuiet {q : GatewayRequest} (now : StageSound T s q.owner q.key q.stage)
    (creator : q.stage.creates = true → ∃ r, s.requests x = some r ∧ r.key = q.key ∧ r.stage.creates = true) :
    QuietStep T s (s.await x q) x := by
  refine ⟨rfl,rfl,rfl,fun y p held => ?_,fun _ mem => .inl mem⟩
  simp only [await,Function.update_apply] at held
  split at held
  · rename_i same
    cases held
    exact .inr ⟨same,now,creator⟩
  · exact .inl held

theorem closedQuiet {y : RequestId} {q : GatewayRequest} (held : (s.close x).requests y = some q) :
    s.requests y = some q := by
  simp only [close,Function.update_apply] at held
  split at held
  · contradiction
  · exact held

theorem closeQuiet : QuietStep T s (s.close x) x :=
  ⟨rfl,rfl,rfl,fun _ _ held => .inl (closedQuiet held),fun _ mem => .inl mem⟩

theorem replyQuiet {reply : GatewayReply} (answer : ∀ status result order, reply = .result status result →
      result.order = some order → ∃ c ∈ s.commits, c.key = key ∧ c.orderId = order.orderId ∧ c.owner = owner) :
    QuietStep T s (s.reply x owner key reply) x := by
  refine ⟨rfl,rfl,rfl,fun _ _ held => .inl (closedQuiet held),fun a mem => ?_⟩
  rcases List.mem_cons.mp mem with rfl | old
  · exact .inr answer
  · exact .inl old

theorem refusedQuiet {reply : Reply} : QuietStep T s (s.reply x owner key (.refused reply)) x := replyQuiet nofun

theorem meetQuiet {message : String} (found : s.read data.requestKey owner = some saved) (sound : Sound T s) :
    QuietStep T s (s.meet T x owner data message saved) x := by
  unfold meet
  split
  · exact refusedQuiet
  · exact awaitQuiet (readReported sound found) nofun

theorem resultOrder {orders : Table Order Order.id} {result : GatewayResult} {order : OrderSummary}
    (h : gatewayResult orders key saved = some result) (shown : result.order = some order) :
    saved.state = .complete ∧ saved.orderId = some order.orderId := by
  unfold gatewayResult at h
  split at h
  · cases h
    contradiction
  rename_i orderId named
  split at h
  · cases h
    contradiction
  rename_i complete
  split at h
  · contradiction
  rename_i o found
  split at h
  · cases h
    cases shown
    exact ⟨not_not.mp complete,named.trans (congrArg some (find_key found).symm)⟩
  · contradiction

theorem answerQuiet {status : Nat} {result : GatewayResult} (reported : s.Reported owner key saved)
    (h : gatewayResult s.orders key saved = some result) :
    QuietStep T s (s.reply x owner key (.result status result)) x := by
  refine replyQuiet fun _ _ order same shown => ?_
  cases same
  obtain ⟨complete,named⟩ := resultOrder h shown
  obtain ⟨c,committed,here,orderId,mine⟩ := reported complete
  exact ⟨c,committed,here,Option.some.inj (orderId.symm.trans named),mine⟩

/-! ### Steps that write a record -/

theorem requestsAwait {q p : GatewayRequest} {y : RequestId}
    (held : Function.update s.requests x (some q) y = some p) : y = x ∧ p = q ∨ y ≠ x ∧ s.requests y = some p := by
  simp only [Function.update_apply] at held
  split at held
  · rename_i same
    exact .inl ⟨same,(Option.some.inj held).symm⟩
  · rename_i differ
    exact .inr ⟨differ,held⟩

theorem reserveSound {q : GatewayRequest} (sound : Sound T s) (free : s.records q.key = none)
    (reserves : Reserves T q.owner q.key data saved) (stage : q.stage = .creating data saved) :
    Sound T ((s.store q.key saved).await x q) := by
  have noCommit : ∀ c ∈ s.commits, c.key ≠ q.key := by
    intro c committed same
    obtain ⟨_,other,record,_⟩ := sound.records c committed
    rw [same,free] at record
    contradiction
  have nobody {y : RequestId} {p : GatewayRequest} (held : s.requests y = some p) (creates : p.stage.creates = true) :
      p.key ≠ q.key := by
    intro same
    obtain ⟨other,record⟩ := sound.reserved y p held creates
    rw [same,free] at record
    contradiction
  have records {k : RequestKey} (differ : k ≠ q.key) : ((s.store q.key saved).await x q).records k = s.records k := by
    simp only [await,store,Function.update_of_ne differ]
  have here : ((s.store q.key saved).await x q).records q.key = some saved := by simp [await,store]
  refine ⟨sound.once,fun c committed => ?_,fun k other record complete => ?_,sound.orders,fun y p held => ?_,
    fun y p held creates => ?_,fun y z p p' first second same creates creates' => ?_,sound.answers⟩
  · rw [records (noCommit c committed)]
    exact sound.records c committed
  · by_cases same : k = q.key
    · subst same
      cases Option.some.inj (here.symm.trans record)
      rw [reserves.pending] at complete
      contradiction
    · rw [records same] at record
      exact sound.completed k other record complete
  · rcases requestsAwait held with ⟨_,rfl⟩ | ⟨_,old⟩
    · rw [stage]
      exact ⟨reserves,here,reserves.pending,noCommit⟩
    · exact stageFrame (sound.requests y p old) (fun _ mem => mem)
        fun creates => ⟨records (nobody old creates),fun _ mem _ => mem⟩
  · rcases requestsAwait held with ⟨_,rfl⟩ | ⟨_,old⟩
    · exact ⟨saved,here⟩
    · rw [records (nobody old creates)]
      exact sound.reserved y p old creates
  · rcases requestsAwait first with ⟨rfl,rfl⟩ | ⟨_,old⟩
    · rcases requestsAwait second with ⟨rfl,_⟩ | ⟨_,other⟩
      · rfl
      · exact absurd same.symm (nobody other creates')
    · rcases requestsAwait second with ⟨rfl,rfl⟩ | ⟨_,other⟩
      · exact absurd same (nobody old creates)
      · exact sound.alone y z p p' old other same creates creates'

/-- The one request that has the record to itself writes it; the others do not count on it. -/
theorem othersApart (sound : Sound T s) (mine : s.requests x = some r) (creates : r.stage.creates = true)
    {y : RequestId} {p : GatewayRequest} (held : s.requests y = some p) (others : p.stage.creates = true)
    (differ : y ≠ x) : p.key ≠ r.key :=
  fun same => differ (sound.alone y x p r held mine same others creates)

theorem commitSound {order : Order} (sound : Sound T s) (mine : s.requests x = some r)
    (stage : r.stage = .ordered data saved order) (fresh : s.orders.find order.id = none) :
    Sound T (s.commit x r data saved order) := by
  have creates : r.stage.creates = true := by rw [stage]; rfl
  obtain ⟨reserves,isOpen,mapped,live⟩ : StageSound T s r.owner r.key (.ordered data saved order) :=
    stage ▸ sound.requests x r mine
  have records {k : RequestKey} (differ : k ≠ r.key) : (s.commit x r data saved order).records k = s.records k := by
    simp only [commit,await,store,Function.update_of_ne differ]
  have here : (s.commit x r data saved order).records r.key =
      some { saved with state := .complete, orderId := some order.id } := by simp [commit,await,store]
  refine ⟨?_,fun c committed => ?_,fun k other record complete => ?_,fun c committed => ?_,fun y p held => ?_,
    fun y p held others => ?_,fun y z p p' first second same one two => ?_,fun a mem status result o same shown => ?_⟩
  · refine List.nodup_cons.mpr ⟨fun mem => ?_,sound.once⟩
    obtain ⟨c,committed,same⟩ := List.mem_map.mp mem
    exact isOpen.uncommitted c committed same
  · rcases List.mem_cons.mp committed with rfl | old
    · exact ⟨reserves.mine,_,here,rfl,rfl,reserves.owner,reserves.hash⟩
    · rw [records (isOpen.uncommitted c old)]
      exact sound.records c old
  · by_cases same : k = r.key
    · exact ⟨_,List.mem_cons_self,same.symm⟩
    · rw [records same] at record
      obtain ⟨c,committed,key⟩ := sound.completed k other record complete
      exact ⟨c,List.mem_cons_of_mem _ committed,key⟩
  · rcases List.mem_cons.mp committed with rfl | old
    · exact ⟨order,find_put_self ..,fun _ => mapped⟩
    · obtain ⟨o,found,keeps⟩ := sound.orders c old
      refine ⟨o,(find_put_other fun same => ?_).trans found,keeps⟩
      rw [same,fresh] at found
      contradiction
  · rcases requestsAwait held with ⟨_,rfl⟩ | ⟨differ,old⟩
    · trivial
    · refine stageFrame (sound.requests y p old) (fun _ mem => List.mem_cons_of_mem _ mem) fun others => ?_
      have apart := othersApart sound mine creates old others differ
      refine ⟨records apart,fun c mem same => (List.mem_cons.mp mem).resolve_left ?_⟩
      rintro rfl
      exact apart same.symm
  · rcases requestsAwait held with ⟨_,rfl⟩ | ⟨differ,old⟩
    · exact ⟨_,here⟩
    · rw [records (othersApart sound mine creates old others differ)]
      exact sound.reserved y p old others
  · rcases requestsAwait first with ⟨rfl,rfl⟩ | ⟨differ,old⟩
    · rcases requestsAwait second with ⟨rfl,_⟩ | ⟨differ,other⟩
      · rfl
      · exact absurd same.symm (othersApart sound mine creates other two differ)
    · rcases requestsAwait second with ⟨rfl,rfl⟩ | ⟨_,other⟩
      · exact absurd same (othersApart sound mine creates old one differ)
      · exact sound.alone y z p p' old other same one two
  · obtain ⟨c,committed,rest⟩ := sound.answers a mem status result o same shown
    exact ⟨c,List.mem_cons_of_mem _ committed,rest⟩

theorem rejectSound {refusal : Reply} (sound : Sound T s) (mine : s.requests x = some r)
    (stage : r.stage = .rejecting saved) :
    Sound T ((s.store r.key { saved with state := .rejected }).reply x r.owner r.key (.refused refusal)) := by
  have creates : r.stage.creates = true := by rw [stage]; rfl
  have isOpen : StageSound T s r.owner r.key (.rejecting saved) := stage ▸ sound.requests x r mine
  have records {k : RequestKey} (differ : k ≠ r.key) :
      (s.store r.key { saved with state := .rejected }).records k = s.records k := by
    simp only [store,Function.update_of_ne differ]
  have before {y : RequestId} {p : GatewayRequest}
      (held : ((s.store r.key { saved with state := .rejected }).close x).requests y = some p) :
      y ≠ x ∧ s.requests y = some p := by
    simp only [close,store,Function.update_apply] at held
    split at held
    · contradiction
    · rename_i differ
      exact ⟨differ,held⟩
  refine ⟨sound.once,fun c committed => ?_,fun k other record complete => ?_,sound.orders,fun y p held => ?_,
    fun y p held others => ?_,fun y z p p' first second => ?_,fun a mem => ?_⟩
  · have kept := sound.records c committed
    rw [← records (isOpen.uncommitted c committed)] at kept
    exact kept
  · by_cases same : k = r.key
    · subst same
      simp only [reply,close,store,Function.update_self,Option.some.injEq] at record
      rw [← record] at complete
      contradiction
    · exact sound.completed k other ((records same).symm.trans record) complete
  · obtain ⟨differ,old⟩ := before held
    exact stageFrame (sound.requests y p old) (fun _ mem => mem) fun others =>
      ⟨records (othersApart sound mine creates old others differ),fun _ mem _ => mem⟩
  · obtain ⟨differ,old⟩ := before held
    obtain ⟨other,record⟩ := sound.reserved y p old others
    exact ⟨other,(records (othersApart sound mine creates old others differ)).trans record⟩
  · exact sound.alone y z p p' (before first).2 (before second).2
  · rcases List.mem_cons.mp mem with rfl | old
    · nofun
    · exact sound.answers a old

/-! ### Orders -/

theorem ordersSound {orders : Table Order Order.id} (sound : Sound T s)
    (kept : ∀ id o, s.orders.find id = some o → ∃ o', orders.find id = some o' ∧
      ∀ key, OrderMapped key o ∨ o.privacyErasedAt ≠ none → o'.privacyErasedAt = none → OrderMapped key o') :
    Sound T { s with orders } where
  once := sound.once
  records := sound.records
  completed := sound.completed
  orders c committed := by
    obtain ⟨o,found,mapped⟩ := sound.orders c committed
    obtain ⟨o',found',carries⟩ := kept c.orderId o found
    refine ⟨o',found',carries c.key ?_⟩
    by_cases live : o.privacyErasedAt = none
    · exact .inl (mapped live)
    · exact .inr live
  requests y p held := stageFrame (sound.requests y p held) (fun _ mem => mem) fun _ => ⟨rfl,fun _ mem _ => mem⟩
  reserved := sound.reserved
  alone := sound.alone
  answers := sound.answers

theorem createOtherSound {o : Order} (sound : Sound T s) (fresh : s.orders.find o.id = none) :
    Sound T { s with orders := s.orders.put o } := by
  refine ordersSound sound fun id old found => ⟨old,(find_put_other fun same => ?_).trans found,fun key before live => ?_⟩
  · rw [same,fresh] at found
    contradiction
  · exact before.resolve_right fun erased => erased live

theorem updateOrderSound {id : OrderId} {f : Order → Order} (sound : Sound T s) (keepsId : ∀ o, (f o).id = o.id)
    (keeps : ∀ key o, OrderMapped key o → (f o).privacyErasedAt = none → OrderMapped key (f o))
    (h : s.updateOrder id f = some t) : Sound T t := by
  unfold updateOrder at h
  split at h
  · contradiction
  rename_i o found
  split at h
  · rename_i live
    cases h
    refine ordersSound sound fun k old was => ?_
    by_cases same : k = (f o).id
    · refine ⟨f o,same ▸ find_put_self ..,fun key before now => keeps key o ?_ now⟩
      rw [keepsId,find_key found] at same
      cases Option.some.inj (found.symm.trans (same ▸ was))
      exact before.resolve_right fun erased => erased live
    · exact ⟨old,(find_put_other same).trans was,fun key before now => before.resolve_right fun erased => erased now⟩
  · contradiction

/-! ### Every step -/

theorem readAfterSound (sound : Sound T s) (mine : s.requests x = some r) (h : s.readAfter x r = some t) :
    Sound T t := by
  have here := sound.requests x r mine
  have shown {after : RecordValue} {status : Nat}
      (found : (s.read r.key r.owner).filter (·.state = .complete) = some after) :
      Sound T (s.await x { r with stage := .answering after status }) :=
    quietSound (awaitQuiet (readReported sound (Option.filter_eq_some_iff.mp found).1) nofun) sound
  simp only [readAfter] at h
  split at h
  · split at h
    · rename_i found
      cases h
      exact shown found
    · cases h
      exact quietSound refusedQuiet sound
  · rename_i saved controllerStatus stage
    rw [stage] at here
    split at h
    · rename_i found
      cases h
      exact shown found
    · split at h
      · rename_i client
        cases h
        exact quietSound (awaitQuiet (here client.1) fun _ => ⟨r,mine,rfl,by rw [stage]; rfl⟩) sound
      · cases h
        exact quietSound refusedQuiet sound
  · contradiction

theorem advanceSound {next : GatewayStep} (sound : Sound T s) (mine : s.requests x = some r)
    (h : s.advance T x r next = some t) : Sound T t := by
  have here := sound.requests x r mine
  have creator (creates : r.stage.creates = true) {stage : GatewayStage} :
      ({ r with stage } : GatewayRequest).stage.creates = true →
        ∃ q, s.requests x = some q ∧ q.key = r.key ∧ q.stage.creates = true := fun _ => ⟨r,mine,rfl,creates⟩
  cases next with
  | check conditions now =>
    simp only [advance] at h
    split at h
    · rename_i data stage
      rw [stage] at here
      split at h
      · cases h
        exact quietSound refusedQuiet sound
      · cases h
        exact quietSound (awaitQuiet ⟨here,rfl,rfl,rfl⟩ nofun) sound
    · contradiction
  | reserve =>
    simp only [advance] at h
    split at h
    · rename_i data saved stage
      rw [stage] at here
      split at h
      · cases h
        exact quietSound (awaitQuiet here.mine nofun) sound
      · rename_i free
        cases h
        exact reserveSound (q := { r with stage := .creating data saved }) sound (by simpa using free) here rfl
    · contradiction
  | readConcurrent =>
    simp only [advance] at h
    split at h
    · rename_i data stage
      rw [stage] at here
      split at h
      · cases h
        exact quietSound refusedQuiet sound
      · rename_i concurrent found
        cases h
        rw [← (here : data.requestKey = r.key)] at found
        exact quietSound (meetQuiet found sound) sound
    · contradiction
  | controllerReturns status =>
    simp only [advance] at h
    split at h
    · rename_i data saved stage
      rw [stage] at here
      split at h
      · cases h
        exact quietSound (awaitQuiet (fun _ => here.2) (creator (by rw [stage]; rfl))) sound
      · contradiction
    · rename_i saved stage
      cases h
      refine quietSound (awaitQuiet (fun refused => ?_) (creator (by rw [stage]; rfl))) sound
      omega
    · contradiction
  | controllerThrows =>
    simp only [advance] at h
    split at h
    iterate 3 cases h; exact quietSound (awaitQuiet trivial nofun) sound
    contradiction
  | createOrder id input now =>
    simp only [advance] at h
    split at h
    · rename_i data saved stage
      rw [stage] at here
      split at h
      · contradiction
      · cases h
        obtain ⟨mapped,live⟩ := gatewayOrderMapped id data input now
        rw [here.1.mine] at mapped
        exact quietSound (awaitQuiet ⟨here.1,here.2,mapped,live⟩ (creator (by rw [stage]; rfl))) sound
    · contradiction
  | commit =>
    simp only [advance] at h
    split at h
    · rename_i data saved order stage
      split at h
      · contradiction
      · rename_i fresh
        cases h
        exact commitSound sound mine stage (by simpa using fresh)
    · contradiction
  | readAfter => exact readAfterSound sound mine h
  | reject =>
    simp only [advance] at h
    split at h
    · rename_i saved stage
      cases h
      exact rejectSound sound mine stage
    · contradiction
  | answer =>
    simp only [advance] at h
    split at h
    · rename_i saved status stage
      rw [stage] at here
      split at h
      · cases h
        exact quietSound refusedQuiet sound
      · rename_i result mapped
        cases h
        exact quietSound (answerQuiet here mapped) sound
    · contradiction
  | crash =>
    cases h
    exact quietSound closeQuiet sound

theorem submitSound (sound : Sound T s) : Sound T (s.submit T x owner data) := by
  unfold submit
  split
  · rename_i previous found
    exact quietSound (meetQuiet found sound) sound
  · exact quietSound (awaitQuiet rfl nofun) sound

theorem stepSound {a : GatewayAction} (sound : Sound T s) (h : step T s a = some t) : Sound T t := by
  cases a with
  | submit request owner data =>
    simp only [step] at h
    split at h
    · contradiction
    · cases h
      exact submitSound sound
  | status request owner key =>
    simp only [step] at h
    split at h
    · contradiction
    split at h
    · cases h
      exact quietSound refusedQuiet sound
    · rename_i saved found
      cases h
      exact quietSound (awaitQuiet (readReported sound found) fun creates => by cases creates) sound
  | advance request next =>
    obtain ⟨r,mine,next⟩ := Option.bind_eq_some_iff.mp h
    exact advanceSound sound mine next
  | createOther id input now =>
    simp only [step] at h
    split at h
    · contradiction
    · rename_i fresh
      cases h
      exact createOtherSound sound (Option.not_isSome_iff_eq_none.mp fresh)
  | operate id data => exact updateOrderSound (f := data.apply) sound (fun _ => rfl) (fun _ _ mapped _ => mapped) h
  | edit id existingOrder details =>
    exact updateOrderSound (f := details.apply existingOrder) sound (fun _ => rfl) (fun _ _ mapped _ => mapped) h
  | erase id now retainUntil =>
    simp only [step] at h
    split at h
    · exact updateOrderSound (f := eraseOrder now retainUntil) sound (fun _ => rfl) (fun _ _ _ live => by cases live) h
    · contradiction

theorem initialSound : Sound T initial where
  once := List.nodup_nil
  records _ mem := absurd mem List.not_mem_nil
  completed _ _ record _ := nomatch record
  orders _ mem := absurd mem List.not_mem_nil
  requests _ _ held := nomatch held
  reserved _ _ held _ := nomatch held
  alone _ _ _ _ held _ _ _ _ := nomatch held
  answers _ mem := absurd mem List.not_mem_nil

theorem reachableSound (reached : Reachable T s) : Sound T s :=
  reached.invariant initialSound fun _ _ _ sound taken => stepSound sound taken

end GatewaySystem
end SpeedySweeties
